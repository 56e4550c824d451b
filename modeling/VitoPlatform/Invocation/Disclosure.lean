import VitoPlatform.Invocation.Leakage

/-!
# Credentials that come back

`Concealable` asks for as little as it can. A credential that is part of a fixed text stands
in a result that has this text, a numeral is the key of an item when the boundary spreads an
array, and a credential that touches the marker is put together again where the marker
replaces it, provided no proper part at its front is also at its end. For each of them there
is an outcome of the adapter that brings it into the result.
-/

namespace Invocation

open Text Replacement

/-- A successful result with the given metadata and a silent error. -/
def plainResult (status : Units) (metadata : Value) : AdapterResult where
  status := status
  outputReference := .undefined
  artifactReferences := none
  evidenceReferences := none
  providerExecutionMetadata := metadata
  usageMetadata := .undefined
  error := some ⟨[], false, .undefined⟩

section Results

variable {secret : Units}

theorem conceals_of_record {entries : List (String × Value)}
    (hconceals : Conceals secret (record entries)) {key : String} {value : Value}
    (hentry : (key, value) ∈ entries) : ¬ secret.IsInfix (lit key) ∧ Conceals secret value :=
  conceals_object.mp hconceals (lit key, value)
    (List.mem_map.mpr ⟨(key, value), hentry, rfl⟩)

/-- The parts of a concealed result are concealed. -/
theorem conceals_of_resultEntries {copied : CopiedFields} {status : Value}
    {rest : List (String × Value)} (hconceals : Conceals secret (resultEntries copied status rest))
    {key : String} {value : Value} (hentry : (key, value) ∈ rest) :
    ¬ secret.IsInfix (lit key) ∧ Conceals secret value :=
  conceals_of_record hconceals (List.mem_append_right _ hentry)

theorem conceals_status {copied : CopiedFields} {status : Value} {rest : List (String × Value)}
    (hconceals : Conceals secret (resultEntries copied status rest)) :
    Conceals secret status := by
  have hentry : ("status", status) ∈ [("status", status), ("startedAt", .primitive []),
      ("completedAt", .primitive []), ("durationMs", .primitive [])] := List.mem_cons_self
  refine (conceals_object.mp hconceals (lit "status", status)
    (List.mem_map.mpr ⟨("status", status), List.mem_append_left rest ?_, rfl⟩)).2
  exact List.mem_append_right [("invocationId", _), ("organizationId", _), ("workflowRunId", _),
    ("workflowStepRunId", _), ("correlationId", _), ("capabilityCode", _), ("providerId", _),
    ("policyDecisionReference", _)] hentry

/-- The fields of the result of `plainResult` that differ between the paths, from the
redacted metadata and network calls. -/
def plainEntries (secret status : Units) (metadata : List (Units × Value))
    (calls : List Value) : List (String × Value) :=
  [("outputReference", .undefined), ("artifactReferences", .array []),
    ("evidenceReferences", .array []),
    ("providerExecutionMetadata",
      .object (metadata.filter fun entry => entry.1 != lit "sideEffects")),
    ("normalizedError", errorEntries (redactSecretMaterial [] [secret]) .undefined
      (.string status) false .undefined),
    ("sideEffectSummary", sideEffectEntries [] [] [] [] calls []),
    ("usageMetadata", .undefined)]

theorem metadata_mem_plainEntries (secret status : Units) (metadata : List (Units × Value))
    (calls : List Value) :
    ("providerExecutionMetadata",
      Value.object (metadata.filter fun entry => entry.1 != lit "sideEffects")) ∈
        plainEntries secret status metadata calls :=
  List.mem_cons_of_mem _ (List.mem_cons_of_mem _ (List.mem_cons_of_mem _ List.mem_cons_self))

theorem error_mem_plainEntries (secret status : Units) (metadata : List (Units × Value))
    (calls : List Value) :
    ("normalizedError", errorEntries (redactSecretMaterial [] [secret]) .undefined
      (.string status) false .undefined) ∈ plainEntries secret status metadata calls :=
  List.mem_cons_of_mem _ (List.mem_cons_of_mem _ (List.mem_cons_of_mem _
    (List.mem_cons_of_mem _ List.mem_cons_self)))

/-- Where the reported calls stand in the summary of the side effects. -/
theorem networkCalls_mem_sideEffectEntries (calls : List Value) :
    ("networkCalls", Value.array calls) ∈ [("filesCreated", Value.array []),
      ("filesModified", .array []), ("filesDeleted", .array []), ("commandsExecuted", .array []),
      ("networkCalls", .array calls), ("artifactsCreated", stringValues [])] :=
  List.mem_cons_of_mem _ (List.mem_cons_of_mem _ (List.mem_cons_of_mem _
    (List.mem_cons_of_mem _ List.mem_cons_self)))

theorem sideEffects_mem_plainEntries (secret status : Units) (metadata : List (Units × Value))
    (calls : List Value) :
    ("sideEffectSummary", sideEffectEntries [] [] [] [] calls []) ∈
      plainEntries secret status metadata calls :=
  List.mem_cons_of_mem _ (List.mem_cons_of_mem _ (List.mem_cons_of_mem _
    (List.mem_cons_of_mem _ (List.mem_cons_of_mem _ List.mem_cons_self))))

/-- Metadata without lists of files and commands passes through. -/
theorem resultOfOutcome_plain (copied : CopiedFields) (hne : secret ≠ []) {status : Units}
    (hstatus : isTerminalStatus status = true) {raw : Value} {metadata : List (Units × Value)}
    (hmetadata : redactEntries [secret] [] (sanitizeProviderExecutionMetadata raw) = metadata)
    (hfiles : ∀ key ∈ ["filesCreated", "filesModified", "filesDeleted", "commandsExecuted"],
      ((Value.object metadata).get "sideEffects").get key = .undefined)
    {calls : List Value} (hcalls : redactNetworkCalls
      (((Value.object metadata).get "sideEffects").get "networkCalls") [secret] = some calls) :
    resultOfOutcome copied (some secret) (.returned (plainResult status raw)) =
      some (resultEntries copied (.string status) (plainEntries secret status metadata calls)) := by
  have hsecrets : ((some secret).filter (· ≠ [])).toList = [secret] := by simp [hne]
  simp only [List.forall_mem_cons, List.not_mem_nil, false_implies, implies_true,
    and_true] at hfiles
  obtain ⟨hcreated, hmodified, hdeleted, hcommands⟩ := hfiles
  have hnone : sanitizeSideEffectTextList .undefined [secret] = some [] := rfl
  unfold resultOfOutcome
  rw [hsecrets]
  show (if isTerminalStatus status then _ else _) = _
  rw [if_pos hstatus, normalizedResult]
  simp only [plainResult, hmetadata, hcreated, hmodified, hdeleted, hcommands, hcalls, hnone]
  rfl

/-- Without side effects there is nothing to spread. -/
theorem resultOfOutcome_noSideEffects (copied : CopiedFields) (hne : secret ≠ [])
    {status : Units} (hstatus : isTerminalStatus status = true) {raw : Value}
    {metadata : List (Units × Value)}
    (hmetadata : redactEntries [secret] [] (sanitizeProviderExecutionMetadata raw) = metadata)
    (hnone : (Value.object metadata).get "sideEffects" = .undefined) :
    resultOfOutcome copied (some secret) (.returned (plainResult status raw)) =
      some (resultEntries copied (.string status) (plainEntries secret status metadata [])) := by
  apply resultOfOutcome_plain copied hne hstatus hmetadata
  · rw [hnone]
    exact fun _ _ => rfl
  · rw [hnone]
    rfl

end Results

/-! ## The three ways back -/

/-- The outcome brings the credential into the result. -/
def Brings (secret : Units) (outcome : AdapterOutcome) : Prop :=
  ∀ copied, ∃ result, resultOfOutcome copied (some secret) outcome = some result ∧
    ¬ Conceals secret result

section Brings

variable {secret : Units}

/-- Two texts that share a position share a character. -/
theorem exists_common_of_touches {marker : Units} (hne : secret ≠ []) (hmarker : marker ≠ [])
    (h : Touches secret marker) : ∃ unit ∈ secret, unit ∈ marker := by
  obtain hin | hin | ⟨v, hv, hs, hm⟩ | ⟨v, hv, hs, hm⟩ := h
  · obtain ⟨unit, hunit⟩ := List.exists_mem_of_ne_nil _ hne
    exact ⟨unit, hunit, hin.subset hunit⟩
  · obtain ⟨unit, hunit⟩ := List.exists_mem_of_ne_nil _ hmarker
    exact ⟨unit, hin.subset hunit, hunit⟩
  · obtain ⟨unit, hunit⟩ := List.exists_mem_of_ne_nil _ hv
    exact ⟨unit, hs.subset hunit, hm.subset hunit⟩
  · obtain ⟨unit, hunit⟩ := List.exists_mem_of_ne_nil _ hv
    exact ⟨unit, hs.subset hunit, hm.subset hunit⟩

/-- A credential without a border that touches the marker comes back as a key. -/
theorem exists_brings_of_touches (hword : Unbordered secret) (hne : secret ≠ [])
    (h : Touches secret redacted) : ∃ outcome, Brings secret outcome := by
  obtain ⟨a, b, hsplit, hback⟩ := exists_infix_of_touches hword hne (by decide) h
  obtain ⟨unit, hunit, hmarked⟩ := exists_common_of_touches hne (by decide) h
  have hkey : redactExactSecretValues (a ++ (secret ++ b)) [secret] = a ++ (redacted ++ b) := by
    rw [redactExactSecretValues, redactExactSecretValues, if_pos, hsplit,
      List.intercalate_cons_cons, List.intercalate_singleton, List.append_assoc]
    refine ⟨hne, any_tails_iff.mpr ⟨a, b, ?_⟩⟩
    rw [List.append_assoc]
  have hraw : a ++ (secret ++ b) ≠ lit "__proto__" := by
    intro heq
    have hin : unit ∈ lit "__proto__" := by
      rw [← heq]
      simp [hunit]
    have apart : redacted.all (fun u => !(lit "__proto__").contains u) = true := by decide
    simpa [hin] using List.all_eq_true.mp apart unit hmarked
  have hother : ∀ text, text = "__proto__" ∨ text = "sideEffects" →
      a ++ (redacted ++ b) ≠ lit text := by
    intro text htext heq
    have hin : (91 : UInt16) ∈ lit text := by
      rw [← heq]
      simp [show (91 : UInt16) ∈ redacted by decide]
    obtain rfl | rfl := htext
    · exact absurd hin (by decide)
    · exact absurd hin (by decide)
  have hsanitized : ∃ value, sanitizeProviderExecutionMetadata
      (.object [(a ++ (secret ++ b), .null)]) = [(a ++ (secret ++ b), value)] := by
    refine ⟨sanitizeValue (a ++ (secret ++ b)) .null, ?_⟩
    rw [sanitizeProviderExecutionMetadata, sanitizeEntries, if_neg hraw, sanitizeEntries]
  obtain ⟨value, hsanitized⟩ := hsanitized
  have hmetadata : redactEntries [secret] [] (sanitizeProviderExecutionMetadata
      (.object [(a ++ (secret ++ b), .null)])) =
      [(a ++ (redacted ++ b), redactTrustedSecretsDeep [secret] value)] := by
    rw [hsanitized, redactEntries, hkey]
    simp [hother "__proto__" (.inl rfl), redactEntries]
  refine ⟨.returned (plainResult (lit "SUCCEEDED") (.object [(a ++ (secret ++ b), .null)])),
    fun copied => ⟨_, resultOfOutcome_noSideEffects copied hne (by decide) hmetadata ?_, ?_⟩⟩
  · simp [Value.get, hother "sideEffects" (.inr rfl)]
  · intro hconceals
    have hpart := (conceals_of_resultEntries hconceals (metadata_mem_plainEntries _ _ _ _)).2
    refine (conceals_object.mp hpart
      (a ++ (redacted ++ b), redactTrustedSecretsDeep [secret] value) ?_).1 hback
    simp [hother "sideEffects" (.inr rfl)]

/-- A key that the secret does not occur in stays, with what is below it. -/
theorem redactEntries_single {key : String} {value : Value}
    (hkey : ¬ secret.IsInfix (lit key)) (hproto : lit key ≠ lit "__proto__") :
    redactEntries [secret] [] [(lit key, value)] =
      [(lit key, redactTrustedSecretsDeep [secret] value)] := by
  have hsame : redactExactSecretValues (lit key) [secret] = lit key := by
    rw [redactExactSecretValues, redactExactSecretValues, if_neg]
    rintro ⟨-, hin⟩
    exact hkey (any_tails_iff.mp hin)
  rw [redactEntries, hsame]
  simp [hproto, redactEntries]

theorem get_single {key : String} {value : Value} :
    (Value.object [(lit key, value)]).get key = value := by
  simp [Value.get]

theorem get_single_ne {key other : String} {value : Value} (hne : lit key ≠ lit other) :
    (Value.object [(lit key, value)]).get other = .undefined := by
  simp [Value.get, hne]

/-- Metadata that reports the given network calls. -/
def callsMetadata (calls : List Value) : Value :=
  .object [(lit "sideEffects", .object [(lit "networkCalls", .array calls)])]

/-- A credential outside of the two keys lets network calls through to the result. -/
theorem resultOfOutcome_calls (copied : CopiedFields) (hne : secret ≠ [])
    (heffects : ¬ secret.IsInfix (lit "sideEffects"))
    (hnetwork : ¬ secret.IsInfix (lit "networkCalls")) {raw calls : List Value}
    (hcalls : (redactItems [secret] (sanitizeItems (lit "networkCalls") raw)).mapM
      (redactNetworkCall [secret]) = some calls) :
    ∃ metadata, resultOfOutcome copied (some secret)
        (.returned (plainResult (lit "SUCCEEDED") (callsMetadata raw))) =
      some (resultEntries copied (.string (lit "SUCCEEDED"))
        (plainEntries secret (lit "SUCCEEDED") metadata calls)) := by
  have hsanitized : sanitizeProviderExecutionMetadata (callsMetadata raw) =
      [(lit "sideEffects", .object
        [(lit "networkCalls", .array (sanitizeItems (lit "networkCalls") raw))])] := by
    have hplain : isSecretKey (lit "sideEffects") = false ∧
        isSecretKey (lit "networkCalls") = false := by decide +kernel
    rw [callsMetadata, sanitizeProviderExecutionMetadata, sanitizeEntries, if_neg (by decide),
      sanitizeValue, hplain.1, sanitizeEntries]
    simp only [Bool.false_eq_true, if_false]
    rw [sanitizeEntries, if_neg (by decide), sanitizeValue, hplain.2, sanitizeEntries]
    simp
  have hmetadata : redactEntries [secret] []
      (sanitizeProviderExecutionMetadata (callsMetadata raw)) =
      [(lit "sideEffects", .object [(lit "networkCalls", .array
        (redactItems [secret] (sanitizeItems (lit "networkCalls") raw)))])] := by
    rw [hsanitized, redactEntries_single heffects (by decide), redactTrustedSecretsDeep,
      redactEntries_single hnetwork (by decide), redactTrustedSecretsDeep]
  refine ⟨_, resultOfOutcome_plain copied hne (by decide) hmetadata ?_ ?_⟩
  · intro key hkey
    have hother : ∀ key ∈ ["filesCreated", "filesModified", "filesDeleted", "commandsExecuted"],
        lit "networkCalls" ≠ lit key := by decide
    rw [get_single, get_single_ne (hother key hkey)]
  · rw [get_single, get_single]
    unfold redactNetworkCalls
    simp only [Value.truthy, Bool.not_true, Bool.false_eq_true, if_false]
    exact hcalls

/-- Every non-empty sequence of digits is part of a numeral. -/
theorem exists_index (hdigits : ∀ unit ∈ secret, isDigit unit = true) :
    ∃ n > 0, units (Nat.toDigits 10 n) = 49 :: secret := by
  induction secret using List.reverseRecOn with
  | nil => exact ⟨1, by decide, by decide⟩
  | append_singleton digits unit ih =>
      obtain ⟨n, hn, hunits⟩ := ih fun u hu => hdigits u (List.mem_append_left _ hu)
      have hdigit := hdigits unit (by simp)
      rw [isDigit, between, Bool.and_eq_true, decide_eq_true_eq, decide_eq_true_eq] at hdigit
      have hlow : 48 ≤ unit.toNat := hdigit.1
      have hhigh : unit.toNat ≤ 57 := hdigit.2
      have hsmall : unit.toNat - 48 < 10 := by
        clear hdigit
        omega
      refine ⟨10 * n + (unit.toNat - 48), by omega, ?_⟩
      rw [← Nat.toDigits_append_toDigits (by decide) hn hsmall,
        Nat.toDigits_of_lt_base hsmall, units, List.flatMap_append]
      have hlast : [(unit.toNat - 48).digitChar].flatMap unitsOfChar = [unit] := by
        have hchar := Nat.toNat_digitChar_of_lt_ten hsmall
        rw [List.flatMap_singleton, unitsOfChar]
        simp only [hchar]
        clear hdigit
        rw [if_pos (by omega), show 48 + (unit.toNat - 48) = unit.toNat by omega,
          UInt16.ofNat_toNat]
      rw [hlast, ← units, hunits]
      rfl

theorem sanitizeItems_replicate (key : Units) (n : Nat) :
    sanitizeItems key (List.replicate n .null) = List.replicate n (sanitizeValue key .null) := by
  induction n with
  | zero => rfl
  | succ n ih => rw [List.replicate_succ, sanitizeItems, ih, List.replicate_succ]

theorem redactItems_replicate (secrets : List Units) (n : Nat) :
    redactItems secrets (List.replicate n .null) = List.replicate n .null := by
  induction n with
  | zero => rfl
  | succ n ih =>
      rw [List.replicate_succ, redactItems, ih, redactTrustedSecretsDeep]

/-- An entry under another key stays. -/
theorem mem_setEntry {key : Units} {value : Value} {entries : List (Units × Value)}
    {entry : Units × Value} (hentry : entry ∈ entries) (hkey : entry.1 ≠ key) :
    entry ∈ setEntry key value entries := by
  rw [setEntry]
  split
  · exact List.mem_map.mpr ⟨entry, hentry, by simp [hkey]⟩
  · exact List.mem_append_left _ hentry

/-- A numeral comes back as the key of an item of a reported call. -/
theorem exists_brings_of_digits (hne : secret ≠ [])
    (hdigits : ∀ unit ∈ secret, isDigit unit = true) : ∃ outcome, Brings secret outcome := by
  obtain ⟨n, -, hindex⟩ := exists_index hdigits
  have hletters : ∀ text : String, (lit text).any isDigit = false →
      ¬ secret.IsInfix (lit text) := by
    intro text htext hin
    obtain ⟨unit, hunit⟩ := List.exists_mem_of_ne_nil _ hne
    rw [List.any_eq_true.mpr ⟨unit, hin.subset hunit, hdigits unit hunit⟩] at htext
    cases htext
  have hplain : isSecretKey (lit "networkCalls") = false := by decide +kernel
  have hitems : redactItems [secret] (sanitizeItems (lit "networkCalls")
      [.array (List.replicate (n + 1) .null)]) = [.array (List.replicate (n + 1) .null)] := by
    have hnull : sanitizeValue (lit "networkCalls") .null = .null := by
      rw [sanitizeValue, hplain]
      rfl
    rw [sanitizeItems, sanitizeItems, sanitizeValue, hplain]
    simp only [Bool.false_eq_true, if_false]
    rw [sanitizeItems_replicate, hnull, redactItems, redactTrustedSecretsDeep,
      redactItems_replicate, redactItems]
  refine ⟨.returned (plainResult (lit "SUCCEEDED")
    (callsMetadata [.array (List.replicate (n + 1) .null)])), fun copied => ?_⟩
  have hcalls : (redactItems [secret] (sanitizeItems (lit "networkCalls")
      [.array (List.replicate (n + 1) .null)])).mapM (redactNetworkCall [secret]) =
      some [.object (setEntry (lit "destination") (.string (redactSecretMaterial [] [secret]))
        (indexed (List.replicate (n + 1) .null)))] := by
    rw [hitems]
    rfl
  obtain ⟨metadata, hresult⟩ := resultOfOutcome_calls copied hne
    (hletters "sideEffects" (by decide)) (hletters "networkCalls" (by decide)) hcalls
  refine ⟨_, hresult, fun hconceals => ?_⟩
  have heffects :=
    (conceals_of_resultEntries hconceals (sideEffects_mem_plainEntries _ _ _ _)).2
  have hlist := (conceals_of_record heffects (networkCalls_mem_sideEffectEntries _)).2
  have hcall := conceals_object.mp (conceals_array.mp hlist _ List.mem_cons_self)
  have hindexed : (units (Nat.toDigits 10 n), Value.null) ∈
      indexed (List.replicate (n + 1) .null) := by
    refine List.mem_map.mpr ⟨(.null, n), ?_, rfl⟩
    rw [List.mem_zipIdx_iff_getElem?]
    simp
  refine (hcall _ (mem_setEntry hindexed ?_)).1 ?_
  · rw [hindex]
    exact fun heq => absurd (List.head_eq_of_cons_eq heq) (by decide)
  · rw [hindex]
    exact (List.suffix_cons _ _).isInfix

/-- The keys of a concealed record are concealed. -/
theorem conceals_keys {entries : List (String × Value)}
    (hconceals : Conceals secret (record entries)) {key : String}
    (hkey : key ∈ entries.map (·.1)) : ¬ secret.IsInfix (lit key) := by
  obtain ⟨⟨key, value⟩, hentry, rfl⟩ := List.mem_map.mp hkey
  exact (conceals_of_record hconceals hentry).1

/-- Where a fixed text other than `destination` stands: it is a key of the result, of its
error or of its side effects, or the reason of the error, or the status. -/
theorem exists_brings_of_shown (hne : secret ≠ []) {text : String} (htext : text ∈ fixedTexts)
    (hother : text ≠ "destination") (hin : secret.IsInfix (lit text)) :
    ∃ outcome, Brings secret outcome := by
  have places : ∀ text ∈ fixedTexts, text ≠ "destination" →
      text ∈ ["invocationId", "organizationId", "workflowRunId", "workflowStepRunId",
        "correlationId", "capabilityCode", "providerId", "policyDecisionReference", "status",
        "startedAt", "completedAt", "durationMs", "outputReference", "artifactReferences",
        "evidenceReferences", "providerExecutionMetadata", "normalizedError",
        "sideEffectSummary", "usageMetadata"] ∨
      text ∈ ["reason", "message", "executionOutcome", "agentExecutionStatus", "retryable",
        "providerMetadata"] ∨
      text ∈ ["filesCreated", "filesModified", "filesDeleted", "commandsExecuted",
        "networkCalls", "artifactsCreated"] ∨
      text = "EXECUTION_FAILED" ∨ isTerminalStatus (lit text) = true := by decide
  have shown : ∀ status, isTerminalStatus status = true →
      (∀ rest, plainEntries secret status [] [] = rest →
        ∀ copied, ¬ Conceals secret (resultEntries copied (.string status) rest)) →
      ∃ outcome, Brings secret outcome := fun status hstatus hshown =>
    ⟨.returned (plainResult status .undefined), fun copied =>
      ⟨_, resultOfOutcome_noSideEffects copied hne hstatus rfl rfl, hshown _ rfl copied⟩⟩
  obtain hkey | hkey | hkey | rfl | hstatus := places text htext hother
  · refine shown (lit "SUCCEEDED") (by decide) ?_
    rintro _ rfl copied hconceals
    exact conceals_keys hconceals hkey hin
  · refine shown (lit "SUCCEEDED") (by decide) ?_
    rintro _ rfl copied hconceals
    exact conceals_keys (conceals_of_resultEntries hconceals (error_mem_plainEntries _ _ _ _)).2
      hkey hin
  · refine shown (lit "SUCCEEDED") (by decide) ?_
    rintro _ rfl copied hconceals
    exact conceals_keys
      (conceals_of_resultEntries hconceals (sideEffects_mem_plainEntries _ _ _ _)).2 hkey hin
  · refine shown (lit "SUCCEEDED") (by decide) ?_
    rintro _ rfl copied hconceals
    have herror := (conceals_of_resultEntries hconceals (error_mem_plainEntries _ _ _ _)).2
    exact conceals_string.mp (conceals_of_record herror List.mem_cons_self).2 hin
  · refine shown (lit text) hstatus ?_
    rintro _ rfl copied hconceals
    exact conceals_string.mp (conceals_status hconceals) hin

/-- A part of a fixed text stands in some result. -/
theorem exists_brings_of_fixed (hne : secret ≠ []) {text : String} (htext : text ∈ fixedTexts)
    (hin : secret.IsInfix (lit text)) : ∃ outcome, Brings secret outcome := by
  by_cases hother : text = "destination"
  · -- What is part of `destination` and of a key on the way to it is part of another text.
    have parts : ∀ part ∈ (lit "destination").tails.flatMap List.inits, part ≠ [] →
        (lit "sideEffects").tails.any (part.isPrefixOf ·) ||
          (lit "networkCalls").tails.any (part.isPrefixOf ·) →
        ∃ t ∈ fixedTexts, t ≠ "destination" ∧ (lit t).tails.any (part.isPrefixOf ·) = true := by
      decide +kernel
    subst hother
    have hpart : secret ∈ (lit "destination").tails.flatMap List.inits := by
      obtain ⟨a, b, hab⟩ := hin
      refine List.mem_flatMap.mpr ⟨secret ++ b, (List.mem_tails _ _).mpr ⟨a, ?_⟩,
        (List.mem_inits _ _).mpr ⟨b, rfl⟩⟩
      rw [← hab, List.append_assoc]
    by_cases hpath : (lit "sideEffects").tails.any (secret.isPrefixOf ·) ||
        (lit "networkCalls").tails.any (secret.isPrefixOf ·)
    · obtain ⟨t, ht, hne', hint⟩ := parts secret hpart hne hpath
      exact exists_brings_of_shown hne ht hne' (any_tails_iff.mp hint)
    · rw [Bool.or_eq_true, any_tails_iff, any_tails_iff, not_or] at hpath
      refine ⟨.returned (plainResult (lit "SUCCEEDED") (callsMetadata [.object []])),
        fun copied => ?_⟩
      have hplain : isSecretKey (lit "networkCalls") = false := by decide +kernel
      have hcalls : (redactItems [secret] (sanitizeItems (lit "networkCalls")
          [.object []])).mapM (redactNetworkCall [secret]) =
          some [.object [(lit "destination", .string (redactSecretMaterial [] [secret]))]] := by
        rw [sanitizeItems, sanitizeItems, sanitizeValue, hplain]
        rfl
      obtain ⟨metadata, hresult⟩ := resultOfOutcome_calls copied hne hpath.1 hpath.2 hcalls
      refine ⟨_, hresult, fun hconceals => ?_⟩
      have heffects :=
        (conceals_of_resultEntries hconceals (sideEffects_mem_plainEntries _ _ _ _)).2
      have hlist := (conceals_of_record heffects (networkCalls_mem_sideEffectEntries _)).2
      have hcall := conceals_object.mp (conceals_array.mp hlist _ List.mem_cons_self)
      exact (hcall _ List.mem_cons_self).1 hin
  · exact exists_brings_of_shown hne htext hother hin

end Brings

/-- A concealable credential of an invocation is in no text of the result, whatever the
adapter does, provided that it is in no field copied from the request, the provider or the
decision. Conversely, when the front of a credential is not its end and the ellipsis is not
its last character, it is concealed from every outcome only if it is concealable. -/
theorem resultOfOutcome_credential {secret : Units} :
    (Concealable secret → ∀ copied outcome result,
      (∀ text ∈ copied.texts, ¬ secret.IsInfix text) →
      resultOfOutcome copied (some secret) outcome = some result → Conceals secret result) ∧
    (secret ≠ [] → Unbordered secret → secret.getLast? ≠ some 0x2026 → ¬ Concealable secret →
      ∃ outcome, ∀ copied, ∃ result,
        resultOfOutcome copied (some secret) outcome = some result ∧
          ¬ Conceals secret result) := by
  constructor
  · intro h copied outcome result hcopied hresult
    exact resultOfOutcome_conceals h hcopied hresult
  · intro hne hword hlast h
    by_cases happart : Touches secret redacted
    · exact exists_brings_of_touches hword hne happart
    by_cases hfixed : ∀ text ∈ fixedTexts, ¬ secret.IsInfix (lit text)
    · by_cases hdigits : ∀ unit ∈ secret, isDigit unit = true
      · exact exists_brings_of_digits hne hdigits
      · exact absurd ⟨hne, happart, hfixed, hlast, hdigits⟩ h
    · simp only [not_forall, not_not] at hfixed
      obtain ⟨text, htext, hin⟩ := hfixed
      exact exists_brings_of_fixed hne htext hin

def sampleFields : CopiedFields where
  invocationId := lit "i1"
  organizationId := lit "o1"
  workflowRunId := lit "r1"
  workflowStepRunId := lit "w1"
  correlationId := lit "c1"
  capabilityCode := lit "BUILD"
  providerId := lit "p1"
  policyDecisionReference := lit "eo-01.4-v1-2026-01-01T00:00:00.000Z"

/-- A credential that an adapter throws as its message is concealed, and one that ends as the
marker begins comes back. -/
theorem resultOfOutcome_credential_sample :
    Conceals (lit "tok-4711") (runtimeFailureResult sampleFields .failed
        (lit "EXECUTION_FAILED: Adapter execution failed: " ++ limitText (lit "bad tok-4711"))
        .undefined [lit "tok-4711"]) ∧
      ∃ outcome, ∀ copied, ∃ result,
        resultOfOutcome copied (some (lit "key[")) outcome = some result ∧
          ¬ Conceals (lit "key[") result := by
  constructor
  · refine resultOfOutcome_credential.1 ⟨by decide, by decide, by decide, by decide, ?_⟩
      sampleFields (.threw (lit "bad tok-4711")) _ (by decide) rfl
    exact fun hdigits => absurd (hdigits 116 (by decide)) (by decide)
  · refine resultOfOutcome_credential.2 (by decide) ?_ (by decide) ?_
    · intro v hv hne hfront hend
      have fronts : ∀ v ∈ (lit "key[").inits, v ≠ [] → v ≠ lit "key[" →
          v ∉ (lit "key[").tails := by decide
      exact fronts v ((List.mem_inits _ _).mpr hfront) hv hne ((List.mem_tails _ _).mpr hend)
    · intro h
      exact h.apart (by decide)

/-- A note that repeats the first three characters of the credential before it gives the
credential back. -/
theorem resultOfOutcome_discloses :
    (∀ text ∈ sampleFields.texts, ¬ (lit "key[").IsInfix text) ∧
      ((resultOfOutcome sampleFields (some (lit "key[")) (.returned (plainResult
        (lit "SUCCEEDED") (.object [(lit "note", .string (lit "keykey["))])))).any
          fun result => result.texts.any fun text => text.tails.any
            ((lit "key[").isPrefixOf ·)) = true := by
  decide +kernel

end Invocation
