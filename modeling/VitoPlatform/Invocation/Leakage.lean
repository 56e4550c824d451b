import VitoPlatform.Invocation.Redaction

/-!
# What the leakage boundary conceals

The credential of an invocation must not occur in any text of its result, whatever the
adapter returns or throws. The boundary replaces it everywhere and then puts fixed texts in:
the marker, the names of the fields, an ellipsis, the keys of an array. A credential that
shares no position with the marker, is part of no fixed text, does not end in an ellipsis and
is no numeral cannot come back through them. That is `Concealable`, and for every outcome of
the adapter it is enough.
-/

namespace Invocation

open Text Replacement

mutual

/-- Every string and every key in a value. -/
def Value.texts : Value → List Units
  | .string text => [text]
  | .array items => Value.textsOfItems items
  | .object entries => Value.textsOfEntries entries
  | .undefined | .null | .primitive _ => []

def Value.textsOfItems : List Value → List Units
  | [] => []
  | value :: rest => value.texts ++ Value.textsOfItems rest

def Value.textsOfEntries : List (Units × Value) → List Units
  | [] => []
  | (key, value) :: rest => key :: value.texts ++ Value.textsOfEntries rest

end

/-- The secret occurs in no text of the value. -/
def Conceals (secret : Units) (value : Value) : Prop :=
  ∀ text ∈ value.texts, ¬ secret.IsInfix text

/-- The fixed texts of results: the names of the fields and the members of enumerations. -/
def fixedTexts : List String :=
  ["invocationId", "organizationId", "workflowRunId", "workflowStepRunId", "correlationId",
    "capabilityCode", "providerId", "policyDecisionReference", "status", "startedAt",
    "completedAt", "durationMs", "outputReference", "artifactReferences", "evidenceReferences",
    "providerExecutionMetadata", "normalizedError", "sideEffectSummary", "usageMetadata",
    "reason", "message", "executionOutcome", "agentExecutionStatus", "retryable",
    "providerMetadata", "filesCreated", "filesModified", "filesDeleted", "commandsExecuted",
    "networkCalls", "artifactsCreated", "destination", "EXECUTION_FAILED", "SUCCEEDED",
    "FAILED", "TIMED_OUT", "CANCELLED", "QUOTA_BLOCKED"]

/-- No text that the boundary puts into a result can bring the secret back. -/
structure Concealable (secret : Units) : Prop where
  nonempty : secret ≠ []
  apart : ¬ Touches secret redacted
  notFixed : ∀ text ∈ fixedTexts, ¬ secret.IsInfix (lit text)
  notEllipsis : secret.getLast? ≠ some 0x2026
  notNumeral : ¬ ∀ unit ∈ secret, isDigit unit = true

section Conceals

variable {secret : Units}

theorem conceals_undefined : Conceals secret .undefined := by simp [Conceals, Value.texts]

theorem conceals_primitive {text : Units} : Conceals secret (.primitive text) := by
  simp [Conceals, Value.texts]

theorem conceals_string {text : Units} :
    Conceals secret (.string text) ↔ ¬ secret.IsInfix text := by
  simp [Conceals, Value.texts]

theorem conceals_array {items : List Value} :
    Conceals secret (.array items) ↔ ∀ value ∈ items, Conceals secret value := by
  rw [Conceals, Value.texts]
  induction items with
  | nil => simp [Value.textsOfItems]
  | cons value rest ih =>
      rw [Value.textsOfItems, List.forall_mem_append, ih, List.forall_mem_cons, Conceals]

theorem conceals_object {entries : List (Units × Value)} :
    Conceals secret (.object entries) ↔
      ∀ entry ∈ entries, ¬ secret.IsInfix entry.1 ∧ Conceals secret entry.2 := by
  rw [Conceals, Value.texts]
  induction entries with
  | nil => simp [Value.textsOfEntries]
  | cons entry rest ih =>
      rw [Value.textsOfEntries, List.cons_append, List.forall_mem_cons, List.forall_mem_append,
        ih, List.forall_mem_cons, Conceals, and_assoc]

theorem conceals_get {value : Value} (key : String) (hvalue : Conceals secret value) :
    Conceals secret (value.get key) := by
  cases value with
  | object entries =>
      rw [Value.get]
      cases hfind : entries.find? (·.1 == lit key) with
      | none => exact conceals_undefined
      | some entry => exact (conceals_object.mp hvalue entry (List.mem_of_find?_eq_some hfind)).2
  | _ => exact conceals_undefined

theorem conceals_optionalString {text : Option Units}
    (htext : ∀ t ∈ text, ¬ secret.IsInfix t) : Conceals secret (optionalString text) := by
  cases text with
  | none => exact conceals_undefined
  | some text => exact conceals_string.mpr (htext text rfl)

/-- What `mapM` returns conceals the secret when each of its elements does. -/
theorem conceals_mapM {f : Value → Option Value} {values : List Value} :
    ∀ {results : List Value},
      (∀ value ∈ values, ∀ result, f value = some result → Conceals secret result) →
      values.mapM f = some results → ∀ result ∈ results, Conceals secret result := by
  induction values with
  | nil =>
      rintro _ - ⟨⟩
      simp
  | cons value values ih =>
      intro results hf hresults
      rw [List.mapM_cons] at hresults
      obtain ⟨first, hfirst, hresults⟩ := Option.bind_eq_some_iff.mp hresults
      obtain ⟨rest, hrest, hresults⟩ := Option.bind_eq_some_iff.mp hresults
      cases hresults
      rw [List.forall_mem_cons]
      exact ⟨hf value List.mem_cons_self first hfirst,
        ih (fun v hv => hf v (List.mem_cons_of_mem _ hv)) hrest⟩

end Conceals

/-- A key of an array is a numeral. -/
theorem isDigit_of_mem_index (i : Nat) {unit : UInt16}
    (hunit : unit ∈ units (Nat.toDigits 10 i)) : isDigit unit = true := by
  obtain ⟨c, hc, hunit⟩ := List.mem_flatMap.mp hunit
  have hdigit : c.isDigit = true := Nat.isDigit_of_mem_toDigits (by decide) (by decide) hc
  rw [Char.isDigit, Bool.and_eq_true, decide_eq_true_eq, decide_eq_true_eq] at hdigit
  have hlow : 48 ≤ c.toNat := UInt32.le_iff_toNat_le.mp hdigit.1
  have hhigh : c.toNat ≤ 57 := UInt32.le_iff_toNat_le.mp hdigit.2
  have hone : unitsOfChar c = [UInt16.ofNat c.toNat] := if_pos (by omega)
  rw [hone, List.mem_singleton] at hunit
  have hvalue : unit.toNat = c.toNat := by
    rw [hunit, UInt16.toNat_ofNat_of_lt']
    show c.toNat < 65536
    omega
  rw [isDigit, between, Bool.and_eq_true, decide_eq_true_eq, decide_eq_true_eq, hvalue]
  exact ⟨hlow, hhigh⟩

section Redaction

variable {secret : Units} (h : Concealable secret)

/-! ## The redactions -/

include h in
theorem not_infix_redactExactSecretValues (text : Units) :
    ¬ secret.IsInfix (redactExactSecretValues text [secret]) := by
  rw [redactExactSecretValues, redactExactSecretValues]
  split
  · exact not_infix_join h.nonempty h.apart fun piece hpiece =>
      not_infix_of_mem_split h.nonempty hpiece
  · rename_i hno
    intro hin
    exact hno ⟨h.nonempty, any_tails_iff.mpr hin⟩

include h in
theorem not_infix_limitText {text : Units} (htext : ¬ secret.IsInfix text) :
    ¬ secret.IsInfix (limitText text) := by
  rw [limitText]
  split
  · -- An occurrence that is not in the text ends with the ellipsis.
    rintro ⟨x, y, hxy⟩
    obtain rfl | ⟨y, c, rfl⟩ := List.eq_nil_or_concat y
    · apply h.notEllipsis
      have hlast := congrArg List.getLast? hxy
      rw [List.append_nil, List.getLast?_append_of_ne_nil _ h.nonempty] at hlast
      rw [hlast, ellipsis, List.getLast?_concat]
    · rw [ellipsis, List.concat_eq_append, ← List.append_assoc] at hxy
      obtain ⟨hxy, -⟩ := List.append_inj' hxy rfl
      exact htext (List.IsInfix.trans ⟨x, y, hxy⟩ (List.take_prefix _ _).isInfix)
  · exact htext

include h in
theorem not_infix_redactSecretMaterial (text : Units) :
    ¬ secret.IsInfix (redactSecretMaterial text [secret]) := by
  apply not_infix_limitText h
  have hexact := not_infix_redactExactSecretValues h text
  generalize redactExactSecretValues text [secret] = current at hexact
  generalize leakSecretTextPatterns = patterns
  induction patterns generalizing current with
  | nil => exact hexact
  | cons pattern patterns ih =>
      exact ih _ (not_infix_replaceMatches h.nonempty h.apart hexact)

mutual

/-- Deep redaction conceals the secret in a value of any shape, keys included. -/
theorem conceals_redactTrustedSecretsDeep (h : Concealable secret) : ∀ value : Value,
    Conceals secret (redactTrustedSecretsDeep [secret] value)
  | .string text => by
      rw [redactTrustedSecretsDeep, conceals_string]
      exact not_infix_redactExactSecretValues h text
  | .array items => by
      rw [redactTrustedSecretsDeep, conceals_array]
      exact conceals_redactItems h items
  | .object entries => by
      rw [redactTrustedSecretsDeep, conceals_object]
      exact conceals_redactEntries h [] entries
  | .undefined => by
      rw [redactTrustedSecretsDeep]
      exact conceals_undefined
  | .null => by
      rw [redactTrustedSecretsDeep]
      exact fun text hin => absurd hin (by simp [Value.texts])
  | .primitive text => by
      rw [redactTrustedSecretsDeep]
      exact conceals_primitive

theorem conceals_redactItems (h : Concealable secret) : ∀ items : List Value,
    ∀ value ∈ redactItems [secret] items, Conceals secret value
  | [] => by simp [redactItems]
  | value :: rest => by
      rw [redactItems, List.forall_mem_cons]
      exact ⟨conceals_redactTrustedSecretsDeep h value, conceals_redactItems h rest⟩

theorem conceals_redactEntries (h : Concealable secret) (seen : List Units) : ∀ entries : List (Units × Value),
    ∀ entry ∈ redactEntries [secret] seen entries,
      ¬ secret.IsInfix entry.1 ∧ Conceals secret entry.2
  | [] => by simp [redactEntries]
  | (key, value) :: rest => by
      rw [redactEntries]
      split
      · exact conceals_redactEntries h seen rest
      · rw [List.forall_mem_cons]
        exact ⟨⟨not_infix_redactExactSecretValues h key,
          conceals_redactTrustedSecretsDeep h value⟩, conceals_redactEntries h _ rest⟩

end

/-! ## The parts of a result -/

include h

theorem conceals_lit {text : String} (htext : text ∈ fixedTexts) :
    Conceals secret (.string (lit text)) :=
  conceals_string.mpr (h.notFixed text htext)

theorem conceals_record {entries : List (String × Value)}
    (hentries : ∀ entry ∈ entries, entry.1 ∈ fixedTexts ∧ Conceals secret entry.2) :
    Conceals secret (record entries) := by
  rw [record, conceals_object]
  intro entry hentry
  obtain ⟨⟨key, value⟩, hmem, rfl⟩ := List.mem_map.mp hentry
  obtain ⟨hkey, hvalue⟩ := hentries _ hmem
  exact ⟨h.notFixed key hkey, hvalue⟩

/-- A key of an array is no text with the secret in it. -/
theorem not_infix_index (i : Nat) : ¬ secret.IsInfix (units (Nat.toDigits 10 i)) := fun hin =>
  h.notNumeral fun unit hunit => isDigit_of_mem_index i (hin.subset hunit)

theorem conceals_indexed {values : List Value} (hvalues : ∀ value ∈ values, Conceals secret value) :
    ∀ entry ∈ indexed values, ¬ secret.IsInfix entry.1 ∧ Conceals secret entry.2 := by
  intro entry hentry
  rw [indexed] at hentry
  obtain ⟨⟨value, i⟩, hmem, rfl⟩ := List.mem_map.mp hentry
  have hvalue : value ∈ values := by
    obtain ⟨_, _, hvalue⟩ := List.mem_zipIdx hmem
    rw [hvalue]
    exact List.getElem_mem _
  exact ⟨not_infix_index h i, hvalues value hvalue⟩

/-- Spreading a value that conceals the secret gives entries that do. -/
theorem conceals_spread {value : Value} (hvalue : Conceals secret value) :
    ∀ entry ∈ value.spread, ¬ secret.IsInfix entry.1 ∧ Conceals secret entry.2 := by
  cases value with
  | object entries => exact conceals_object.mp hvalue
  | array items => exact conceals_indexed h (conceals_array.mp hvalue)
  | string text =>
      apply conceals_indexed h
      intro value hin
      obtain ⟨unit, hunit, rfl⟩ := List.mem_map.mp hin
      rw [conceals_string]
      intro hsecret
      obtain ⟨a, b, rfl⟩ := List.append_of_mem hunit
      refine conceals_string.mp hvalue (hsecret.trans ⟨a, b, ?_⟩)
      rw [List.append_assoc, List.singleton_append]
  | undefined => simp [Value.spread]
  | null => simp [Value.spread]
  | primitive text => simp [Value.spread]

theorem conceals_setEntry {entries : List (Units × Value)} {text : Units}
    (hentries : ∀ entry ∈ entries, ¬ secret.IsInfix entry.1 ∧ Conceals secret entry.2)
    (htext : ¬ secret.IsInfix text) :
    Conceals secret (.object (setEntry (lit "destination") (.string text) entries)) := by
  have hnew : ¬ secret.IsInfix (lit "destination") ∧ Conceals secret (.string text) :=
    ⟨h.notFixed _ (by decide), conceals_string.mpr htext⟩
  rw [conceals_object, setEntry]
  split
  · intro entry hentry
    obtain ⟨old, hold, rfl⟩ := List.mem_map.mp hentry
    split
    · exact hnew
    · exact hentries old hold
  · rw [List.forall_mem_append, List.forall_mem_singleton]
    exact ⟨hentries, hnew⟩

theorem conceals_redactNetworkCall {call result : Value} (hcall : Conceals secret call)
    (hresult : redactNetworkCall [secret] call = some result) : Conceals secret result := by
  unfold redactNetworkCall at hresult
  split at hresult
  · cases hresult
  · cases hresult
  · obtain ⟨text, -, rfl⟩ := Option.map_eq_some_iff.mp hresult
    exact conceals_setEntry h (conceals_spread h hcall)
      (not_infix_redactSecretMaterial h text)

theorem conceals_sanitizeSideEffectTextList {values : Value} {results : List Value}
    (hresults : sanitizeSideEffectTextList values [secret] = some results) :
    ∀ result ∈ results, Conceals secret result := by
  unfold sanitizeSideEffectTextList at hresults
  split at hresults
  · cases hresults
    simp
  split at hresults
  · apply conceals_mapM ?_ hresults
    intro value _ result hresult
    obtain ⟨text, -, rfl⟩ := Option.map_eq_some_iff.mp hresult
    exact conceals_string.mpr (not_infix_redactSecretMaterial h text)
  · cases hresults

theorem conceals_redactNetworkCalls {values : Value} {results : List Value}
    (hvalues : Conceals secret values)
    (hresults : redactNetworkCalls values [secret] = some results) :
    ∀ result ∈ results, Conceals secret result := by
  unfold redactNetworkCalls at hresults
  split at hresults
  · cases hresults
    simp
  split at hresults
  · rename_i calls _
    apply conceals_mapM ?_ hresults
    intro call hcall result hresult
    exact conceals_redactNetworkCall h (conceals_array.mp hvalues call hcall) hresult
  · cases hresults

theorem not_infix_sanitizeGovernedReference {value : Value} {text : Units}
    (hvalue : sanitizeGovernedReference value [secret] = some text) :
    ¬ secret.IsInfix text := by
  unfold sanitizeGovernedReference at hvalue
  split at hvalue
  · split at hvalue
    · cases hvalue
    split at hvalue
    · cases hvalue
    · rename_i hclean
      cases hvalue
      intro hin
      apply hclean
      have hlength : secret.length > 0 := List.length_pos_iff.mpr h.nonempty
      rw [containsSecretMaterial, List.any_cons, any_tails_iff.mpr hin]
      simp [hlength]
  · cases hvalue

theorem conceals_references {values : Option (List Value)} :
    Conceals secret (stringValues (sanitizeGovernedReferenceList values [secret])) := by
  rw [stringValues, conceals_array]
  intro value hvalue
  obtain ⟨text, htext, rfl⟩ := List.mem_map.mp hvalue
  obtain ⟨reference, -, href⟩ := List.mem_filterMap.mp htext
  exact conceals_string.mpr (not_infix_sanitizeGovernedReference h href)

/-! ## Results -/

theorem conceals_errorProviderMetadata (metadata : Value) :
    Conceals secret (errorProviderMetadata metadata [secret]) := by
  rw [errorProviderMetadata]
  split
  · exact conceals_redactTrustedSecretsDeep h _
  · exact conceals_undefined

/-- The fields that come from the request, the provider and the decision. -/
def CopiedFields.texts (copied : CopiedFields) : List Units :=
  [copied.invocationId, copied.organizationId, copied.workflowRunId, copied.workflowStepRunId,
    copied.correlationId, copied.capabilityCode, copied.providerId,
    copied.policyDecisionReference]

theorem conceals_resultEntries {copied : CopiedFields} {status : Value}
    {rest : List (String × Value)} (hcopied : ∀ text ∈ copied.texts, ¬ secret.IsInfix text)
    (hstatus : Conceals secret status)
    (hrest : ∀ entry ∈ rest, entry.1 ∈ fixedTexts ∧ Conceals secret entry.2) :
    Conceals secret (resultEntries copied status rest) := by
  apply conceals_record h
  rw [List.forall_mem_append]
  refine ⟨?_, hrest⟩
  simp only [CopiedFields.texts, List.forall_mem_cons, List.not_mem_nil, false_implies,
    implies_true, and_true] at hcopied
  obtain ⟨h1, h2, h3, h4, h5, h6, h7, h8⟩ := hcopied
  simp only [List.forall_mem_cons, List.not_mem_nil, false_implies, implies_true, and_true,
    conceals_string]
  refine ⟨⟨by decide, h1⟩, ⟨by decide, h2⟩, ⟨by decide, h3⟩, ⟨by decide, h4⟩, ⟨by decide, h5⟩,
    ⟨by decide, h6⟩, ⟨by decide, h7⟩, ⟨by decide, h8⟩, ⟨by decide, hstatus⟩,
    ⟨by decide, conceals_primitive⟩, ⟨by decide, conceals_primitive⟩, by decide,
    conceals_primitive⟩

theorem conceals_errorEntries {message : Units} {executionOutcome agentExecutionStatus : Value}
    {retryable : Bool} {providerMetadata : Value} (hmessage : ¬ secret.IsInfix message)
    (houtcome : Conceals secret executionOutcome) (hstatus : Conceals secret agentExecutionStatus)
    (hmetadata : Conceals secret providerMetadata) :
    Conceals secret (errorEntries message executionOutcome agentExecutionStatus retryable
      providerMetadata) := by
  apply conceals_record h
  simp only [List.forall_mem_cons, List.not_mem_nil, false_implies, implies_true, and_true]
  exact ⟨⟨by decide, conceals_lit h (by decide)⟩, ⟨by decide, conceals_string.mpr hmessage⟩,
    ⟨by decide, houtcome⟩, ⟨by decide, hstatus⟩, ⟨by decide, conceals_primitive⟩, by decide,
    hmetadata⟩

theorem conceals_sideEffectEntries {filesCreated filesModified filesDeleted commandsExecuted
    networkCalls : List Value} {artifactsCreated : List Units}
    (hcreated : ∀ value ∈ filesCreated, Conceals secret value)
    (hmodified : ∀ value ∈ filesModified, Conceals secret value)
    (hdeleted : ∀ value ∈ filesDeleted, Conceals secret value)
    (hcommands : ∀ value ∈ commandsExecuted, Conceals secret value)
    (hcalls : ∀ value ∈ networkCalls, Conceals secret value)
    (hartifacts : Conceals secret (stringValues artifactsCreated)) :
    Conceals secret (sideEffectEntries filesCreated filesModified filesDeleted commandsExecuted
      networkCalls artifactsCreated) := by
  apply conceals_record h
  simp only [List.forall_mem_cons, List.not_mem_nil, false_implies, implies_true, and_true,
    conceals_array]
  exact ⟨⟨by decide, hcreated⟩, ⟨by decide, hmodified⟩, ⟨by decide, hdeleted⟩,
    ⟨by decide, hcommands⟩, ⟨by decide, hcalls⟩, by decide, hartifacts⟩

/-- The status of a result is a terminal status. -/
theorem conceals_terminalStatus {status : Units} (hstatus : isTerminalStatus status = true) :
    Conceals secret (.string status) := by
  rw [isTerminalStatus, List.any_eq_true] at hstatus
  obtain ⟨target, htarget, heq⟩ := hstatus
  have hnames : ∀ target ∈ validInvocationTransitions .running, target.name ∈ fixedTexts := by
    decide
  rw [← beq_iff_eq.mp heq]
  exact conceals_lit h (hnames target htarget)

theorem conceals_normalizedResult {copied : CopiedFields} {adapterResult : AdapterResult}
    {result : Value} (hcopied : ∀ text ∈ copied.texts, ¬ secret.IsInfix text)
    (hstatus : isTerminalStatus adapterResult.status = true)
    (hresult : normalizedResult copied adapterResult [secret] = some result) :
    Conceals secret result := by
  have status := conceals_terminalStatus h hstatus
  have metadata := conceals_redactEntries h []
    (sanitizeProviderExecutionMetadata adapterResult.providerExecutionMetadata)
  rw [normalizedResult] at hresult
  generalize redactEntries [secret] []
    (sanitizeProviderExecutionMetadata adapterResult.providerExecutionMetadata) = entries
    at hresult metadata
  have sideEffects : ∀ key, Conceals secret (((Value.object entries).get "sideEffects").get key) :=
    fun key => conceals_get key (conceals_get "sideEffects" (conceals_object.mpr metadata))
  obtain ⟨created, hcreated, hresult⟩ := Option.bind_eq_some_iff.mp hresult
  obtain ⟨modified, hmodified, hresult⟩ := Option.bind_eq_some_iff.mp hresult
  obtain ⟨deleted, hdeleted, hresult⟩ := Option.bind_eq_some_iff.mp hresult
  obtain ⟨commands, hcommands, hresult⟩ := Option.bind_eq_some_iff.mp hresult
  obtain ⟨calls, hcalls, hresult⟩ := Option.bind_eq_some_iff.mp hresult
  cases hresult
  apply conceals_resultEntries h hcopied status
  simp only [List.forall_mem_cons, List.not_mem_nil, false_implies, implies_true, and_true]
  refine ⟨⟨by decide, ?_⟩, ⟨by decide, conceals_references h⟩, ⟨by decide, conceals_references h⟩,
    ⟨by decide, ?_⟩, ⟨by decide, ?_⟩, ⟨by decide, ?_⟩, by decide, ?_⟩
  · exact conceals_optionalString fun text htext =>
      not_infix_sanitizeGovernedReference h htext
  · exact conceals_object.mpr fun entry hentry => metadata entry (List.mem_filter.mp hentry).1
  · cases adapterResult.error with
    | none => exact conceals_undefined
    | some error =>
        exact conceals_errorEntries h (not_infix_redactSecretMaterial h _) conceals_undefined
          status (conceals_errorProviderMetadata h _)
  · exact conceals_sideEffectEntries h (conceals_sanitizeSideEffectTextList h hcreated)
      (conceals_sanitizeSideEffectTextList h hmodified)
      (conceals_sanitizeSideEffectTextList h hdeleted)
      (conceals_sanitizeSideEffectTextList h hcommands)
      (conceals_redactNetworkCalls h (sideEffects "networkCalls") hcalls)
      (conceals_references h)
  · split
    · exact conceals_object.mpr (conceals_redactEntries h [] _)
    · exact conceals_undefined

theorem conceals_runtimeFailureResult {copied : CopiedFields} {status : AgentExecutionStatus}
    {message : Units} {providerMetadata : Value}
    (hcopied : ∀ text ∈ copied.texts, ¬ secret.IsInfix text)
    (hstatus : status.name ∈ fixedTexts) :
    Conceals secret (runtimeFailureResult copied status message providerMetadata [secret]) := by
  have status := conceals_lit h hstatus
  apply conceals_resultEntries h hcopied status
  simp only [List.forall_mem_cons, List.not_mem_nil, false_implies, implies_true, and_true]
  refine ⟨⟨by decide, conceals_object.mpr (by simp)⟩, ⟨by decide, ?_⟩, by decide, ?_⟩
  · apply conceals_errorEntries h (not_infix_redactSecretMaterial h _) ?_ status
      (conceals_errorProviderMetadata h _)
    split
    · exact conceals_lit h (by decide)
    · exact conceals_undefined
  · refine conceals_sideEffectEntries h ?_ ?_ ?_ ?_ ?_ (conceals_array.mpr ?_)
    all_goals simp

end Redaction

/-- A concealable credential is in no text of the result, whatever the adapter does. -/
theorem resultOfOutcome_conceals {secret : Units} (h : Concealable secret)
    {copied : CopiedFields} (hcopied : ∀ text ∈ copied.texts, ¬ secret.IsInfix text)
    {outcome : AdapterOutcome} {result : Value}
    (hresult : resultOfOutcome copied (some secret) outcome = some result) :
    Conceals secret result := by
  have hsecrets : ((some secret).filter (· ≠ [])).toList = [secret] := by
    simp [h.nonempty]
  unfold resultOfOutcome at hresult
  rw [hsecrets] at hresult
  cases outcome with
  | returned adapterResult =>
      simp only at hresult
      split at hresult
      · rename_i hstatus
        exact conceals_normalizedResult h hcopied hstatus hresult
      · cases hresult
        exact conceals_runtimeFailureResult h hcopied (by decide)
  | timedOut timeoutMs =>
      cases hresult
      exact conceals_runtimeFailureResult h hcopied (by decide)
  | threw rawMessage =>
      cases hresult
      exact conceals_runtimeFailureResult h hcopied (by decide)

end Invocation
