import VitoPlatform.Invocation.Leakage
import VitoPlatform.Invocation.Sanitizing

/-!
# Results of any shape

`normalizeAdapterResult` reads an adapter's result without checking its shape: `resolvedResult`
is what it makes of a value of any shape, with `none` where one of its reads throws. For a
result of the declared shape it is `normalizedResult`. Which values it reads to the end is
`wellShaped`, a condition on the value as the adapter returned it.
-/

namespace Invocation

open Text Replacement

/-! ## Normalizing a value -/

/-- `sanitizeGovernedReferenceList`, or `none` for a `TypeError`. -/
def resolvedReferences (values : Value) (secrets : List Units) : Option (List Units) :=
  if !values.truthy then some []
  else
    match values with
    | .array items => some (sanitizeGovernedReferenceList (some items) secrets)
    | _ => none

/-- The normalized error, or `none` for a `TypeError`. -/
def resolvedError (error status : Value) (secrets : List Units) : Option Value :=
  if !error.truthy then some .undefined
  else
    match error.get "message" with
    | .string message =>
        some (record [("reason", .string (lit "EXECUTION_FAILED")),
          ("message", .string (redactSecretMaterial message secrets)),
          ("executionOutcome", .undefined), ("agentExecutionStatus", status),
          ("retryable", error.get "retryable"),
          ("providerMetadata", errorProviderMetadata (error.get "providerMetadata") secrets)])
    | _ => none

/-- `normalizeAdapterResult` of a value: the result, or `none` for a `TypeError`. -/
def resolvedResult (copied : CopiedFields) (adapterResult : Value) (secrets : List Units) :
    Option Value := do
  let metadata := redactEntries secrets []
    (sanitizeProviderExecutionMetadata (adapterResult.get "providerExecutionMetadata"))
  let usageMetadata := adapterResult.get "usageMetadata"
  let status := adapterResult.get "status"
  let error ← resolvedError (adapterResult.get "error") status secrets
  let sideEffects := (Value.object metadata).get "sideEffects"
  let filesCreated ← sanitizeSideEffectTextList (sideEffects.get "filesCreated") secrets
  let filesModified ← sanitizeSideEffectTextList (sideEffects.get "filesModified") secrets
  let filesDeleted ← sanitizeSideEffectTextList (sideEffects.get "filesDeleted") secrets
  let commandsExecuted ← sanitizeSideEffectTextList (sideEffects.get "commandsExecuted") secrets
  let networkCalls ← redactNetworkCalls (sideEffects.get "networkCalls") secrets
  let artifacts ← resolvedReferences (adapterResult.get "artifactReferences") secrets
  let evidence ← resolvedReferences (adapterResult.get "evidenceReferences") secrets
  pure (resultEntries copied status
    [("outputReference", optionalString
        (sanitizeGovernedReference (adapterResult.get "outputReference") secrets)),
      ("artifactReferences", stringValues artifacts),
      ("evidenceReferences", stringValues evidence),
      ("providerExecutionMetadata",
        .object (metadata.filter fun entry => entry.1 != lit "sideEffects")),
      ("normalizedError", error),
      ("sideEffectSummary", sideEffectEntries filesCreated filesModified filesDeleted
        commandsExecuted networkCalls artifacts),
      ("usageMetadata",
        if usageMetadata.truthy then
          .object (redactEntries secrets [] (sanitizeProviderExecutionMetadata usageMetadata))
        else .undefined)])

/-- The trusted secrets of an invocation. -/
def trustedSecrets (credentialReference : Option Units) : List Units :=
  (credentialReference.filter (· ≠ [])).toList

/-- What the productive call of an adapter may do. -/
inductive Resolution where
  | resolved (value : Value)
  | timedOut (timeoutMs : Int)
  /-- An `Error` with this message. -/
  | threwError (message : Units)
  /-- Something that is no `Error`. -/
  | threw (value : Value)

/-- A status that the productive call may end with. -/
def isEndStatus (status : Value) : Bool :=
  match status with
  | .string text => isTerminalStatus text
  | _ => false

/-- The result of an adapter that threw. -/
def thrownResult (copied : CopiedFields) (rawMessage : Units) (secrets : List Units) : Value :=
  runtimeFailureResult copied .failed
    (lit "EXECUTION_FAILED: Adapter execution failed: " ++ limitText rawMessage) .undefined
    secrets

/-- The result of an invocation whose adapter was called: `none` where an exception escapes. -/
def resultOfResolution (copied : CopiedFields) (credentialReference : Option Units) :
    Resolution → Option Value
  | .resolved .undefined | .resolved .null => none
  | .resolved value =>
      let status := value.get "status"
      if isEndStatus status then
        resolvedResult copied value (trustedSecrets credentialReference)
      else
        status.text.map fun text => runtimeFailureResult copied .failed
          (lit "EXECUTION_FAILED: Adapter returned illegal non-terminal lifecycle status \"" ++
            text ++ lit "\" as terminal result")
          (record [("rejectedLifecycleStatus", status)]) (trustedSecrets credentialReference)
  | .timedOut timeoutMs => resultOfOutcome copied credentialReference (.timedOut timeoutMs)
  | .threwError message =>
      some (thrownResult copied message (trustedSecrets credentialReference))
  | .threw value =>
      value.text.map fun text => thrownResult copied text (trustedSecrets credentialReference)

/-! ## Results of the declared shape -/

/-- The value of an error. -/
def AdapterError.value (error : AdapterError) : Value :=
  record [("message", .string error.message),
    ("retryable", .primitive (lit (toString error.retryable))),
    ("providerMetadata", error.providerMetadata)]

def listValue : Option (List Value) → Value
  | some items => .array items
  | none => .undefined

/-- The error of a result of the declared shape. -/
def AdapterResult.errorValue (result : AdapterResult) : Value :=
  match result.error with
  | some error => error.value
  | none => .undefined

/-- The value of a result of the declared shape. -/
def AdapterResult.value (result : AdapterResult) : Value :=
  record [("status", .string result.status), ("outputReference", result.outputReference),
    ("artifactReferences", listValue result.artifactReferences),
    ("evidenceReferences", listValue result.evidenceReferences),
    ("providerExecutionMetadata", result.providerExecutionMetadata),
    ("usageMetadata", result.usageMetadata),
    ("error", result.errorValue)]

theorem resolvedReferences_listValue (values : Option (List Value)) (secrets : List Units) :
    resolvedReferences (listValue values) secrets =
      some (sanitizeGovernedReferenceList values secrets) := by
  cases values with
  | none => rfl
  | some items => rfl

theorem resolvedError_errorValue (result : AdapterResult) (secrets : List Units) :
    resolvedError result.errorValue (.string result.status) secrets =
      some (match result.error with
        | some error =>
            errorEntries (redactSecretMaterial error.message secrets) .undefined
              (.string result.status) error.retryable
              (errorProviderMetadata error.providerMetadata secrets)
        | none => .undefined) := by
  rw [AdapterResult.errorValue]
  cases result.error with
  | none => rfl
  | some error =>
      have hmessage : error.value.get "message" = .string error.message := rfl
      have hretryable :
          error.value.get "retryable" = .primitive (lit (toString error.retryable)) := rfl
      have hmetadata : error.value.get "providerMetadata" = error.providerMetadata := rfl
      dsimp only
      rw [resolvedError, hmessage, hretryable, hmetadata]
      rfl

/-- Normalizing the value of a result of the declared shape is normalizing that result. -/
theorem resolvedResult_value (copied : CopiedFields) (result : AdapterResult)
    (secrets : List Units) :
    resolvedResult copied result.value secrets = normalizedResult copied result secrets := by
  have hstatus : result.value.get "status" = .string result.status := rfl
  have houtput : result.value.get "outputReference" = result.outputReference := rfl
  have hartifacts :
      result.value.get "artifactReferences" = listValue result.artifactReferences := rfl
  have hevidence :
      result.value.get "evidenceReferences" = listValue result.evidenceReferences := rfl
  have hmetadata :
      result.value.get "providerExecutionMetadata" = result.providerExecutionMetadata := rfl
  have husage : result.value.get "usageMetadata" = result.usageMetadata := rfl
  have herror : result.value.get "error" = result.errorValue := rfl
  have hnormalized := resolvedError_errorValue result secrets
  cases hpresent : result.error with
  | none =>
      rw [hpresent] at hnormalized
      simp only [resolvedResult, normalizedResult, hstatus, houtput, hartifacts, hevidence,
        hmetadata, husage, herror, hpresent, resolvedReferences_listValue, hnormalized,
        Option.bind_eq_bind, Option.bind_some]
  | some error =>
      rw [hpresent] at hnormalized
      simp only [resolvedResult, normalizedResult, hstatus, houtput, hartifacts, hevidence,
        hmetadata, husage, herror, hpresent, resolvedReferences_listValue, hnormalized,
        Option.bind_eq_bind, Option.bind_some]

/-! ## Reading a cleaned value -/

/-- The name cannot be read after the redaction: a trusted secret is part of it. -/
def hidden (secrets : List Units) (name : String) : Bool :=
  secrets.any fun secret => secret != [] && (lit name).tails.any (secret.isPrefixOf ·)

/-- A value under a key, sanitized and redacted. -/
def cleaned (secrets : List Units) (key : Units) (value : Value) : Value :=
  redactTrustedSecretsDeep secrets (sanitizeValue key value)

/-- Redaction keeps a bracket, and puts one in wherever it replaces something. -/
theorem bracket_mem_redactExactSecretValues {text : Units} (secrets : List Units)
    (h : 91 ∈ text) : 91 ∈ redactExactSecretValues text secrets := by
  induction secrets generalizing text with
  | nil => exact h
  | cons secret secrets ih =>
      rw [redactExactSecretValues]
      apply ih
      split
      · rename_i hreplaced
        have hmarker : redacted.IsInfix (redacted.intercalate (split secret text)) :=
          marker_infix_join hreplaced.1 (any_tails_iff.mp hreplaced.2)
        exact hmarker.subset (by decide)
      · exact h

/-- A text without a bracket comes out of the redaction only where it was before. -/
theorem redactExactSecretValues_eq_lit {key : Units} {name : String} (hname : 91 ∉ lit name)
    (secrets : List Units) :
    redactExactSecretValues key secrets = lit name ↔
      key = lit name ∧ hidden secrets name = false := by
  induction secrets generalizing key with
  | nil => simp [redactExactSecretValues, hidden]
  | cons secret secrets ih =>
      rw [redactExactSecretValues]
      have hsplit : hidden (secret :: secrets) name =
          ((secret != [] && (lit name).tails.any (secret.isPrefixOf ·)) ||
            hidden secrets name) := rfl
      split
      · rename_i hreplaced
        constructor
        · intro heq
          have hmarker : redacted.IsInfix (redacted.intercalate (split secret key)) :=
            marker_infix_join hreplaced.1 (any_tails_iff.mp hreplaced.2)
          have hbracket := bracket_mem_redactExactSecretValues secrets
            (hmarker.subset (show 91 ∈ redacted by decide))
          rw [heq] at hbracket
          exact absurd hbracket hname
        · rintro ⟨rfl, hshown⟩
          simp [hsplit, hreplaced.1, hreplaced.2] at hshown
      · rename_i hkept
        rw [ih, hsplit]
        refine and_congr_right fun hkey => ?_
        rw [hkey] at hkept
        have hfree : (secret != [] && (lit name).tails.any (secret.isPrefixOf ·)) = false := by
          rw [Bool.eq_false_iff]
          intro htouched
          simp only [Bool.and_eq_true, bne_iff_ne] at htouched
          exact hkept htouched
        rw [hfree, Bool.false_or]

/-- A name under which a value can be read: no secret name, and without a bracket. -/
structure Readable (name : String) : Prop where
  plain : 91 ∉ lit name
  settable : lit name ≠ lit "__proto__"
  unmasked : isSecretKey (lit name) = false

instance (name : String) : Decidable (Readable name) :=
  decidable_of_iff (91 ∉ lit name ∧ lit name ≠ lit "__proto__" ∧ isSecretKey (lit name) = false)
    ⟨fun h => ⟨h.1, h.2.1, h.2.2⟩, fun h => ⟨h.1, h.2, h.3⟩⟩

theorem find_sanitizeEntries {name : String} (hname : Readable name)
    (entries : List (Units × Value)) :
    (sanitizeEntries entries).find? (·.1 == lit name) =
      (entries.find? (·.1 == lit name)).map fun entry =>
        (entry.1, sanitizeValue (lit name) entry.2) := by
  have hsettable : lit name ≠ proto := hname.settable
  rw [find_sanitizeEntries_eq, if_neg hsettable]

theorem find_redactEntries {name : String} (hname : Readable name) (secrets : List Units)
    (hshown : hidden secrets name = false) :
    ∀ (seen : List Units) (entries : List (Units × Value)), lit name ∉ seen →
      (redactEntries secrets seen entries).find? (·.1 == lit name) =
        (entries.find? (·.1 == lit name)).map fun entry =>
          (entry.1, redactTrustedSecretsDeep secrets entry.2)
  | _, [], _ => rfl
  | seen, (key, value) :: rest, hseen => by
      rw [redactEntries, List.find?_cons]
      have hsafe : redactExactSecretValues key secrets = lit name ↔ _ :=
        redactExactSecretValues_eq_lit hname.plain secrets
      simp only [hshown, and_true] at hsafe
      cases hkey : key == lit name with
      | true =>
          rw [beq_iff_eq] at hkey
          have hsame := hsafe.mpr hkey
          rw [hsame, if_neg (by simp [hseen, hname.settable]), List.find?_cons]
          simp [hkey]
      | false =>
          have hother : redactExactSecretValues key secrets ≠ lit name := by
            intro heq
            rw [hsafe] at heq
            rw [heq] at hkey
            simp at hkey
          dsimp only
          split
          · exact find_redactEntries hname secrets hshown seen rest hseen
          · rw [List.find?_cons]
            have hneq : (redactExactSecretValues key secrets == lit name) = false := by
              simpa using hother
            simp only [hneq]
            refine find_redactEntries hname secrets hshown _ rest ?_
            simp [hseen, hother.symm]

theorem find_redactEntries_hidden {name : String} (hname : Readable name) (secrets : List Units)
    (hhidden : hidden secrets name = true) :
    ∀ (seen : List Units) (entries : List (Units × Value)),
      (redactEntries secrets seen entries).find? (·.1 == lit name) = none
  | _, [] => rfl
  | seen, (key, value) :: rest => by
      rw [redactEntries]
      have hother : redactExactSecretValues key secrets ≠ lit name := by
        intro heq
        have hshown := ((redactExactSecretValues_eq_lit hname.plain secrets).mp heq).2
        rw [hhidden] at hshown
        cases hshown
      split
      · exact find_redactEntries_hidden hname secrets hhidden seen rest
      · rw [List.find?_cons]
        have hneq : (redactExactSecretValues key secrets == lit name) = false := by
          simpa using hother
        simp only [hneq]
        exact find_redactEntries_hidden hname secrets hhidden _ rest

section Cleaned

variable {secrets : List Units} {key : Units} {name : String}

theorem cleaned_object (hkey : isSecretKey key = false) (entries : List (Units × Value)) :
    cleaned secrets key (.object entries) =
      .object (redactEntries secrets [] (sanitizeEntries entries)) := by
  rw [cleaned, sanitizeValue, hkey]
  rfl

theorem cleaned_array (hkey : isSecretKey key = false) (items : List Value) :
    cleaned secrets key (.array items) = .array (items.map (cleaned secrets key)) := by
  have hitems : ∀ items : List Value, redactItems secrets (sanitizeItems key items) =
      items.map (cleaned secrets key) := by
    intro items
    induction items with
    | nil => rfl
    | cons value rest ih =>
        rw [sanitizeItems, redactItems, ih]
        rfl
  rw [cleaned, sanitizeValue, hkey]
  change Value.array (redactItems secrets (sanitizeItems key items)) = _
  rw [hitems]

/-- A string stays a string, and is empty only if it was. -/
theorem cleaned_string (hkey : isSecretKey key = false) (text : Units) :
    ∃ text', cleaned secrets key (.string text) = .string text' ∧ (text' = [] ↔ text = []) := by
  have hredact : ∀ text : Units, redactExactSecretValues text secrets = [] ↔ text = [] := by
    intro text
    have h : redactExactSecretValues text secrets = lit "" ↔ _ :=
      redactExactSecretValues_eq_lit (by decide) secrets
    have hempty : hidden secrets "" = false := by
      rw [Bool.eq_false_iff]
      intro htouched
      obtain ⟨secret, -, hsecret⟩ := List.any_eq_true.mp htouched
      rw [Bool.and_eq_true, any_tails_iff, bne_iff_ne] at hsecret
      exact hsecret.1 (List.infix_nil.mp hsecret.2)
    have hlit : lit "" = [] := rfl
    rw [hempty, hlit] at h
    simpa using h
  rw [cleaned, sanitizeValue, hkey]
  by_cases hsecret : isSecretValue text = true
  · refine ⟨redactExactSecretValues redacted secrets, by simp [hsecret, redactTrustedSecretsDeep], ?_⟩
    rw [hredact]
    constructor
    · intro h
      cases h
    · rintro rfl
      exact absurd hsecret (by decide)
  · exact ⟨redactExactSecretValues text secrets, by simp [hsecret, redactTrustedSecretsDeep],
      hredact text⟩

theorem cleaned_plain (hkey : isSecretKey key = false) {value : Value}
    (hvalue : value = .undefined ∨ value = .null ∨ ∃ text, value = .primitive text) :
    cleaned secrets key value = value := by
  rw [cleaned]
  obtain rfl | rfl | ⟨text, rfl⟩ := hvalue
  · rw [sanitizeValue, hkey]
    rfl
  · rw [sanitizeValue, hkey]
    rfl
  · rw [sanitizeValue, hkey]
    rfl

theorem cleaned_truthy (hkey : isSecretKey key = false) (value : Value) :
    (cleaned secrets key value).truthy = value.truthy := by
  cases value with
  | undefined => rw [cleaned_plain hkey (.inl rfl)]
  | null => rw [cleaned_plain hkey (.inr (.inl rfl))]
  | primitive text => rw [cleaned_plain hkey (.inr (.inr ⟨text, rfl⟩))]
  | string text =>
      obtain ⟨text', htext', hempty⟩ : ∃ text', cleaned secrets key (.string text) =
        .string text' ∧ (text' = [] ↔ text = []) := cleaned_string hkey text
      rw [htext']
      change (text' != []) = (text != [])
      rw [Bool.eq_iff_iff, bne_iff_ne, bne_iff_ne]
      exact not_congr hempty
  | array items =>
      rw [cleaned_array hkey]
      rfl
  | object entries =>
      rw [cleaned_object hkey]
      rfl

/-- Reading a name of a cleaned value: what stood under it, cleaned, unless it is hidden. -/
theorem get_cleaned (hkey : isSecretKey key = false) (hname : Readable name) (value : Value) :
    (cleaned secrets key value).get name =
      if hidden secrets name then .undefined else cleaned secrets (lit name) (value.get name) := by
  have hnothing : cleaned secrets (lit name) .undefined = .undefined :=
    cleaned_plain hname.unmasked (.inl rfl)
  cases value with
  | object entries =>
      rw [cleaned_object hkey, Value.get, Value.get]
      cases hhidden : hidden secrets name with
      | true => rw [find_redactEntries_hidden hname secrets hhidden]; rfl
      | false =>
          rw [find_redactEntries hname secrets hhidden _ _ (by simp), find_sanitizeEntries hname]
          cases entries.find? (·.1 == lit name) with
          | none => simp [hnothing]
          | some entry => simp [cleaned]
  | undefined => rw [cleaned_plain hkey (.inl rfl)]; simp [Value.get, hnothing]
  | null => rw [cleaned_plain hkey (.inr (.inl rfl))]; simp [Value.get, hnothing]
  | primitive text =>
      rw [cleaned_plain hkey (.inr (.inr ⟨text, rfl⟩))]
      simp [Value.get, hnothing]
  | string text =>
      obtain ⟨text', htext', -⟩ : ∃ text', cleaned secrets key (.string text) =
        .string text' ∧ (text' = [] ↔ text = []) := cleaned_string hkey text
      simp [htext', Value.get, hnothing]
  | array items =>
      rw [cleaned_array hkey]
      simp [Value.get, hnothing]

end Cleaned

/-! ## What can be normalized -/

mutual

/-- `String(value)` does not throw; `masked` if a property `toString` cannot be read. -/
def prints (masked : Bool) : Value → Bool
  | .array items => printsAll masked items
  | .object entries => masked || !entries.any (·.1 == lit "toString")
  | .undefined | .null | .primitive _ | .string _ => true

def printsAll (masked : Bool) : List Value → Bool
  | [] => true
  | value :: rest => prints masked value && printsAll masked rest

end

mutual

theorem text_isSome : ∀ value : Value, value.text.isSome = prints false value
  | .undefined | .null | .primitive _ | .string _ => rfl
  | .array items => by
      rw [Value.text, Option.isSome_map, itemTexts_isSome items, prints]
  | .object entries => by
      rw [Value.text, prints]
      cases entries.any (·.1 == lit "toString") <;> rfl

theorem itemTexts_isSome : ∀ items : List Value,
    (Value.itemTexts items).isSome = printsAll false items
  | [] => rfl
  | .undefined :: rest => by
      rw [Value.itemTexts, Option.isSome_map, itemTexts_isSome rest]
      rfl
  | .null :: rest => by
      rw [Value.itemTexts, Option.isSome_map, itemTexts_isSome rest]
      rfl
  | .primitive text :: rest => by
      have hrest := itemTexts_isSome rest
      rw [printsAll, ← hrest]
      simp only [Value.itemTexts, Value.text, prints, Bool.true_and]
      cases Value.itemTexts rest <;> rfl
  | .string text :: rest => by
      have hrest := itemTexts_isSome rest
      rw [printsAll, ← hrest]
      simp only [Value.itemTexts, Value.text, prints, Bool.true_and]
      cases Value.itemTexts rest <;> rfl
  | .array items :: rest => by
      have hfirst := text_isSome (.array items)
      have hrest := itemTexts_isSome rest
      rw [printsAll, ← hrest, ← hfirst]
      simp only [Value.itemTexts]
      cases Value.text (.array items) <;> cases Value.itemTexts rest <;> rfl
  | .object entries :: rest => by
      have hfirst := text_isSome (.object entries)
      have hrest := itemTexts_isSome rest
      rw [printsAll, ← hrest, ← hfirst]
      simp only [Value.itemTexts]
      cases Value.text (.object entries) <;> cases Value.itemTexts rest <;> rfl

end

section Reads

variable (secrets : List Units)

/-- `sanitizeSideEffectTextList` reads the list to its end. -/
def listReads (values : Value) : Bool :=
  !values.truthy ||
    match values with
    | .array items => printsAll (hidden secrets "toString") items
    | _ => false

/-- The destination of a network call can be read and printed. -/
def callReads (call : Value) : Bool :=
  match call with
  | .undefined | .null => false
  | call => hidden secrets "destination" ||
      prints (hidden secrets "toString") (call.get "destination")

def callsRead (values : Value) : Bool :=
  !values.truthy ||
    match values with
    | .array calls => calls.all (callReads secrets)
    | _ => false

/-- Nothing that the summary of the side effects reads throws. -/
def sideEffectsRead (sideEffects : Value) : Bool :=
  (["filesCreated", "filesModified", "filesDeleted", "commandsExecuted"].all fun name =>
    hidden secrets name || listReads secrets (sideEffects.get name)) &&
    (hidden secrets "networkCalls" || callsRead secrets (sideEffects.get "networkCalls"))

/-- A list of references, or nothing. -/
def isReferenceList (values : Value) : Bool :=
  !values.truthy ||
    match values with
    | .array _ => true
    | _ => false

/-- An error with a message, or nothing. -/
def isAdapterError (error : Value) : Bool :=
  !error.truthy ||
    match error.get "message" with
    | .string _ => true
    | _ => false

/-- `normalizeAdapterResult` reads the value to the end. -/
def wellShaped (adapterResult : Value) : Bool :=
  isAdapterError (adapterResult.get "error") &&
    (hidden secrets "sideEffects" ||
      sideEffectsRead secrets
        ((adapterResult.get "providerExecutionMetadata").get "sideEffects")) &&
    isReferenceList (adapterResult.get "artifactReferences") &&
    isReferenceList (adapterResult.get "evidenceReferences")

end Reads

section Normalizes

variable {secrets : List Units} {key : Units}

theorem any_key_eq (name : Units) (entries : List (Units × Value)) :
    entries.any (·.1 == name) = (entries.find? (·.1 == name)).isSome := by
  rw [Bool.eq_iff_iff, List.find?_isSome, List.any_eq_true]

mutual

theorem prints_cleaned (hkey : isSecretKey key = false) : ∀ value : Value,
    prints false (cleaned secrets key value) = prints (hidden secrets "toString") value
  | .undefined => by rw [cleaned_plain hkey (.inl rfl)]; rfl
  | .null => by rw [cleaned_plain hkey (.inr (.inl rfl))]; rfl
  | .primitive text => by rw [cleaned_plain hkey (.inr (.inr ⟨text, rfl⟩))]; rfl
  | .string text => by
      obtain ⟨text', htext', -⟩ : ∃ text', cleaned secrets key (.string text) =
        .string text' ∧ (text' = [] ↔ text = []) := cleaned_string hkey text
      rw [htext']
      rfl
  | .array items => by
      rw [cleaned_array hkey, prints, prints, printsAll_cleaned hkey items]
  | .object entries => by
      have hname : Readable "toString" := by decide
      rw [cleaned_object hkey, prints, prints, Bool.false_or, any_key_eq]
      cases hhidden : hidden secrets "toString" with
      | true => rw [find_redactEntries_hidden hname secrets hhidden]; rfl
      | false =>
          rw [find_redactEntries hname secrets hhidden _ _ (by simp), find_sanitizeEntries hname,
            Option.isSome_map, Option.isSome_map, ← any_key_eq, Bool.false_or]

theorem printsAll_cleaned (hkey : isSecretKey key = false) : ∀ items : List Value,
    printsAll false (items.map (cleaned secrets key)) =
      printsAll (hidden secrets "toString") items
  | [] => rfl
  | value :: rest => by
      rw [List.map_cons, printsAll, printsAll, prints_cleaned hkey value,
        printsAll_cleaned hkey rest]

end

theorem mapM_isSome {f : Value → Option Value} (values : List Value) :
    (values.mapM f).isSome = values.all fun value => (f value).isSome := by
  induction values with
  | nil => rfl
  | cons value values ih =>
      rw [List.mapM_cons, List.all_cons, ← ih]
      cases f value with
      | none => rfl
      | some result => cases values.mapM f <;> rfl

theorem printsAll_eq_all (masked : Bool) (items : List Value) :
    printsAll masked items = items.all (prints masked) := by
  induction items with
  | nil => rfl
  | cons value rest ih => rw [printsAll, ih, List.all_cons]

/-! ### A value as it is -/

theorem sanitizeSideEffectTextList_isSome (values : Value) :
    (sanitizeSideEffectTextList values secrets).isSome = listReads [] values := by
  unfold sanitizeSideEffectTextList listReads
  cases values.truthy with
  | false => rfl
  | true =>
      cases values with
      | undefined | null | primitive | string | object => rfl
      | array items =>
          change (List.mapM (m := Option) _ items).isSome = printsAll false items
          rw [mapM_isSome, printsAll_eq_all]
          refine congrArg (List.all _) (funext fun value => ?_)
          rw [Option.isSome_map, text_isSome]

theorem redactNetworkCall_isSome (call : Value) :
    (redactNetworkCall secrets call).isSome = callReads [] call := by
  cases call with
  | undefined | null => rfl
  | primitive | string | array | object =>
      unfold redactNetworkCall
      rw [Option.isSome_map]
      change _ = prints false (Value.get "destination" _)
      generalize Value.get "destination" _ = destination
      cases destination with
      | undefined | null => rfl
      | primitive | string | array | object => exact text_isSome _

theorem redactNetworkCalls_isSome (values : Value) :
    (redactNetworkCalls values secrets).isSome = callsRead [] values := by
  unfold redactNetworkCalls callsRead
  cases values.truthy with
  | false => rfl
  | true =>
      cases values with
      | undefined | null | primitive | string | object => rfl
      | array calls =>
          change (List.mapM (m := Option) _ calls).isSome = calls.all (callReads [])
          rw [mapM_isSome]
          exact congrArg (List.all _) (funext redactNetworkCall_isSome)

/-! ### A cleaned value -/

/-- A condition on lists that is kept by cleaning when it is kept for arrays. -/
theorem listed_cleaned (hkey : isSecretKey key = false) {p q : List Value → Bool}
    (hpq : ∀ items : List Value, p (items.map (cleaned secrets key)) = q items) (values : Value) :
    (!(cleaned secrets key values).truthy || match cleaned secrets key values with
      | .array items => p items
      | _ => false) =
    (!values.truthy || match values with
      | .array items => q items
      | _ => false) := by
  rw [cleaned_truthy hkey]
  refine congrArg _ ?_
  cases values with
  | undefined => rw [cleaned_plain hkey (.inl rfl)]
  | null => rw [cleaned_plain hkey (.inr (.inl rfl))]
  | primitive text => rw [cleaned_plain hkey (.inr (.inr ⟨text, rfl⟩))]
  | string text =>
      obtain ⟨text', htext', -⟩ : ∃ text', cleaned secrets key (.string text) =
        .string text' ∧ (text' = [] ↔ text = []) := cleaned_string hkey text
      rw [htext']
  | object entries => rw [cleaned_object hkey]
  | array items =>
      rw [cleaned_array hkey]
      exact hpq items

theorem listReads_cleaned (hkey : isSecretKey key = false) (values : Value) :
    listReads [] (cleaned secrets key values) = listReads secrets values :=
  listed_cleaned hkey (printsAll_cleaned hkey) values

theorem callReads_cleaned (hkey : isSecretKey key = false) (call : Value) :
    callReads [] (cleaned secrets key call) = callReads secrets call := by
  have hname : Readable "destination" := by decide
  have hget : prints false ((cleaned secrets key call).get "destination") =
      (hidden secrets "destination" ||
        prints (hidden secrets "toString") (call.get "destination")) := by
    rw [get_cleaned hkey hname]
    cases hidden secrets "destination" with
    | true => rfl
    | false => exact prints_cleaned hname.unmasked _
  cases call with
  | undefined => rw [cleaned_plain hkey (.inl rfl)]; rfl
  | null => rw [cleaned_plain hkey (.inr (.inl rfl))]; rfl
  | primitive text =>
      rw [cleaned_plain hkey (.inr (.inr ⟨text, rfl⟩))] at hget ⊢
      exact hget
  | string text =>
      obtain ⟨text', htext', -⟩ : ∃ text', cleaned secrets key (.string text) =
        .string text' ∧ (text' = [] ↔ text = []) := cleaned_string hkey text
      rw [htext'] at hget ⊢
      exact hget
  | array items =>
      rw [cleaned_array hkey] at hget ⊢
      exact hget
  | object entries =>
      rw [cleaned_object hkey] at hget ⊢
      exact hget

theorem callsRead_cleaned (hkey : isSecretKey key = false) (values : Value) :
    callsRead [] (cleaned secrets key values) = callsRead secrets values := by
  refine listed_cleaned hkey (fun items => ?_) values
  rw [List.all_map]
  exact congrArg (List.all _) (funext fun call => callReads_cleaned hkey call)

theorem sideEffectsRead_cleaned (hkey : isSecretKey key = false) (sideEffects : Value) :
    sideEffectsRead [] (cleaned secrets key sideEffects) =
      sideEffectsRead secrets sideEffects := by
  have hlist : ∀ name, Readable name →
      listReads [] ((cleaned secrets key sideEffects).get name) =
        (hidden secrets name || listReads secrets (sideEffects.get name)) := by
    intro name hname
    rw [get_cleaned hkey hname]
    cases hidden secrets name with
    | true => rfl
    | false => exact listReads_cleaned hname.unmasked _
  have hcalls : callsRead [] ((cleaned secrets key sideEffects).get "networkCalls") =
      (hidden secrets "networkCalls" ||
        callsRead secrets (sideEffects.get "networkCalls")) := by
    have hname : Readable "networkCalls" := by decide
    rw [get_cleaned hkey hname]
    cases hidden secrets "networkCalls" with
    | true => rfl
    | false => exact callsRead_cleaned hname.unmasked _
  have hshown : ∀ name, hidden [] name = false := fun _ => rfl
  simp only [sideEffectsRead, List.all_cons, List.all_nil, hshown, Bool.false_or, hcalls,
    hlist "filesCreated" (by decide), hlist "filesModified" (by decide),
    hlist "filesDeleted" (by decide), hlist "commandsExecuted" (by decide)]

/-! ### A result -/

/-- The metadata of a value of any shape, as an object that has been cleaned. -/
theorem get_metadata {name : String} (hname : Readable name)
    (hletter : (lit name).all isDigit = false) (metadata : Value) :
    (Value.object (redactEntries secrets [] (sanitizeProviderExecutionMetadata metadata))).get
        name =
      if hidden secrets name then .undefined
      else cleaned secrets (lit name) (metadata.get name) := by
  have hempty : isSecretKey [] = false := by decide
  have hobject : ∀ entries : List (Units × Value),
      (Value.object (redactEntries secrets [] (sanitizeEntries entries))).get name =
        if hidden secrets name then .undefined
        else cleaned secrets (lit name) ((Value.object entries).get name) := by
    intro entries
    rw [← cleaned_object hempty]
    exact get_cleaned hempty hname _
  have hnothing : cleaned secrets (lit name) .undefined = .undefined :=
    cleaned_plain hname.unmasked (.inl rfl)
  cases metadata with
  | object entries => exact hobject entries
  | array items =>
      rw [sanitizeProviderExecutionMetadata, hobject]
      have hfree : (indexed items).find? (·.1 == lit name) = none := by
        rw [List.find?_eq_none]
        rintro ⟨k, value⟩ hmem
        obtain ⟨⟨v, i⟩, -, heq⟩ := List.mem_map.mp hmem
        have hk := congrArg Prod.fst heq
        dsimp only at hk ⊢
        rw [← hk, beq_iff_eq]
        intro heq
        rw [← heq, ← Bool.not_eq_true, List.all_eq_true] at hletter
        exact hletter fun unit hunit => isDigit_of_mem_index i hunit
      rw [Value.get, hfree]
      rfl
  | undefined | null | primitive | string =>
      simp [sanitizeProviderExecutionMetadata, redactEntries, Value.get, hnothing]

theorem sideEffectsRead_plain (sideEffects : Value) :
    sideEffectsRead [] sideEffects =
      (listReads [] (sideEffects.get "filesCreated") &&
        listReads [] (sideEffects.get "filesModified") &&
        listReads [] (sideEffects.get "filesDeleted") &&
        listReads [] (sideEffects.get "commandsExecuted") &&
        callsRead [] (sideEffects.get "networkCalls")) := by
  simp [sideEffectsRead, hidden, Bool.and_assoc]

theorem resolvedReferences_isSome (values : Value) :
    (resolvedReferences values secrets).isSome = isReferenceList values := by
  unfold resolvedReferences isReferenceList
  cases values.truthy with
  | false => rfl
  | true => cases values <;> rfl

theorem resolvedError_isSome (error status : Value) :
    (resolvedError error status secrets).isSome = isAdapterError error := by
  unfold resolvedError isAdapterError
  cases error.truthy with
  | false => rfl
  | true => cases error.get "message" <;> rfl

theorem isSome_bind {α β : Type} {o : Option α} {f : α → Option β} {b : Bool}
    (h : ∀ a, (f a).isSome = b) : (o.bind f).isSome = (o.isSome && b) := by
  cases o with
  | none => rfl
  | some a => exact h a

/-- A value is normalized exactly when it is well shaped. -/
theorem resolvedResult_isSome (copied : CopiedFields) (adapterResult : Value) :
    (resolvedResult copied adapterResult secrets).isSome =
      wellShaped secrets adapterResult := by
  have hpure : ∀ value : Value, (pure value : Option Value).isSome = true := fun _ => rfl
  have hsideEffects : sideEffectsRead [] ((Value.object (redactEntries secrets []
      (sanitizeProviderExecutionMetadata (adapterResult.get "providerExecutionMetadata")))).get
        "sideEffects") =
      (hidden secrets "sideEffects" || sideEffectsRead secrets
        ((adapterResult.get "providerExecutionMetadata").get "sideEffects")) := by
    have hname : Readable "sideEffects" := by decide
    rw [get_metadata hname]
    · cases hidden secrets "sideEffects" with
      | true => rfl
      | false => exact sideEffectsRead_cleaned hname.unmasked _
    · decide
  rw [sideEffectsRead_plain] at hsideEffects
  simp only [resolvedResult, Option.bind_eq_bind]
  refine (isSome_bind fun _ => isSome_bind fun _ => isSome_bind fun _ => isSome_bind fun _ =>
    isSome_bind fun _ => isSome_bind fun _ => isSome_bind fun _ => isSome_bind fun _ =>
      hpure _).trans ?_
  simp only [resolvedError_isSome, sanitizeSideEffectTextList_isSome, redactNetworkCalls_isSome,
    resolvedReferences_isSome, wellShaped]
  rw [← hsideEffects]
  simp only [Bool.and_assoc, Bool.and_true]

end Normalizes

end Invocation
