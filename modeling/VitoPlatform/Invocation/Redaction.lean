import VitoPlatform.Library.Replacement
import VitoPlatform.Invocation.Types

/-!
# The leakage boundary of an invocation

What `normalizeAdapterResult`, `createRuntimeFailureResult` and
`normalizeAdapterRuntimeFailure` make of the data an adapter returns or throws, with
`sanitizeProviderExecutionMetadata` and the redactions they use. The decision which of them
runs is in `Invoke`; here is the data they put into the result.

Texts are sequences of UTF-16 code units, as the string operations and the length limits of
the source see them. The data of an adapter is a JSON-like value: `Object.entries` and
property access see own properties, a `Date` has none. A property named `__proto__` is never
created by an assignment.
-/

namespace Invocation

open Text Replacement

/-! ## Values -/

abbrev Units := List UInt16

/-- The code units of a character. -/
def unitsOfChar (c : Char) : Units :=
  let n := c.toNat
  if n < 0x10000 then [UInt16.ofNat n]
  else
    [UInt16.ofNat (0xD800 + (n - 0x10000) / 0x400),
      UInt16.ofNat (0xDC00 + (n - 0x10000) % 0x400)]

def units (text : Str) : Units := text.flatMap unitsOfChar

/-- The code units of a literal. -/
def lit (text : String) : Units := units text.toList

inductive Value where
  | undefined
  | null
  /-- A boolean or a number, with its `String(value)`. -/
  | primitive (text : Units)
  | string (text : Units)
  | array (items : List Value)
  | object (entries : List (Units × Value))

/-- `value.key`, of own properties. -/
def Value.get (key : String) : Value → Value
  | .object entries => ((entries.find? (·.1 == lit key)).map (·.2)).getD .undefined
  | _ => .undefined

def Value.truthy : Value → Bool
  | .undefined | .null => false
  | .primitive text => text != lit "false" && text != lit "0" && text != lit "NaN"
  | .string text => text != []
  | .array _ | .object _ => true

/-- The keys of an array. -/
def indexed (values : List Value) : List (Units × Value) :=
  values.zipIdx.map fun (value, i) => (units (Nat.toDigits 10 i), value)

/-- `{ ...value }`. -/
def Value.spread : Value → List (Units × Value)
  | .object entries => entries
  | .array items => indexed items
  | .string text => indexed (text.map fun unit => .string [unit])
  | .undefined | .null | .primitive _ => []

mutual

/-- `String(value)`, or `none` for a `TypeError`: an object with a property `toString`. -/
def Value.text : Value → Option Units
  | .undefined => some (lit "undefined")
  | .null => some (lit "null")
  | .primitive text => some text
  | .string text => some text
  | .array items => (Value.itemTexts items).map ([44].intercalate ·)
  | .object entries =>
      if entries.any (·.1 == lit "toString") then none else some (lit "[object Object]")

/-- The texts that `join` puts together. -/
def Value.itemTexts : List Value → Option (List Units)
  | [] => some []
  | .undefined :: rest | .null :: rest => (Value.itemTexts rest).map ([] :: ·)
  | value :: rest =>
      match value.text, Value.itemTexts rest with
      | some text, some texts => some (text :: texts)
      | _, _ => none

end

/-! ## Patterns -/

def between (low high : Char) (u : UInt16) : Bool :=
  low.toNat ≤ u.toNat && u.toNat ≤ high.toNat

def isUpper : UInt16 → Bool := between 'A' 'Z'
def isLower : UInt16 → Bool := between 'a' 'z'
def isDigit : UInt16 → Bool := between '0' '9'
def isAlnum (u : UInt16) : Bool := isUpper u || isLower u || isDigit u

/-- One of the characters of the text. -/
def oneOf (chars : String) (u : UInt16) : Bool := (lit chars).contains u

def alnumOr (chars : String) (u : UInt16) : Bool := isAlnum u || oneOf chars u

/-- The class `\s`, within one code unit. -/
def isSpaceUnit (u : UInt16) : Bool := isSpace (Char.ofNat u.toNat)

/-- A character in either case. -/
def sameLetter (c u : UInt16) : Bool :=
  u == c || (isLower c && u.toNat + 32 == c.toNat) || (isUpper c && c.toNat + 32 == u.toNat)

/-- The literal text. -/
def word (text : String) : Pattern UInt16 := .concat ((lit text).map fun c => .char (· == c))

/-- The literal text with the flag `i`. -/
def wordIgnoringCase (text : String) : Pattern UInt16 :=
  .concat ((lit text).map fun c => .char (sameLetter c))

def boundary : Pattern UInt16 := .boundary fun u => isAlnum u || u == 95

def spaces : Pattern UInt16 := .many 1 isSpaceUnit

def leakSecretTextPatterns : List (Pattern UInt16) :=
  [.concat [word "-----BEGIN", spaces, .opt (.seq (word "RSA") spaces),
      .opt (.seq (word "EC") spaces), word "PRIVATE", spaces, word "KEY-----",
      .few fun _ => true,
      .alt (.concat [word "-----END", spaces,
        .opt (.seq (.many 1 fun u => isUpper u || isDigit u) spaces), word "PRIVATE", spaces,
        word "KEY-----"]) .finish],
    .concat [boundary, word "Bearer", spaces, .many 20 (alnumOr "._-"), boundary],
    .concat [boundary, word "Basic", spaces, .many 20 (alnumOr "+/="), boundary],
    .concat [boundary, word "eyJhbGciOi", .many 1 (alnumOr "._-"), word ".eyJ",
      .many 1 (alnumOr "._-")],
    .concat [boundary, .alt (word "sk") (word "pk"), word "_",
      .alt (word "live") (word "test"), word "_", .many 16 isAlnum, boundary],
    .concat [boundary, word "gh", .char (oneOf "posr"), word "_", .many 20 isAlnum, boundary],
    .concat [boundary, word "xox", .char (oneOf "bpsa"), word "-", .many 10 (alnumOr "-"),
      boundary],
    .concat ([boundary, word "AKIA"] ++
      List.replicate 16 (.char fun u => isUpper u || isDigit u) ++ [boundary])]

def secretKeyPatterns : List (Pattern UInt16) :=
  ["authorization", "bearer", "token", "apikey", "api_key", "password", "secret"].map
      wordIgnoringCase ++
    [.concat [wordIgnoringCase "private", .opt (.char (oneOf "_-")), wordIgnoringCase "key"],
      wordIgnoringCase "jwt",
      .concat [wordIgnoringCase "connection", .opt (.char (oneOf "_-")), wordIgnoringCase "string"],
      wordIgnoringCase "credential",
      .concat [wordIgnoringCase "access", .opt (.char (oneOf "_-")), wordIgnoringCase "key"],
      .concat [wordIgnoringCase "secret", .opt (.char (oneOf "_-")), wordIgnoringCase "key"]]

def secretValuePatterns : List (Pattern UInt16) :=
  [.concat [.start, .many 40 (alnumOr "+/=_"), .finish],
    .concat [.start, wordIgnoringCase "Bearer", spaces, .many 20 (alnumOr "._-"), .finish],
    .concat [.start, wordIgnoringCase "Basic", spaces, .many 20 (alnumOr "+/="), .finish],
    .concat [.start, word "eyJhbGciOi", .many 1 (alnumOr "._-"), word ".eyJ",
      .many 1 (alnumOr "._-")],
    .concat [.start, word "sk_live_", .many 20 isAlnum, .finish],
    .concat [.start, word "pk_live_", .many 20 isAlnum, .finish],
    .concat [.start, word "ghp_", .many 20 isAlnum, .finish],
    .concat [.start, word "gho_", .many 20 isAlnum, .finish],
    .concat [.start, word "xox", .char (oneOf "bpsa"), word "-", .many 10 (alnumOr "-"),
      .finish],
    .concat ([.start, word "AKIA"] ++
      List.replicate 16 (.char fun u => isUpper u || isDigit u) ++ [.finish]),
    .concat [.start, word "-----BEGIN", spaces, .opt (.seq (word "RSA") spaces),
      word "PRIVATE", spaces, word "KEY-----"],
    .concat [.start, word "-----BEGIN", spaces, word "CERTIFICATE-----"]]

/-! ## Sanitizing metadata -/

def redacted : Units := lit "[REDACTED]"

def isSecretKey (key : Units) : Bool := secretKeyPatterns.any (·.test key)

def isSecretValue (text : Units) : Bool := secretValuePatterns.any (·.test text)

mutual

def sanitizeValue (key : Units) (value : Value) : Value :=
  if isSecretKey key then .string redacted
  else
    match value with
    | .string text => if isSecretValue text then .string redacted else .string text
    | .object entries => .object (sanitizeEntries entries)
    | .array items => .array (sanitizeItems key items)
    | .undefined => .undefined
    | .null => .null
    | .primitive text => .primitive text

def sanitizeItems (key : Units) : List Value → List Value
  | [] => []
  | value :: rest => sanitizeValue key value :: sanitizeItems key rest

def sanitizeEntries : List (Units × Value) → List (Units × Value)
  | [] => []
  | (key, value) :: rest =>
      if key = lit "__proto__" then sanitizeEntries rest
      else (key, sanitizeValue key value) :: sanitizeEntries rest

end

/-- The own properties of the sanitized metadata. -/
def sanitizeProviderExecutionMetadata : Value → List (Units × Value)
  | .object entries => sanitizeEntries entries
  | .array items => sanitizeEntries (indexed items)
  | _ => []

/-! ## Redaction -/

/-- `redactExactSecretValues`. -/
def redactExactSecretValues (text : Units) : List Units → Units
  | [] => text
  | secret :: secrets =>
      redactExactSecretValues
        (if secret ≠ [] ∧ text.tails.any (secret.isPrefixOf ·) then
          redacted.intercalate (split secret text)
        else text)
        secrets

mutual

def redactTrustedSecretsDeep (secrets : List Units) : Value → Value
  | .string text => .string (redactExactSecretValues text secrets)
  | .array items => .array (redactItems secrets items)
  | .object entries => .object (redactEntries secrets [] entries)
  | .undefined => .undefined
  | .null => .null
  | .primitive text => .primitive text

def redactItems (secrets : List Units) : List Value → List Value
  | [] => []
  | value :: rest => redactTrustedSecretsDeep secrets value :: redactItems secrets rest

/-- The first entry wins among those whose keys are the same after redaction. -/
def redactEntries (secrets : List Units) (seen : List Units) :
    List (Units × Value) → List (Units × Value)
  | [] => []
  | (key, value) :: rest =>
      let safeKey := redactExactSecretValues key secrets
      if seen.contains safeKey || safeKey == lit "__proto__" then redactEntries secrets seen rest
      else
        (safeKey, redactTrustedSecretsDeep secrets value) ::
          redactEntries secrets (safeKey :: seen) rest

end

def maxSafeTextLength : Nat := 2000

def ellipsis : Units := [0x2026]

/-- At most 2000 code units, with an ellipsis if there were more. -/
def limitText (text : Units) : Units :=
  if text.length > maxSafeTextLength then text.take maxSafeTextLength ++ ellipsis else text

def redactSecretMaterial (text : Units) (secrets : List Units) : Units :=
  limitText (leakSecretTextPatterns.foldl (fun text pattern =>
    replaceMatches pattern redacted text) (redactExactSecretValues text secrets))

def containsSecretMaterial (value : Units) (secrets : List Units) : Bool :=
  secrets.any (fun secret => secret.length > 0 && value.tails.any (secret.isPrefixOf ·)) ||
    leakSecretTextPatterns.any (·.test value)

def maxGovernedReferenceLength : Nat := 512

/-- A `gov` reference: the scheme and at least one permitted character. -/
def isGovernedReference (value : Units) : Bool :=
  (lit "gov://").isPrefixOf value && value.length > 6 &&
    (value.drop 6).all (alnumOr "._~:/?#%-")

def sanitizeGovernedReference (value : Value) (secrets : List Units) : Option Units :=
  match value with
  | .string text =>
      if text.length = 0 ∨ text.length > maxGovernedReferenceLength ∨
          !isGovernedReference text then none
      else if containsSecretMaterial text secrets then none
      else some text
  | _ => none

def sanitizeGovernedReferenceList (values : Option (List Value)) (secrets : List Units) :
    List Units :=
  (values.getD []).filterMap (sanitizeGovernedReference · secrets)

/-! ## Results -/

structure AdapterError where
  message : Units
  retryable : Bool
  providerMetadata : Value

/-- The data of an adapter's result. -/
structure AdapterResult where
  status : Units
  outputReference : Value
  artifactReferences : Option (List Value)
  evidenceReferences : Option (List Value)
  providerExecutionMetadata : Value
  usageMetadata : Value
  error : Option AdapterError

/-- How the productive call of the adapter ends. -/
inductive AdapterOutcome where
  | returned (result : AdapterResult)
  | timedOut (timeoutMs : Int)
  /-- `error.message`, or `String(error)` of what is no `Error`. -/
  | threw (rawMessage : Units)

/-- The fields of a result that come from the request, the provider and the decision. -/
structure CopiedFields where
  invocationId : Units
  organizationId : Units
  workflowRunId : Units
  workflowStepRunId : Units
  correlationId : Units
  capabilityCode : Units
  providerId : Units
  policyDecisionReference : Units

/-- The value of a member of the enumeration. -/
def AgentExecutionStatus.name : AgentExecutionStatus → String
  | .queued => "QUEUED"
  | .starting => "STARTING"
  | .running => "RUNNING"
  | .succeeded => "SUCCEEDED"
  | .failed => "FAILED"
  | .timedOut => "TIMED_OUT"
  | .cancelled => "CANCELLED"
  | .policyBlocked => "POLICY_BLOCKED"
  | .quotaBlocked => "QUOTA_BLOCKED"

/-- `sanitizeSideEffectTextList`, or `none` for a `TypeError`. -/
def sanitizeSideEffectTextList (values : Value) (secrets : List Units) : Option (List Value) :=
  if !values.truthy then some []
  else
    match values with
    | .array items => items.mapM fun value =>
        value.text.map fun text => Value.string (redactSecretMaterial text secrets)
    | _ => none

/-- `{ ...entries, key: value }`. -/
def setEntry (key : Units) (value : Value) (entries : List (Units × Value)) :
    List (Units × Value) :=
  if entries.any (·.1 == key) then
    entries.map fun entry => if entry.1 == key then (key, value) else entry
  else entries ++ [(key, value)]

/-- A network call with its destination redacted. -/
def redactNetworkCall (secrets : List Units) (call : Value) : Option Value :=
  match call with
  | .undefined | .null => none
  | call =>
      let destination : Value := match call.get "destination" with
        | .undefined | .null => .string []
        | value => value
      destination.text.map fun text =>
        Value.object (setEntry (lit "destination")
          (.string (redactSecretMaterial text secrets)) call.spread)

def redactNetworkCalls (values : Value) (secrets : List Units) : Option (List Value) :=
  if !values.truthy then some []
  else
    match values with
    | .array calls => calls.mapM (redactNetworkCall secrets)
    | _ => none

def stringValues (texts : List Units) : Value := .array (texts.map .string)

/-- An object with literal keys. -/
def record (entries : List (String × Value)) : Value :=
  .object (entries.map fun (key, value) => (lit key, value))

def optionalString : Option Units → Value
  | some text => .string text
  | none => .undefined

/-- The own properties of a result, from those that differ between the paths. -/
def resultEntries (copied : CopiedFields) (status : Value) (rest : List (String × Value)) :
    Value :=
  record ([("invocationId", .string copied.invocationId),
    ("organizationId", .string copied.organizationId),
    ("workflowRunId", .string copied.workflowRunId),
    ("workflowStepRunId", .string copied.workflowStepRunId),
    ("correlationId", .string copied.correlationId),
    ("capabilityCode", .string copied.capabilityCode),
    ("providerId", .string copied.providerId),
    ("policyDecisionReference", .string copied.policyDecisionReference),
    ("status", status), ("startedAt", .primitive []), ("completedAt", .primitive []),
    ("durationMs", .primitive [])] ++ rest)

def errorEntries (message : Units) (executionOutcome agentExecutionStatus : Value)
    (retryable : Bool) (providerMetadata : Value) : Value :=
  record [("reason", .string (lit "EXECUTION_FAILED")), ("message", .string message),
    ("executionOutcome", executionOutcome), ("agentExecutionStatus", agentExecutionStatus),
    ("retryable", .primitive (lit (toString retryable))), ("providerMetadata", providerMetadata)]

def sideEffectEntries (filesCreated filesModified filesDeleted commandsExecuted networkCalls :
    List Value) (artifactsCreated : List Units) : Value :=
  record [("filesCreated", .array filesCreated), ("filesModified", .array filesModified),
    ("filesDeleted", .array filesDeleted), ("commandsExecuted", .array commandsExecuted),
    ("networkCalls", .array networkCalls), ("artifactsCreated", stringValues artifactsCreated)]

/-- `sanitizeErrorProviderMetadata`, redacted. -/
def errorProviderMetadata (metadata : Value) (secrets : List Units) : Value :=
  if metadata.truthy then
    redactTrustedSecretsDeep secrets (.object (sanitizeProviderExecutionMetadata metadata))
  else .undefined

/-- `normalizeAdapterResult`: the result, or `none` for a `TypeError`. -/
def normalizedResult (copied : CopiedFields) (adapterResult : AdapterResult)
    (secrets : List Units) : Option Value := do
  let metadata := redactEntries secrets []
    (sanitizeProviderExecutionMetadata adapterResult.providerExecutionMetadata)
  let sideEffects := (Value.object metadata).get "sideEffects"
  let filesCreated ← sanitizeSideEffectTextList (sideEffects.get "filesCreated") secrets
  let filesModified ← sanitizeSideEffectTextList (sideEffects.get "filesModified") secrets
  let filesDeleted ← sanitizeSideEffectTextList (sideEffects.get "filesDeleted") secrets
  let commandsExecuted ← sanitizeSideEffectTextList (sideEffects.get "commandsExecuted") secrets
  let networkCalls ← redactNetworkCalls (sideEffects.get "networkCalls") secrets
  let artifacts := sanitizeGovernedReferenceList adapterResult.artifactReferences secrets
  pure (resultEntries copied (.string adapterResult.status)
    [("outputReference",
        optionalString (sanitizeGovernedReference adapterResult.outputReference secrets)),
      ("artifactReferences", stringValues artifacts),
      ("evidenceReferences", stringValues
        (sanitizeGovernedReferenceList adapterResult.evidenceReferences secrets)),
      ("providerExecutionMetadata",
        .object (metadata.filter fun entry => entry.1 != lit "sideEffects")),
      ("normalizedError", match adapterResult.error with
        | some error =>
            errorEntries (redactSecretMaterial error.message secrets) .undefined
              (.string adapterResult.status) error.retryable
              (errorProviderMetadata error.providerMetadata secrets)
        | none => .undefined),
      ("sideEffectSummary", sideEffectEntries filesCreated filesModified filesDeleted
        commandsExecuted networkCalls artifacts),
      ("usageMetadata",
        if adapterResult.usageMetadata.truthy then
          .object (redactEntries secrets []
            (sanitizeProviderExecutionMetadata adapterResult.usageMetadata))
        else .undefined)])

/-- `createRuntimeFailureResult`. -/
def runtimeFailureResult (copied : CopiedFields) (status : AgentExecutionStatus)
    (message : Units) (providerMetadata : Value) (secrets : List Units) : Value :=
  let statusValue : Value := .string (lit status.name)
  resultEntries copied statusValue
    [("providerExecutionMetadata", .object []),
      ("normalizedError", errorEntries (redactSecretMaterial message secrets)
        (if status = .timedOut then .string (lit "TIMED_OUT") else .undefined) statusValue false
        (errorProviderMetadata providerMetadata secrets)),
      ("sideEffectSummary", sideEffectEntries [] [] [] [] [] [])]

/-- The statuses that the productive call may end with. -/
def isTerminalStatus (status : Units) : Bool :=
  (validInvocationTransitions .running).any fun target => lit target.name == status

/-- The result of an invocation whose adapter was called, for every way the call can end:
`none` where normalizing throws. -/
def resultOfOutcome (copied : CopiedFields) (credentialReference : Option Units) :
    AdapterOutcome → Option Value
  | .returned adapterResult =>
      let secrets := (credentialReference.filter (· ≠ [])).toList
      if isTerminalStatus adapterResult.status then
        normalizedResult copied adapterResult secrets
      else
        some (runtimeFailureResult copied .failed
          (lit "EXECUTION_FAILED: Adapter returned illegal non-terminal lifecycle status \"" ++
            adapterResult.status ++ lit "\" as terminal result")
          (record [("rejectedLifecycleStatus", .string adapterResult.status)]) secrets)
  | .timedOut timeoutMs =>
      some (runtimeFailureResult copied .timedOut
        (lit ("EXECUTION_FAILED: Adapter execution did not return within the governed time " ++
          "budget of " ++ toString timeoutMs ++ "ms")) .undefined
        (credentialReference.filter (· ≠ [])).toList)
  | .threw rawMessage =>
      some (runtimeFailureResult copied .failed
        (lit "EXECUTION_FAILED: Adapter execution failed: " ++ limitText rawMessage) .undefined
        (credentialReference.filter (· ≠ [])).toList)

end Invocation
