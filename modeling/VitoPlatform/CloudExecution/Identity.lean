import VitoPlatform.Library.Text
import VitoPlatform.Library.Utf8
import Mathlib.Data.List.SplitOn

/-!
# The identity of a launched agent

A cloud agent writes two streams of octets, which arrive in chunks. `BoundedOutputCapture` keeps the
last octets of each; when the agent has ended, `extractProviderIdentity` reads the identity from the
lines of what has been kept, and `evaluateProviderIdentity` compares it with the expected one.
-/

namespace CloudExecution

open Text

/-! ## Captured output -/

def MAX_OUTPUT_BYTES : Nat := 256 * 1024

/-- `appendBounded`. -/
def appendBounded (current : Str) (chunk : List UInt8) (maxBytes : Nat) : Str :=
  let combined := current ++ Utf8.decode chunk
  let bytes := Utf8.encode combined
  if bytes.length ≤ maxBytes then combined
  else Utf8.decode (bytes.drop (bytes.length - maxBytes))

/-- What a capture holds after the chunks of a stream. -/
def capture (maxBytes : Nat) (chunks : List (List UInt8)) : Str :=
  chunks.foldl (fun current chunk => appendBounded current chunk maxBytes) []

/-- What an agent writes. -/
structure Streams where
  stdout : List (List UInt8)
  stderr : List (List UInt8)

/-- The output that the identity is read from. -/
def Streams.captured (streams : Streams) : Str :=
  capture MAX_OUTPUT_BYTES streams.stdout ++ '\n' :: capture MAX_OUTPUT_BYTES streams.stderr

/-- All that has been written. -/
def Streams.complete (streams : Streams) : Str :=
  Utf8.decode streams.stdout.flatten ++ '\n' :: Utf8.decode streams.stderr.flatten

/-! ## Reading the lines -/

/-- `.` of a pattern: anything but the end of a line, and no surrogate pair. -/
def anyChar (c : Char) : Bool :=
  !(c = '\n' || c = '\r' || c.toNat = 0x2028 || c.toNat = 0x2029) && c.toNat < 0x10000

/-- What follows a key, whose dots stand for any character. -/
def matchKey : Str → Str → Option Str
  | [], line => some line
  | _ :: _, [] => none
  | k :: key, c :: line =>
      if (if k = '.' then anyChar c else c = k) then matchKey key line else none

/-- `key=([^\s]+)` at this place. -/
def matchField (key line : Str) : Option Str :=
  (matchKey key line).bind fun rest =>
    match rest with
    | '=' :: rest =>
        let value := rest.takeWhile fun c => !isSpace c
        if value = [] then none else some value
    | _ => none

/-- The first field after white space. -/
def fieldAfterSpace (key : Str) : Str → Option Str
  | [] => none
  | c :: rest =>
      (if isSpace c then matchField key rest else none).or (fieldAfterSpace key rest)

/-- `kv`. -/
def kv (line key : Str) : Option Str := (matchField key line).or (fieldAfterSpace key line)

def isIdChar (c : Char) : Bool := c.isAlphanum || c = '.' || c = '_' || c = ':' || c = '-'

/-- `PROVIDER_ID_PATTERN`. -/
def isValidProviderId (value : Str) : Bool :=
  1 ≤ value.length && value.length ≤ 128 && value.all isIdChar

/-- `MODEL_ID_PATTERN`. -/
def isValidModelId (value : Str) : Bool :=
  1 ≤ value.length && value.length ≤ 128 && value.all fun c => isIdChar c || c = '/'

def isStreamBuildLine (line : Str) : Bool :=
  includes line "message=stream".toList && includes line "agent=build".toList

def isRuntimeSelectedLine (line : Str) : Bool :=
  includes line "llm.provider=".toList && includes line "llm.model=".toList

structure ProviderIdentity where
  providerId : Str
  modelId : Str
  deriving DecidableEq

/-- What a line contributes. -/
inductive Reading where
  | nothing
  | invalid
  | build (identity : ProviderIdentity)
  | runtime (identity : ProviderIdentity)
  deriving DecidableEq

def identityOf (provider model : Str) : Option ProviderIdentity :=
  if isValidProviderId provider && isValidModelId model then some ⟨provider, model⟩ else none

/-- The body of the loop over the lines. -/
def readLine (line : Str) : Reading :=
  if isStreamBuildLine line then
    match kv line "providerID".toList, kv line "modelID".toList with
    | some provider, some model => ((identityOf provider model).map Reading.build).getD .invalid
    | _, _ => .invalid
  else if isRuntimeSelectedLine line then
    match kv line "llm.provider".toList, kv line "llm.model".toList with
    | some provider, some model => ((identityOf provider model).map Reading.runtime).getD .invalid
    | _, _ => .nothing
  else .nothing

/-- The two sets and the flag of the loop. -/
structure Seen where
  builds : List ProviderIdentity
  runtimes : List ProviderIdentity
  sawInvalidToken : Bool

def Seen.add (seen : Seen) : Reading → Seen
  | .nothing => seen
  | .invalid => { seen with sawInvalidToken := true }
  | .build identity => { seen with builds := seen.builds.insert identity }
  | .runtime identity => { seen with runtimes := seen.runtimes.insert identity }

inductive ProviderIdentityErrorCode where
  | missing
  | ambiguous
  | mismatch
  | modelNotAllowed
  deriving DecidableEq

/-- What is concluded from all lines. -/
def Seen.conclude (seen : Seen) : Except ProviderIdentityErrorCode ProviderIdentity :=
  if seen.sawInvalidToken then .error .ambiguous
  else
    match seen.builds, seen.runtimes with
    | [], _ => .error .missing
    | [identity], [] => .ok identity
    | [identity], [runtime] => if runtime = identity then .ok identity else .error .ambiguous
    | _, _ => .error .ambiguous

def lines (output : Str) : List Str := output.splitOn '\n'

def extractProviderIdentity (output : Str) : Except ProviderIdentityErrorCode ProviderIdentity :=
  ((lines output).foldl (fun (seen : Seen) line => seen.add (readLine line))
    ⟨[], [], false⟩).conclude

/-! ## The gate -/

structure ExpectedProviderIdentity where
  providerId : Str
  allowedModelIds : Option (List Str)

/-- No list, and an empty one, allow every model. -/
def ExpectedProviderIdentity.allows (expected : ExpectedProviderIdentity) (modelId : Str) : Bool :=
  match expected.allowedModelIds with
  | none | some [] => true
  | some allowed => modelId ∈ allowed

structure ProviderIdentityError where
  code : ProviderIdentityErrorCode
  message : Str

structure IdentityOutcome where
  observedProviderIdentity : Option ProviderIdentity
  providerIdentityError : Option ProviderIdentityError

def evaluateProviderIdentity (expected : Option ExpectedProviderIdentity) (capturedOutput : Str) :
    IdentityOutcome :=
  match extractProviderIdentity capturedOutput, expected with
  | .error _, none => ⟨none, none⟩
  | .error .missing, some _ => ⟨none, some ⟨.missing,
      "governed cloud execution produced no observable provider identity; failing closed".toList⟩⟩
  | .error code, some _ => ⟨none, some ⟨code,
      "governed cloud execution produced an ambiguous provider identity; failing closed".toList⟩⟩
  | .ok identity, none => ⟨some identity, none⟩
  | .ok identity, some expected =>
      if identity.providerId ≠ expected.providerId then
        ⟨some identity, some ⟨.mismatch, "observed provider '".toList ++ identity.providerId ++
          "' does not match the server-authorized provider '".toList ++ expected.providerId ++
            ['\'']⟩⟩
      else if !expected.allows identity.modelId then
        ⟨some identity, some ⟨.modelNotAllowed, "observed model '".toList ++ identity.modelId ++
          "' is not in the server-authorized model allow-list".toList⟩⟩
      else ⟨some identity, none⟩

/-- The identity outcome of `spawnBounded`. -/
def identityOutcome (expected : Option ExpectedProviderIdentity) (streams : Streams) :
    IdentityOutcome := evaluateProviderIdentity expected streams.captured

/-- `passed` of the postcondition that `mapWorkerResult` reports for a run that is not cancelled. -/
def IdentityOutcome.passed (outcome : IdentityOutcome) : Bool :=
  outcome.providerIdentityError.isNone

end CloudExecution
