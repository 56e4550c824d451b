import VitoPlatform.Invocation.Types

/-!
# Identities of an invocation

`buildGovernedInvocationFingerprint` and `buildGovernedLogicalOperationKey` of
`invocation.ts`. Fields are joined as `label:length:value`, the length in UTF-16 units as the
source counts it.
-/

namespace Invocation

open Text Policy

def executionActionText : ExecutionAction → String
  | .readFile => "READ_FILE"
  | .writeFile => "WRITE_FILE"
  | .createFile => "CREATE_FILE"
  | .deleteFile => "DELETE_FILE"
  | .runCommand => "RUN_COMMAND"
  | .networkAccess => "NETWORK_ACCESS"
  | .readSecret => "READ_SECRET"
  | .gitRead => "GIT_READ"
  | .gitCommit => "GIT_COMMIT"
  | .gitPush => "GIT_PUSH"
  | .gitMerge => "GIT_MERGE"
  | .gitRebase => "GIT_REBASE"
  | .gitBranchDelete => "GIT_BRANCH_DELETE"
  | .remoteRefDelete => "REMOTE_REF_DELETE"

def executionProfileText : ExecutionProfile → String
  | .builder => "BUILDER"
  | .reviewer => "REVIEWER"
  | .orchestrator => "ORCHESTRATOR"
  | .releaseAuthority => "RELEASE_AUTHORITY"

/-- The text of an enumeration value. -/
def enumText {α : Type} (text : α → String) : EnumValue α → Str
  | .known value => (text value).toList
  | .unknown value => value

/-- `value.length`. -/
def utf16Length (value : Str) : Nat :=
  (value.map fun c => if c.toNat ≥ 0x10000 then 2 else 1).sum

/-- `appendLengthPrefixed`: the part a field adds, if it has a value. -/
def lengthPrefixed (label : String) (value : Option Str) : List Str :=
  match value with
  | none => []
  | some text =>
      [label.toList ++ ':' :: (toString (utf16Length text)).toList ++ ':' :: text]

/-- `buildGovernedInvocationFingerprint`. -/
def buildGovernedInvocationFingerprint (request : GovernedCapabilityInvocationRequest)
    (providerId : Str) (executionProfile : ExecutionProfile) : Str :=
  join ['|'] (["v1".toList] ++
    lengthPrefixed "org" (some request.organizationId) ++
    lengthPrefixed "run" (some request.workflowRunId) ++
    lengthPrefixed "step" (some request.workflowStepRunId) ++
    lengthPrefixed "cap" (some request.capabilityCode) ++
    lengthPrefixed "prov" (some providerId) ++
    lengthPrefixed "action" (some (enumText executionActionText request.requestedAction)) ++
    lengthPrefixed "profile" (some (executionProfileText executionProfile).toList) ++
    lengthPrefixed "al" request.assuranceLevel ++
    lengthPrefixed "in" request.inputReference)

/-- The authoritative target of the action: one source for each family of actions. -/
def targetPart (request : GovernedCapabilityInvocationRequest) : List Str :=
  if isFileMutationExecutionAction request.requestedAction then
    lengthPrefixed "path" request.requestedPath
  else if request.requestedAction = .known .runCommand then
    lengthPrefixed "cmd" request.requestedCommand
  else []

/-- `buildGovernedLogicalOperationKey`: the stable identity of the operation, without the
attempt and without provider, profile and assurance level. -/
def buildGovernedLogicalOperationKey (request : GovernedCapabilityInvocationRequest) : Str :=
  join ['|'] (["logop-v2".toList] ++
    lengthPrefixed "org" (some request.organizationId) ++
    lengthPrefixed "run" (some request.workflowRunId) ++
    lengthPrefixed "step" (some request.workflowStepRunId) ++
    lengthPrefixed "cap" (some request.capabilityCode) ++
    lengthPrefixed "action" (some (enumText executionActionText request.requestedAction)) ++
    targetPart request ++
    lengthPrefixed "in" request.inputReference)

/-- The key is blind to the attempt and to the mechanism that executes it. -/
theorem buildGovernedLogicalOperationKey_mechanism
    (request : GovernedCapabilityInvocationRequest) (invocationId providerId : Str)
    (executionProfile : EnumValue ExecutionProfile) (assuranceLevel : Option Str) :
    buildGovernedLogicalOperationKey
        { request with
          invocationId := invocationId
          providerId := providerId
          executionProfile := executionProfile
          assuranceLevel := assuranceLevel } =
      buildGovernedLogicalOperationKey request := rfl

/-- The parts of a key before its target. -/
def operationParts (request : GovernedCapabilityInvocationRequest) : List Str :=
  ["logop-v2".toList] ++
    lengthPrefixed "org" (some request.organizationId) ++
    lengthPrefixed "run" (some request.workflowRunId) ++
    lengthPrefixed "step" (some request.workflowStepRunId) ++
    lengthPrefixed "cap" (some request.capabilityCode) ++
    lengthPrefixed "action" (some (enumText executionActionText request.requestedAction))

theorem buildGovernedLogicalOperationKey_eq (request : GovernedCapabilityInvocationRequest) :
    buildGovernedLogicalOperationKey request =
      join ['|'] (operationParts request) ++ ((targetPart request).flatMap (['|'] ++ ·) ++
        (lengthPrefixed "in" request.inputReference).flatMap (['|'] ++ ·)) := by
  have hparts : operationParts request ≠ [] := by simp [operationParts]
  rw [← List.flatMap_append, ← join_append hparts, ← List.append_assoc]
  rfl

/-- A field is determined by the part it adds. -/
theorem lengthPrefixed_injective {label : String} {value value' : Option Str}
    (h : (lengthPrefixed label value).flatMap (['|'] ++ ·) =
      (lengthPrefixed label value').flatMap (['|'] ++ ·)) : value = value' := by
  have hdigits : ∀ n : Nat, ':' ∉ (toString n).toList := by
    intro n hmem
    have hdigits : ':' ∈ Nat.toDigits 10 n := by simpa [toString, Nat.repr] using hmem
    have hdigit : Char.isDigit ':' = true :=
      Nat.isDigit_of_mem_toDigits (by decide) (by decide) hdigits
    cases hdigit
  cases value with
  | none =>
      cases value' with
      | none => rfl
      | some text' => simp [lengthPrefixed] at h
  | some text =>
      cases value' with
      | none => simp [lengthPrefixed] at h
      | some text' =>
          simp only [lengthPrefixed, List.flatMap_singleton, List.append_cancel_left_eq,
            List.append_assoc] at h
          have hrest := (List.cons.inj h).2
          exact congrArg some (separated_injective (hdigits _) (hdigits _) hrest).2

end Invocation
