import VitoPlatform.Invocation.Keys
import VitoPlatform.Library.LengthPrefixed

/-!
# Injectivity of the keys

The key of an operation and the fingerprint of an invocation are records of length-prefixed
fields, so each determines the fields that go into it: `OperationIdentity` for the key,
`ContextIdentity` for the fingerprint. An optional field that is absent is distinguished from
every value it can have, the empty one included.
-/

namespace Invocation

open Text Policy LengthPrefixed

/-- The target field that is authoritative for the action. -/
def authoritativeTarget (request : GovernedCapabilityInvocationRequest) : Option Str :=
  if isFileMutationExecutionAction request.requestedAction then request.requestedPath
  else if request.requestedAction = .known .runCommand then request.requestedCommand
  else none

/-- What identifies an operation. -/
structure OperationIdentity where
  organizationId : Str
  workflowRunId : Str
  workflowStepRunId : Str
  capabilityCode : Str
  requestedAction : Str
  target : Option Str
  inputReference : Option Str

def operationIdentity (request : GovernedCapabilityInvocationRequest) : OperationIdentity :=
  { organizationId := request.organizationId
    workflowRunId := request.workflowRunId
    workflowStepRunId := request.workflowStepRunId
    capabilityCode := request.capabilityCode
    requestedAction := enumText executionActionText request.requestedAction
    target := authoritativeTarget request
    inputReference := request.inputReference }

/-- What identifies the context in which an invocation executes. -/
structure ContextIdentity where
  organizationId : Str
  workflowRunId : Str
  workflowStepRunId : Str
  capabilityCode : Str
  providerId : Str
  requestedAction : Str
  executionProfile : ExecutionProfile
  assuranceLevel : Option Str
  inputReference : Option Str

def contextIdentity (request : GovernedCapabilityInvocationRequest) (providerId : Str)
    (executionProfile : ExecutionProfile) : ContextIdentity :=
  { organizationId := request.organizationId
    workflowRunId := request.workflowRunId
    workflowStepRunId := request.workflowStepRunId
    capabilityCode := request.capabilityCode
    providerId := providerId
    requestedAction := enumText executionActionText request.requestedAction
    executionProfile := executionProfile
    assuranceLevel := request.assuranceLevel
    inputReference := request.inputReference }

/-! ## Keys as records -/

/-- The size of a character in UTF-16 units. -/
def utf16Size (c : Char) : Nat := if c.toNat ≥ 0x10000 then 2 else 1

theorem utf16Size_pos (c : Char) : 0 < utf16Size c := by
  unfold utf16Size
  split <;> omega

/-- A labelled field, if it has a value. -/
def labelled (label : String) (value : Option Str) : List (Str × Str) :=
  value.toList.map fun text => (label.toList, text)

theorem encode_labelled (label : String) (value : Option Str) :
    encode utf16Size (labelled label value) =
      (lengthPrefixed label value).flatMap (['|'] ++ ·) := by
  cases value with
  | none => rfl
  | some text =>
      have hsize : textSize utf16Size text = utf16Length text := rfl
      simp [labelled, lengthPrefixed, encode, encodeField, hsize]

theorem encode_append (fields fields' : List (Str × Str)) :
    encode utf16Size (fields ++ fields') =
      encode utf16Size fields ++ encode utf16Size fields' :=
  List.flatMap_append

/-- Parts that are joined after a version are a record. -/
theorem join_version (version : Str) (parts : List Str) :
    join ['|'] (version :: parts) = version ++ parts.flatMap (['|'] ++ ·) := by
  rw [show version :: parts = [version] ++ parts from rfl, join_append (List.cons_ne_nil _ _)]
  simp [join, List.intercalate]

/-- The label of the authoritative target. -/
def targetLabel (request : GovernedCapabilityInvocationRequest) : String :=
  if isFileMutationExecutionAction request.requestedAction then "path" else "cmd"

theorem targetPart_labelled (request : GovernedCapabilityInvocationRequest) :
    targetPart request = lengthPrefixed (targetLabel request) (authoritativeTarget request) := by
  unfold targetPart targetLabel authoritativeTarget
  split
  · rfl
  · split
    · rfl
    · rfl

def operationFields (request : GovernedCapabilityInvocationRequest) : List (Str × Str) :=
  labelled "org" (some request.organizationId) ++
    labelled "run" (some request.workflowRunId) ++
    labelled "step" (some request.workflowStepRunId) ++
    labelled "cap" (some request.capabilityCode) ++
    labelled "action" (some (enumText executionActionText request.requestedAction)) ++
    labelled (targetLabel request) (authoritativeTarget request) ++
    labelled "in" request.inputReference

theorem buildGovernedLogicalOperationKey_record (request : GovernedCapabilityInvocationRequest) :
    buildGovernedLogicalOperationKey request =
      "logop-v2".toList ++ encode utf16Size (operationFields request) := by
  simp only [operationFields, encode_append, encode_labelled, ← targetPart_labelled,
    ← List.flatMap_append]
  exact join_version _ _

def contextFields (request : GovernedCapabilityInvocationRequest) (providerId : Str)
    (executionProfile : ExecutionProfile) : List (Str × Str) :=
  labelled "org" (some request.organizationId) ++
    labelled "run" (some request.workflowRunId) ++
    labelled "step" (some request.workflowStepRunId) ++
    labelled "cap" (some request.capabilityCode) ++
    labelled "prov" (some providerId) ++
    labelled "action" (some (enumText executionActionText request.requestedAction)) ++
    labelled "profile" (some (executionProfileText executionProfile).toList) ++
    labelled "al" request.assuranceLevel ++
    labelled "in" request.inputReference

theorem buildGovernedInvocationFingerprint_record (request : GovernedCapabilityInvocationRequest)
    (providerId : Str) (executionProfile : ExecutionProfile) :
    buildGovernedInvocationFingerprint request providerId executionProfile =
      "v1".toList ++ encode utf16Size (contextFields request providerId executionProfile) := by
  simp only [contextFields, encode_append, encode_labelled, ← List.flatMap_append]
  exact join_version _ _

/-! ## Records determine what is in them -/

theorem colon_not_mem_label {label : String} {value : Option Str} (h : ':' ∉ label.toList) :
    ∀ f ∈ labelled label value, ':' ∉ f.1 := by
  intro f hf
  obtain ⟨text, -, rfl⟩ := List.mem_map.mp hf
  exact h

theorem colon_not_mem_operationFields (request : GovernedCapabilityInvocationRequest) :
    ∀ f ∈ operationFields request, ':' ∉ f.1 := by
  have htarget : ':' ∉ (targetLabel request).toList := by
    unfold targetLabel
    split <;> decide
  simp only [operationFields, List.forall_mem_append]
  refine ⟨⟨⟨⟨⟨⟨?_, ?_⟩, ?_⟩, ?_⟩, ?_⟩, colon_not_mem_label htarget⟩, ?_⟩
  all_goals exact colon_not_mem_label (by decide)

theorem colon_not_mem_contextFields (request : GovernedCapabilityInvocationRequest)
    (providerId : Str) (executionProfile : ExecutionProfile) :
    ∀ f ∈ contextFields request providerId executionProfile, ':' ∉ f.1 := by
  simp only [contextFields, List.forall_mem_append]
  refine ⟨⟨⟨⟨⟨⟨⟨⟨?_, ?_⟩, ?_⟩, ?_⟩, ?_⟩, ?_⟩, ?_⟩, ?_⟩, ?_⟩
  all_goals exact colon_not_mem_label (by decide)

/-- Two optional fields with different labels are told apart. -/
theorem optional_injective {a a' b b' : Option Str} {l l' n : Str} (hl : l ≠ n) (hl' : l' ≠ n)
    (h : (a.toList.map fun text => (l, text)) ++ (b.toList.map fun text => (n, text)) =
      (a'.toList.map fun text => (l', text)) ++ (b'.toList.map fun text => (n, text))) :
    a = a' ∧ b = b' := by
  cases a with
  | none =>
      cases a' with
      | none => cases b <;> cases b' <;> simp_all
      | some text' => cases b <;> simp_all
  | some text =>
      cases a' with
      | none => cases b' <;> simp_all
      | some text' => cases b <;> cases b' <;> simp_all

theorem executionProfileText_injective {a b : ExecutionProfile}
    (h : (executionProfileText a).toList = (executionProfileText b).toList) : a = b := by
  revert h
  cases a <;> cases b <;> decide

theorem executionActionText_injective {a b : ExecutionAction}
    (h : (executionActionText a).toList = (executionActionText b).toList) : a = b := by
  revert h
  cases a <;> cases b <;> decide

/-- Only an action of the enumeration has an authoritative target. -/
theorem known_of_authoritativeTarget {request : GovernedCapabilityInvocationRequest} {text : Str}
    (h : authoritativeTarget request = some text) :
    ∃ action, request.requestedAction = .known action := by
  cases haction : request.requestedAction with
  | known action => exact ⟨action, rfl⟩
  | unknown value =>
      simp [authoritativeTarget, haction, isFileMutationExecutionAction, EnumValue.member?] at h

/-- Requests for one action with a target have it under one label. -/
theorem labelled_target_eq {request request' : GovernedCapabilityInvocationRequest}
    (haction : enumText executionActionText request.requestedAction =
      enumText executionActionText request'.requestedAction)
    (htarget : authoritativeTarget request = authoritativeTarget request') :
    labelled (targetLabel request) (authoritativeTarget request) =
      labelled (targetLabel request') (authoritativeTarget request') := by
  cases h : authoritativeTarget request with
  | none =>
      rw [← htarget, h]
      rfl
  | some text =>
      obtain ⟨action, hknown⟩ := known_of_authoritativeTarget h
      obtain ⟨action', hknown'⟩ := known_of_authoritativeTarget (htarget.symm.trans h)
      rw [hknown, hknown'] at haction
      obtain rfl := executionActionText_injective haction
      have hlabel : targetLabel request = targetLabel request' := by
        rw [targetLabel, targetLabel, hknown, hknown']
      rw [← htarget, h, hlabel]

theorem operationIdentity_eq_iff {request request' : GovernedCapabilityInvocationRequest} :
    operationFields request = operationFields request' ↔
      operationIdentity request = operationIdentity request' := by
  constructor
  · intro h
    simp only [operationFields, labelled, Option.toList_some, List.map_cons, List.map_nil,
      List.cons_append, List.nil_append, List.cons.injEq, Prod.mk.injEq, true_and] at h
    obtain ⟨horganization, hrun, hstep, hcapability, haction, hoptional⟩ := h
    have hlabel : ∀ request, (targetLabel request).toList ≠ "in".toList := by
      intro request
      unfold targetLabel
      split <;> decide
    obtain ⟨htarget, hinput⟩ := optional_injective (hlabel request) (hlabel request') hoptional
    simp only [operationIdentity, horganization, hrun, hstep, hcapability, haction, htarget, hinput]
  · intro h
    obtain ⟨horganization, hrun, hstep, hcapability, haction, htarget, hinput⟩ :=
      OperationIdentity.mk.inj h
    rw [operationFields, labelled_target_eq haction htarget, horganization, hrun, hstep,
      hcapability, haction, hinput]
    rfl

theorem contextIdentity_eq_iff {request request' : GovernedCapabilityInvocationRequest}
    {providerId providerId' : Str} {executionProfile executionProfile' : ExecutionProfile} :
    contextFields request providerId executionProfile =
        contextFields request' providerId' executionProfile' ↔
      contextIdentity request providerId executionProfile =
        contextIdentity request' providerId' executionProfile' := by
  constructor
  · intro h
    simp only [contextFields, labelled, Option.toList_some, List.map_cons, List.map_nil,
      List.cons_append, List.nil_append, List.cons.injEq, Prod.mk.injEq, true_and] at h
    obtain ⟨horganization, hrun, hstep, hcapability, hprovider, haction, hprofile, hoptional⟩ := h
    have hlabel : "al".toList ≠ "in".toList := by decide
    obtain ⟨hassurance, hinput⟩ := optional_injective hlabel hlabel hoptional
    simp only [contextIdentity, horganization, hrun, hstep, hcapability, hprovider, haction,
      executionProfileText_injective hprofile, hassurance, hinput]
  · intro h
    obtain ⟨horganization, hrun, hstep, hcapability, hprovider, haction, hprofile, hassurance,
      hinput⟩ := ContextIdentity.mk.inj h
    rw [contextFields, horganization, hrun, hstep, hcapability, hprovider, haction, hprofile,
      hassurance, hinput]
    rfl

/-- Two requests have one key exactly when they are for one operation, and one fingerprint
exactly when the contexts are the same too. -/
theorem keys_injective (request request' : GovernedCapabilityInvocationRequest) :
    (buildGovernedLogicalOperationKey request = buildGovernedLogicalOperationKey request' ↔
        operationIdentity request = operationIdentity request') ∧
      ∀ providerId providerId' executionProfile executionProfile',
        buildGovernedInvocationFingerprint request providerId executionProfile =
            buildGovernedInvocationFingerprint request' providerId' executionProfile' ↔
          contextIdentity request providerId executionProfile =
            contextIdentity request' providerId' executionProfile' := by
  constructor
  · rw [buildGovernedLogicalOperationKey_record, buildGovernedLogicalOperationKey_record,
      List.append_cancel_left_eq, ← operationIdentity_eq_iff]
    refine ⟨encode_injective utf16Size_pos ?_ ?_, congrArg _⟩
    · exact colon_not_mem_operationFields request
    · exact colon_not_mem_operationFields request'
  · intro providerId providerId' executionProfile executionProfile'
    rw [buildGovernedInvocationFingerprint_record, buildGovernedInvocationFingerprint_record,
      List.append_cancel_left_eq, ← contextIdentity_eq_iff]
    refine ⟨encode_injective utf16Size_pos ?_ ?_, congrArg _⟩
    · exact colon_not_mem_contextFields request providerId executionProfile
    · exact colon_not_mem_contextFields request' providerId' executionProfile'

end Invocation
