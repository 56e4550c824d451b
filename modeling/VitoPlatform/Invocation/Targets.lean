import VitoPlatform.Invocation.AtMostOnce

/-!
# Spellings of one target

The key of an operation holds the target as the request spells it, while the policy resolves a
path and the alias augmentation trims a command. Two requests for one effective target have
one key, and so execute once, exactly when they spell it alike (`sameTarget_once_iff`).
-/

namespace Invocation

open Text Policy Persistence Database Prog

variable {request request' : Request}

/-- The requests agree in everything but the target that their key is built from. -/
structure SameOperation (request request' : Request) : Prop where
  organizationId : request'.organizationId = request.organizationId
  workflowRunId : request'.workflowRunId = request.workflowRunId
  workflowStepRunId : request'.workflowStepRunId = request.workflowStepRunId
  capabilityCode : request'.capabilityCode = request.capabilityCode
  requestedAction : request'.requestedAction = request.requestedAction
  inputReference : request'.inputReference = request.inputReference

/-- The policy evaluation of the request resolves its path. -/
def ResolvesPath (request : Request) (path : Str) : Prop :=
  ∃ host executionProfile gate home policy decision,
    evaluatePolicy host (policyEvaluationContext request executionProfile gate home policy) =
      some decision ∧ decision.normalizedPath = some path

/-- The alias augmentation trusts this alias for the request. -/
def ResolvesAlias (request : Request) (name : Str) : Prop :=
  ∃ deps provider executionProfile policy t final,
    Trace (augmentBuilderPolicyWithTrustedCodingAgentAlias deps request provider
      executionProfile policy) t final ∧
    final.outcome = some (.ok { policy with trustedCodingAgentAliases := some [name] })

/-- Two requests with one effective target. -/
inductive SameTarget (request request' : Request) : Prop
  | path (path : Str) : isFileMutationExecutionAction request.requestedAction = true →
      ResolvesPath request path → ResolvesPath request' path → SameTarget request request'
  | command (name : Str) : request.requestedAction = .known .runCommand →
      ResolvesAlias request name → ResolvesAlias request' name → SameTarget request request'

/-- The target as the request spells it. -/
def spelledTarget (request : Request) : Option Str :=
  if isFileMutationExecutionAction request.requestedAction then request.requestedPath
  else request.requestedCommand

theorem SameTarget.consequential (h : SameTarget request request') :
    isConsequentialExecutionAction request.requestedAction = true := by
  cases h with
  | path path haction =>
      rw [isFileMutationExecutionAction] at haction
      rw [isConsequentialExecutionAction]
      cases hmember : request.requestedAction.member? with
      | none => simp [hmember] at haction
      | some action =>
          simp only [hmember] at haction ⊢
          revert haction
          cases action <;> decide
  | command name haction => rw [haction]; rfl

/-- The part of the key for the target is the part of a labelled field. -/
theorem targetPart_eq (h : SameTarget request request') :
    targetPart request = lengthPrefixed
      (if isFileMutationExecutionAction request.requestedAction then "path" else "cmd")
      (spelledTarget request) := by
  rw [targetPart, spelledTarget]
  cases h with
  | path path haction => rw [if_pos haction, if_pos haction, if_pos haction]
  | command name haction =>
      have hother : ¬ isFileMutationExecutionAction request.requestedAction = true := by
        rw [haction]
        decide
      rw [if_neg hother, if_neg hother, if_neg hother, if_pos haction]

theorem SameTarget.symm (hagree : SameOperation request request')
    (h : SameTarget request request') : SameTarget request' request := by
  cases h with
  | path path haction hpath hpath' =>
      exact .path path (by rw [hagree.requestedAction, haction]) hpath' hpath
  | command name haction halias halias' =>
      exact .command name (by rw [hagree.requestedAction, haction]) halias' halias

/-- The keys of two requests for one target are the same exactly when its spellings are. -/
theorem key_eq_iff (hagree : SameOperation request request') (h : SameTarget request request') :
    buildGovernedLogicalOperationKey request = buildGovernedLogicalOperationKey request' ↔
      spelledTarget request = spelledTarget request' := by
  have htarget := targetPart_eq h
  have htarget' := targetPart_eq (h.symm hagree)
  have hparts : operationParts request' = operationParts request := by
    rw [operationParts, operationParts, hagree.organizationId, hagree.workflowRunId,
      hagree.workflowStepRunId, hagree.capabilityCode, hagree.requestedAction]
  rw [hagree.requestedAction] at htarget'
  rw [buildGovernedLogicalOperationKey_eq, buildGovernedLogicalOperationKey_eq, hparts,
    hagree.inputReference, htarget, htarget', List.append_cancel_left_eq,
    List.append_cancel_right_eq]
  constructor
  · exact lengthPrefixed_injective
  · intro hspelled
    rw [hspelled]

/-- In no run over a database that keeps its constraints are both requests executed. -/
def NeverBoth (request request' : Request) : Prop :=
  ∀ (calls : List Call) (rows : List Row) (s : Platform), Unique schema rows →
    System.Reaches schema (fun _ => True) (System.start rows (programs calls)) s →
    ∀ before between after en en', s.history = before ++ en :: between ++ en' :: after →
      isExecute en.event.1 = true → isExecute en'.event.1 = true →
      ∀ call call', calls[en.call]? = some call → calls[en'.call]? = some call' →
        ¬ (call.2 = request ∧ call'.2 = request' ∨ call.2 = request' ∧ call'.2 = request)

/-- Requests with one key are never both executed. -/
theorem neverBoth_of_key (hagree : SameOperation request request')
    (hconsequential : isConsequentialExecutionAction request.requestedAction = true)
    (hkey : buildGovernedLogicalOperationKey request =
      buildGovernedLogicalOperationKey request') : NeverBoth request request' := by
  have hconsequential' : isConsequentialExecutionAction request'.requestedAction = true := by
    rw [hagree.requestedAction, hconsequential]
  intro calls rows s hrows hreaches before between after en en' hs hen hen' call call' hcall hcall'
  have o := observed hrows hreaches
  rintro (⟨rfl, rfl⟩ | ⟨rfl, rfl⟩)
  · exact (o.executions_apart hs hen hen' hcall hcall' hconsequential hconsequential').1 hkey
  · exact (o.executions_apart hs hen hen' hcall hcall' hconsequential' hconsequential).1 hkey.symm

/-- Duplicate protection follows the effective target of two requests exactly when they spell
it alike. -/
theorem sameTarget_once_iff (hagree : SameOperation request request')
    (htarget : SameTarget request request') :
    (buildGovernedLogicalOperationKey request = buildGovernedLogicalOperationKey request' ∧
      NeverBoth request request') ↔ spelledTarget request = spelledTarget request' := by
  rw [← key_eq_iff hagree htarget]
  constructor
  · exact fun h => h.1
  · exact fun hkey => ⟨hkey, neverBoth_of_key hagree htarget.consequential hkey⟩

/-! ## Two spellings of an alias -/

/-- A second attempt at the command of the agent, with blanks around it. -/
def spacedRequest : Request :=
  { agentRequest with
    invocationId := "retry".toList
    requestedCommand := some " agent ".toList }

theorem resolvesAlias_of_run {request : Request}
    (h : ((augmentBuilderPolicyWithTrustedCodingAgentAlias agentDependencies request agentProvider
      .builder (createBuilderPolicy "/work".toList)).runUntil agentEnvironment
        fun _ => false).2.outcome =
      some (.ok { createBuilderPolicy "/work".toList with
        trustedCodingAgentAliases := some ["agent".toList] })) :
    ResolvesAlias request "agent".toList :=
  ⟨agentDependencies, agentProvider, .builder, createBuilderPolicy "/work".toList, _, _,
    trace_runUntil _ _ _, h⟩

def spacedCalls : List Call :=
  [(agentDependencies, agentRequest), (agentDependencies, spacedRequest)]

def spacedSchedule : List (Nat × Choice Failure Ans) :=
  List.replicate 12 (0, ⟨none, agentAnswers⟩) ++ List.replicate 12 (1, ⟨none, agentAnswers⟩)

/-- Both requests are resolved to the alias `agent`, and both are executed. -/
theorem spaced_command_executes_again :
    SameOperation agentRequest spacedRequest ∧ SameTarget agentRequest spacedRequest ∧
      buildGovernedLogicalOperationKey agentRequest ≠
        buildGovernedLogicalOperationKey spacedRequest ∧
      ((System.start [] (programs spacedCalls)).run schema spacedSchedule).any (fun s =>
        [0, 1].all fun call => s.history.any fun en => en.call == call && isExecute en.event.1) =
          true := by
  refine ⟨⟨rfl, rfl, rfl, rfl, rfl, rfl⟩, .command "agent".toList rfl ?_ ?_, ?_, ?_⟩
  · exact resolvesAlias_of_run (by decide +kernel)
  · exact resolvesAlias_of_run (by decide +kernel)
  · decide
  · decide +kernel

theorem sameTarget_once_iff_retry :
    NeverBoth agentRequest { agentRequest with invocationId := "retry".toList } := by
  have halias : ResolvesAlias agentRequest "agent".toList :=
    resolvesAlias_of_run (by decide +kernel)
  have halias' : ResolvesAlias { agentRequest with invocationId := "retry".toList }
      "agent".toList := resolvesAlias_of_run (by decide +kernel)
  have hagree : SameOperation agentRequest
      { agentRequest with invocationId := "retry".toList } := ⟨rfl, rfl, rfl, rfl, rfl, rfl⟩
  exact ((sameTarget_once_iff hagree (.command _ rfl halias halias')).mpr rfl).2

end Invocation
