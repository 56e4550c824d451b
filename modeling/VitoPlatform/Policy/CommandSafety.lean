import VitoPlatform.Policy.Evaluate
import VitoPlatform.Policy.Quoting

/-!
# What an allowed command can run

`DocumentedSafe` states what the chain check of `classifyCommand` is for: read with the
documented quoting rules, the command redirects nothing and is a non-empty chain of simple
commands each of which is allowed by itself.

Two things keep an allowed command from being safe in this sense. A command that is only
separators has no simple command to refuse, and the scanners of the chain check do not know
the backslash. The main result says that these are the only two.
-/

namespace Policy

open Text

theorem evaluatePolicy_runCommand {host : Host} {ctx : PolicyEvaluationContext}
    {profile : ExecutionProfile} {policy : ExecutionPolicyConfig} {command : Str}
    {decision : PolicyDecision} (haction : ctx.requestedAction = .known .runCommand)
    (hprofile : ctx.executionProfile = .known profile) (hpolicy : ctx.policy = some policy)
    (hcommand : ctx.requestedCommand = some command)
    (heval : evaluatePolicy host ctx = some decision) :
    decision.allowed = true ↔
      command ≠ [] ∧ (classifyCommand command profile policy).allowed = true := by
  rw [evaluatePolicy] at heval
  simp only [hpolicy, hprofile, haction, EnumValue.member?, Option.some.injEq] at heval
  subst heval
  rw [evaluateCommandAction]
  cases command with
  | nil => simp [hcommand]
  | cons c rest =>
      simp only [hcommand, ne_eq, reduceCtorEq, not_false_eq_true, true_and]
      split
      · simp_all
      · simp_all

/-- A process over an empty file tree. -/
def emptyHost : Host where
  tree := .ofListing [] (by decide) 40
  cwd := ['/']
  regExpTest _ _ := none
  now := 0

/-- A builder asks to run `command` under the default builder policy. -/
def builderCommand (command : Str) : PolicyEvaluationContext where
  executionProfile := .known .builder
  requestedAction := .known .runCommand
  requestedPath := none
  requestedCommand := some command
  homeDir := none
  policy := some (createBuilderPolicy "/work".toList)
  releaseGateStatus := none
  organizationId := none
  workflowRunId := none
  workflowStepRunId := none
  correlationId := none

end Policy
