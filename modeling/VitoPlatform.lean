import VitoPlatform.Policy.GitCommands
import VitoPlatform.Policy.Confinement
import VitoPlatform.Invocation.Gate
import VitoPlatform.Invocation.Targets
import VitoPlatform.Invocation.Disclosure
import VitoPlatform.Workspace.Agreement
import VitoPlatform.Workflow.Independence
import VitoPlatform.Workflow.CorrectionBound
import VitoPlatform.Workflow.Coherence
import VitoPlatform.Workflow.ReleaseGate
import VitoPlatform.Invocation.Accounting
import VitoPlatform.Dispatch.ApprovalSafety
import VitoPlatform.Bridge.ExactlyOnce
import VitoPlatform.Cancellation.Confusion
import VitoPlatform.Invocation.Identity
import VitoPlatform.Users.OwnerSafety
import VitoPlatform.Users.Revocation
import VitoPlatform.Library.Forest
import VitoPlatform.Persistence.Calls
import VitoPlatform.Structure.Checks
import VitoPlatform.Structure.Forests
import VitoPlatform.Library.Trees
import VitoPlatform.Structure.SequentialCalls
import VitoPlatform.Structure.Chart
import VitoPlatform.Structure.Completeness
import VitoPlatform.Tasks.Services
import VitoPlatform.Tasks.Assignments
import VitoPlatform.Activation.Services
import VitoPlatform.Activation.Gate
import VitoPlatform.Routing.Router
import VitoPlatform.Routing.Selection
import VitoPlatform.Routing.Admission
import VitoPlatform.ProviderRegistry.Services
import VitoPlatform.ProviderRegistry.Authority
import VitoPlatform.Library.Utf8
import VitoPlatform.Leadership.Transactions
import VitoPlatform.Leadership.Steps
import VitoPlatform.Leadership.Sessions
import VitoPlatform.Leadership.Leaders
import VitoPlatform.AgentRuntime.Projectors
import VitoPlatform.AgentRuntime.Execution
import VitoPlatform.AgentRuntime.Evidence
import VitoPlatform.CloudExecution.Identity
import VitoPlatform.CloudExecution.Soundness
import VitoPlatform.Library.Views
import VitoPlatform.ProviderRegistry.Requests
import VitoPlatform.ProviderRegistry.Isolation
import VitoPlatform.EngineeringWorker.Executions
import VitoPlatform.EngineeringWorker.Lawful
import VitoPlatform.Library.Utf8Pieces
import VitoPlatform.CloudExecution.Capture
import VitoPlatform.CloudExecution.Tokens
import VitoPlatform.CloudExecution.Launch
import VitoPlatform.Routing.Refresh
import VitoPlatform.Library.Stringify
import VitoPlatform.Bridge.Fingerprint
import VitoPlatform.AgentRuntime.Handoff
import VitoPlatform.AgentRuntime.Prompt
import VitoPlatform.Library.Utf16Bytes
import VitoPlatform.Dispatch.Enrichment
import VitoPlatform.CloudExecution.Acceptance
import VitoPlatform.SourceVault.Limits
import VitoPlatform.SourceVault.Harvest
import VitoPlatform.SourceVault.StorageIsolation
import VitoPlatform.SourceVault.Workbooks
import VitoPlatform.Learning.Runtime
import VitoPlatform.SourceVault.Vaults
import VitoPlatform.Workforce.Identities
import VitoPlatform.AgentRuntime.Reviews
import VitoPlatform.AgentRuntime.ReviewVerdicts
import VitoPlatform.AgentRuntime.ReviewCoordination
