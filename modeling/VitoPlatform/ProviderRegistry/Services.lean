import VitoPlatform.Invocation.Types
import VitoPlatform.Library.Tables
import VitoPlatform.Persistence.Services

/-!
# The provider registry

`ProviderRegistryService`: providers are created, updated, disabled and activated, and their
capabilities assigned and enabled. Each write decides on what has been read before its
transaction, and an update writes the columns that its caller mentions. Of the columns of a
provider those are here that a write decides on; a value outside of an enumeration is refused by
the database. The history records what has been read and committed; no program looks at it.
-/

namespace ProviderRegistry

open Text Concurrent Services Policy Invocation

structure AgentProvider where
  id : Str
  organizationId : Str
  providerCode : Str
  displayName : Str
  providerType : ProviderType
  status : ProviderStatus
  credentialRequirement : ProviderCredentialRequirement
  deriving DecidableEq

structure ProviderCapability where
  id : Str
  organizationId : Str
  agentProviderId : Str
  capabilityCode : Str
  isEnabled : Bool
  deriving DecidableEq

structure CreateProviderInput where
  organizationId : Str
  providerCode : Str
  displayName : Str
  providerType : DtoField (EnumValue ProviderType)
  status : DtoField (EnumValue ProviderStatus)
  credentialRequirement : DtoField (EnumValue ProviderCredentialRequirement)

structure UpdateProviderInput where
  organizationId : Str
  providerId : Str
  displayName : DtoField Str
  providerType : DtoField (EnumValue ProviderType)
  status : DtoField (EnumValue ProviderStatus)
  credentialRequirement : DtoField (EnumValue ProviderCredentialRequirement)
  deriving DecidableEq

structure ActivateProviderInput where
  organizationId : Str
  providerId : Str
  credentialAuthorizationConfirmed : Bool
  capabilitiesReviewed : Bool
  cloudProfileReviewed : Bool
  approvalNote : Option Str
  deriving DecidableEq

structure AssignProviderCapabilityInput where
  organizationId : Str
  agentProviderId : Str
  capabilityCode : Str
  isEnabled : Option Bool

/-- What a call has read, and what it has committed. -/
inductive HistoryEntry where
  | read (session : Nat) (provider : AgentProvider) (capabilities : List ProviderCapability)
  | registered (provider : AgentProvider)
  | updated (session : Nat) (input : UpdateProviderInput)
      (credentialRequirement : Option ProviderCredentialRequirement)
  | activated (session : Nat) (input : ActivateProviderInput)
  | capabilityAssigned (capability : ProviderCapability)
  | capabilityUpdated (capabilityId : Str) (isEnabled : Bool)
  deriving DecidableEq

structure Store where
  providers : List AgentProvider
  capabilities : List ProviderCapability
  history : List HistoryEntry

/-! ## Providers -/

def providerNotFound : HttpError := .notFound "Provider nicht gefunden."

/-- A provider of the organization, with its capabilities. -/
def findProvider (session : Nat) (organizationId id : Str) :
    Program Store (AgentProvider × List ProviderCapability) :=
  change fun _ s =>
    let found := s.providers.find? fun provider =>
      provider.id = id ∧ provider.organizationId = organizationId
    match found with
    | none => (.error providerNotFound, s)
    | some provider =>
        let capabilities := s.capabilities.filter fun capability =>
          capability.agentProviderId = provider.id
        (.ok (provider, capabilities),
          { s with history := s.history ++ [.read session provider capabilities] })

def resolveCredentialRequirementForWrite (providerType : EnumValue ProviderType)
    (raw : DtoField (EnumValue ProviderCredentialRequirement)) (applyCloudDefault : Bool) :
    Except HttpError ProviderCredentialRequirement :=
  let resolved : EnumValue ProviderCredentialRequirement :=
    if raw = .absent ∧ applyCloudDefault ∧ providerType = .known .cloudLlm then .known .required
    else raw.set (.known .unknown)
  match resolved.member? with
  | none => .error (.badRequest "Invalid provider credentialRequirement.")
  | some requirement =>
      if providerType = .known .cloudLlm ∧ requirement ≠ .required then
        .error (.badRequest "CLOUD_LLM providers must declare credentialRequirement=REQUIRED.")
      else .ok requirement

/-- `create`, if no provider of the organization has the code. -/
def Store.register (s : Store) (provider : AgentProvider) : Except HttpError Unit × Store :=
  if s.providers.any fun other => other.id = provider.id ∨
      other.organizationId = provider.organizationId ∧
        other.providerCode = provider.providerCode then
    (.error .database, s)
  else
    (.ok (), { s with
      providers := s.providers ++ [provider]
      history := s.history ++ [.registered provider] })

def createProvider (input : CreateProviderInput) : Program Store Unit :=
  let providerType := input.providerType.set (.known .cloudLlm)
  let status := input.status.set (.known .disabled)
  match resolveCredentialRequirementForWrite providerType input.credentialRequirement true with
  | .error error => .throw error
  | .ok credentialRequirement =>
      change fun c s =>
        match providerType.member?, status.member? with
        | some providerType, some status =>
            s.register
              { id := c.id
                organizationId := input.organizationId
                providerCode := input.providerCode
                displayName := input.displayName
                providerType := providerType
                status := status
                credentialRequirement := credentialRequirement }
        | _, _ => (.error .database, s)

namespace UpdateProviderInput

variable (input : UpdateProviderInput)

/-- The credential requirement is written if it or the type is mentioned. -/
def writesRequirement : Bool := input.credentialRequirement ≠ .absent ∨ input.providerType ≠ .absent

/-- The requirement to be written, decided on the row that has been read. -/
def effectiveCredentialRequirement (existing : AgentProvider) :
    Except HttpError (Option ProviderCredentialRequirement) :=
  if input.writesRequirement then
    (resolveCredentialRequirementForWrite (input.providerType.set (.known existing.providerType))
      (.value (input.credentialRequirement.set (.known existing.credentialRequirement)))
      false).map some
  else .ok none

/-- The value of a mentioned column: nothing if it is not mentioned, and no value where the
database refuses it. -/
def column {α : Type} : DtoField (EnumValue α) → Option (Option α)
  | .absent => some none
  | .null => none
  | .value value => value.member?.map some

/-- The row after the update, with the columns that the database has accepted. -/
def apply (displayName : Option Str) (providerType : Option ProviderType)
    (status : Option ProviderStatus) (requirement : Option ProviderCredentialRequirement)
    (provider : AgentProvider) : AgentProvider :=
  { provider with
    displayName := displayName.getD provider.displayName
    providerType := providerType.getD provider.providerType
    status := status.getD provider.status
    credentialRequirement := requirement.getD provider.credentialRequirement }

end UpdateProviderInput

/-- `update where id`, and what it adds to the history. -/
def Store.update (s : Store) (id : Str) (f : AgentProvider → AgentProvider)
    (entry : HistoryEntry) : Except HttpError Unit × Store :=
  match Tables.find AgentProvider.id s.providers id with
  | none => (.error .database, s)
  | some _ =>
      (.ok (), { s with
        providers := Tables.write AgentProvider.id s.providers id f
        history := s.history ++ [entry] })

def updateProvider (session : Nat) (input : UpdateProviderInput) : Program Store Unit := do
  let (existing, _) ← findProvider session input.organizationId input.providerId
  match input.effectiveCredentialRequirement existing with
  | .error error => .throw error
  | .ok requirement => do
      Proc.require (input.status ≠ .value (.known .active)) (.badRequest
        ("Provider activation is blocked on the generic update endpoint. Use the explicit " ++
          "activation gate."))
      change fun _ s =>
        match UpdateProviderInput.column input.providerType,
            UpdateProviderInput.column input.status with
        | some providerType, some status =>
            if input.displayName = .null then (.error .database, s)
            else
              s.update input.providerId
                (UpdateProviderInput.apply input.displayName.value? providerType status
                  requirement)
                (.updated session input requirement)
        | _, _ => (.error .database, s)

def disableProvider (session : Nat) (organizationId providerId : Str) : Program Store Unit :=
  updateProvider session
    { organizationId := organizationId
      providerId := providerId
      displayName := .absent
      providerType := .absent
      status := .value (.known .disabled)
      credentialRequirement := .absent }

/-! ## The activation gate -/

/-- All three confirmations are given. -/
def ActivateProviderInput.confirmed (input : ActivateProviderInput) : Bool :=
  input.credentialAuthorizationConfirmed && input.capabilitiesReviewed &&
    input.cloudProfileReviewed

def AgentProvider.activate (provider : AgentProvider) : AgentProvider :=
  { provider with status := .active }

def activateProvider (session : Nat) (input : ActivateProviderInput) : Program Store Unit := do
  let (existing, capabilities) ← findProvider session input.organizationId input.providerId
  Proc.require (existing.status ≠ .active) (.badRequest "Provider is already active.")
  Proc.require input.confirmed (.badRequest
    ("Credential authorization, provider capabilities and cloud profile must be explicitly " ++
      "reviewed before activation."))
  Proc.require (capabilities.any (·.isEnabled)) (.badRequest
    "At least one provider capability must be explicitly enabled before activation.")
  change fun _ s => s.update input.providerId AgentProvider.activate (.activated session input)

/-! ## Capabilities -/

def Store.assign (s : Store) (capability : ProviderCapability) : Except HttpError Unit × Store :=
  if s.capabilities.any fun other => other.id = capability.id ∨
      other.organizationId = capability.organizationId ∧
        other.agentProviderId = capability.agentProviderId ∧
        other.capabilityCode = capability.capabilityCode then
    (.error (.conflict "Capability ist diesem Provider bereits zugewiesen."), s)
  else if (Tables.find AgentProvider.id s.providers capability.agentProviderId).isNone then
    (.error .database, s)
  else
    (.ok (), { s with
      capabilities := s.capabilities ++ [capability]
      history := s.history ++ [.capabilityAssigned capability] })

def assignCapability (session : Nat) (input : AssignProviderCapabilityInput) :
    Program Store Unit := do
  let (provider, _) ← findProvider session input.organizationId input.agentProviderId
  change fun c s => s.assign
    { id := c.id
      organizationId := input.organizationId
      agentProviderId := provider.id
      capabilityCode := input.capabilityCode
      isEnabled := input.isEnabled.getD false }

def ProviderCapability.setEnabled (isEnabled : Bool) (capability : ProviderCapability) :
    ProviderCapability :=
  { capability with isEnabled := isEnabled }

def setCapabilityEnabled (organizationId capabilityId : Str) (isEnabled : Bool) :
    Program Store Unit := do
  let found ← query fun s => s.capabilities.any fun capability =>
    capability.id = capabilityId ∧ capability.organizationId = organizationId
  Proc.require found (.notFound "Provider-Capability nicht gefunden.")
  change fun _ s =>
    match Tables.find ProviderCapability.id s.capabilities capabilityId with
    | none => (.error .database, s)
    | some _ =>
        (.ok (), { s with
          capabilities := Tables.write ProviderCapability.id s.capabilities capabilityId
            (ProviderCapability.setEnabled isEnabled)
          history := s.history ++ [.capabilityUpdated capabilityId isEnabled] })

/-! ## Calls -/

inductive Call where
  | createProvider (input : CreateProviderInput)
  | updateProvider (input : UpdateProviderInput)
  | disableProvider (organizationId providerId : Str)
  | activateProvider (input : ActivateProviderInput)
  | assignCapability (input : AssignProviderCapabilityInput)
  | setCapabilityEnabled (organizationId capabilityId : Str) (isEnabled : Bool)

/-- The program of the call that runs as `session`. -/
def Call.program (session : Nat) : Call → Program Store Unit
  | .createProvider input => ProviderRegistry.createProvider input
  | .updateProvider input => ProviderRegistry.updateProvider session input
  | .disableProvider organizationId providerId =>
      ProviderRegistry.disableProvider session organizationId providerId
  | .activateProvider input => ProviderRegistry.activateProvider session input
  | .assignCapability input => ProviderRegistry.assignCapability session input
  | .setCapabilityEnabled organizationId capabilityId isEnabled =>
      ProviderRegistry.setCapabilityEnabled organizationId capabilityId isEnabled

def programs (calls : List Call) : List (Program Store Unit) :=
  calls.mapIdx fun session call => call.program session

abbrev Move := Concurrent.Move Store Choice HttpError Unit

/-- A run of any calls from a store. -/
abbrev Run (calls : List Call) (store : Store) (moves : List Move)
    (s : Concurrent.System Store Choice HttpError Unit) : Prop :=
  Concurrent.Run store (programs calls) moves s

end ProviderRegistry
