import VitoPlatform.Library.Views
import VitoPlatform.ProviderRegistry.Services
import VitoPlatform.Routing.Router

/-!
# Requests to the provider registry

`ProviderRegistryController` with the services behind it, one request at a time: a body is any JSON
object, and what a service is given is made of the tenant, the path and the body by the spreads of
the controller. A missing member of an input is `none`.

What belongs to the client of the database is a parameter: which values it accepts for a column,
what a value that is no string means in a condition, and how it orders texts. So is the outcome of
a routing whose body, or a stored level of a candidate, is not of the declared type. Identifiers
are taken to be generated only once. Of a request to the route the budget's currency is not read.
-/

namespace ProviderRequests

open Text Invocation Services Routing Workflow
open Dispatch (ProviderRoutingRequest)
open ProviderRegistry (ProviderCapability)

/-- The columns of a provider that its data sets. -/
structure ProviderColumns where
  providerCode : Str
  displayName : Str
  providerType : ProviderType
  status : ProviderStatus
  credentialRequirement : ProviderCredentialRequirement
  modelFamily : Option Str
  modelName : Option Str
  modelCode : Option Str
  supportedCapabilities : List Json
  estimatedCostMinorUnits : Option Int
  healthStatus : ProviderHealthStatus
  healthCheckedAt : Option Int
  quotaStatus : ProviderQuotaStatus
  quotaCheckedAt : Option Int
  qualityScore : Option Rat
  latencyScore : Option Rat
  costScore : Option Rat
  costMetadata : Json
  assuranceLevels : List Json
  metadata : Json

structure AgentProvider extends ProviderColumns where
  id : Str
  organizationId : Str

/-- What a routing decision stores, but for its own identifier and organization. -/
structure DecisionColumns where
  correlationId : Str
  workflowRunId : Option Str
  workflowStepRunId : Option Str
  requestedCapability : Str
  assuranceLevel : Option Str
  selectedProviderId : Option Str
  candidateProviderIds : List Str
  rejectionReasons : List (Str × RoutingRejectionReason)
  scoreComponents : List (Str × ProviderScoreComponents)
  finalScore : Option Rat
  decisionReason : Str

structure ProviderRoutingDecision extends DecisionColumns where
  id : Str
  organizationId : Str

/-- The columns that the services name in their data. -/
inductive Column where
  | providerCode
  | displayName
  | providerType
  | status
  | modelFamily
  | modelName
  | modelCode
  | supportedCapabilities
  | estimatedCostMinorUnits
  | healthStatus
  | healthCheckedAt
  | quotaStatus
  | quotaCheckedAt
  | qualityScore
  | latencyScore
  | costScore
  | costMetadata
  | assuranceLevels
  | metadata
  | credentialRequirement
  deriving DecidableEq

inductive DataValue where
  | json (value : Json)
  | date (time : Int)

/-- The members of a data argument, in the order in which they are set. -/
abbrev Data := List (Column × DataValue)

/-- The metadata of an audit event, by its action. -/
inductive AuditMetadata where
  | providerRegistered (providerCode displayName : Str) (providerType : ProviderType)
      (credentialRequirement : ProviderCredentialRequirement) (supportedCapabilities : Option Json)
  | providerUpdated (providerCode : Str) (updatedFields : List Column)
  | providerActivated (providerCode : Str) (enabledCapabilityCodes : List Str)
      (approvalNote : Option Json)
  | providerCapabilityAssigned (agentProviderId providerCode capabilityCode : Str)
      (isEnabled : Bool)
  | providerCapabilityUpdated (agentProviderId capabilityCode : Str) (isEnabled : Bool)
  /-- A provider is selected, or none. -/
  | providerRouting (decision : DecisionColumns) (selectedProviderCode : Option Str)
      (eligibleCount : Nat)

structure AuditEvent where
  id : Str
  organizationId : Str
  entityType : String
  entityId : Str
  metadata : AuditMetadata

structure Database where
  organizations : List Str
  providers : List AgentProvider
  capabilities : List ProviderCapability
  decisions : List ProviderRoutingDecision
  auditEvents : List AuditEvent

/-- The rows, and the identifiers that are going to be generated. -/
structure Store where
  rows : Database
  uuids : Nat → Str

inductive Failure where
  | http (error : HttpError)
  | typeError
  /-- The client of the database refuses an argument. -/
  | validation
  | uniqueConstraint
  | foreignKey
  | recordNotFound

abbrev Request (α : Type) := Handler Store Failure α

/-- A provider as it is read for the router. -/
abbrev Candidate := AgentProvider × List ProviderCapability

/-- What a routing stores and answers. -/
structure RouteOutcome where
  decision : DecisionColumns
  response : RoutingResponse

/-- The parts of the server that are not in the repository, with its clock. -/
structure Server where
  /-- The condition that a value which is no string puts on a text column, unless refused. -/
  filter : Json → Option (Str → Bool)
  create : Data → Option ProviderColumns
  update : Data → ProviderColumns → Option ProviderColumns
  /-- The code and the switch that the data of a new capability set. -/
  createCapability : Option Json → Json → Option (Str × Bool)
  updateCapability : Option Json → Bool → Option Bool
  /-- The order of text columns. -/
  collate : Str → Str → Ordering
  /-- The time that a column is stamped with. -/
  now : Column → Int
  localeCompare : Str → Str → Ordering
  runtimeState : Option RuntimeState
  /-- A routing that is not of the declared types, with a new correlation identifier. -/
  illTyped : List Candidate → List (Str × Json) → Str → Except Failure RouteOutcome

/-! ## Values of a script -/

/-- What a service is given, by the names of its members. -/
abbrev Input := String → Option Json

/-- `{ ...fields, ...body }`: a member of the body takes the place of one of the controller. -/
def spread (fields : List (String × Json)) (body : List (Str × Json)) : Input := fun name =>
  (body.lookup name.toList).or (fields.lookup name)

/-- `value ?? undefined`. -/
def nullish : Option Json → Option Json
  | some .null => none
  | value => value

/-- The value counts as true. -/
def isTruthy : Option Json → Bool
  | none | some .null | some (.bool false) => false
  | some (.number value) => value ≠ 0
  | some (.string value) => value ≠ []
  | some _ => true

/-- `[...value]`. -/
def iterate : Option Json → Except Failure (List Json)
  | some (.array items) => .ok items
  | some (.string value) => .ok (value.map fun c => .string [c])
  | _ => .error .typeError

def providerTypeText : ProviderType → String
  | .cloudLlm => "CLOUD_LLM"
  | .localLlm => "LOCAL_LLM"
  | .deterministicTool => "DETERMINISTIC_TOOL"
  | .localTool => "LOCAL_TOOL"

def credentialRequirementText : ProviderCredentialRequirement → String
  | .required => "REQUIRED"
  | .notRequired => "NOT_REQUIRED"
  | .unknown => "UNKNOWN"

/-- A text of the script. -/
def literal (value : String) : Json := .string value.toList

/-! ## Statements -/

/-- The condition of a `where` argument on a text column; a missing one is none. -/
def Server.condition (server : Server) : Option Json → Option (Str → Bool)
  | none => some fun _ => true
  | some (.string value) => some fun text => text = value
  | some value => server.filter value

/-- A statement that adds a row with a new identifier and answers it. -/
def insert (organizationId : Str) (clash : Database → Bool) (add : Str → Database → Database) :
    Request Str := fun s =>
  if clash s.rows then (.error .uniqueConstraint, s)
  else if organizationId ∉ s.rows.organizations then (.error .foreignKey, s)
  else (.ok (s.uuids 0), ⟨add (s.uuids 0) s.rows, fun n => s.uuids (n + 1)⟩)

/-- `crypto.randomUUID()`. -/
def randomUUID : Request Str := fun s => (.ok (s.uuids 0), ⟨s.rows, fun n => s.uuids (n + 1)⟩)

/-- `AuditService.record`. -/
def record (organizationId : Option Json) (entityType : String) (entityId : Str)
    (metadata : AuditMetadata) : Request Unit := do
  let organizationId ← Handler.expect (Json.text organizationId) .validation
  let _ ← insert organizationId (fun _ => false) fun id rows =>
    { rows with
      auditEvents := rows.auditEvents ++ [⟨id, organizationId, entityType, entityId, metadata⟩] }
  pure ()

def providerNotFound : Failure := .http (.notFound "Provider nicht gefunden.")

/-- The first provider that meets the two conditions of the argument. -/
def findProvider (server : Server) (id organizationId : Option Json) : Request AgentProvider := do
  let hasId ← Handler.expect (server.condition id) .validation
  let hasOrganization ← Handler.expect (server.condition organizationId) .validation
  let found ← Handler.look fun s => s.rows.providers.find? fun provider =>
    hasId provider.id && hasOrganization provider.organizationId
  Handler.expect found providerNotFound

/-- `include: { capabilities: true }`. -/
def capabilitiesOf (rows : Database) (provider : AgentProvider) : List ProviderCapability :=
  rows.capabilities.filter fun capability => capability.agentProviderId = provider.id

/-- A table of the database, with the columns by which its rows are found. -/
structure Table (Row : Type) where
  rows : Database → List Row
  put : List Row → Database → Database
  id : Row → Str
  organizationId : Row → Str

def providerTable : Table AgentProvider where
  rows := (·.providers)
  put providers rows := { rows with providers := providers }
  id := (·.id)
  organizationId := (·.organizationId)

def capabilityTable : Table ProviderCapability where
  rows := (·.capabilities)
  put capabilities rows := { rows with capabilities := capabilities }
  id := (·.id)
  organizationId := (·.organizationId)

/-- `update where id`, answering the row as it is then. -/
def Table.update {Row : Type} (table : Table Row) (id : Str) (f : Row → Option Row) :
    Request Row := fun s =>
  match (table.rows s.rows).find? fun row => table.id row = id with
  | none => (.error .recordNotFound, s)
  | some row =>
      match f row with
      | none => (.error .validation, s)
      | some updated =>
          let rows := (table.rows s.rows).map fun row =>
            if table.id row = id then updated else row
          (.ok updated, ⟨table.put rows s.rows, s.uuids⟩)

/-! ## The registry -/

def resolveCredentialRequirementForWrite (providerType : Json) (raw : Option Json)
    (applyCloudDefault : Bool) : Except Failure Json :=
  let resolved :=
    if raw = none ∧ applyCloudDefault ∧ providerType = literal "CLOUD_LLM" then literal "REQUIRED"
    else (nullish raw).getD (literal "UNKNOWN")
  if resolved ∉ [literal "REQUIRED", literal "NOT_REQUIRED", literal "UNKNOWN"] then
    .error (.http (.badRequest "Invalid provider credentialRequirement."))
  else if providerType = literal "CLOUD_LLM" ∧ resolved ≠ literal "REQUIRED" then
    .error (.http
      (.badRequest "CLOUD_LLM providers must declare credentialRequirement=REQUIRED."))
  else .ok resolved

section Registry

variable (server : Server)

/-- The members that are there. -/
def mentioned (input : Input) (members : List (Column × String)) : Data :=
  members.filterMap fun (column, name) => (input name).map fun value => (column, .json value)

/-- The data of a new provider, with the defaults of the service. -/
def createData (input : Input) : Except Failure Data := do
  let providerType := (nullish (input "providerType")).getD (literal "CLOUD_LLM")
  let credentialRequirement ←
    resolveCredentialRequirementForWrite providerType (input "credentialRequirement") true
  let supportedCapabilities ← iterate (input "supportedCapabilities")
  let assuranceLevels ← iterate (some ((nullish (input "assuranceLevels")).getD (.array [])))
  let orNull (column : Column) (name : String) : Column × DataValue :=
    (column, .json ((nullish (input name)).getD .null))
  let orText (column : Column) (name text : String) : Column × DataValue :=
    (column, .json ((nullish (input name)).getD (literal text)))
  let orEmpty (column : Column) (name : String) : Column × DataValue :=
    (column, .json ((nullish (input name)).getD (.object [])))
  pure <| mentioned input [(.providerCode, "providerCode"), (.displayName, "displayName")] ++
    [(.providerType, .json providerType),
      orText .status "status" "DISABLED",
      orNull .modelFamily "modelFamily",
      orNull .modelName "modelName",
      orNull .modelCode "modelCode",
      (.supportedCapabilities, .json (.array supportedCapabilities)),
      orNull .estimatedCostMinorUnits "estimatedCostMinorUnits",
      orText .healthStatus "healthStatus" "UNKNOWN",
      orText .quotaStatus "quotaStatus" "UNKNOWN",
      orNull .qualityScore "qualityScore",
      orNull .latencyScore "latencyScore",
      orNull .costScore "costScore",
      orEmpty .costMetadata "costMetadata",
      (.assuranceLevels, .json (.array assuranceLevels)),
      orEmpty .metadata "metadata",
      (.credentialRequirement, .json credentialRequirement)]

def createProvider (input : Input) : Request AgentProvider := do
  let data ← Handler.lift (createData input)
  Handler.transaction do
    let organizationId ← Handler.expect (Json.text (input "organizationId")) .validation
    let columns ← Handler.expect (server.create data) .validation
    let id ← insert organizationId
      (fun rows => rows.providers.any fun other =>
        other.organizationId = organizationId ∧ other.providerCode = columns.providerCode)
      fun id rows => { rows with providers := rows.providers ++ [⟨columns, id, organizationId⟩] }
    record (input "organizationId") "AgentProvider" id
      (.providerRegistered columns.providerCode columns.displayName columns.providerType
        columns.credentialRequirement (input "supportedCapabilities"))
    pure ⟨columns, id, organizationId⟩

/-- The requirement to be written, if it or the type is mentioned. -/
def effectiveCredentialRequirement (input : Input) (existing : AgentProvider) :
    Except Failure (Option Json) :=
  if input "credentialRequirement" ≠ none ∨ input "providerType" ≠ none then
    (resolveCredentialRequirementForWrite
      ((nullish (input "providerType")).getD (literal (providerTypeText existing.providerType)))
      (some ((nullish (input "credentialRequirement")).getD
        (literal (credentialRequirementText existing.credentialRequirement)))) false).map some
  else .ok none

/-- A status is stamped with the time it is checked at, unless the caller says that time. -/
def stamped (input : Input) (status checkedAt : Column × String) : Data :=
  mentioned input [status] ++
    match input checkedAt.2 with
    | some value => [(checkedAt.1, .json value)]
    | none => if (input status.2).isSome then [(checkedAt.1, .date (server.now checkedAt.1))] else []

/-- A list that is mentioned, as a copy. -/
def copied (input : Input) (column : Column) (name : String) : Except Failure Data :=
  match input name with
  | none => .ok []
  | some value => (iterate (some value)).map fun items => [(column, .json (.array items))]

def updateData (input : Input) (requirement : Option Json) : Except Failure Data := do
  let supportedCapabilities ← copied input .supportedCapabilities "supportedCapabilities"
  let assuranceLevels ← copied input .assuranceLevels "assuranceLevels"
  pure <| mentioned input [(.displayName, "displayName"), (.providerType, "providerType"),
      (.status, "status"), (.modelFamily, "modelFamily"), (.modelName, "modelName"),
      (.modelCode, "modelCode")] ++
    supportedCapabilities ++
    mentioned input [(.estimatedCostMinorUnits, "estimatedCostMinorUnits")] ++
    stamped server input (.healthStatus, "healthStatus") (.healthCheckedAt, "healthCheckedAt") ++
    stamped server input (.quotaStatus, "quotaStatus") (.quotaCheckedAt, "quotaCheckedAt") ++
    mentioned input [(.qualityScore, "qualityScore"), (.latencyScore, "latencyScore"),
      (.costScore, "costScore"), (.costMetadata, "costMetadata")] ++
    assuranceLevels ++
    mentioned input [(.metadata, "metadata")] ++
    requirement.toList.map fun value => (.credentialRequirement, .json value)

def updateProvider (input : Input) : Request AgentProvider := do
  let existing ← findProvider server (input "providerId") (input "organizationId")
  let requirement ← Handler.lift (effectiveCredentialRequirement input existing)
  Handler.require (input "status" ≠ some (literal "ACTIVE")) (.http (.badRequest
    ("Provider activation is blocked on the generic update endpoint. Use the explicit " ++
      "activation gate.")))
  Handler.transaction do
    let data ← Handler.lift (updateData server input requirement)
    let id ← Handler.expect (Json.text (input "providerId")) .validation
    let provider ← providerTable.update id fun provider =>
      (server.update data provider.toProviderColumns).map fun columns =>
        { provider with toProviderColumns := columns }
    record (input "organizationId") "AgentProvider" provider.id
      (.providerUpdated provider.providerCode (data.map Prod.fst))
    pure provider

def activateProvider (input : Input) : Request AgentProvider := do
  let existing ← findProvider server (input "providerId") (input "organizationId")
  let capabilities ← Handler.look fun s => capabilitiesOf s.rows existing
  Handler.require (existing.status ≠ .active)
    (.http (.badRequest "Provider is already active."))
  Handler.require
    (isTruthy (input "credentialAuthorizationConfirmed") &&
      isTruthy (input "capabilitiesReviewed") && isTruthy (input "cloudProfileReviewed"))
    (.http (.badRequest
      ("Credential authorization, provider capabilities and cloud profile must be explicitly " ++
        "reviewed before activation.")))
  let enabledCapabilities := capabilities.filter (·.isEnabled)
  Handler.require (enabledCapabilities ≠ []) (.http (.badRequest
    "At least one provider capability must be explicitly enabled before activation."))
  Handler.transaction do
    let id ← Handler.expect (Json.text (input "providerId")) .validation
    let provider ← providerTable.update id fun provider =>
      some { provider with status := .active }
    record (input "organizationId") "AgentProvider" provider.id
      (.providerActivated provider.providerCode (enabledCapabilities.map (·.capabilityCode))
        (input "approvalNote"))
    pure provider

def findProviderByCode (organizationId providerCode : Str) : Request (Option AgentProvider) :=
  Handler.look fun s => s.rows.providers.find? fun provider =>
    provider.organizationId = organizationId && provider.providerCode = providerCode

/-- The providers of an organization by their codes. -/
def providersOf (rows : Database) (organizationId : Str) : List AgentProvider :=
  Ranking.sort (fun a b => server.collate a.providerCode b.providerCode)
    (rows.providers.filter fun provider => provider.organizationId = organizationId)

def assignCapability (organizationId agentProviderId : Str) (capabilityCode isEnabled : Option Json) :
    Request ProviderCapability := do
  let provider ← findProvider server (some (.string agentProviderId))
    (some (.string organizationId))
  Handler.mapError
    (fun
      | .uniqueConstraint =>
          .http (.conflict "Capability ist diesem Provider bereits zugewiesen.")
      | error => error) <|
    Handler.transaction do
      let (code, isEnabled) ← Handler.expect
        (server.createCapability capabilityCode ((nullish isEnabled).getD (.bool false)))
        .validation
      let id ← insert organizationId
        (fun rows => rows.capabilities.any fun other =>
          other.organizationId = organizationId ∧ other.agentProviderId = provider.id ∧
            other.capabilityCode = code)
        fun id rows => { rows with
          capabilities := rows.capabilities ++
            [⟨id, organizationId, provider.id, code, isEnabled⟩] }
      record (some (.string organizationId)) "ProviderCapability" id
        (.providerCapabilityAssigned provider.id provider.providerCode code isEnabled)
      pure ⟨id, organizationId, provider.id, code, isEnabled⟩

def setCapabilityEnabled (organizationId capabilityId : Str) (isEnabled : Option Json) :
    Request ProviderCapability := do
  let found ← Handler.look fun s => s.rows.capabilities.find? fun capability =>
    capability.id = capabilityId && capability.organizationId = organizationId
  let _ ← Handler.expect found (.http (.notFound "Provider-Capability nicht gefunden."))
  Handler.transaction do
    let capability ← capabilityTable.update capabilityId fun capability =>
      (server.updateCapability isEnabled capability.isEnabled).map fun isEnabled =>
        { capability with isEnabled := isEnabled }
    record (some (.string organizationId)) "ProviderCapability" capability.id
      (.providerCapabilityUpdated capability.agentProviderId capability.capabilityCode
        capability.isEnabled)
    pure capability

/-- The capabilities of a provider, or of all if none is named. -/
def listCapabilities (organizationId agentProviderId : Str) : Request (List ProviderCapability) :=
  Handler.look fun s =>
    Ranking.sort
      (fun a b => (server.collate a.capabilityCode b.capabilityCode).then
        (server.collate a.agentProviderId b.agentProviderId))
      (s.rows.capabilities.filter fun capability =>
        capability.organizationId = organizationId &&
          (agentProviderId = [] || capability.agentProviderId = agentProviderId))

end Registry

/-! ## Provisioning -/

def engineeringCapabilities : List Str :=
  ["CODE_PLAN".toList, "CODE_BUILD".toList, "TEST_EXECUTION".toList, "REVIEW_PACKAGE".toList,
    "RED_TEAM".toList, "RELEASE_VERIFICATION".toList]

def engineeringProviderCode : Str := "cloud.openai.main".toList

/-- `ENGINEERING_PROVIDER`, as the registry is given it. -/
def engineeringProvider (organizationId : Str) : Input :=
  spread
    [("organizationId", .string organizationId),
      ("providerCode", .string engineeringProviderCode),
      ("displayName", literal "OpenAI Cloud Coding"),
      ("providerType", literal "CLOUD_LLM"),
      ("status", literal "DISABLED"),
      ("modelFamily", literal "openai"),
      ("supportedCapabilities", .array (engineeringCapabilities.map .string)),
      ("assuranceLevels",
        .array [literal "AL1", literal "AL2", literal "AL3", literal "AL4"]),
      ("metadata", .object
        [("serverOwned".toList, .bool true),
          ("purpose".toList, literal "vito-engineering-builder"),
          ("requiresExplicitActivation".toList, .bool true)])] []

/-- The stored provider is the one that is provisioned. -/
def matchesEngineeringProvider (provider : AgentProvider) : Bool :=
  let supported := provider.supportedCapabilities.filterMap fun value => Json.text (some value)
  provider.status = .disabled && provider.providerType = .cloudLlm &&
    provider.modelFamily = some "openai".toList &&
      supported.length = engineeringCapabilities.length &&
        engineeringCapabilities.all supported.contains

/-- The capabilities that are there may stay. -/
def checkCapabilities : List ProviderCapability → Except Failure Unit
  | [] => .ok ()
  | existing :: rest =>
      if existing.capabilityCode ∉ engineeringCapabilities then
        .error (.http (.conflict ("Unexpected provider capability " ++
          String.ofList existing.capabilityCode ++ " on cloud.openai.main.")))
      else if existing.isEnabled then
        .error (.http (.conflict ("Provider capability " ++
          String.ofList existing.capabilityCode ++
          " is already enabled; bootstrap will not modify active authority.")))
      else checkCapabilities rest

def assignMissing (server : Server) (organizationId providerId : Str) (existingCodes : List Str) :
    List Str → Request Unit
  | [] => pure ()
  | code :: rest => do
      if code ∉ existingCodes then
        let _ ← assignCapability server organizationId providerId (some (.string code))
          (some (.bool false))
        assignMissing server organizationId providerId existingCodes rest
      else assignMissing server organizationId providerId existingCodes rest

/-- The provider that is there, if it may stay, or a new one. -/
def bootstrapProvider (server : Server) (organizationId : Str) :
    Option AgentProvider → Request AgentProvider
  | some provider => do
      Handler.require (matchesEngineeringProvider provider) (.http (.conflict
        ("Existing cloud.openai.main does not match the governed DISABLED engineering " ++
          "provider bootstrap.")))
      pure provider
  | none => createProvider server (engineeringProvider organizationId)

/-- What the provisioning answers, but for its constants. -/
structure Provisioned where
  providerId : Str
  providerCode : Str
  status : ProviderStatus

/-- `provision`, for a caller who is an authenticated human or is not. -/
def provision (server : Server) (organizationId : Str) (human : Bool) : Request Provisioned := do
  Handler.require human (.http (.badRequest
    "Engineering provider provisioning requires authenticated human governance."))
  let found ← findProviderByCode organizationId engineeringProviderCode
  let provider ← bootstrapProvider server organizationId found
  let existing ← listCapabilities server organizationId provider.id
  Handler.lift (checkCapabilities existing)
  assignMissing server organizationId provider.id (existing.map (·.capabilityCode))
    engineeringCapabilities
  pure ⟨provider.id, provider.providerCode, provider.status⟩

/-! ## Routing -/

/-- A member that is missing or a text. -/
def optionalText : Option Json → Option (Option Str)
  | none => some none
  | some (.string value) => some (some value)
  | some _ => none

def texts (items : List Json) : Option (List Str) := items.mapM fun item => Json.text (some item)

/-- A member that is missing or a list of texts. -/
def optionalTexts : Option Json → Option (List Str)
  | none => some []
  | some (.array items) => texts items
  | some _ => none

/-- The member `independenceContext` of a body of the declared type. -/
def declaredContext : Option Json → Option (Option IndependenceContext)
  | none => some none
  | some (.object fields) => do
      pure <| some
        { builderProviderId := ← optionalText (fields.lookup "builderProviderId".toList)
          builderModelFamily := ← optionalText (fields.lookup "builderModelFamily".toList)
          previousReviewerProviderIds :=
            ← optionalTexts (fields.lookup "previousReviewerProviderIds".toList)
          previousReviewerModelFamilies :=
            ← optionalTexts (fields.lookup "previousReviewerModelFamilies".toList) }
  | some _ => none

/-- `budget.maxCostMinorUnits` of a body of the declared type, where that is a whole number. -/
def declaredBudget : Option Json → Option (Option Int)
  | none => some none
  | some (.object fields) =>
      match fields.lookup "maxCostMinorUnits".toList with
      | none => some none
      | some (.number value) => if value.den = 1 then some (some value.num) else none
      | some _ => none
  | some _ => none

/-- The body of a routing of the declared type. -/
structure RouteBody where
  capability : Str
  assuranceLevel : Option Str
  workflowRunId : Option Str
  workflowStepRunId : Option Str
  independenceContext : Option IndependenceContext
  maxCostMinorUnits : Option Int
  correlationId : Option Str

def RouteBody.ofJson (body : List (Str × Json)) : Option RouteBody := do
  pure
    { capability := ← Json.text (body.lookup "capability".toList)
      assuranceLevel := ← optionalText (body.lookup "assuranceLevel".toList)
      workflowRunId := ← optionalText (body.lookup "workflowRunId".toList)
      workflowStepRunId := ← optionalText (body.lookup "workflowStepRunId".toList)
      independenceContext := ← declaredContext (body.lookup "independenceContext".toList)
      maxCostMinorUnits := ← declaredBudget (body.lookup "budget".toList)
      correlationId := ← optionalText (body.lookup "correlationId".toList) }

/-- A candidate as the router declares it. -/
def Candidate.declaration (candidate : Candidate) : Option RoutedDeclaration := do
  let provider := candidate.1
  pure
    { id := provider.id
      organizationId := provider.organizationId
      providerCode := provider.providerCode
      providerType := provider.providerType
      status := provider.status
      capabilityAssignments := candidate.2.map fun capability =>
        ⟨capability.capabilityCode, capability.isEnabled⟩
      estimatedCostMinorUnits := provider.estimatedCostMinorUnits
      healthStatus := provider.healthStatus
      quotaStatus := provider.quotaStatus
      assuranceLevels := ← texts provider.assuranceLevels
      credentialRequirement := some provider.credentialRequirement
      modelFamily := provider.modelFamily
      healthCheckedAt := provider.healthCheckedAt
      quotaCheckedAt := provider.quotaCheckedAt
      qualityScore := provider.qualityScore
      latencyScore := provider.latencyScore
      costScore := provider.costScore }

section Router

variable (server : Server)

/-- What the router stores and answers for a body of the declared type. -/
def RouteBody.outcome (organizationId correlationId : Str) (body : RouteBody)
    (candidates : List RoutedDeclaration) : RouteOutcome :=
  let request : ProviderRoutingRequest :=
    { organizationId := organizationId
      capability := body.capability
      assuranceLevel := body.assuranceLevel
      workflowRunId := body.workflowRunId.getD []
      workflowStepRunId := body.workflowStepRunId.getD []
      independenceContext := body.independenceContext
      maxCostMinorUnits := body.maxCostMinorUnits
      correlationId := correlationId }
  let response := routeInternal server.localeCompare server.runtimeState request candidates
  let selectedProviderId := response.selectedProvider.map (·.id)
  { decision :=
      { correlationId := correlationId
        workflowRunId := body.workflowRunId
        workflowStepRunId := body.workflowStepRunId
        requestedCapability := body.capability
        assuranceLevel := body.assuranceLevel
        selectedProviderId := selectedProviderId
        candidateProviderIds := response.allCandidateIds
        rejectionReasons := response.rejectionReasons.entries
        scoreComponents := response.scoreComponents.entries
        finalScore := selectedProviderId.bind response.finalScores.get
        decisionReason := response.decisionReason }
    response := response }

def evaluate (organizationId : Str) (body : List (Str × Json)) (candidates : List Candidate)
    (uuid : Str) : Except Failure RouteOutcome :=
  match RouteBody.ofJson body, candidates.mapM Candidate.declaration with
  | some typed, some declarations =>
      .ok (typed.outcome server organizationId (typed.correlationId.getD uuid) declarations)
  | _, _ => server.illTyped candidates body uuid

def loadCandidates (rows : Database) (organizationId : Str) : List Candidate :=
  (providersOf server rows organizationId).map fun provider =>
    (provider, capabilitiesOf rows provider)

/-- The identifier of the decision, the response, and the selected provider in full. -/
def route (organizationId : Str) (body : List (Str × Json)) :
    Request (Str × RoutingResponse × Option Candidate) := do
  let uuid ← randomUUID
  let candidates ← Handler.look fun s => loadCandidates server s.rows organizationId
  let outcome ← Handler.lift (evaluate server organizationId body candidates uuid)
  let selected := outcome.decision.selectedProviderId.bind fun id =>
    candidates.find? fun candidate => candidate.1.id = id
  let decisionId ← insert organizationId (fun _ => false) fun id rows =>
    { rows with decisions := rows.decisions ++ [⟨outcome.decision, id, organizationId⟩] }
  record (some (.string organizationId)) "ProviderRoutingDecision" decisionId
    (.providerRouting outcome.decision (selected.map (·.1.providerCode))
      outcome.response.eligibleCandidateIds.length)
  pure (decisionId, outcome.response, selected)

/-- `include: { selectedProvider: true }`. -/
def withSelectedProvider (rows : Database) (decision : ProviderRoutingDecision) :
    ProviderRoutingDecision × Option AgentProvider :=
  (decision, decision.selectedProviderId.bind fun id =>
    rows.providers.find? fun provider => provider.id = id)

/-- The decisions of an organization that a condition finds, in the order of their creation. -/
def decisionsWhere (rows : Database) (organizationId : Str) (p : ProviderRoutingDecision → Bool) :
    List (ProviderRoutingDecision × Option AgentProvider) :=
  (rows.decisions.filter fun decision => decision.organizationId = organizationId && p decision).map
    (withSelectedProvider rows)

def findDecisionById (organizationId decisionId : Str) :
    Request (Option (ProviderRoutingDecision × Option AgentProvider)) :=
  Handler.look fun s => (decisionsWhere s.rows organizationId fun decision =>
    decision.id = decisionId).head?

/-- The decisions of a correlation, or else of a workflow run. -/
def findDecisions (organizationId : Str) (correlationId workflowRunId : Option Json) :
    Request (List (ProviderRoutingDecision × Option AgentProvider)) := do
  if isTruthy correlationId then
    let condition ← Handler.expect (server.condition correlationId) .validation
    Handler.look fun s => decisionsWhere s.rows organizationId fun decision =>
      condition decision.correlationId
  else if isTruthy workflowRunId then
    let condition ← Handler.expect (server.condition workflowRunId) .validation
    Handler.look fun s => decisionsWhere s.rows organizationId fun decision =>
      decision.workflowRunId.any condition
  else pure []

end Router

/-! ## The controller -/

/-- A request to the controller: the endpoint with its path, its query and its body. -/
inductive Call where
  /-- Of a caller who is an authenticated human, or is not. -/
  | provisionEngineeringProvider (human : Bool)
  | createProvider (body : List (Str × Json))
  | findAllProviders
  | findProvider (providerId : Str)
  | updateProvider (providerId : Str) (body : List (Str × Json))
  | activateProvider (providerId : Str) (body : List (Str × Json))
  | updateHealthStatus (providerId : Str) (body : List (Str × Json))
  | updateQuotaStatus (providerId : Str) (body : List (Str × Json))
  | assignCapability (providerId : Str) (body : List (Str × Json))
  | listCapabilities (providerId : Str)
  | setCapabilityEnabled (capabilityId : Str) (body : List (Str × Json))
  | route (body : List (Str × Json))
  | findDecision (decisionId : Str)
  | findDecisions (correlationId workflowRunId : Option Json)

inductive Response where
  | provisioned (answer : Provisioned)
  | provider (row : AgentProvider)
  | providers (rows : List AgentProvider)
  | capability (row : ProviderCapability)
  | capabilities (rows : List ProviderCapability)
  | routed (decisionId : Str) (response : RoutingResponse) (selectedProvider : Option Candidate)
  | decision (row : Option (ProviderRoutingDecision × Option AgentProvider))
  | decisions (rows : List (ProviderRoutingDecision × Option AgentProvider))

/-- The input of an endpoint that names no provider in its path. -/
def createInput (organizationId : Str) (body : List (Str × Json)) : Input :=
  spread [("organizationId", .string organizationId)] body

/-- The input of an endpoint that names a provider in its path. -/
def providerInput (organizationId providerId : Str) (body : List (Str × Json)) : Input :=
  spread [("organizationId", .string organizationId), ("providerId", .string providerId)] body

/-- An input of three members, one of which the body may not have. -/
def memberInput (organizationId providerId : Str) (name : String) (body : List (Str × Json)) :
    Input := fun member =>
  if member = name then body.lookup name.toList else providerInput organizationId providerId [] member

/-- The handler of a request of the tenant. -/
def Call.handle (server : Server) (organizationId : Str) : Call → Request Response
  | .provisionEngineeringProvider human =>
      return .provisioned (← provision server organizationId human)
  | .createProvider body =>
      return .provider (← ProviderRequests.createProvider server (createInput organizationId body))
  | .findAllProviders =>
      return .providers (← Handler.look fun s => providersOf server s.rows organizationId)
  | .findProvider providerId =>
      return .provider (← ProviderRequests.findProvider server (some (.string providerId))
        (some (.string organizationId)))
  | .updateProvider providerId body =>
      return .provider (← ProviderRequests.updateProvider server
        (providerInput organizationId providerId body))
  | .activateProvider providerId body =>
      return .provider (← ProviderRequests.activateProvider server
        (providerInput organizationId providerId body))
  | .updateHealthStatus providerId body =>
      return .provider (← ProviderRequests.updateProvider server
        (memberInput organizationId providerId "healthStatus" body))
  | .updateQuotaStatus providerId body =>
      return .provider (← ProviderRequests.updateProvider server
        (memberInput organizationId providerId "quotaStatus" body))
  | .assignCapability providerId body =>
      return .capability (← ProviderRequests.assignCapability server organizationId providerId
        (body.lookup "capabilityCode".toList) (body.lookup "isEnabled".toList))
  | .listCapabilities providerId =>
      return .capabilities (← ProviderRequests.listCapabilities server organizationId providerId)
  | .setCapabilityEnabled capabilityId body =>
      return .capability (← ProviderRequests.setCapabilityEnabled server organizationId capabilityId
        (body.lookup "isEnabled".toList))
  | .route body => do
      let (decisionId, response, selected) ← ProviderRequests.route server organizationId body
      return .routed decisionId response selected
  | .findDecision decisionId =>
      return .decision (← findDecisionById organizationId decisionId)
  | .findDecisions correlationId workflowRunId =>
      return .decisions
        (← ProviderRequests.findDecisions server organizationId correlationId workflowRunId)

end ProviderRequests
