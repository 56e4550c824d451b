import VitoPlatform.Library.Json
import VitoPlatform.Library.Tables
import VitoPlatform.Persistence.Services

/-!
# Digital employees and their capabilities

`DigitalEmployeesService.create`, `update` and `activate`, and `CapabilitiesService.create`,
`grantToDigitalEmployee` and `revokeFromDigitalEmployee`. The activation gate looks at what has
been read before the transaction that activates. The store also records what it has read; no
program looks at that.
-/

namespace Activation

open Text Concurrent Services

inductive DigitalEmployeeStatus where
  | draft
  | active
  | paused
  | archived
  deriving DecidableEq

inductive EmployeeType where
  | orchestrator
  | specialist
  | assistant
  deriving DecidableEq

inductive RiskLevel where
  | low
  | medium
  | high
  | critical
  deriving DecidableEq

structure DigitalEmployee where
  id : Str
  organizationId : Str
  name : Str
  code : Str
  description : Option Str
  status : DigitalEmployeeStatus
  employeeType : EmployeeType
  version : Str

structure Capability where
  id : Str
  organizationId : Str
  code : Str
  name : Str
  description : Option Str
  riskLevel : RiskLevel
  requiresApproval : Bool
  deriving DecidableEq

structure DigitalEmployeeCapability where
  digitalEmployeeId : Str
  capabilityId : Str
  isEnabled : Bool
  configuration : Json

structure CreateDigitalEmployeeDto where
  name : Str
  code : Str
  description : Option Str
  employeeType : EmployeeType
  status : DtoField DigitalEmployeeStatus
  version : Str

structure UpdateDigitalEmployeeDto where
  name : DtoField Str
  description : DtoField Str
  employeeType : DtoField EmployeeType
  status : DtoField DigitalEmployeeStatus
  version : DtoField Str

structure ActivateDigitalEmployeeDto where
  capabilitiesReviewed : Bool
  dataAccessReviewed : Bool
  approvalNote : Str

structure CreateCapabilityDto where
  code : Str
  name : Str
  description : Option Str
  riskLevel : DtoField RiskLevel
  requiresApproval : DtoField Bool

structure GrantCapabilityDto where
  isEnabled : Option Bool
  configuration : Option Json

/-- An audit record, with its metadata. -/
inductive AuditRecord where
  | employeeCreated (entityId code : Str) (employeeType : EmployeeType)
  | employeeUpdated (entityId : Str) (changes : UpdateDigitalEmployeeDto)
  | activated (entityId approvalNote : Str) (enabledCapabilityCodes : List Str)
  | capabilityCreated (entityId code : Str) (riskLevel : RiskLevel)
  | granted (digitalEmployeeId capabilityId : Str) (isEnabled : Bool)
  | revoked (digitalEmployeeId capabilityId : Str)

/-- The capabilities of an employee as they have been read. -/
abbrev Assignments := List (DigitalEmployeeCapability × Capability)

structure Store where
  employees : List DigitalEmployee
  capabilities : List Capability
  links : List DigitalEmployeeCapability
  audit : List AuditRecord
  /-- What each session has read of which employee. -/
  reads : List (Nat × Str × Assignments)

/-! ## Rows -/

def DigitalEmployeeCapability.isFor (link : DigitalEmployeeCapability)
    (digitalEmployeeId capabilityId : Str) : Bool :=
  link.digitalEmployeeId = digitalEmployeeId ∧ link.capabilityId = capabilityId

/-- `include: { capabilities: { include: { capability: true } } }`. -/
def Store.assignments (s : Store) (id : Str) : Assignments :=
  (s.links.filter fun link => link.digitalEmployeeId = id).filterMap fun link =>
    (Tables.find Capability.id s.capabilities link.capabilityId).map fun capability =>
      (link, capability)

def Store.belongs (s : Store) (organizationId id : Str) : Bool :=
  s.employees.any fun employee => employee.id = id ∧ employee.organizationId = organizationId

def Store.hasCapability (s : Store) (organizationId id : Str) : Bool :=
  s.capabilities.any fun capability =>
    capability.id = id ∧ capability.organizationId = organizationId

def Store.hasLink (s : Store) (digitalEmployeeId capabilityId : Str) : Bool :=
  s.links.any fun link => link.isFor digitalEmployeeId capabilityId

/-! ## Digital employees -/

def employeeNotFound : HttpError := .notFound "DigitalEmployee nicht gefunden."

/-- An employee, with its capabilities. -/
def findByIdOrFail (session : Nat) (organizationId id : Str) :
    Program Store (DigitalEmployee × Assignments) :=
  change fun _ s =>
    let found := s.employees.find? fun employee =>
      employee.id = id ∧ employee.organizationId = organizationId
    match found with
    | none => (.error employeeNotFound, s)
    | some employee =>
        (.ok (employee, s.assignments id),
          { s with reads := s.reads ++ [(session, id, s.assignments id)] })

def CreateDigitalEmployeeDto.employee (dto : CreateDigitalEmployeeDto)
    (organizationId id : Str) : DigitalEmployee :=
  { id := id
    organizationId := organizationId
    name := dto.name
    code := dto.code
    description := dto.description
    status := dto.status.set .draft
    employeeType := dto.employeeType
    version := dto.version }

def Store.insertEmployee (s : Store) (employee : DigitalEmployee) :
    Except HttpError DigitalEmployee × Store :=
  if s.employees.any fun other => other.id = employee.id ∨
      other.organizationId = employee.organizationId ∧ other.code = employee.code then
    (.error (.conflict
      "Ein DigitalEmployee mit diesem code existiert bereits in dieser Organization."), s)
  else
    (.ok employee, { s with
      employees := s.employees ++ [employee]
      audit := s.audit ++ [.employeeCreated employee.id employee.code employee.employeeType] })

def createEmployee (organizationId : Str) (dto : CreateDigitalEmployeeDto) :
    Program Store DigitalEmployee := do
  Proc.require (dto.status ≠ .value .active) (.badRequest
    "DigitalEmployees must pass the activation gate before becoming ACTIVE.")
  change fun c s =>
    if dto.status = .null then (.error .database, s)
    else s.insertEmployee (dto.employee organizationId c.id)

/-- `update where id`, and its audit record. -/
def Store.updateEmployee (s : Store) (id : Str) (f : DigitalEmployee → DigitalEmployee)
    (record : AuditRecord) : Except HttpError DigitalEmployee × Store :=
  match Tables.find DigitalEmployee.id s.employees id with
  | none => (.error .database, s)
  | some employee =>
      (.ok (f employee), { s with
        employees := Tables.write DigitalEmployee.id s.employees id f
        audit := s.audit ++ [record] })

namespace UpdateDigitalEmployeeDto

variable (dto : UpdateDigitalEmployeeDto)

/-- No field is `null` whose column does not take it. -/
def noNull : Bool :=
  dto.name ≠ .null ∧ dto.employeeType ≠ .null ∧ dto.status ≠ .null ∧ dto.version ≠ .null

def apply (employee : DigitalEmployee) : DigitalEmployee :=
  { employee with
    name := dto.name.set employee.name
    description := dto.description.setNullable employee.description
    employeeType := dto.employeeType.set employee.employeeType
    status := dto.status.set employee.status
    version := dto.version.set employee.version }

end UpdateDigitalEmployeeDto

def updateEmployee (session : Nat) (organizationId id : Str) (dto : UpdateDigitalEmployeeDto) :
    Program Store DigitalEmployee := do
  let _ ← findByIdOrFail session organizationId id
  Proc.require (dto.status ≠ .value .active)
    (.badRequest "Direct activation is forbidden. Use the activation gate endpoint.")
  change fun _ s =>
    if dto.noNull then s.updateEmployee id dto.apply (.employeeUpdated id dto)
    else (.error .database, s)

/-! ## The activation gate -/

def DigitalEmployeeStatus.text : DigitalEmployeeStatus → String
  | .draft => "DRAFT"
  | .active => "ACTIVE"
  | .paused => "PAUSED"
  | .archived => "ARCHIVED"

def enabledOf (assignments : Assignments) : List Capability :=
  (assignments.filter fun assignment => assignment.1.isEnabled).map Prod.snd

/-- A risk that nobody has to approve. -/
def Capability.ungated (capability : Capability) : Bool :=
  (capability.riskLevel = .high ∨ capability.riskLevel = .critical) ∧
    capability.requiresApproval = false

/-- The checks of `activate` on what has been read, in their order. -/
def activationGate (employee : DigitalEmployee) (assignments : Assignments)
    (dto : ActivateDigitalEmployeeDto) : Except HttpError (List Capability) :=
  let enabled := enabledOf assignments
  let ungated := enabled.filter Capability.ungated
  if employee.status ≠ .draft ∧ employee.status ≠ .paused then
    .error (.badRequest ("Only DRAFT or PAUSED employees may be activated. Current status: " ++
      employee.status.text))
  else if ¬ dto.capabilitiesReviewed ∨ ¬ dto.dataAccessReviewed then
    .error (.badRequest
      "Capabilities and data access must be explicitly reviewed before activation.")
  else if assignments.length = 0 then
    .error (.badRequest "At least one capability must be assigned before activation.")
  else if enabled.length = 0 then
    .error (.badRequest "At least one capability must be explicitly enabled before activation.")
  else if ungated.length > 0 then
    .error (.badRequest ("High-risk capabilities must require approval: " ++
      String.ofList (join ", ".toList (ungated.map Capability.code))))
  else .ok enabled

def DigitalEmployee.activate (employee : DigitalEmployee) : DigitalEmployee :=
  { employee with status := .active }

def activate (session : Nat) (organizationId id : Str) (dto : ActivateDigitalEmployeeDto) :
    Program Store DigitalEmployee := do
  let (employee, assignments) ← findByIdOrFail session organizationId id
  match activationGate employee assignments dto with
  | .error error => .throw error
  | .ok enabled =>
      change fun _ s => s.updateEmployee id DigitalEmployee.activate
        (.activated id dto.approvalNote (enabled.map Capability.code))

/-! ## Capabilities -/

def CreateCapabilityDto.capability (dto : CreateCapabilityDto) (organizationId id : Str) :
    Capability :=
  { id := id
    organizationId := organizationId
    code := dto.code
    name := dto.name
    description := dto.description
    riskLevel := dto.riskLevel.set .low
    requiresApproval := dto.requiresApproval.set false }

def Store.insertCapability (s : Store) (capability : Capability) :
    Except HttpError Capability × Store :=
  if s.capabilities.any fun other => other.id = capability.id ∨
      other.organizationId = capability.organizationId ∧ other.code = capability.code then
    (.error (.conflict
      "Eine Capability mit diesem code existiert bereits in dieser Organization."), s)
  else
    (.ok capability, { s with
      capabilities := s.capabilities ++ [capability]
      audit := s.audit ++ [.capabilityCreated capability.id capability.code capability.riskLevel] })

def createCapability (organizationId : Str) (dto : CreateCapabilityDto) :
    Program Store Capability :=
  change fun c s =>
    if dto.riskLevel = .null ∨ dto.requiresApproval = .null then (.error .database, s)
    else s.insertCapability (dto.capability organizationId c.id)

/-- An employee and a capability of the organization. -/
def assertBoth (organizationId digitalEmployeeId capabilityId : Str) : Program Store Unit := do
  let found ← query fun s => s.belongs organizationId digitalEmployeeId
  Proc.require found
    (.notFound "Zugewiesener DigitalEmployee existiert nicht in dieser Organization.")
  let found ← query fun s => s.hasCapability organizationId capabilityId
  Proc.require found (.notFound "Capability nicht gefunden.")

/-- `upsert` on the key of the link. -/
def Store.upsertLink (s : Store) (link : DigitalEmployeeCapability) :
    List DigitalEmployeeCapability :=
  if s.hasLink link.digitalEmployeeId link.capabilityId then
    s.links.map fun old =>
      if old.isFor link.digitalEmployeeId link.capabilityId then link else old
  else s.links ++ [link]

/-- What an upsert writes, if the keys that it refers to are there. -/
def Store.grant (s : Store) (link : DigitalEmployeeCapability) :
    Except HttpError DigitalEmployeeCapability × Store :=
  if (Tables.find DigitalEmployee.id s.employees link.digitalEmployeeId).isSome ∧
      (Tables.find Capability.id s.capabilities link.capabilityId).isSome then
    (.ok link, { s with
      links := s.upsertLink link
      audit := s.audit ++ [.granted link.digitalEmployeeId link.capabilityId link.isEnabled] })
  else (.error .database, s)

def grantToDigitalEmployee (organizationId digitalEmployeeId capabilityId : Str)
    (dto : GrantCapabilityDto) : Program Store DigitalEmployeeCapability := do
  assertBoth organizationId digitalEmployeeId capabilityId
  change fun _ s => s.grant
    { digitalEmployeeId := digitalEmployeeId
      capabilityId := capabilityId
      isEnabled := dto.isEnabled.getD false
      configuration := dto.configuration.getD (.object []) }

/-- What `delete` does with a link that is there. -/
def Store.revoke (s : Store) (digitalEmployeeId capabilityId : Str) :
    Except HttpError Unit × Store :=
  if s.hasLink digitalEmployeeId capabilityId then
    (.ok (), { s with
      links := s.links.filter fun link => !link.isFor digitalEmployeeId capabilityId
      audit := s.audit ++ [.revoked digitalEmployeeId capabilityId] })
  else (.error .database, s)

def revokeFromDigitalEmployee (organizationId digitalEmployeeId capabilityId : Str) :
    Program Store Unit := do
  assertBoth organizationId digitalEmployeeId capabilityId
  let found ← query fun s => s.hasLink digitalEmployeeId capabilityId
  Proc.require found
    (.notFound "Diese Capability ist dem DigitalEmployee nicht zugewiesen.")
  change fun _ s => s.revoke digitalEmployeeId capabilityId

/-! ## Calls -/

inductive Call where
  | createEmployee (organizationId : Str) (dto : CreateDigitalEmployeeDto)
  | updateEmployee (organizationId id : Str) (dto : UpdateDigitalEmployeeDto)
  | activate (organizationId id : Str) (dto : ActivateDigitalEmployeeDto)
  | createCapability (organizationId : Str) (dto : CreateCapabilityDto)
  | grant (organizationId digitalEmployeeId capabilityId : Str) (dto : GrantCapabilityDto)
  | revoke (organizationId digitalEmployeeId capabilityId : Str)

/-- The program of the call that runs as `session`. -/
def Call.program (session : Nat) : Call → Program Store Unit
  | .createEmployee organizationId dto => do
      let _ ← Activation.createEmployee organizationId dto
  | .updateEmployee organizationId id dto => do
      let _ ← Activation.updateEmployee session organizationId id dto
  | .activate organizationId id dto => do
      let _ ← Activation.activate session organizationId id dto
  | .createCapability organizationId dto => do
      let _ ← Activation.createCapability organizationId dto
  | .grant organizationId digitalEmployeeId capabilityId dto => do
      let _ ← grantToDigitalEmployee organizationId digitalEmployeeId capabilityId dto
  | .revoke organizationId digitalEmployeeId capabilityId =>
      revokeFromDigitalEmployee organizationId digitalEmployeeId capabilityId

def programs (calls : List Call) : List (Program Store Unit) :=
  calls.mapIdx fun session call => call.program session

abbrev Move := Concurrent.Move Store Choice HttpError Unit

/-- A run of any calls from a store. -/
abbrev Run (calls : List Call) (store : Store) (moves : List Move)
    (s : Concurrent.System Store Choice HttpError Unit) : Prop :=
  Concurrent.Run store (programs calls) moves s

end Activation
