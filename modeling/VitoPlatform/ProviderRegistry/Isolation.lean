import VitoPlatform.ProviderRegistry.Requests

/-!
# Tenant isolation

The rows of the tenant are its view of the store, with the identifiers to be generated. A request
is isolated if it changes no row of another organization and answers the same on two stores that
agree in that view. The spreads of the controller let a body name another organization, so this is
not so for every body: `Call.Clean` is the exact condition (`isolated_iff`), on databases none of
whose rows refers to a provider of another organization.
-/

namespace ProviderRequests

open Text Invocation Services Routing Handler
open ProviderRegistry (ProviderCapability)

/-- The rows of some organizations. -/
def Database.part (p : Str → Bool) (rows : Database) : Database where
  organizations := rows.organizations.filter p
  providers := rows.providers.filter fun provider => p provider.organizationId
  capabilities := rows.capabilities.filter fun capability => p capability.organizationId
  decisions := rows.decisions.filter fun decision => p decision.organizationId
  auditEvents := rows.auditEvents.filter fun event => p event.organizationId

/-- The rows of an organization, and all other rows. -/
def tenant (organizationId : Str) : View Store (Database × (Nat → Str)) Database where
  mine s := (s.rows.part (· = organizationId), s.uuids)
  others s := s.rows.part (· ≠ organizationId)

/-- Identifiers are unique, and no row refers to a provider of another organization. -/
structure Coherent (rows : Database) : Prop where
  providers : (rows.providers.map (·.id)).Nodup
  capabilities : (rows.capabilities.map (·.id)).Nodup
  assigned : ∀ capability ∈ rows.capabilities, ∀ provider ∈ rows.providers,
    capability.agentProviderId = provider.id →
      capability.organizationId = provider.organizationId
  selected : ∀ decision ∈ rows.decisions, ∀ provider ∈ rows.providers,
    decision.selectedProviderId = some provider.id →
      decision.organizationId = provider.organizationId

/-- The request changes no row of another organization, and stores that agree on the rows of its
own are answered the same. -/
def Isolated (server : Server) (organizationId : Str) (call : Call) : Prop :=
  ∀ s t : Store, Coherent s.rows → Coherent t.rows →
    (tenant organizationId).mine s = (tenant organizationId).mine t →
      (call.handle server organizationId s).1 = (call.handle server organizationId t).1 ∧
        (tenant organizationId).others (call.handle server organizationId s).2 =
          (tenant organizationId).others s

/-- A new provider can be made of the input. -/
def Creatable (server : Server) (input : Input) : Prop :=
  ∃ data columns, createData input = .ok data ∧ server.create data = some columns

/-- The conditions of the input on a provider can be met by the organization only. -/
def SelectsOwn (server : Server) (organizationId : Str) (input : Input) : Prop :=
  ∀ hasId hasOrganization id other, server.condition (input "providerId") = some hasId →
    server.condition (input "organizationId") = some hasOrganization →
      hasId id = true → hasOrganization other = true → other = organizationId

/-- The body of a request does not lead to another organization. -/
def Call.Clean (server : Server) (organizationId : Str) : Call → Prop
  | .createProvider body => ∀ other,
      createInput organizationId body "organizationId" = some (.string other) →
        Creatable server (createInput organizationId body) → other = organizationId
  | .updateProvider providerId body | .activateProvider providerId body =>
      SelectsOwn server organizationId (providerInput organizationId providerId body)
  | _ => True

section Statements

variable {server : Server} {organizationId : Str} {α : Type} {pre : Store → Prop}

/-- A reading of rows of the organization only. -/
theorem reads (f : Database → α)
    (h : ∀ s, pre s → f s.rows = f (s.rows.part (· = organizationId))) :
    Confined (tenant organizationId) pre (Handler.look fun s => f s.rows : Request α)
      fun a s => pre s ∧ f s.rows = a := by
  refine Confined.look fun s t hs ht hmine => ?_
  have hrows : s.rows.part (· = organizationId) = t.rows.part (· = organizationId) :=
    congrArg Prod.fst hmine
  rw [h s hs, h t ht, hrows]

theorem mem_organizations {rows : Database} : organizationId ∈ rows.organizations ↔
    organizationId ∈ (rows.part (· = organizationId)).organizations := by
  simp [Database.part]

/-- A new row of the organization. -/
theorem insert_confined {clash : Database → Bool} {add : Str → Database → Database}
    (hclash : ∀ rows, clash rows = clash (rows.part (· = organizationId)))
    (hmine : ∀ id rows, (add id rows).part (· = organizationId) =
      add id (rows.part (· = organizationId)))
    (hothers : ∀ id rows, (add id rows).part (· ≠ organizationId) =
      rows.part (· ≠ organizationId)) :
    Confined (tenant organizationId) pre (insert organizationId clash add) fun _ _ => True where
  others s _ := by
    rw [insert]
    split
    · rfl
    split
    · rfl
    · exact hothers _ _
  same s t _ _ h := by
    obtain ⟨hrows, huuids⟩ := Prod.mk.inj h
    have hmem : organizationId ∈ s.rows.organizations ↔ organizationId ∈ t.rows.organizations := by
      rw [mem_organizations, hrows, ← mem_organizations]
    have hsame : clash s.rows = clash t.rows := by
      rw [hclash, hrows, ← hclash]
    simp only [insert, hsame, hmem]
    split
    · exact ⟨rfl, h⟩
    split
    · exact ⟨rfl, h⟩
    · have hadd : (add (s.uuids 0) s.rows).part (· = organizationId) =
          (add (t.uuids 0) t.rows).part (· = organizationId) := by
        rw [hmine, hmine, hrows, huuids]
      exact ⟨congrArg Except.ok (congrFun huuids 0),
        Prod.ext hadd (funext fun n => congrFun huuids (n + 1))⟩
  answers _ _ _ _ := trivial

theorem randomUUID_confined :
    Confined (tenant organizationId) pre (randomUUID : Request Str) fun _ s =>
      ∃ uuids, pre ⟨s.rows, uuids⟩ where
  others _ _ := rfl
  same s t _ _ h := by
    obtain ⟨hrows, huuids⟩ := Prod.mk.inj h
    exact ⟨congrArg Except.ok (congrFun huuids 0),
      Prod.ext hrows (funext fun n => congrFun huuids (n + 1))⟩
  answers s _ hs _ := ⟨s.uuids, hs⟩

theorem record_confined {value : Option Json} {entityType : String} {entityId : Str}
    {metadata : AuditMetadata} (h : ∀ other, Json.text value = some other → other = organizationId) :
    Confined (tenant organizationId) pre (record value entityType entityId metadata)
      fun _ _ => True := by
  refine Confined.bind Confined.expect fun other => ?_
  refine .given (fun _ hs => h other hs.2) ?_
  rintro rfl
  refine Confined.bind (insert_confined ?_ ?_ ?_) fun _ => .pure fun _ _ => trivial
  · exact fun _ => rfl
  · intro id rows
    simp [Database.part]
  · intro id rows
    simp [Database.part]

theorem text_own {other : Str} (h : Json.text (some (.string organizationId)) = some other) :
    other = organizationId :=
  (Option.some.inj h).symm

/-- A provider found by conditions that only the organization meets. -/
theorem findProvider_confined {id organization : Option Json}
    (h : ∀ hasId hasOrganization i other, server.condition id = some hasId →
      server.condition organization = some hasOrganization → hasId i = true →
        hasOrganization other = true → other = organizationId) :
    Confined (tenant organizationId) pre (findProvider server id organization)
      fun provider s => pre s ∧ provider ∈ s.rows.providers ∧
        provider.organizationId = organizationId ∧
          (∃ hasId, server.condition id = some hasId ∧ hasId provider.id = true) ∧
          ∃ hasOrganization, server.condition organization = some hasOrganization ∧
            hasOrganization provider.organizationId = true := by
  refine Confined.bind Confined.expect fun hasId => ?_
  refine Confined.bind Confined.expect fun hasOrganization => ?_
  refine Confined.bind (reads (fun rows => rows.providers.find? fun provider =>
    hasId provider.id && hasOrganization provider.organizationId) ?_) fun found => ?_
  · rintro s ⟨⟨-, hid⟩, horganization⟩
    refine List.find?_owned fun provider _ hp => ?_
    obtain ⟨hp, hp'⟩ := Bool.and_eq_true_iff.mp hp
    exact decide_eq_true (h hasId hasOrganization _ _ hid horganization hp hp')
  · refine Confined.expect.consequence (fun _ h => h) ?_
    rintro provider s ⟨⟨⟨⟨hpre, hid⟩, horganization⟩, hfound⟩, rfl⟩
    have hboth := List.find?_some hfound
    obtain ⟨hp, hp'⟩ := Bool.and_eq_true_iff.mp hboth
    exact ⟨hpre, List.mem_of_find?_eq_some hfound,
      h hasId hasOrganization _ _ hid horganization hp hp', ⟨hasId, hid, hp⟩,
      hasOrganization, horganization, hp'⟩

/-- The path and the tenant meet the condition of the last lemma. -/
theorem condition_own {id : Str} : ∀ hasId hasOrganization i other,
    server.condition (some (.string id)) = some hasId →
      server.condition (some (.string organizationId)) = some hasOrganization →
        hasId i = true → hasOrganization other = true → other = organizationId := by
  rintro hasId hasOrganization i other - h - hother
  rw [Server.condition, Option.some.injEq] at h
  rw [← h] at hother
  exact of_decide_eq_true hother

/-- The part of a table is a table of the part. -/
structure Table.Lawful {Row : Type} (table : Table Row) : Prop where
  rows_part : ∀ p rows, table.rows (Database.part p rows) =
    (table.rows rows).filter fun row => p (table.organizationId row)
  part_put : ∀ p xs rows, Database.part p (table.put xs rows) =
    table.put (xs.filter fun row => p (table.organizationId row)) (rows.part p)
  put_rows : ∀ rows, table.put (table.rows rows) rows = rows

theorem providerTable_lawful : providerTable.Lawful := ⟨fun _ _ => rfl, fun _ _ _ => rfl, fun _ => rfl⟩

theorem capabilityTable_lawful : capabilityTable.Lawful :=
  ⟨fun _ _ => rfl, fun _ _ _ => rfl, fun _ => rfl⟩

/-- An update of a row that belongs to the organization, if there is one. -/
theorem Table.Lawful.update_confined {Row : Type} {table : Table Row} (h : table.Lawful) {id : Str}
    {f : Row → Option Row}
    (hkeep : ∀ row updated, f row = some updated →
      table.organizationId updated = table.organizationId row)
    (hown : ∀ s, pre s → ∀ row ∈ table.rows s.rows, table.id row = id →
      table.organizationId row = organizationId) :
    Confined (tenant organizationId) pre (table.update id f) fun _ _ => True := by
  -- What is written instead of a row of this identifier belongs to its organization.
  have hsame {s : Store} (hs : pre s) {row updated : Row}
      (hfind : (table.rows s.rows).find? (fun row => table.id row = id) = some row)
      (hf : f row = some updated) : ∀ other ∈ table.rows s.rows,
      table.organizationId (if table.id other = id then updated else other) =
        table.organizationId other := by
    intro other hmem
    by_cases hid : table.id other = id
    · rw [if_pos hid, hkeep row updated hf, hown s hs other hmem hid]
      exact hown s hs row (List.mem_of_find?_eq_some hfind)
        (of_decide_eq_true (List.find?_some hfind :))
    · rw [if_neg hid]
  constructor
  · intro s hs
    rw [Table.update]
    split
    · rfl
    rename_i row hfind
    split
    · rfl
    rename_i updated hf
    change Database.part _ (table.put _ s.rows) = Database.part _ s.rows
    rw [h.part_put, List.filter_map_of_same fun other hmem => by rw [hsame hs hfind hf other hmem]]
    have hkept : ∀ other ∈ (table.rows s.rows).filter fun row =>
        decide (table.organizationId row ≠ organizationId),
        (if table.id other = id then updated else other) = other := by
      intro other hmem
      obtain ⟨hmem, hother⟩ := List.mem_filter.mp hmem
      exact if_neg fun hid => of_decide_eq_true hother (hown s hs other hmem hid)
    have hrows := h.rows_part (· ≠ organizationId) s.rows
    rw [List.map_congr_left hkept, List.map_id', ← hrows, h.put_rows]
  · intro s t hs ht hmine
    obtain ⟨hrows, huuids⟩ := Prod.mk.inj hmine
    have hfind (s : Store) (hs : pre s) : ((table.rows s.rows).find? fun row =>
        decide (table.id row = id)) =
          (table.rows (s.rows.part (· = organizationId))).find? fun row =>
            decide (table.id row = id) := by
      rw [h.rows_part]
      exact List.find?_owned fun row hmem hid =>
        decide_eq_true (hown s hs row hmem (of_decide_eq_true hid))
    have hequal := (hfind s hs).trans ((congrArg (fun rows => (table.rows rows).find? fun row =>
      decide (table.id row = id)) hrows).trans (hfind t ht).symm)
    rw [Table.update, Table.update]
    cases hfound : (table.rows s.rows).find? fun row => decide (table.id row = id) with
    | none =>
        rw [← hequal, hfound]
        exact ⟨rfl, hmine⟩
    | some row =>
        rw [← hequal, hfound]
        have hfound' := hequal.symm.trans hfound
        cases hf : f row with
        | none =>
            simp only [hf]
            exact ⟨trivial, hmine⟩
        | some updated =>
            simp only [hf]
            have hmine := h.rows_part (· = organizationId) s.rows
            have hmine' := h.rows_part (· = organizationId) t.rows
            refine ⟨trivial, Prod.ext ?_ huuids⟩
            change Database.part _ (table.put _ s.rows) = Database.part _ (table.put _ t.rows)
            rw [h.part_put, h.part_put,
              List.filter_map_of_same fun other hmem => by rw [hsame hs hfound hf other hmem],
              List.filter_map_of_same fun other hmem => by rw [hsame ht hfound' hf other hmem],
              ← hmine, ← hmine', hrows]
  · exact fun _ _ _ _ => trivial

end Statements

section Services

variable {server : Server} {organizationId : Str} {pre : Store → Prop}

theorem createProvider_confined {input : Input}
    (h : ∀ other, input "organizationId" = some (.string other) → Creatable server input →
      other = organizationId) :
    Confined (tenant organizationId) pre (createProvider server input) fun _ _ => True := by
  refine Confined.bind Confined.lift fun data => Confined.transaction ?_
  refine Confined.bind Confined.expect fun other => ?_
  refine Confined.bind Confined.expect fun columns => ?_
  refine .given (fun _ hs => And.intro hs.1.1.2 (And.intro hs.1.2 hs.2)) ?_
  rintro ⟨hdata, htext, hcolumns⟩
  obtain rfl := h other (Json.text_eq_some.mp htext) ⟨data, columns, hdata, hcolumns⟩
  refine Confined.bind (insert_confined ?_ ?_ ?_) fun id => ?_
  · intro rows
    refine List.any_owned fun provider _ hp => ?_
    exact decide_eq_true (of_decide_eq_true hp).1
  · intro id rows
    simp [Database.part]
  · intro id rows
    simp [Database.part]
  · refine Confined.bind (record_confined fun other' h => ?_) fun _ => .pure fun _ _ => trivial
    exact Option.some.inj (h.symm.trans htext)

/-- A provider that was found by a text is the only one of its identifier. -/
theorem own_of_found {rows : Database} {value : Option Json} {existing : AgentProvider} {id : Str}
    (hrows : Coherent rows) (hmem : existing ∈ rows.providers)
    (hown : existing.organizationId = organizationId)
    (hfound : ∃ hasId, server.condition value = some hasId ∧ hasId existing.id = true)
    (htext : Json.text value = some id) : ∀ provider ∈ rows.providers, provider.id = id →
      provider.organizationId = organizationId := by
  intro provider hprovider hid
  obtain ⟨hasId, hcondition, hexisting⟩ := hfound
  rw [Json.text_eq_some.mp htext, Server.condition, Option.some.injEq] at hcondition
  rw [← hcondition] at hexisting
  have hsame : provider.id = existing.id := hid.trans (of_decide_eq_true hexisting).symm
  rw [List.inj_on_of_nodup_map hrows.providers hprovider hmem hsame, hown]

/-- An organization that is named and found is found under its name. -/
theorem text_of_found {value : Option Json} {existing : AgentProvider} {other : Str}
    (hown : existing.organizationId = organizationId)
    (hfound : ∃ hasOrganization, server.condition value = some hasOrganization ∧
      hasOrganization existing.organizationId = true)
    (htext : Json.text value = some other) : other = organizationId := by
  obtain ⟨hasOrganization, hcondition, hexisting⟩ := hfound
  rw [Json.text_eq_some.mp htext, Server.condition, Option.some.injEq] at hcondition
  rw [← hcondition] at hexisting
  exact (of_decide_eq_true hexisting).symm.trans hown

theorem updateProvider_confined {input : Input} (h : SelectsOwn server organizationId input) :
    Confined (tenant organizationId) (fun s => Coherent s.rows) (updateProvider server input)
      fun _ _ => True := by
  refine Confined.bind (findProvider_confined h) fun existing => ?_
  refine .given (fun _ hs => And.intro hs.2.2.1 hs.2.2.2.2) ?_
  rintro ⟨hown, horganization⟩
  refine Confined.bind Confined.lift fun requirement => ?_
  refine Confined.bind Confined.require fun _ => Confined.transaction ?_
  refine Confined.bind Confined.lift fun data => ?_
  refine Confined.bind Confined.expect fun id => ?_
  refine Confined.bind (providerTable_lawful.update_confined ?_ ?_) fun provider => ?_
  · intro row updated hf
    obtain ⟨columns, -, rfl⟩ := Option.map_eq_some_iff.mp hf
    rfl
  · rintro s ⟨⟨⟨⟨⟨hrows, hmem, -, hfound, -⟩, -⟩, -⟩, -⟩, htext⟩
    exact own_of_found hrows hmem hown hfound htext
  · refine Confined.bind (record_confined fun other => ?_) fun _ => .pure fun _ _ => trivial
    exact text_of_found hown horganization

/-- The capabilities of a provider of the organization are its own. -/
theorem capabilitiesOf_part {rows : Database} {provider : AgentProvider} (h : Coherent rows)
    (hmem : provider ∈ rows.providers) (hown : provider.organizationId = organizationId) :
    capabilitiesOf rows provider = capabilitiesOf (rows.part (· = organizationId)) provider := by
  refine List.filter_owned fun capability hcapability hid => decide_eq_true ?_
  rw [← hown]
  exact h.assigned capability hcapability provider hmem (of_decide_eq_true hid)

theorem activateProvider_confined {input : Input} (h : SelectsOwn server organizationId input) :
    Confined (tenant organizationId) (fun s => Coherent s.rows) (activateProvider server input)
      fun _ _ => True := by
  refine Confined.bind (findProvider_confined h) fun existing => ?_
  refine .given (fun _ hs => And.intro hs.2.2.1 hs.2.2.2.2) ?_
  rintro ⟨hown, horganization⟩
  refine Confined.bind (reads (fun rows => capabilitiesOf rows existing) ?_) fun capabilities => ?_
  · rintro s ⟨hrows, hmem, -⟩
    exact capabilitiesOf_part hrows hmem hown
  refine Confined.bind Confined.require fun _ => ?_
  refine Confined.bind Confined.require fun _ => ?_
  refine Confined.bind Confined.require fun _ => Confined.transaction ?_
  refine Confined.bind Confined.expect fun id => ?_
  refine Confined.bind (providerTable_lawful.update_confined ?_ ?_) fun provider => ?_
  · intro row updated hf
    cases hf
    rfl
  · rintro s ⟨⟨⟨⟨⟨⟨hrows, hmem, -, hfound, -⟩, -⟩, -⟩, -⟩, -⟩, htext⟩
    exact own_of_found hrows hmem hown hfound htext
  · refine Confined.bind (record_confined fun other => ?_) fun _ => .pure fun _ _ => trivial
    exact text_of_found hown horganization

theorem assignCapability_confined {agentProviderId : Str} {capabilityCode isEnabled : Option Json} :
    Confined (tenant organizationId) pre
      (assignCapability server organizationId agentProviderId capabilityCode isEnabled)
      fun _ _ => True := by
  refine Confined.bind (findProvider_confined condition_own) fun provider => ?_
  refine Confined.mapError (Confined.transaction ?_)
  refine Confined.bind Confined.expect fun columns => ?_
  refine Confined.bind (insert_confined ?_ ?_ ?_) fun id => ?_
  · intro rows
    refine List.any_owned fun capability _ hp => ?_
    exact decide_eq_true (of_decide_eq_true hp).1
  · intro id rows
    simp [Database.part]
  · intro id rows
    simp [Database.part]
  · exact Confined.bind (record_confined fun _ => text_own) fun _ => .pure fun _ _ => trivial

theorem setCapabilityEnabled_confined {capabilityId : Str} {isEnabled : Option Json} :
    Confined (tenant organizationId) (fun s => Coherent s.rows)
      (setCapabilityEnabled server organizationId capabilityId isEnabled) fun _ _ => True := by
  refine Confined.bind (reads (fun rows => rows.capabilities.find? fun capability =>
    capability.id = capabilityId && capability.organizationId = organizationId) ?_) fun found => ?_
  · intro s _
    exact List.find?_owned fun capability _ hp => (Bool.and_eq_true_iff.mp hp).2
  refine Confined.bind Confined.expect fun existing => Confined.transaction ?_
  refine Confined.bind (capabilityTable_lawful.update_confined ?_ ?_) fun capability => ?_
  · intro row updated hf
    obtain ⟨columns, -, rfl⟩ := Option.map_eq_some_iff.mp hf
    rfl
  · rintro s ⟨⟨hrows, hfind⟩, rfl⟩ capability hmem hid
    have hboth := List.find?_some hfind
    obtain ⟨hexisting, hown⟩ := Bool.and_eq_true_iff.mp hboth
    have hsame : capability.id = existing.id := hid.trans (of_decide_eq_true hexisting).symm
    have heq := List.inj_on_of_nodup_map hrows.capabilities hmem
      (List.mem_of_find?_eq_some hfind) hsame
    rw [heq]
    exact of_decide_eq_true hown
  · exact Confined.bind (record_confined fun _ => text_own) fun _ => .pure fun _ _ => trivial

theorem listCapabilities_confined {agentProviderId : Str} :
    Confined (tenant organizationId) pre (listCapabilities server organizationId agentProviderId)
      fun _ _ => True := by
  refine (reads (fun rows => Ranking.sort _ (rows.capabilities.filter _)) fun s _ => ?_).consequence
    (fun _ h => h) fun _ _ _ => trivial
  refine congrArg _ (List.filter_owned fun capability _ hp => ?_)
  exact (Bool.and_eq_true_iff.mp hp).1

/-! ### Provisioning -/

theorem assignMissing_confined {providerId : Str} {existingCodes : List Str} :
    ∀ (codes : List Str) {pre : Store → Prop}, Confined (tenant organizationId) pre
      (assignMissing server organizationId providerId existingCodes codes) fun _ _ => True
  | [], _ => .pure fun _ _ => trivial
  | code :: rest, _ => by
      rw [assignMissing]
      split
      · exact Confined.bind assignCapability_confined fun _ => assignMissing_confined rest
      · exact assignMissing_confined rest

theorem findProviderByCode_confined {providerCode : Str} :
    Confined (tenant organizationId) pre (findProviderByCode organizationId providerCode)
      fun _ _ => True := by
  refine (reads (fun rows => rows.providers.find? fun provider =>
    provider.organizationId = organizationId && provider.providerCode = providerCode)
    fun s _ => ?_).consequence (fun _ h => h) fun _ _ _ => trivial
  exact List.find?_owned fun provider _ hp => (Bool.and_eq_true_iff.mp hp).1

theorem engineeringProvider_organization :
    engineeringProvider organizationId "organizationId" = some (.string organizationId) := rfl

theorem bootstrapProvider_confined {found : Option AgentProvider} :
    Confined (tenant organizationId) pre (bootstrapProvider server organizationId found)
      fun _ _ => True := by
  cases found with
  | some provider => exact Confined.bind Confined.require fun _ => .pure fun _ _ => trivial
  | none =>
      refine createProvider_confined fun other h _ => ?_
      rw [engineeringProvider_organization] at h
      exact (Json.string.inj (Option.some.inj h)).symm

theorem provision_confined {human : Bool} :
    Confined (tenant organizationId) pre (provision server organizationId human)
      fun _ _ => True := by
  refine Confined.bind Confined.require fun _ => ?_
  refine Confined.bind findProviderByCode_confined fun found => ?_
  refine Confined.bind bootstrapProvider_confined fun provider => ?_
  refine Confined.bind listCapabilities_confined fun existing => ?_
  refine Confined.bind Confined.lift fun _ => ?_
  exact Confined.bind (assignMissing_confined _) fun _ => .pure fun _ _ => trivial

/-! ### Routing -/

theorem providersOf_part {rows : Database} : providersOf server rows organizationId =
    providersOf server (rows.part (· = organizationId)) organizationId :=
  congrArg _ (List.filter_owned fun _ _ hp => hp)

theorem findAllProviders_confined : Confined (tenant organizationId) pre
    (Handler.look fun s => providersOf server s.rows organizationId : Request (List AgentProvider))
      fun _ _ => True :=
  (reads (fun rows => providersOf server rows organizationId) fun _ _ =>
    providersOf_part).consequence (fun _ h => h) fun _ _ _ => trivial

theorem loadCandidates_part {rows : Database} (h : Coherent rows) :
    loadCandidates server rows organizationId =
      loadCandidates server (rows.part (· = organizationId)) organizationId := by
  rw [loadCandidates, loadCandidates, ← providersOf_part]
  refine List.map_congr_left fun provider hmem => ?_
  have hmem := (Ranking.sort_perm _).mem_iff.mp hmem
  obtain ⟨hmem, hown⟩ := List.mem_filter.mp hmem
  rw [capabilitiesOf_part h hmem (of_decide_eq_true hown)]

theorem route_confined {body : List (Str × Json)} :
    Confined (tenant organizationId) (fun s => Coherent s.rows) (route server organizationId body)
      fun _ _ => True := by
  refine Confined.bind randomUUID_confined fun uuid => ?_
  refine Confined.bind (reads (fun rows => loadCandidates server rows organizationId) ?_)
    fun candidates => ?_
  · rintro s ⟨uuids, h⟩
    exact loadCandidates_part h
  refine Confined.bind Confined.lift fun outcome => ?_
  refine Confined.bind (insert_confined ?_ ?_ ?_) fun id => ?_
  · exact fun _ => rfl
  · intro id rows
    simp [Database.part]
  · intro id rows
    simp [Database.part]
  · exact Confined.bind (record_confined fun _ => text_own) fun _ => .pure fun _ _ => trivial

/-- A decision of the organization has selected one of its providers. -/
theorem withSelectedProvider_part {rows : Database} {decision : ProviderRoutingDecision}
    (h : Coherent rows) (hmem : decision ∈ rows.decisions)
    (hown : decision.organizationId = organizationId) : withSelectedProvider rows decision =
      withSelectedProvider (rows.part (· = organizationId)) decision := by
  rw [withSelectedProvider, withSelectedProvider]
  cases hselected : decision.selectedProviderId with
  | none => rfl
  | some id =>
      have hfind : (rows.providers.find? fun provider => decide (provider.id = id)) =
          (rows.part (· = organizationId)).providers.find? fun provider =>
            decide (provider.id = id) := by
        refine List.find?_owned fun provider hprovider hid => decide_eq_true ?_
        rw [← hown]
        refine (h.selected decision hmem provider hprovider ?_).symm
        rw [hselected, of_decide_eq_true hid]
      rw [Option.bind_some, Option.bind_some, hfind]

theorem decisionsWhere_part {rows : Database} {p : ProviderRoutingDecision → Bool}
    (h : Coherent rows) : decisionsWhere rows organizationId p =
      decisionsWhere (rows.part (· = organizationId)) organizationId p := by
  have hfilter : (rows.decisions.filter fun decision =>
      decide (decision.organizationId = organizationId) && p decision) =
        (rows.part (· = organizationId)).decisions.filter fun decision =>
          decide (decision.organizationId = organizationId) && p decision :=
    List.filter_owned fun _ _ hp => (Bool.and_eq_true_iff.mp hp).1
  rw [decisionsWhere, decisionsWhere, ← hfilter]
  refine List.map_congr_left fun decision hmem => ?_
  obtain ⟨hmem, hp⟩ := List.mem_filter.mp hmem
  exact withSelectedProvider_part h hmem (of_decide_eq_true (Bool.and_eq_true_iff.mp hp).1)

theorem findDecisionById_confined {decisionId : Str} :
    Confined (tenant organizationId) (fun s => Coherent s.rows)
      (findDecisionById organizationId decisionId) fun _ _ => True :=
  (reads (fun rows => (decisionsWhere rows organizationId fun decision =>
    decision.id = decisionId).head?) fun _ h => congrArg _ (decisionsWhere_part h)).consequence
      (fun _ h => h) fun _ _ _ => trivial

theorem findDecisions_confined {correlationId workflowRunId : Option Json} :
    Confined (tenant organizationId) (fun s => Coherent s.rows)
      (findDecisions server organizationId correlationId workflowRunId) fun _ _ => True := by
  have hwhere (p : ProviderRoutingDecision → Bool) {pre : Store → Prop}
      (hpre : ∀ s, pre s → Coherent s.rows) : Confined (tenant organizationId) pre
        (Handler.look fun s => decisionsWhere s.rows organizationId p : Request _)
          fun _ _ => True :=
    (reads (fun rows => decisionsWhere rows organizationId p) fun s h =>
      decisionsWhere_part (hpre s h)).consequence (fun _ h => h) fun _ _ _ => trivial
  rw [findDecisions]
  split
  · exact Confined.bind Confined.expect fun condition => hwhere _ fun _ h => h.1
  split
  · exact Confined.bind Confined.expect fun condition => hwhere _ fun _ h => h.1
  · exact .pure fun _ _ => trivial

end Services

/-! ## Requests -/

section Requests

variable {server : Server} {organizationId : Str}

/-- The answer of a service, as a response. -/
theorem respond_confined {α : Type} {m : Request α} {f : α → Response} {pre pre' : Store → Prop}
    (h : Confined (tenant organizationId) pre m fun _ _ => True) (hpre : ∀ s, pre' s → pre s) :
    Confined (tenant organizationId) pre' (do return f (← m)) fun _ _ => True :=
  Confined.bind (h.weaken hpre) fun _ => .pure fun _ _ => trivial

theorem selectsOwn_memberInput {providerId : Str} {name : String} {body : List (Str × Json)}
    (hid : "providerId" ≠ name) (horganization : "organizationId" ≠ name) :
    SelectsOwn server organizationId (memberInput organizationId providerId name body) := by
  intro hasId hasOrganization id other hcondition hcondition'
  rw [memberInput, if_neg hid] at hcondition
  rw [memberInput, if_neg horganization] at hcondition'
  exact condition_own hasId hasOrganization id other hcondition hcondition'

theorem Call.Clean.handle_confined {call : Call} (h : call.Clean server organizationId) :
    Confined (tenant organizationId) (fun s => Coherent s.rows) (call.handle server organizationId)
      fun _ _ => True := by
  have hsame : ∀ s : Store, Coherent s.rows → Coherent s.rows := fun _ h => h
  cases call with
  | provisionEngineeringProvider human => exact respond_confined provision_confined hsame
  | createProvider body => exact respond_confined (createProvider_confined h) hsame
  | findAllProviders => exact respond_confined findAllProviders_confined hsame
  | findProvider providerId =>
      exact respond_confined ((findProvider_confined condition_own).consequence
        (fun _ h => h) fun _ _ _ => trivial) hsame
  | updateProvider providerId body => exact respond_confined (updateProvider_confined h) hsame
  | activateProvider providerId body => exact respond_confined (activateProvider_confined h) hsame
  | updateHealthStatus providerId body =>
      exact respond_confined (updateProvider_confined
        (selectsOwn_memberInput (by decide) (by decide))) hsame
  | updateQuotaStatus providerId body =>
      exact respond_confined (updateProvider_confined
        (selectsOwn_memberInput (by decide) (by decide))) hsame
  | assignCapability providerId body => exact respond_confined assignCapability_confined hsame
  | listCapabilities providerId => exact respond_confined listCapabilities_confined hsame
  | setCapabilityEnabled capabilityId body =>
      exact respond_confined setCapabilityEnabled_confined hsame
  | route body => exact Confined.bind route_confined fun _ => .pure fun _ _ => trivial
  | findDecision decisionId => exact respond_confined findDecisionById_confined hsame
  | findDecisions correlationId workflowRunId =>
      exact respond_confined findDecisions_confined hsame

theorem Call.Clean.isolated {call : Call} (h : call.Clean server organizationId) :
    Isolated server organizationId call := fun s t hs ht hmine =>
  ⟨(h.handle_confined.same s t hs ht hmine).1, h.handle_confined.others s hs⟩

end Requests

/-! ## Requests that lead to another organization -/

section Violations

variable {server : Server} {organizationId other : Str} {input : Input}

/-- The columns of a provider of which nothing is said. -/
def someColumns : ProviderColumns where
  providerCode := []
  displayName := []
  providerType := .cloudLlm
  status := .disabled
  credentialRequirement := .required
  modelFamily := none
  modelName := none
  modelCode := none
  supportedCapabilities := []
  estimatedCostMinorUnits := none
  healthStatus := .unknown
  healthCheckedAt := none
  quotaStatus := .unknown
  quotaCheckedAt := none
  qualityScore := none
  latencyScore := none
  costScore := none
  costMetadata := .object []
  assuranceLevels := []
  metadata := .object []

/-- A store of an organization and its providers. -/
def storeOf (organization : Str) (providers : List AgentProvider) : Store :=
  ⟨⟨[organization], providers, [], [], []⟩, fun _ => []⟩

theorem coherent_storeOf {providers : List AgentProvider} (h : (providers.map (·.id)).Nodup) :
    Coherent (storeOf other providers).rows where
  providers := h
  capabilities := List.nodup_nil
  assigned _ h := (List.not_mem_nil h).elim
  selected _ h := (List.not_mem_nil h).elim

theorem createProvider_other {data : Data} {columns : ProviderColumns}
    (horganization : input "organizationId" = some (.string other))
    (hdata : createData input = .ok data) (hcolumns : server.create data = some columns) :
    ∃ s', createProvider server input (storeOf other []) = (.ok ⟨columns, [], other⟩, s') ∧
      s'.rows.providers = [⟨columns, [], other⟩] := by
  have htext : Json.text (input "organizationId") = some other :=
    Json.text_eq_some.mpr horganization
  rw [createProvider, bind_ok (show Handler.lift (createData input) (storeOf other []) = _ by
    rw [Handler.lift, hdata])]
  simp only [record, htext, hcolumns]
  simp [Handler.transaction, Handler.expect, Handler.lift, Handler.bind, bind_eq, pure_eq, insert,
    storeOf]

/-- A condition finds what is there, or fails. -/
theorem findProvider_eq {id organization : Option Json} {hasId hasOrganization : Str → Bool}
    (hid : server.condition id = some hasId)
    (horganization : server.condition organization = some hasOrganization) (s : Store) :
    findProvider server id organization s =
      match s.rows.providers.find? fun provider =>
        hasId provider.id && hasOrganization provider.organizationId with
      | some provider => (.ok provider, s)
      | none => (.error providerNotFound, s) := by
  rw [findProvider, hid, horganization]
  change Handler.expect (s.rows.providers.find? fun provider =>
    hasId provider.id && hasOrganization provider.organizationId) providerNotFound s = _
  cases s.rows.providers.find? fun provider =>
    hasId provider.id && hasOrganization provider.organizationId <;> rfl

theorem clean_create {body : List (Str × Json)}
    (h : Isolated server organizationId (.createProvider body)) :
    (Call.createProvider body).Clean server organizationId := by
  rintro other hother ⟨data, columns, hdata, hcolumns⟩
  by_contra hne
  have hcoherent : Coherent (storeOf other []).rows := coherent_storeOf List.nodup_nil
  obtain ⟨s', hcreate, hproviders⟩ := createProvider_other hother hdata hcolumns
  have hothers := (h _ _ hcoherent hcoherent rfl).2
  rw [Call.handle, bind_ok hcreate, pure_eq] at hothers
  have hrow : (⟨columns, [], other⟩ : AgentProvider) ∈
      ((tenant organizationId).others s').providers :=
    List.mem_filter.mpr ⟨hproviders ▸ List.mem_singleton_self _, decide_eq_true hne⟩
  rw [hothers] at hrow
  exact (List.not_mem_nil hrow).elim

/-- A request that finds a provider first, and then does not fail as if there were none. -/
theorem selectsOwn_of_isolated {call : Call} {rest : AgentProvider → Request Response}
    (hcall : call.handle server organizationId =
      findProvider server (input "providerId") (input "organizationId") >>= rest)
    (hrest : ∀ provider, Avoids providerNotFound (rest provider))
    (h : Isolated server organizationId call) : SelectsOwn server organizationId input := by
  intro hasId hasOrganization id other hid horganization hmeets hmeets'
  by_contra hne
  have hempty : (tenant organizationId).mine (storeOf other [⟨someColumns, id, other⟩]) =
      (tenant organizationId).mine (storeOf other []) := by
    simp [tenant, storeOf, Database.part, hne]
  have hone : Coherent (storeOf other [⟨someColumns, id, other⟩]).rows :=
    coherent_storeOf (List.nodup_singleton id)
  have hnone : Coherent (storeOf other []).rows := coherent_storeOf List.nodup_nil
  have hsame := (h _ _ hone hnone hempty).1
  have hfound := findProvider_eq hid horganization (storeOf other [⟨someColumns, id, other⟩])
  have hmissing := findProvider_eq hid horganization (storeOf other [])
  simp only [storeOf, List.find?_cons, hmeets, hmeets', Bool.and_self, List.find?_nil]
    at hfound hmissing
  rw [hcall, storeOf, storeOf, bind_ok hfound, bind_error hmissing] at hsame
  exact hrest _ _ hsame

theorem resolve_avoids {providerType : Json} {raw : Option Json} {applyCloudDefault : Bool} :
    resolveCredentialRequirementForWrite providerType raw applyCloudDefault ≠
      .error providerNotFound := by
  simp only [resolveCredentialRequirementForWrite, providerNotFound]
  generalize Option.getD (nullish raw) (literal "UNKNOWN") = value
  split_ifs <;> simp

theorem insert_avoids {clash : Database → Bool} {add : Str → Database → Database} :
    Avoids providerNotFound (insert organizationId clash add) := by
  intro s
  rw [insert]
  split
  · nofun
  split <;> nofun

theorem record_avoids {value : Option Json} {entityType : String} {entityId : Str}
    {metadata : AuditMetadata} :
    Avoids providerNotFound (record value entityType entityId metadata) :=
  .bind (.expect nofun) fun _ => .bind insert_avoids fun _ => .pure

theorem update_avoids {Row : Type} {table : Table Row} {id : Str} {f : Row → Option Row} :
    Avoids providerNotFound (table.update id f) := by
  intro s
  rw [Table.update]
  split
  · nofun
  split <;> nofun

theorem copied_error {column : Column} {name : String} {error : Failure}
    (h : copied input column name = .error error) : error = .typeError := by
  rw [copied] at h
  split at h
  · cases h
  rename_i value _
  cases value <;> cases h <;> rfl

theorem updateData_avoids {requirement : Option Json} :
    updateData server input requirement ≠ .error providerNotFound := by
  intro h
  rw [updateData] at h
  cases hcapabilities : copied input .supportedCapabilities "supportedCapabilities" with
  | error error =>
      rw [hcapabilities, copied_error hcapabilities] at h
      cases h
  | ok capabilities =>
      cases hlevels : copied input .assuranceLevels "assuranceLevels" with
      | error error =>
          rw [hcapabilities, hlevels, copied_error hlevels] at h
          cases h
      | ok levels =>
          rw [hcapabilities, hlevels] at h
          cases h

theorem effectiveCredentialRequirement_avoids {existing : AgentProvider} :
    effectiveCredentialRequirement input existing ≠ .error providerNotFound := by
  intro h
  rw [effectiveCredentialRequirement] at h
  split at h
  · cases hresolve : resolveCredentialRequirementForWrite
        ((nullish (input "providerType")).getD (literal (providerTypeText existing.providerType)))
        (some ((nullish (input "credentialRequirement")).getD
          (literal (credentialRequirementText existing.credentialRequirement)))) false with
    | error error =>
        rw [hresolve] at h
        exact resolve_avoids (hresolve.trans (congrArg _ (Except.error.inj h)))
    | ok value =>
        rw [hresolve] at h
        cases h
  · cases h

theorem clean_update {providerId : Str} {body : List (Str × Json)}
    (h : Isolated server organizationId (.updateProvider providerId body)) :
    (Call.updateProvider providerId body).Clean server organizationId := by
  refine selectsOwn_of_isolated (by rw [Call.handle, updateProvider, bind_assoc]) ?_ h
  intro existing
  refine .bind (.bind (.lift effectiveCredentialRequirement_avoids) fun requirement => ?_) fun _ =>
    .pure
  refine .bind (.require nofun) fun _ => .transaction ?_
  refine .bind (.lift updateData_avoids) fun data => .bind (.expect nofun) fun id => ?_
  exact .bind update_avoids fun _ => .bind record_avoids fun _ => .pure

theorem clean_activate {providerId : Str} {body : List (Str × Json)}
    (h : Isolated server organizationId (.activateProvider providerId body)) :
    (Call.activateProvider providerId body).Clean server organizationId := by
  refine selectsOwn_of_isolated (by rw [Call.handle, activateProvider, bind_assoc]) ?_ h
  intro existing
  refine .bind (.bind (fun _ => nofun) fun capabilities => ?_) fun _ => .pure
  refine .bind (.require nofun) fun _ => .bind (.require nofun) fun _ => ?_
  refine .bind (.require nofun) fun _ => .transaction ?_
  refine .bind (.expect nofun) fun id => ?_
  exact .bind update_avoids fun _ => .bind record_avoids fun _ => .pure

/-- A request is isolated if and only if its body does not lead to another organization. -/
theorem isolated_iff (server : Server) (organizationId : Str) (call : Call) :
    Isolated server organizationId call ↔ call.Clean server organizationId := by
  constructor
  · intro h
    cases call with
    | createProvider body => exact clean_create h
    | updateProvider providerId body => exact clean_update h
    | activateProvider providerId body => exact clean_activate h
    | provisionEngineeringProvider | findAllProviders | findProvider | updateHealthStatus
    | updateQuotaStatus | assignCapability | listCapabilities | setCapabilityEnabled | route
    | findDecision | findDecisions => trivial
  · exact Call.Clean.isolated

/-- A server whose database client takes texts for a code and a name. -/
private def server₀ : Server where
  filter _ := none
  create data := do
    let text (column : Column) : Option Str :=
      match data.lookup column with
      | some (.json (.string value)) => some value
      | _ => none
    pure { someColumns with
      providerCode := ← text .providerCode
      displayName := ← text .displayName }
  update _ columns := some columns
  createCapability _ _ := none
  updateCapability _ _ := none
  collate _ _ := .eq
  now _ := 0
  localeCompare _ _ := .eq
  runtimeState := none
  illTyped _ _ _ := .error .typeError

private def foreignBody : List (Str × Json) :=
  [("organizationId".toList, .string ['b']), ("providerCode".toList, .string ['c']),
    ("displayName".toList, .string ['d']), ("supportedCapabilities".toList, .array [])]

private def confirmed : List (Str × Json) :=
  [("credentialAuthorizationConfirmed".toList, .bool true),
    ("capabilitiesReviewed".toList, .bool true), ("cloudProfileReviewed".toList, .bool true)]

/-- A provider of `a`, with the capabilities of another organization. -/
private def foreignCapabilities (capabilities : List ProviderCapability) : Store :=
  ⟨⟨[['a']], [⟨someColumns, ['p'], ['a']⟩], capabilities, [], []⟩, fun _ => []⟩

/-- A body that names another organization makes a provider there. Where a capability of another
organization refers to a provider of the tenant, the answer depends on it. -/
theorem not_isolated :
    (¬ ∀ server organizationId call, Isolated server organizationId call) ∧
      ¬ ∀ (server : Server) (organizationId : Str) (call : Call) (s t : Store),
        (tenant organizationId).mine s = (tenant organizationId).mine t →
          (call.handle server organizationId s).1 = (call.handle server organizationId t).1 := by
  constructor
  · intro h
    have hclean := clean_create (h server₀ ['a'] (.createProvider foreignBody))
    have hother : ['b'] = ['a'] := hclean ['b'] rfl ⟨_, _, rfl, rfl⟩
    exact absurd hother (by decide)
  · intro h
    have hsame := h server₀ ['a'] (.activateProvider ['p'] confirmed)
      (foreignCapabilities [⟨['c'], ['b'], ['p'], ['d'], true⟩]) (foreignCapabilities []) rfl
    cases hsame

end Violations

end ProviderRequests
