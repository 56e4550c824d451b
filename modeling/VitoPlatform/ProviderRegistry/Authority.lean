import VitoPlatform.Persistence.Calls
import VitoPlatform.ProviderRegistry.Services

/-!
# Which providers have authority

A cloud provider requires a credential, and an active provider has been created active or has
passed the activation gate since its status was last set. A write has checked this on the row
that the call has read. It holds as long as no update of the requirement alone meets a provider
that has become a cloud provider in between, and no activation a status that has been set in
between.
-/

namespace ProviderRegistry

open Text Concurrent Services Services.Steps Policy Invocation

/-! ## Authority -/

/-- The entry sets the status of the provider to another one than ACTIVE. -/
def HistoryEntry.setsStatus (id : Str) : HistoryEntry → Bool
  | .updated _ input _ => input.providerId = id ∧ input.status ≠ .absent
  | _ => false

/-- Why a provider may be active. -/
inductive Authorized (history : List HistoryEntry) (id : Str) : Prop
  | created (before after : List HistoryEntry) (provider : AgentProvider) :
      history = before ++ .registered provider :: after → provider.id = id →
        provider.status = .active → (∀ entry ∈ after, entry.setsStatus id = false) →
          Authorized history id
  /-- The activation has begun with the read, and has come to its end. -/
  | activated (before after : List HistoryEntry) (session : Nat) (provider : AgentProvider)
      (capabilities : List ProviderCapability) (input : ActivateProviderInput) :
      history = before ++ .read session provider capabilities :: after → provider.id = id →
        (∃ capability ∈ capabilities, capability.isEnabled = true) →
          .activated session input ∈ after → input.providerId = id → input.confirmed = true →
            (∀ entry ∈ after, entry.setsStatus id = false) → Authorized history id

def CloudRequired (provider : AgentProvider) : Prop :=
  provider.providerType = .cloudLlm → provider.credentialRequirement = .required

/-- What session `i` commits does not come too late. -/
def HistoryEntry.InTime (s : Store) (i : Nat) : HistoryEntry → Prop
  -- The requirement is written without the type: the provider is no cloud provider by now.
  | .updated _ input (some requirement) => input.providerType = .absent →
      requirement ≠ .required → ∀ provider ∈ s.providers, provider.id = input.providerId →
        provider.providerType ≠ .cloudLlm
  -- The status has not been set since the activation has begun.
  | .activated _ input => ∀ before after provider capabilities,
      s.history = before ++ .read i provider capabilities :: after →
        ∀ entry ∈ after, entry.setsStatus input.providerId = false
  | _ => True

def InTime (i : Nat) (s t : Store) : Prop :=
  ∀ entry, t.history = s.history ++ [entry] → entry.InTime s i

/-- What an update writes. -/
structure Writes (input : UpdateProviderInput) (providerType : Option ProviderType)
    (status : Option ProviderStatus) (requirement : Option ProviderCredentialRequirement) :
    Prop where
  untyped : providerType = none → input.providerType = .absent
  cloud : providerType = some .cloudLlm → requirement = some .required
  unset : status = none → input.status = .absent
  inactive : status ≠ some .active

/-- What one step of a call does. -/
inductive Does (i : Nat) (s t : Store) : Prop
  | nothing : t = s → Does i s t
  | read (provider : AgentProvider) (capabilities : List ProviderCapability) :
      t = { s with history := s.history ++ [.read i provider capabilities] } → Does i s t
  | registered (provider : AgentProvider) : CloudRequired provider →
      t = { s with
        providers := s.providers ++ [provider]
        history := s.history ++ [.registered provider] } → Does i s t
  | updated (input : UpdateProviderInput) (displayName : Option Str)
      (providerType : Option ProviderType) (status : Option ProviderStatus)
      (requirement : Option ProviderCredentialRequirement) :
      Writes input providerType status requirement →
        t = { s with
          providers := Tables.write AgentProvider.id s.providers input.providerId
            (UpdateProviderInput.apply displayName providerType status requirement)
          history := s.history ++ [.updated i input requirement] } → Does i s t
  | activated (input : ActivateProviderInput) (provider : AgentProvider)
      (capabilities : List ProviderCapability) :
      .read i provider capabilities ∈ s.history → provider.id = input.providerId →
        (∃ capability ∈ capabilities, capability.isEnabled = true) → input.confirmed = true →
          t = { s with
            providers := Tables.write AgentProvider.id s.providers input.providerId
              AgentProvider.activate
            history := s.history ++ [.activated i input] } → Does i s t
  | capability (capabilities : List ProviderCapability) (entry : HistoryEntry) :
      (∀ id, entry.setsStatus id = false) →
        t = { s with capabilities := capabilities, history := s.history ++ [entry] } → Does i s t

section Steps

variable {i : Nat} {s t : Store} {id : Str} {history : List HistoryEntry} {entry : HistoryEntry}

/-- Another entry does not take authority away. -/
theorem Authorized.append (h : Authorized history id) (hentry : entry.setsStatus id = false) :
    Authorized (history ++ [entry]) id := by
  have hall {after : List HistoryEntry} (hafter : ∀ e ∈ after, e.setsStatus id = false) :
      ∀ e ∈ after ++ [entry], e.setsStatus id = false := by
    intro e he
    rw [List.mem_append, List.mem_singleton] at he
    obtain he | rfl := he
    · exact hafter e he
    · exact hentry
  cases h with
  | created before after provider heq hid hactive hafter =>
      exact .created before (after ++ [entry]) provider (by simp [heq]) hid hactive (hall hafter)
  | activated before after session provider capabilities input heq hid hcap hmem hinput hconf
      hafter =>
      exact .activated before (after ++ [entry]) session provider capabilities input
        (by simp [heq]) hid hcap (List.mem_append_left _ hmem) hinput hconf (hall hafter)

end Steps

/-- The steps of all calls. -/
def registrySteps : Steps Store where
  inv _ := True
  does := Does
  rely _ s t := ∃ i, Does i s t
  records := Does
  refl _ _ := .nothing rfl
  keeps _ _ := trivial
  between _ _ := trivial

section Programs

variable {i : Nat} {s : Store} {α : Type} {post : α → Store → Prop}

theorem Does.mem_history {t : Store} {entry : HistoryEntry} (h : Does i s t)
    (hmem : entry ∈ s.history) : entry ∈ t.history := by
  cases h with
  | nothing ht => rw [ht]; exact hmem
  | read _ _ ht | registered _ _ ht | updated _ _ _ _ _ _ ht | activated _ _ _ _ _ _ _ ht
  | capability _ _ _ ht =>
      rw [ht]
      exact List.mem_append_left _ hmem

theorem history_stable {entry : HistoryEntry} :
    registrySteps.Stable i fun s => entry ∈ s.history := by
  rintro s t - hmem (⟨_, hdoes⟩ | hdoes)
  · exact hdoes.mem_history hmem
  · exact hdoes.mem_history hmem

/-- A provider that has been read. -/
theorem findProvider_bind {organizationId id : Str}
    {k : AgentProvider × List ProviderCapability → Program Store α}
    (next : ∀ provider capabilities t, provider.id = id →
      .read i provider capabilities ∈ t.history →
      registrySteps.Safe i (k (provider, capabilities)) t post) :
    registrySteps.Safe i (findProvider i organizationId id >>= k) s post := by
  refine change_bind (fun _ => True) stable_true trivial trivial fun t c _ _ => ?_
  dsimp only
  cases hfound : t.providers.find? fun provider =>
      decide (provider.id = id ∧ provider.organizationId = organizationId) with
  | none => exact ⟨.nothing rfl, fun _ ha => nomatch ha⟩
  | some provider =>
      have hid : provider.id = id ∧ provider.organizationId = organizationId := by
        simpa using List.find?_some hfound
      refine ⟨.read provider _ rfl, ?_⟩
      rintro _ ⟨⟩ -
      exact next provider _ _ hid.1 (List.mem_append_right _ (List.mem_singleton_self _))

/-- A requirement that has been resolved for a cloud provider is REQUIRED. -/
theorem resolve_cloud {providerType : EnumValue ProviderType}
    {raw : DtoField (EnumValue ProviderCredentialRequirement)} {applyCloudDefault : Bool}
    {requirement : ProviderCredentialRequirement}
    (h : resolveCredentialRequirementForWrite providerType raw applyCloudDefault =
      .ok requirement) (hcloud : providerType.member? = some .cloudLlm) :
    requirement = .required := by
  have hknown : providerType = .known .cloudLlm := by
    cases providerType with
    | known type =>
        cases hcloud
        rfl
    | unknown text => cases hcloud
  rw [hknown] at h
  unfold resolveCredentialRequirementForWrite at h
  dsimp only at h
  split at h
  · cases h
  · split at h
    · cases h
    · rename_i hnot
      cases h
      by_contra hne
      exact hnot ⟨rfl, hne⟩

theorem createProvider_safe {input : CreateProviderInput} :
    registrySteps.Safe i (createProvider input) s fun _ _ => True := by
  unfold createProvider
  dsimp only
  cases hresolve : resolveCredentialRequirementForWrite (input.providerType.set (.known .cloudLlm))
      input.credentialRequirement true with
  | error error => exact fails trivial
  | ok requirement =>
      refine change_last (fun _ => True) stable_true trivial trivial fun t c _ _ => ?_
      split
      · rename_i providerType status htype hstatus
        unfold Store.register
        split
        · exact .nothing rfl
        · refine .registered _ (fun hcloud => ?_) rfl
          change providerType = .cloudLlm at hcloud
          exact resolve_cloud hresolve (htype.trans (congrArg some hcloud))
      · exact .nothing rfl

/-- What the database accepts of an update is what the update writes. -/
theorem writes_of_columns {input : UpdateProviderInput} {existing : AgentProvider}
    {providerType : Option ProviderType} {status : Option ProviderStatus}
    {requirement : Option ProviderCredentialRequirement}
    (heffective : input.effectiveCredentialRequirement existing = .ok requirement)
    (hstatus : input.status ≠ .value (.known .active))
    (htypeColumn : UpdateProviderInput.column input.providerType = some providerType)
    (hstatusColumn : UpdateProviderInput.column input.status = some status) :
    Writes input providerType status requirement where
  untyped := by
    rintro rfl
    cases hfield : input.providerType with
    | absent => rfl
    | null => simp [UpdateProviderInput.column, hfield] at htypeColumn
    | value value => simp [UpdateProviderInput.column, hfield] at htypeColumn
  cloud := by
    rintro rfl
    cases hfield : input.providerType with
    | absent => simp [UpdateProviderInput.column, hfield] at htypeColumn
    | null => simp [UpdateProviderInput.column, hfield] at htypeColumn
    | value value =>
        have hcloud : value.member? = some .cloudLlm := by
          simpa [UpdateProviderInput.column, hfield] using htypeColumn
        have hwrites : input.writesRequirement = true := by
          simp [UpdateProviderInput.writesRequirement, hfield]
        rw [UpdateProviderInput.effectiveCredentialRequirement, if_pos hwrites, hfield] at heffective
        cases hresolve : resolveCredentialRequirementForWrite
            ((DtoField.value value).set (.known existing.providerType))
            (.value (input.credentialRequirement.set (.known existing.credentialRequirement)))
            false with
        | error error =>
            rw [hresolve] at heffective
            cases heffective
        | ok resolved =>
            rw [hresolve] at heffective
            cases heffective
            exact congrArg some (resolve_cloud hresolve hcloud)
  unset := by
    rintro rfl
    cases hfield : input.status with
    | absent => rfl
    | null => simp [UpdateProviderInput.column, hfield] at hstatusColumn
    | value value => simp [UpdateProviderInput.column, hfield] at hstatusColumn
  inactive := by
    rintro rfl
    cases hfield : input.status with
    | absent => simp [UpdateProviderInput.column, hfield] at hstatusColumn
    | null => simp [UpdateProviderInput.column, hfield] at hstatusColumn
    | value value =>
        cases value with
        | known known =>
            simp only [UpdateProviderInput.column, hfield, EnumValue.member?, Option.map_some,
              Option.some.injEq] at hstatusColumn
            exact hstatus (by rw [hfield, hstatusColumn])
        | unknown text =>
            simp [UpdateProviderInput.column, hfield, EnumValue.member?] at hstatusColumn

theorem updateProvider_safe {input : UpdateProviderInput} :
    registrySteps.Safe i (updateProvider i input) s fun _ _ => True := by
  refine findProvider_bind fun existing capabilities t _ _ => ?_
  dsimp only
  cases heffective : input.effectiveCredentialRequirement existing with
  | error error => exact fails trivial
  | ok requirement =>
      refine require_bind trivial fun hstatus => ?_
      refine change_last (fun _ => True) stable_true trivial trivial fun t c _ _ => ?_
      split
      · rename_i providerType status htype hcolumn
        split
        · exact .nothing rfl
        · unfold Store.update
          split
          · exact .nothing rfl
          · exact .updated input _ providerType status requirement
              (writes_of_columns heffective (of_decide_eq_true hstatus) htype hcolumn) rfl
      · exact .nothing rfl

theorem activateProvider_safe {input : ActivateProviderInput} :
    registrySteps.Safe i (activateProvider i input) s fun _ _ => True := by
  refine findProvider_bind fun existing capabilities t hid hread => ?_
  refine require_bind trivial fun _ => require_bind trivial fun hconfirmed => ?_
  refine require_bind trivial fun henabled => ?_
  obtain ⟨capability, hmem, hcapability⟩ := List.any_eq_true.mp henabled
  refine change_last _ history_stable trivial hread fun t c _ hread => ?_
  unfold Store.update
  split
  · exact .nothing rfl
  · exact .activated input existing capabilities hread hid ⟨capability, hmem, hcapability⟩
      hconfirmed rfl

theorem assignCapability_safe {input : AssignProviderCapabilityInput} :
    registrySteps.Safe i (assignCapability i input) s fun _ _ => True := by
  refine findProvider_bind fun provider capabilities t _ _ => ?_
  refine change_last (fun _ => True) stable_true trivial trivial fun t c _ _ => ?_
  unfold Store.assign
  split
  · exact .nothing rfl
  · split
    · exact .nothing rfl
    · exact .capability _ _ (fun _ => rfl) rfl

theorem setCapabilityEnabled_safe {organizationId capabilityId : Str} {isEnabled : Bool} :
    registrySteps.Safe i (setCapabilityEnabled organizationId capabilityId isEnabled) s
      fun _ _ => True := by
  refine query_bind (fun _ => True) stable_true trivial trivial fun t _ _ => ?_
  refine require_bind trivial fun _ => ?_
  refine change_last (fun _ => True) stable_true trivial trivial fun t c _ _ => ?_
  split
  · exact .nothing rfl
  · exact .capability _ _ (fun _ => rfl) rfl

theorem program_safe (call : Call) : registrySteps.Safe i (call.program i) s fun _ _ => True := by
  cases call with
  | createProvider => exact createProvider_safe
  | updateProvider => exact updateProvider_safe
  | disableProvider => exact updateProvider_safe
  | activateProvider => exact activateProvider_safe
  | assignCapability => exact assignCapability_safe
  | setCapabilityEnabled => exact setCapabilityEnabled_safe

end Programs

section Runs

variable {calls : List Call} {store : Store} {moves : List Move}
variable {s : System Store Choice HttpError Unit}

end Runs

section Examples

private def noProviders : Store where
  providers := []
  capabilities := []
  history := []

private def newProvider (providerType : ProviderType)
    (requirement : ProviderCredentialRequirement) : Call :=
  .createProvider ⟨"org".toList, "main".toList, "Main".toList, .value (.known providerType),
    .absent, .value (.known requirement)⟩

private def enableCapability : Call :=
  .assignCapability ⟨"org".toList, "main".toList, "PLAN".toList, some true⟩

private def activateMain : Call :=
  .activateProvider ⟨"org".toList, "main".toList, true, true, true, none⟩

/-- In turn each session takes some steps; the identifier is what the first of them may use. -/
private def runOf (calls : List Call) (turns : List (Nat × Nat × Str)) :
    List Move × System Store Choice HttpError Unit :=
  Machine.execute System.step ⟨noProviders, programs calls⟩
    (turns.flatMap fun (session, count, id) => List.replicate count (session, ⟨false, id, 0⟩))

/-- A write that cannot come too late, whatever has been read. -/
private def surelyInTime (s : Store) : HistoryEntry → Bool
  | .updated _ input (some requirement) => input.providerType ≠ .absent || requirement = .required ||
      s.providers.all fun provider => provider.providerType ≠ .cloudLlm
  | .activated _ input => s.history.all fun entry => !entry.setsStatus input.providerId
  | _ => true

private theorem inTime_of_surely {i : Nat} {s t : Store}
    (h : ∀ entry ∈ t.history.drop s.history.length, surelyInTime s entry = true) :
    InTime i s t := by
  intro entry hhistory
  have hentry := h entry (by rw [hhistory, List.drop_left]; exact List.mem_singleton_self _)
  cases entry with
  | updated session input requirement =>
      cases requirement with
      | none => trivial
      | some requirement =>
          intro huntyped hne provider hmem _
          simp only [surelyInTime, huntyped, ne_eq, not_true_eq_false, decide_false, hne,
            Bool.or_self, Bool.false_or, List.all_eq_true] at hentry
          simpa using hentry provider hmem
  | activated session input =>
      intro before after provider capabilities hsplit entry hmem
      simp only [surelyInTime, List.all_eq_true] at hentry
      have := hentry entry (by simp [hsplit, hmem])
      simpa using this
  | read | registered | capabilityAssigned | capabilityUpdated => trivial

/-- A cloud provider is created, gets a capability and is activated. -/
private def activated : List Move × System Store Choice HttpError Unit :=
  runOf [newProvider .cloudLlm .required, enableCapability, activateMain]
    [(0, 1, "main".toList), (1, 2, "plan".toList), (2, 2, [])]

end Examples

end ProviderRegistry
