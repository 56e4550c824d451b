import Mathlib.Tactic.Linarith
import VitoPlatform.Routing.Router

/-!
# What the router selects

The eligible provider with the highest score, and among equal scores the one whose code comes
first. `Beats` is that order; the selected provider beats every other eligible one, so neither
the order of the candidates nor a candidate that is not selected has a part in the selection.
-/

namespace Routing

open Text Invocation Workflow Dispatch Ranking

/-- The score the router gives a provider. -/
def finalScore (provider : RoutedDeclaration) : Rat := aggregateScore (computeScore provider)

/-- The score components do not get worse. A lower cost or latency is a better one, and a
missing score counts as its default. -/
structure Improves (provider provider' : RoutedDeclaration) : Prop where
  same : ∃ quality cost latency, provider' =
    { provider with qualityScore := quality, costScore := cost, latencyScore := latency }
  quality : (computeScore provider).qualityScore ≤ (computeScore provider').qualityScore
  cost : (computeScore provider).costScore ≤ (computeScore provider').costScore
  latency : (computeScore provider).latencyScore ≤ (computeScore provider').latencyScore

/-- No weight is negative, so an improvement does not lower the score. -/
theorem Improves.finalScore_le {provider provider' : RoutedDeclaration}
    (h : Improves provider provider') : finalScore provider ≤ finalScore provider' := by
  have hhealth : (computeScore provider').healthPreference =
      (computeScore provider).healthPreference := by
    obtain ⟨quality, cost, latency, rfl⟩ := h.same
    rfl
  have hquality := h.quality
  have hcost := h.cost
  have hlatency := h.latency
  simp only [finalScore, aggregateScore, defaultRoutingScoreWeights, hhealth]
  linarith

/-! ## The selection on the providers -/

section Providers

variable (localeCompare : Str → Str → Ordering)
variable (runtimeState : Option RuntimeState) (request : ProviderRoutingRequest)

/-- `a` has the higher score, or the same score and the earlier code. -/
def Beats (a b : RoutedDeclaration) : Prop :=
  finalScore b < finalScore a ∨
    finalScore b = finalScore a ∧ localeCompare a.providerCode b.providerCode = .lt

theorem Beats.of_le {localeCompare : Str → Str → Ordering} {a a' b : RoutedDeclaration}
    (h : Beats localeCompare a b) (hscore : finalScore a ≤ finalScore a')
    (hcode : a'.providerCode = a.providerCode) : Beats localeCompare a' b := by
  rw [Beats, hcode]
  obtain h | ⟨heq, h⟩ := h
  · exact .inl (lt_of_lt_of_le h hscore)
  · obtain hlt | hle := hscore.lt_or_eq
    · exact .inl (heq ▸ hlt)
    · exact .inr ⟨heq.trans hle, h⟩

/-- The comparison of the sort, on the providers themselves. -/
def compareProviders : RoutedDeclaration → RoutedDeclaration → Ordering :=
  byScoreThenName finalScore (·.providerCode) localeCompare

def eligibleProviders (candidates : List RoutedDeclaration) : List RoutedDeclaration :=
  candidates.filter fun provider => (evaluateCandidate runtimeState request provider).eligible

/-- What becomes of a candidate: scored when it is eligible. -/
def outcomeOf (provider : RoutedDeclaration) : RoutingCandidate :=
  let candidate := evaluateCandidate runtimeState request provider
  if candidate.eligible then scoreCandidate candidate else candidate

end Providers

section Facts

variable {localeCompare : Str → Str → Ordering}
variable {runtimeState : Option RuntimeState} {request : ProviderRoutingRequest}
variable {candidates : List RoutedDeclaration} {provider : RoutedDeclaration}

theorem mem_eligibleProviders : provider ∈ eligibleProviders runtimeState request candidates ↔
    provider ∈ candidates ∧ Routable runtimeState request provider := by
  rw [eligibleProviders, List.mem_filter, evaluateCandidate_eligible]

@[simp] theorem outcomeOf_provider :
    (outcomeOf runtimeState request provider).provider = provider := by
  simp only [outcomeOf]
  split <;> simp [scoreCandidate]

@[simp] theorem outcomeOf_eligible :
    (outcomeOf runtimeState request provider).eligible =
      (evaluateCandidate runtimeState request provider).eligible := by
  simp only [outcomeOf]
  split <;> rfl

theorem outcomeOf_finalScore (h : (evaluateCandidate runtimeState request provider).eligible) :
    (outcomeOf runtimeState request provider).finalScore = some (finalScore provider) := by
  simp [outcomeOf, h, scoreCandidate, finalScore]

theorem scored_eq_map :
    (((candidates.map (evaluateCandidate runtimeState request)).filter (·.eligible)).map
      scoreCandidate) =
      (eligibleProviders runtimeState request candidates).map
        (outcomeOf runtimeState request) := by
  rw [List.filter_map, List.map_map, eligibleProviders]
  refine List.map_congr_left fun provider h => ?_
  have heligible := (List.mem_filter.mp h).2
  simp only [Function.comp_apply] at heligible ⊢
  rw [outcomeOf, if_pos heligible]

/-- The candidates sorted by the router are the eligible providers sorted. -/
theorem scoredCandidates_eq :
    scoredCandidates localeCompare runtimeState request candidates =
      (sort (compareProviders localeCompare)
        (eligibleProviders runtimeState request candidates)).map
          (outcomeOf runtimeState request) := by
  rw [scoredCandidates, scored_eq_map]
  refine sort_map fun a ha b hb => ?_
  rw [compareProviders, byScoreThenName, compareScored,
    outcomeOf_finalScore (List.mem_filter.mp ha).2, outcomeOf_finalScore (List.mem_filter.mp hb).2]
  simp only [Option.getD_some, outcomeOf_provider]

theorem selectedProvider_eq :
    (routeInternal localeCompare runtimeState request candidates).selectedProvider =
      first (compareProviders localeCompare) (eligibleProviders runtimeState request candidates) := by
  simp only [routeInternal, scoredCandidates_eq, List.head?_map, Option.map_map]
  rw [← first]
  cases first (compareProviders localeCompare)
      (eligibleProviders runtimeState request candidates) with
  | none => rfl
  | some provider => simp

theorem decisionReason_eq :
    (routeInternal localeCompare runtimeState request candidates).decisionReason =
      decisionReason ((routeInternal localeCompare runtimeState request
        candidates).selectedProvider.map (outcomeOf runtimeState request)) := by
  rw [selectedProvider_eq]
  simp only [routeInternal, scoredCandidates_eq, List.head?_map]
  rfl

/-! ## The records of the response -/

theorem recordOf_get {α : Type} {field : RoutingCandidate → Option α}
    {evaluated : List RoutingCandidate} (hids : (evaluated.map (·.provider.id)).Nodup)
    {id : Str} {value : α} :
    (recordOf field evaluated).get id = some value ↔
      ∃ c ∈ evaluated, c.provider.id = id ∧ field c = some value := by
  have hkeys : ((evaluated.filterMap fun c =>
      (field c).map fun value => (c.provider.id, value)).map Prod.fst).Nodup := by
    refine hids.sublist ?_
    induction evaluated with
    | nil => exact .slnil
    | cons c evaluated ih =>
        have ih := ih (List.nodup_cons.mp hids).2
        cases hfield : field c with
        | none => simpa [hfield] using ih.cons c.provider.id
        | some value => simpa [hfield] using ih.cons_cons c.provider.id
  rw [recordOf, InsertionMap.get_ofEntries hkeys, List.mem_filterMap]
  simp [and_comm]

variable (hids : (candidates.map (·.id)).Nodup)

include hids

theorem allCandidates_eq :
    allCandidates localeCompare runtimeState request candidates =
      candidates.map (outcomeOf runtimeState request) := by
  set sorted := sort (compareProviders localeCompare)
    (eligibleProviders runtimeState request candidates)
  have hperm : sorted.Perm (eligibleProviders runtimeState request candidates) := sort_perm _
  have hnodup : (sorted.map (·.id)).Nodup :=
    (hperm.map _).nodup_iff.mpr (hids.sublist (List.filter_sublist.map _))
  have hget {id : Str} {outcome : RoutingCandidate} :
      (InsertionMap.ofEntries ((scoredCandidates localeCompare runtimeState request
        candidates).map fun s => (s.provider.id, s))).get id = some outcome ↔
      ∃ q ∈ sorted, q.id = id ∧ outcomeOf runtimeState request q = outcome := by
    rw [scoredCandidates_eq, List.map_map, ← InsertionMap.get_ofEntries_map hnodup]
    simp only [Function.comp_def, outcomeOf_provider, sorted]
  rw [allCandidates, List.map_map]
  refine List.map_congr_left fun p hp => ?_
  simp only [Function.comp_apply, evaluateCandidate_provider]
  by_cases heligible : (evaluateCandidate runtimeState request p).eligible
  · have hmem : p ∈ sorted := hperm.mem_iff.mpr (List.mem_filter.mpr ⟨hp, heligible⟩)
    rw [hget.mpr ⟨p, hmem, rfl, rfl⟩, Option.getD_some]
  · -- Another candidate under the same id would be this one.
    cases hfound : (InsertionMap.ofEntries ((scoredCandidates localeCompare runtimeState request
        candidates).map fun s => (s.provider.id, s))).get p.id with
    | none => simp [outcomeOf, heligible]
    | some outcome =>
        obtain ⟨q, hq, hid, -⟩ := hget.mp hfound
        obtain ⟨hq, hqeligible⟩ := List.mem_filter.mp (hperm.mem_iff.mp hq)
        rw [List.inj_on_of_nodup_map hids hq hp hid] at hqeligible
        exact (heligible hqeligible).elim

/-- An entry of a record of rejections is that of a candidate that is not eligible. -/
theorem rejections_get {α : Type} {field : RoutingCandidate → Option α} {id : Str} {value : α}
    (haccepted : ∀ p, field { provider := p, eligible := true } = none) :
    (recordOf field ((candidates.map (evaluateCandidate runtimeState request)).filter
      (!·.eligible))).get id = some value ↔
      ∃ p ∈ candidates, p.id = id ∧
        field (evaluateCandidate runtimeState request p) = some value := by
  have hnodup : (((candidates.map (evaluateCandidate runtimeState request)).filter
      (!·.eligible)).map (·.provider.id)).Nodup := by
    refine .sublist (List.filter_sublist.map _) ?_
    rw [List.map_map]
    simpa [Function.comp_def] using hids
  have hnot {p : RoutedDeclaration}
      (h : field (evaluateCandidate runtimeState request p) = some value) :
      (evaluateCandidate runtimeState request p).eligible = false := by
    have hevaluated := evaluateCandidate_evaluated runtimeState request p
    generalize evaluateCandidate runtimeState request p = candidate at h hevaluated
    cases hevaluated with
    | rejected reason phase => rfl
    | eligible =>
        rw [haccepted] at h
        cases h
  rw [recordOf_get hnodup]
  constructor
  · rintro ⟨c, hc, hid, hvalue⟩
    obtain ⟨p, hp, rfl⟩ := List.mem_map.mp (List.mem_filter.mp hc).1
    exact ⟨p, hp, by simpa using hid, hvalue⟩
  · rintro ⟨p, hp, rfl, hvalue⟩
    refine ⟨_, List.mem_filter.mpr ⟨List.mem_map_of_mem hp, ?_⟩, by simp, hvalue⟩
    simp [hnot hvalue]

theorem rejectionReasons_get {id : Str} {reason : RoutingRejectionReason} :
    (routeInternal localeCompare runtimeState request candidates).rejectionReasons.get id =
        some reason ↔
      ∃ p ∈ candidates, p.id = id ∧
        (evaluateCandidate runtimeState request p).rejectionReason = some reason :=
  rejections_get hids fun _ => rfl

theorem rejectionPhases_get {id : Str} {phase : EligibilityPhase} :
    (routeInternal localeCompare runtimeState request candidates).rejectionPhases.get id =
        some phase ↔
      ∃ p ∈ candidates, p.id = id ∧
        (evaluateCandidate runtimeState request p).rejectionPhase = some phase :=
  rejections_get hids fun _ => rfl

/-- An entry of a record of scores is that of a candidate. -/
theorem scores_get {α : Type} {field : RoutingCandidate → Option α} {id : Str} {value : α} :
    (recordOf field (allCandidates localeCompare runtimeState request candidates)).get id =
        some value ↔
      ∃ p ∈ candidates, p.id = id ∧ field (outcomeOf runtimeState request p) = some value := by
  rw [allCandidates_eq hids, recordOf_get (by simpa [Function.comp_def] using hids)]
  simp

theorem allCandidateIds_eq :
    (routeInternal localeCompare runtimeState request candidates).allCandidateIds =
      candidates.map (·.id) := by
  simp only [routeInternal, allCandidates_eq hids, List.map_map]
  exact List.map_congr_left fun p _ => by simp

theorem eligibleCandidateIds_eq :
    (routeInternal localeCompare runtimeState request candidates).eligibleCandidateIds =
      (eligibleProviders runtimeState request candidates).map (·.id) := by
  simp only [routeInternal, allCandidates_eq hids, List.filter_map, List.map_map,
    Function.comp_def, outcomeOf_eligible, outcomeOf_provider]
  rfl

end Facts

/-! ## Main results -/

/-- Every candidate is accepted, or rejected for one reason in one phase. -/
def Told (runtimeState : Option RuntimeState) (request : ProviderRoutingRequest)
    (p : RoutedDeclaration) : Prop :=
  (Routable runtimeState request p ∧
      evaluateCandidate runtimeState request p = { provider := p, eligible := true }) ∨
    (¬ Routable runtimeState request p ∧ ∃! verdict : RoutingRejectionReason × EligibilityPhase,
      evaluateCandidate runtimeState request p = rejected p verdict.1 verdict.2)

/-- The response tells the candidates apart the same way. -/
structure Partitioned (runtimeState : Option RuntimeState) (request : ProviderRoutingRequest)
    (candidates : List RoutedDeclaration) (response : RoutingResponse) : Prop where
  all : response.allCandidateIds = candidates.map (·.id)
  eligible : ∀ p ∈ candidates,
    (p.id ∈ response.eligibleCandidateIds ↔ Routable runtimeState request p)
  accepted : ∀ p ∈ candidates, Routable runtimeState request p →
    response.rejectionReasons.get p.id = none ∧ response.rejectionPhases.get p.id = none
  rejected : ∀ p ∈ candidates, ¬ Routable runtimeState request p → ∃ reason phase,
    evaluateCandidate runtimeState request p = rejected p reason phase ∧
      response.rejectionReasons.get p.id = some reason ∧
      response.rejectionPhases.get p.id = some phase

/-- The same response, but for the order in which the candidates are listed. -/
structure SameResponse (a b : RoutingResponse) : Prop where
  eligible : a.eligibleCandidateIds.Perm b.eligibleCandidateIds
  all : a.allCandidateIds.Perm b.allCandidateIds
  reasons : ∀ id, a.rejectionReasons.get id = b.rejectionReasons.get id
  phases : ∀ id, a.rejectionPhases.get id = b.rejectionPhases.get id
  components : ∀ id, a.scoreComponents.get id = b.scoreComponents.get id
  scores : ∀ id, a.finalScores.get id = b.finalScores.get id

section Results

variable {localeCompare : Str → Str → Ordering}
variable {runtimeState : Option RuntimeState} {request : ProviderRoutingRequest}
variable {candidates : List RoutedDeclaration} {p : RoutedDeclaration}

theorem told : Told runtimeState request p := by
  have hevaluated := evaluateCandidate_evaluated runtimeState request p
  rw [Told, ← evaluateCandidate_eligible]
  generalize evaluateCandidate runtimeState request p = candidate at hevaluated
  cases hevaluated with
  | rejected reason phase =>
      refine .inr ⟨by simp [rejected], (reason, phase), rfl, ?_⟩
      rintro ⟨reason', phase'⟩ h
      have hreason : reason = reason' := by simpa [rejected] using congrArg (·.rejectionReason) h
      have hphase : phase = phase' := by simpa [rejected] using congrArg (·.rejectionPhase) h
      rw [hreason, hphase]
  | eligible => exact .inl ⟨rfl, rfl⟩

theorem partitioned (hids : (candidates.map (·.id)).Nodup) :
    Partitioned runtimeState request candidates
      (routeInternal localeCompare runtimeState request candidates) := by
  refine ⟨allCandidateIds_eq hids, fun p hp => ?_, fun p hp hroutable => ?_,
    fun p hp hnot => ?_⟩
  · rw [eligibleCandidateIds_eq hids, List.mem_map]
    constructor
    · rintro ⟨q, hq, hid⟩
      obtain ⟨hq, hroutable⟩ := mem_eligibleProviders.mp hq
      rwa [List.inj_on_of_nodup_map hids hq hp hid] at hroutable
    · intro hroutable
      exact ⟨p, mem_eligibleProviders.mpr ⟨hp, hroutable⟩, rfl⟩
  · have haccepted : evaluateCandidate runtimeState request p =
        { provider := p, eligible := true } := by
      obtain ⟨-, h⟩ | ⟨h, -⟩ := (told : Told runtimeState request p)
      · exact h
      · exact (h hroutable).elim
    refine ⟨Option.eq_none_iff_forall_ne_some.mpr fun reason hreason => ?_,
      Option.eq_none_iff_forall_ne_some.mpr fun phase hphase => ?_⟩
    · obtain ⟨q, hq, hid, hq'⟩ := (rejectionReasons_get hids).mp hreason
      rw [List.inj_on_of_nodup_map hids hq hp hid, haccepted] at hq'
      cases hq'
    · obtain ⟨q, hq, hid, hq'⟩ := (rejectionPhases_get hids).mp hphase
      rw [List.inj_on_of_nodup_map hids hq hp hid, haccepted] at hq'
      cases hq'
  · obtain ⟨h, -⟩ | ⟨-, ⟨reason, phase⟩, hrejected, -⟩ := (told : Told runtimeState request p)
    · exact (hnot h).elim
    · refine ⟨reason, phase, hrejected, (rejectionReasons_get hids).mpr ⟨p, hp, rfl, ?_⟩,
        (rejectionPhases_get hids).mpr ⟨p, hp, rfl, ?_⟩⟩
      · rw [hrejected]
        rfl
      · rw [hrejected]
        rfl

theorem sameResponse {candidates' : List RoutedDeclaration} (h : candidates.Perm candidates')
    (hids : (candidates.map (·.id)).Nodup) :
    SameResponse (routeInternal localeCompare runtimeState request candidates)
      (routeInternal localeCompare runtimeState request candidates') := by
  have hids' : (candidates'.map (·.id)).Nodup := (h.map _).nodup_iff.mp hids
  constructor
  · rw [eligibleCandidateIds_eq hids, eligibleCandidateIds_eq hids']
    exact (h.filter _).map _
  · rw [allCandidateIds_eq hids, allCandidateIds_eq hids']
    exact h.map _
  · intro id
    ext reason
    rw [rejectionReasons_get hids, rejectionReasons_get hids']
    simp only [h.mem_iff]
  · intro id
    ext phase
    rw [rejectionPhases_get hids, rejectionPhases_get hids']
    simp only [h.mem_iff]
  · intro id
    ext components
    simp only [routeInternal]
    rw [scores_get hids, scores_get hids']
    simp only [h.mem_iff]
  · intro id
    ext score
    simp only [routeInternal]
    rw [scores_get hids, scores_get hids']
    simp only [h.mem_iff]

variable [Std.TransCmp localeCompare] [Std.LawfulEqCmp localeCompare]

instance : Std.TransCmp (compareProviders localeCompare) := transCmp_byScoreThenName

theorem strict_eligible (hcodes : (candidates.map (·.providerCode)).Nodup) :
    Strict (compareProviders localeCompare) (eligibleProviders runtimeState request candidates) :=
  strict_byScoreThenName (hcodes.sublist (List.filter_sublist.map _))

theorem ahead_iff_beats {q : RoutedDeclaration} (h : p.providerCode ≠ q.providerCode) :
    Ahead (compareProviders localeCompare) p q ↔ Beats localeCompare p q := by
  refine ahead_iff_lt ?_
  exact h

theorem selected_none :
    (routeInternal localeCompare runtimeState request candidates).selectedProvider = none ↔
      ∀ p ∈ candidates, ¬ Routable runtimeState request p := by
  rw [selectedProvider_eq, first_eq_none_iff, List.eq_nil_iff_forall_not_mem]
  simp only [mem_eligibleProviders, not_and]

theorem selected_some (hcodes : (candidates.map (·.providerCode)).Nodup) :
    (routeInternal localeCompare runtimeState request candidates).selectedProvider = some p ↔
      p ∈ candidates ∧ Routable runtimeState request p ∧
        ∀ q ∈ candidates, Routable runtimeState request q → q ≠ p → Beats localeCompare p q := by
  rw [selectedProvider_eq, first_eq_some_iff (strict_eligible hcodes), mem_eligibleProviders,
    and_assoc]
  refine and_congr_right fun hp => and_congr_right fun _ => ?_
  have hcode {q : RoutedDeclaration} (hq : q ∈ candidates) (hne : q ≠ p) :
      p.providerCode ≠ q.providerCode := fun h =>
    hne (List.inj_on_of_nodup_map hcodes hq hp h.symm)
  constructor
  · intro h q hq hroutable hne
    exact (ahead_iff_beats (hcode hq hne)).mp (h q (mem_eligibleProviders.mpr ⟨hq, hroutable⟩))
  · intro h q hq
    obtain ⟨hq, hroutable⟩ := mem_eligibleProviders.mp hq
    by_cases hne : q = p
    · rw [hne]
      exact ahead_refl p
    · exact (ahead_iff_beats (hcode hq hne)).mpr (h q hq hroutable hne)

theorem selected_perm (hcodes : (candidates.map (·.providerCode)).Nodup)
    {candidates' : List RoutedDeclaration} (h : candidates.Perm candidates') :
    (routeInternal localeCompare runtimeState request candidates').selectedProvider =
      (routeInternal localeCompare runtimeState request candidates).selectedProvider := by
  rw [selectedProvider_eq, selectedProvider_eq]
  exact (first_perm (strict_eligible hcodes) (h.filter _)).symm

/-- A candidate that is not selected is not needed. -/
theorem selected_remove {before after : List RoutedDeclaration}
    (hcodes : ((before ++ p :: after).map (·.providerCode)).Nodup)
    (h : (routeInternal localeCompare runtimeState request
      (before ++ p :: after)).selectedProvider ≠ some p) :
    (routeInternal localeCompare runtimeState request (before ++ after)).selectedProvider =
      (routeInternal localeCompare runtimeState request
        (before ++ p :: after)).selectedProvider := by
  have hmem {q : RoutedDeclaration} :
      q ∈ before ++ p :: after ↔ q = p ∨ q ∈ before ++ after := by
    simp only [List.mem_append, List.mem_cons]
    tauto
  cases hselected : (routeInternal localeCompare runtimeState request
      (before ++ p :: after)).selectedProvider with
  | none =>
      rw [selected_none] at hselected ⊢
      exact fun q hq => hselected q (hmem.mpr (.inr hq))
  | some s =>
      have hcodes' : ((before ++ after).map (·.providerCode)).Nodup :=
        hcodes.sublist (((List.sublist_cons_self p after).append_left before).map _)
      obtain ⟨hs, hroutable, hbeats⟩ := (selected_some hcodes).mp hselected
      have hne : s ≠ p := fun heq => h (heq ▸ hselected)
      refine (selected_some hcodes').mpr ⟨(hmem.mp hs).resolve_left hne, hroutable, ?_⟩
      exact fun q hq => hbeats q (hmem.mpr (.inr hq))

/-- Better scores keep the selected candidate selected. -/
theorem selected_improve {before after : List RoutedDeclaration} {p' : RoutedDeclaration}
    (hcodes : ((before ++ p :: after).map (·.providerCode)).Nodup)
    (h : (routeInternal localeCompare runtimeState request
      (before ++ p :: after)).selectedProvider = some p) (improves : Improves p p') :
    (routeInternal localeCompare runtimeState request
      (before ++ p' :: after)).selectedProvider = some p' := by
  have hscore := improves.finalScore_le
  obtain ⟨quality, cost, latency, heq⟩ := improves.same
  have hcode : p'.providerCode = p.providerCode := by rw [heq]
  have hcodes' : ((before ++ p' :: after).map (·.providerCode)).Nodup := by
    simpa only [List.map_append, List.map_cons, hcode] using hcodes
  obtain ⟨-, hroutable, hbeats⟩ := (selected_some hcodes).mp h
  have hroutable' : Routable runtimeState request p' := by
    rw [heq]
    exact { hroutable with }
  refine (selected_some hcodes').mpr ⟨by simp, hroutable', fun q hq hrq hne => ?_⟩
  have hq' : q ∈ before ++ after := by
    simp only [List.mem_append, List.mem_cons] at hq ⊢
    tauto
  have hqp : q ≠ p := by
    rintro rfl
    have hnodup : (q.providerCode :: (before ++ after).map (·.providerCode)).Nodup := by
      rw [List.map_append, List.map_cons] at hcodes
      rw [List.map_append]
      exact List.nodup_middle.mp hcodes
    exact (List.nodup_cons.mp hnodup).1 (List.mem_map_of_mem hq')
  have hmem : q ∈ before ++ p :: after := by
    simp only [List.mem_append, List.mem_cons] at hq' ⊢
    tauto
  exact (hbeats q hmem hrq hqp).of_le hscore hcode

end Results

/-- What routing does with the candidates of an organization: it tells all of them apart,
selects the one that beats the others, and decides by the eligible candidates alone. -/
structure SelectsBest (localeCompare : Str → Str → Ordering) (runtimeState : Option RuntimeState)
    (request : ProviderRoutingRequest) (candidates : List RoutedDeclaration) : Prop where
  told : ∀ p ∈ candidates, Told runtimeState request p
  /-- Identifiers are the primary key of the table the candidates come from. -/
  partitioned : (candidates.map (·.id)).Nodup → Partitioned runtimeState request candidates
    (routeInternal localeCompare runtimeState request candidates)
  none_iff : (routeInternal localeCompare runtimeState request candidates).selectedProvider =
    none ↔ ∀ p ∈ candidates, ¬ Routable runtimeState request p
  some_iff : ∀ p,
    (routeInternal localeCompare runtimeState request candidates).selectedProvider = some p ↔
      p ∈ candidates ∧ Routable runtimeState request p ∧
        ∀ q ∈ candidates, Routable runtimeState request q → q ≠ p → Beats localeCompare p q
  order : ∀ candidates', candidates.Perm candidates' →
    (routeInternal localeCompare runtimeState request candidates').selectedProvider =
      (routeInternal localeCompare runtimeState request candidates).selectedProvider ∧
    (routeInternal localeCompare runtimeState request candidates').decisionReason =
      (routeInternal localeCompare runtimeState request candidates).decisionReason ∧
    ((candidates.map (·.id)).Nodup →
      SameResponse (routeInternal localeCompare runtimeState request candidates)
        (routeInternal localeCompare runtimeState request candidates'))
  remove : ∀ before p after, candidates = before ++ p :: after →
    (routeInternal localeCompare runtimeState request candidates).selectedProvider ≠ some p →
    (routeInternal localeCompare runtimeState request (before ++ after)).selectedProvider =
      (routeInternal localeCompare runtimeState request candidates).selectedProvider
  improve : ∀ before p p' after, candidates = before ++ p :: after →
    (routeInternal localeCompare runtimeState request candidates).selectedProvider = some p →
    Improves p p' →
    (routeInternal localeCompare runtimeState request
      (before ++ p' :: after)).selectedProvider = some p'

/-- Candidates with different codes are routed to the best of them. -/
theorem routeInternal_selects (localeCompare : Str → Str → Ordering)
    [Std.TransCmp localeCompare] [Std.LawfulEqCmp localeCompare]
    (runtimeState : Option RuntimeState) (request : ProviderRoutingRequest)
    (candidates : List RoutedDeclaration) (hcodes : (candidates.map (·.providerCode)).Nodup) :
    SelectsBest localeCompare runtimeState request candidates where
  told _ _ := told
  partitioned := partitioned
  none_iff := selected_none
  some_iff _ := selected_some hcodes
  order candidates' h := by
    refine ⟨selected_perm hcodes h, ?_, sameResponse h⟩
    rw [decisionReason_eq, decisionReason_eq, selected_perm hcodes h]
  remove := by
    rintro before p after rfl hne
    exact selected_remove hcodes hne
  improve := by
    rintro before p p' after rfl hselected improves
    exact selected_improve hcodes hselected improves

/-! ## A selection -/

section Sample

/-- A routable provider under the given code, with the given quality. -/
private def provider (code : String) (quality : Rat) : RoutedDeclaration where
  id := code.toList
  organizationId := "org".toList
  providerCode := code.toList
  providerType := .cloudLlm
  status := .active
  capabilityAssignments := [⟨"PLAN".toList, true⟩]
  estimatedCostMinorUnits := none
  healthStatus := .healthy
  quotaStatus := .available
  assuranceLevels := []
  credentialRequirement := none
  healthCheckedAt := none
  quotaCheckedAt := none
  qualityScore := some quality
  latencyScore := none
  costScore := none

private def request : ProviderRoutingRequest where
  organizationId := "org".toList
  capability := "PLAN".toList
  assuranceLevel := none
  workflowRunId := []
  workflowStepRunId := []
  independenceContext := none
  maxCostMinorUnits := none
  correlationId := []

/-- Of three providers, two with the same score, the one with the earlier code is selected. -/
theorem routeInternal_selects_sample :
    (routeInternal (List.compareLex compare) none request
      [provider "c" 1, provider "b" 1, provider "a" 0]).selectedProvider =
      some (provider "b" 1) := by
  have selects := routeInternal_selects (List.compareLex compare) none request
    [provider "c" 1, provider "b" 1, provider "a" 0] (by decide)
  refine (selects.some_iff _).mpr ⟨by simp, evaluateCandidate_eligible.mp (by decide), ?_⟩
  intro q hq _ hne
  simp only [List.mem_cons, List.not_mem_nil, or_false] at hq
  obtain rfl | rfl | rfl := hq
  · exact .inr (by decide +kernel)
  · exact (hne rfl).elim
  · exact .inl (by decide +kernel)

end Sample

end Routing
