import VitoPlatform.Learning.Evidence

/-!
# How often the runtime learns from an experience

The runtime looks for an outcome, a reflection and a candidate before it makes one, and no
constraint of the database stands behind that. One call after another, it learns once from an
experience. Where a call has stopped between an outcome and the mark of the experience, no later
call of the runtime ever learns from the experience at all.
-/

namespace Learning

open Text Concurrent Services Services.Steps

/-- Whether the runtime makes the call. -/
def Call.runtime : Call → Bool
  | .tryCapture _ _ | .tryRecord _ | .tryProcess _ => true
  | _ => false

/-- Steps that only have to keep an invariant, as the others do, if there are others. -/
def keeping (inv : Store → Prop) (others : Prop) : Steps Store where
  inv := inv
  does _ s t := inv s → inv t
  rely _ s t := others ∧ (inv s → inv t)
  records _ _ _ := False
  refl _ _ hs := hs
  keeps hdoes hs := hdoes hs
  between hbetween hs := by
    rcases hbetween with hstep | hnever
    · exact hstep.2 hs
    · exact hnever.elim

section Keeping

variable {inv : Store → Prop} {others : Prop} {i : Nat} {s : Store} {α β : Type}
variable {post : α → Store → Prop}

theorem keeping_query_bind {f : Store → β} {k : β → Program Store α} (hs : inv s)
    (next : ∀ t, inv t → (keeping inv others).Safe i (k (f t)) t post) :
    (keeping inv others).Safe i (query f >>= k) s post :=
  query_bind (fun _ => True) stable_true hs trivial fun t ht _ => next t ht

/-- An insertion that keeps the invariant. -/
theorem keeping_insert_bind (key : β → Str) (rows : Store → List β)
    (admitted : Store → β → Bool) (put : Store → List β → Store) {row : Choice → β}
    {k : β → Program Store α} (A : Store → Prop) (stable : (keeping inv others).Stable i A)
    (hs : inv s) (hA : A s)
    (hkeeps : ∀ t c, inv t → A t → inv (put t (rows t ++ [row c])))
    (next : ∀ b t, inv t → (keeping inv others).Safe i (k b) t post) :
    (keeping inv others).Safe i
      ((change fun c s => s.insert key (rows s) (admitted s (row c)) (row c) (put s)) >>= k)
      s post := by
  refine change_bind A stable hs hA fun t c ht hA => ?_
  unfold Store.insert
  split
  · refine ⟨fun ht => hkeeps t c ht hA, ?_⟩
    rintro _ ⟨⟩ hafter
    exact next _ _ hafter
  · refine ⟨id, ?_⟩
    rintro _ ⟨⟩

theorem keeping_mark_bind {organizationId experienceId : Str} {current next : ExperienceStatus}
    {k : Unit → Program Store α} (hs : inv s)
    (hkeeps : ∀ t, inv t → inv (t.markExperience organizationId experienceId current next))
    (hk : ∀ t, inv t → (keeping inv others).Safe i (k ()) t post) :
    (keeping inv others).Safe i (mark organizationId experienceId current next >>= k) s post := by
  refine change_bind (fun _ => True) stable_true hs trivial fun t c ht _ => ⟨hkeeps t, ?_⟩
  rintro _ ⟨⟩ hafter
  exact hk _ hafter

theorem keeping_attempt {p : Program Store α}
    (h : (keeping inv others).Safe i p s fun _ _ => True) :
    (keeping inv others).Safe i (attempt p) s fun _ _ => True := by
  refine tryCatch_bind (part_bind h fun _ _ _ => returns fun _ => trivial) fun _ t ht => ?_
  refine tryCatch_bind ?_ fun _ _ _ => returns fun _ => trivial
  exact keeping_query_bind ht fun _ _ => returns fun _ => trivial

/-- An experience that is captured. -/
theorem keeping_capture {organizationId : Str} {input : RecordExperienceInput} (hs : inv s)
    (hkeeps : ∀ t row, row.status = .observed → inv t →
      inv { t with experiences := t.experiences ++ [row] }) :
    (keeping inv others).Safe i (captureExperience organizationId input) s fun _ _ => True := by
  refine checked_bind (ended_require _ _) hs fun _ _ =>
    checked_bind (ended_validateExperience input) hs fun _ _ => ?_
  refine keeping_query_bind hs fun t ht => require_bind ht fun _ => ?_
  refine keeping_insert_bind Experience.id Store.experiences Store.admitsExperience
    (fun s rows => { s with experiences := rows }) (fun _ => True) stable_true ht trivial
    (fun t c ht _ => hkeeps t _ rfl ht) fun _ t ht => ?_
  exact keeping_query_bind ht fun _ _ => returns fun _ => trivial

end Keeping

/-! ## An outcome without its mark -/

def Store.candidatesOf (s : Store) (organizationId experienceId : Str) : List Candidate :=
  s.candidates.filter fun candidate =>
    candidate.organizationId = organizationId ∧ candidate.experienceId = experienceId

/-- The experience is observed only, and what has been made of it is what there was. -/
structure Held (organizationId experienceId : Str) (store s : Store) : Prop where
  observed : ∀ experience ∈ s.experiences, experience.organizationId = organizationId →
    experience.id = experienceId → experience.status = .observed
  outcomes : s.outcomesOf organizationId experienceId =
    store.outcomesOf organizationId experienceId
  reflections : s.reflectionsOf organizationId experienceId =
    store.reflectionsOf organizationId experienceId
  candidates : s.candidatesOf organizationId experienceId =
    store.candidatesOf organizationId experienceId

section Held

variable {organizationId experienceId : Str} {store s : Store} {platform : Platform} {i : Nat}

/-- A row about another experience is not among those about this one. -/
theorem filter_append_of_other {α : Type} {rows : List α} {row : α} {p : α → Bool}
    (h : p row = false) : (rows ++ [row]).filter p = rows.filter p := by
  rw [List.filter_append, List.filter_cons_of_neg (by rw [h]; exact Bool.false_ne_true),
    List.filter_nil, List.append_nil]

theorem outcomesOf_append {row : Outcome}
    (hother : ¬ (row.organizationId = organizationId ∧ row.experienceId = experienceId)) :
    Store.outcomesOf { s with outcomes := s.outcomes ++ [row] } organizationId experienceId =
      s.outcomesOf organizationId experienceId := by
  unfold Store.outcomesOf
  exact filter_append_of_other (decide_eq_false hother)

theorem reflectionsOf_append {row : Reflection}
    (hother : ¬ (row.organizationId = organizationId ∧ row.experienceId = experienceId)) :
    Store.reflectionsOf { s with reflections := s.reflections ++ [row] } organizationId
      experienceId = s.reflectionsOf organizationId experienceId := by
  unfold Store.reflectionsOf
  exact filter_append_of_other (decide_eq_false hother)

theorem candidatesOf_append {row : Candidate}
    (hother : ¬ (row.organizationId = organizationId ∧ row.experienceId = experienceId)) :
    Store.candidatesOf { s with candidates := s.candidates ++ [row] } organizationId experienceId =
      s.candidatesOf organizationId experienceId := by
  unfold Store.candidatesOf
  exact filter_append_of_other (decide_eq_false hother)

theorem Held.capture {row : Experience} (h : Held organizationId experienceId store s)
    (hrow : row.status = .observed) :
    Held organizationId experienceId store { s with experiences := s.experiences ++ [row] } :=
  ⟨List.forall_mem_append.mpr ⟨h.observed, List.forall_mem_singleton.mpr fun _ _ => hrow⟩,
    h.outcomes, h.reflections, h.candidates⟩

theorem Held.outcome {row : Outcome} (h : Held organizationId experienceId store s)
    (hother : ¬ (row.organizationId = organizationId ∧ row.experienceId = experienceId)) :
    Held organizationId experienceId store { s with outcomes := s.outcomes ++ [row] } :=
  ⟨h.observed, (outcomesOf_append hother).trans h.outcomes, h.reflections,
    h.candidates⟩

theorem Held.reflection {row : Reflection} (h : Held organizationId experienceId store s)
    (hother : ¬ (row.organizationId = organizationId ∧ row.experienceId = experienceId)) :
    Held organizationId experienceId store { s with reflections := s.reflections ++ [row] } :=
  ⟨h.observed, h.outcomes, (reflectionsOf_append hother).trans h.reflections,
    h.candidates⟩

theorem Held.candidate {row : Candidate} (h : Held organizationId experienceId store s)
    (hother : ¬ (row.organizationId = organizationId ∧ row.experienceId = experienceId)) :
    Held organizationId experienceId store { s with candidates := s.candidates ++ [row] } :=
  ⟨h.observed, h.outcomes, h.reflections,
    (candidatesOf_append hother).trans h.candidates⟩

theorem Held.mark {org exp : Str} {current next : ExperienceStatus}
    (h : Held organizationId experienceId store s)
    (hother : ¬ (org = organizationId ∧ exp = experienceId)) :
    Held organizationId experienceId store (s.markExperience org exp current next) := by
  refine ⟨fun row hrow horg hid => ?_, h.outcomes, h.reflections, h.candidates⟩
  rcases mem_markExperience hrow with hold | ⟨horg', hid', -⟩
  · exact h.observed row hold horg hid
  · exact absurd ⟨horg'.symm.trans horg, hid'.symm.trans hid⟩ hother

variable {calls : List Call} {moves : List Move} {system : System Store Choice HttpError Unit}

end Held

/-! ## One call after another -/

namespace Store

variable (s : Store) (organizationId experienceId : Str)

/-- The outcomes under the metric of the runtime. -/
def runtimeOutcomesOf : List Outcome :=
  s.outcomes.filter fun outcome => outcome.organizationId = organizationId ∧
    outcome.experienceId = experienceId ∧ outcome.metricCode = METRIC_CODE

/-- The reflections that cite an outcome. -/
def reflectionsOn (outcomeId : Str) : List Reflection :=
  s.reflections.filter fun reflection => reflection.organizationId = organizationId ∧
    reflection.experienceId = experienceId ∧ outcomeId ∈ reflection.evidenceOutcomeIds

end Store

/-- The runtime has learned once at most from an experience. -/
structure Once (s : Store) : Prop where
  outcomes : ∀ organizationId experienceId,
    (s.runtimeOutcomesOf organizationId experienceId).length ≤ 1
  reflections : ∀ organizationId experienceId outcomeId,
    (s.reflectionsOn organizationId experienceId outcomeId).length ≤ 1
  candidates : ∀ organizationId experienceId reflectionId,
    (s.activeCandidatesOf organizationId experienceId reflectionId).length ≤ 1

/-- Steps between which nothing happens. -/
def onceSteps : Steps Store := keeping Once False

section Once

variable {s : Store} {platform : Platform} {organizationId experienceId : Str} {i : Nat}

theorem undisturbed (A : Store → Prop) : onceSteps.Stable i A := by
  rintro _ _ - _ (hnever | hnever)
  · exact hnever.1.elim
  · exact hnever.elim

/-- A row is added to those that meet a condition only if there was none. -/
theorem length_filter_append {α : Type} {rows : List α} {row : α} {p : α → Bool}
    (h : (rows.filter p).length ≤ 1) (hnone : p row = true → rows.filter p = []) :
    ((rows ++ [row]).filter p).length ≤ 1 := by
  cases hrow : p row with
  | true =>
      rw [List.filter_append, hnone hrow, List.nil_append]
      exact List.length_filter_le _ _
  | false => rwa [filter_append_of_other hrow]

theorem Once.outcome {row : Outcome} (h : Once s) (hnone : row.metricCode = METRIC_CODE →
    s.runtimeOutcomesOf row.organizationId row.experienceId = []) :
    Once { s with outcomes := s.outcomes ++ [row] } := by
  refine ⟨fun org exp => length_filter_append (h.outcomes org exp) fun hrow => ?_, h.reflections,
    h.candidates⟩
  obtain ⟨rfl, rfl, hmetric⟩ := of_decide_eq_true hrow
  exact hnone hmetric

theorem Once.reflection {row : Reflection} (h : Once s) (hnone : ∀ id ∈ row.evidenceOutcomeIds,
    s.reflectionsOn row.organizationId row.experienceId id = []) :
    Once { s with reflections := s.reflections ++ [row] } := by
  refine ⟨h.outcomes, fun org exp id => length_filter_append (h.reflections org exp id)
    fun hrow => ?_, h.candidates⟩
  obtain ⟨rfl, rfl, hcites⟩ := of_decide_eq_true hrow
  exact hnone id hcites

theorem Once.candidate {row : Candidate} (h : Once s)
    (hnone : s.activeCandidatesOf row.organizationId row.experienceId row.reflectionId = []) :
    Once { s with candidates := s.candidates ++ [row] } := by
  refine ⟨h.outcomes, h.reflections, fun org exp id =>
    length_filter_append (h.candidates org exp id) fun hrow => ?_⟩
  obtain ⟨rfl, rfl, rfl, -⟩ := of_decide_eq_true hrow
  exact hnone

theorem runtimeOutcomesOf_eq_nil
    (h : platform.runtimeOutcome? s organizationId experienceId = none) :
    s.runtimeOutcomesOf organizationId experienceId = [] := by
  refine List.filter_eq_nil_iff.mpr fun outcome hmem hmatch => ?_
  obtain ⟨horg, hexp, hmetric⟩ := of_decide_eq_true hmatch
  have hlisted : outcome ∈ platform.outcomes.sort (s.outcomesOf organizationId experienceId) :=
    platform.outcomes.mem_sort.mpr (List.mem_filter.mpr ⟨hmem, decide_eq_true ⟨horg, hexp⟩⟩)
  exact List.find?_eq_none.mp h outcome hlisted (decide_eq_true hmetric)

theorem reflectionsOn_eq_nil {outcomeId : Str}
    (h : platform.citing? s organizationId experienceId outcomeId = none) :
    s.reflectionsOn organizationId experienceId outcomeId = [] := by
  refine List.filter_eq_nil_iff.mpr fun reflection hmem hmatch => ?_
  obtain ⟨horg, hexp, hcites⟩ := of_decide_eq_true hmatch
  have hlisted : reflection ∈
      platform.reflections.sort (s.reflectionsOf organizationId experienceId) :=
    platform.reflections.mem_sort.mpr (List.mem_filter.mpr ⟨hmem, decide_eq_true ⟨horg, hexp⟩⟩)
  exact List.find?_eq_none.mp h reflection hlisted (decide_eq_true hcites)

theorem recordRuntimeOutcome_once {input : RecordRuntimeOutcomeInput} (hs : Once s) :
    onceSteps.Safe i (recordRuntimeOutcome platform input) s fun _ _ => True := by
  refine keeping_query_bind hs fun t ht => require_bind ht fun _ => ?_
  refine keeping_query_bind ht fun t ht => ?_
  cases hfound : platform.runtimeOutcome? t input.organizationId input.experienceId with
  | some outcome => exact returns fun _ => trivial
  | none =>
      refine keeping_insert_bind Outcome.id Store.outcomes Store.admitsOutcome
        (fun s rows => { s with outcomes := rows })
        (fun t => t.runtimeOutcomesOf input.organizationId input.experienceId = [])
        (undisturbed _) ht (runtimeOutcomesOf_eq_nil hfound)
        (fun t c ht hnone => ht.outcome fun _ => hnone) fun _ t ht => ?_
      refine keeping_mark_bind ht (fun t ht => ⟨ht.outcomes, ht.reflections, ht.candidates⟩)
        fun t ht => ?_
      exact keeping_query_bind ht fun _ _ => returns fun _ => trivial

theorem reflectOn_once {input : RuntimeReflectionLearningInput} {outcome : Outcome}
    (hs : Once s) :
    onceSteps.Safe i (reflectOn platform input outcome) s fun _ t => Once t := by
  refine keeping_query_bind hs fun t ht => ?_
  cases hfound : platform.citing? t input.organizationId input.experienceId outcome.id with
  | some reflection => exact ends (fun _ => True) stable_true ht trivial fun _ hu _ => hu
  | none =>
      refine keeping_insert_bind Reflection.id Store.reflections Store.admitsReflection
        (fun s rows => { s with reflections := rows })
        (fun t => t.reflectionsOn input.organizationId input.experienceId outcome.id = [])
        (undisturbed _) ht (reflectionsOn_eq_nil hfound)
        (fun t c ht hnone => ht.reflection (List.forall_mem_singleton.mpr hnone)) fun _ t ht => ?_
      refine keeping_mark_bind ht (fun t ht => ⟨ht.outcomes, ht.reflections, ht.candidates⟩)
        fun t ht => ?_
      exact keeping_query_bind ht fun t ht =>
        ends (fun _ => True) stable_true ht trivial fun _ hu _ => hu

/-- Where no candidate is found, there is none. -/
theorem findCandidate_once {reflectionId : Str} (hs : Once s) :
    onceSteps.Safe i (findCandidate platform organizationId experienceId reflectionId) s
      fun found t => Once t ∧ (found = none →
        t.activeCandidatesOf organizationId experienceId reflectionId = []) := by
  refine keeping_query_bind hs fun t ht => ?_
  cases hfirst : (platform.candidates.sort
      (t.activeCandidatesOf organizationId experienceId reflectionId)).head? with
  | none =>
      have hnil := List.head?_eq_none_iff.mp hfirst
      have hperm := platform.candidates.perm
        (t.activeCandidatesOf organizationId experienceId reflectionId)
      rw [hnil] at hperm
      exact ends
        (fun t => t.activeCandidatesOf organizationId experienceId reflectionId = [])
        (undisturbed _) ht hperm.symm.eq_nil fun _ hu hnone => ⟨hu, fun _ => hnone⟩
  | some candidate =>
      have hmem := List.mem_of_mem_head? hfirst
      obtain ⟨hrow, hmatch⟩ := List.mem_filter.mp (platform.candidates.mem_sort.mp hmem)
      have hsome : (t.getCandidate organizationId candidate.id).isSome = true :=
        List.find?_isSome.mpr ⟨candidate, hrow, decide_eq_true ⟨(of_decide_eq_true hmatch).1, rfl⟩⟩
      dsimp only
      rw [← Proc.bind_done (query _)]
      refine query_bind (fun t => (t.getCandidate organizationId candidate.id).isSome = true)
        (undisturbed _) ht hsome fun u hu hsome => ?_
      refine ends (fun _ => True) stable_true hu trivial fun v hv _ => ⟨hv, fun hnone => ?_⟩
      rw [hnone] at hsome
      cases hsome

theorem observe_once {input : RuntimeReflectionLearningInput} {outcome : Outcome}
    {reflection : Reflection} (hs : Once s) :
    onceSteps.Safe i (observe platform input outcome reflection) s fun _ _ => True := by
  refine part_bind (findCandidate_once hs) fun found t ⟨ht, hnone⟩ => ?_
  cases found with
  | some candidate => exact returns fun _ => trivial
  | none =>
      refine keeping_insert_bind Candidate.id Store.candidates Store.admitsCandidate
        (fun s rows => { s with candidates := rows })
        (fun t => t.activeCandidatesOf input.organizationId input.experienceId reflection.id = [])
        (undisturbed _) ht (hnone rfl) (fun t c ht hnone => ht.candidate hnone) fun _ t ht => ?_
      exact keeping_query_bind ht fun _ _ => returns fun _ => trivial

theorem process_once {input : RuntimeReflectionLearningInput} (hs : Once s) :
    onceSteps.Safe i (process platform input) s fun _ _ => True := by
  refine keeping_query_bind hs fun t ht => expect_bind ht fun experience _ => ?_
  split
  · refine keeping_query_bind ht fun t ht => ?_
    cases platform.runtimeOutcome? t input.organizationId input.experienceId with
    | none => exact returns fun _ => trivial
    | some outcome =>
        rw [learnFrom]
        split
        · exact returns fun _ => trivial
        · refine part_bind (reflectOn_once ht) fun _ t ht => ?_
          exact part_bind (observe_once ht) fun _ _ _ => returns fun _ => trivial
  · exact returns fun _ => trivial

variable {calls : List Call} {store : Store} {moves : List Move}
variable {system : System Store Choice HttpError Unit}

/-- One call after another, and wherever each of them stops, the runtime records one outcome of an
experience, reflects once on it, and draws one candidate from that. -/
theorem runtime_learns_once (h : Run platform calls store moves system)
    (hsequential : Sequential moves) (hcalls : ∀ call ∈ calls, call.runtime = true)
    (hs : Once store) : Once system.store := by
  have hdoes : MovesDo onceSteps moves := by
    refine sequential_does h hsequential (fun i p hp s hs => ?_) hs
    rw [programs, List.getElem?_mapIdx, Option.map_eq_some_iff] at hp
    obtain ⟨call, hcall, rfl⟩ := hp
    have hruntime := hcalls call (List.mem_of_getElem? hcall)
    cases call with
    | tryCapture =>
        exact discard (keeping_attempt (keeping_capture hs fun t row _ ht =>
          ⟨ht.outcomes, ht.reflections, ht.candidates⟩))
    | tryRecord => exact discard (keeping_attempt (recordRuntimeOutcome_once hs))
    | tryProcess => exact discard (keeping_attempt (process_once hs))
    | recordExperience | recordOutcome | recordReflection | createCandidate | promote
    | recordFailurePattern | recordSkillCandidate | propose | approveForRegistration
    | reject => cases hruntime
  exact hdoes.induction (P := fun _ s => Once s) h hs fun _ _ hs _ _ hstep => hstep hs

end Once

section Examples

private def staffed : Store where
  organizations := ["org".toList]
  users := []
  digitalEmployees := [⟨"agent".toList, "org".toList⟩]
  experiences := []
  outcomes := []
  reflections := []
  candidates := []
  promotions := []
  failurePatterns := []
  skillCandidates := []
  reviews := []
  changes := []

private theorem staffed_once : Once staffed :=
  ⟨fun _ _ => Nat.zero_le _, fun _ _ _ => Nat.zero_le _, fun _ _ _ => Nat.zero_le _⟩

private def capture : Call :=
  .tryCapture "org".toList ⟨"agent".toList, "release".toList, none, none⟩

private def evaluate : Call :=
  .tryRecord ⟨"org".toList, "0".toList, "run".toList, "step".toList, "BUILD".toList,
    "CODE_BUILD".toList, "SUCCEEDED".toList, none⟩

private def learn : Call := .tryProcess ⟨"org".toList, "0".toList⟩

private def runtimeCalls : List Call := [capture, evaluate, learn, evaluate, learn]

private theorem runtimeCalls_runtime : ∀ call ∈ runtimeCalls, call.runtime = true := by
  decide

private def ranFrom (store : Store) (sessions : List (Nat × Nat)) :
    List Move × System Store Choice HttpError Unit :=
  Machine.execute System.step
    ⟨store, programs (.plain fun _ => "1".toList) runtimeCalls⟩
    (sessions.flatMap fun (session, count) =>
      List.replicate count (session, ⟨false, [Char.ofNat (48 + session)], 7⟩))

private theorem ranFrom_run (store : Store) (sessions : List (Nat × Nat)) :
    Run (.plain fun _ => "1".toList) runtimeCalls store (ranFrom store sessions).1
      (ranFrom store sessions).2 :=
  Machine.run_execute _ _ _

/-- One call after another, the reflection stops before it has drawn a candidate. -/
private def inTurn : List Move × System Store Choice HttpError Unit :=
  ranFrom staffed [(0, 3), (1, 5), (2, 6), (3, 2), (4, 6)]

private theorem inTurn_run : Run (.plain fun _ => "1".toList) runtimeCalls staffed inTurn.1
    inTurn.2 := ranFrom_run _ _

theorem runtime_learns_once_inTurn :
    inTurn.2.store.reflections.length = 1 ∧ inTurn.2.store.candidates.length = 1 ∧
      Once inTurn.2.store := by
  have hcounts : inTurn.2.store.reflections.length = 1 ∧ inTurn.2.store.candidates.length = 1 := by
    decide +kernel
  have hsequential : Sequential inTurn.1 := by decide +kernel
  exact ⟨hcounts.1, hcounts.2,
    runtime_learns_once inTurn_run hsequential runtimeCalls_runtime staffed_once⟩

/-- Two calls that both look first. -/
private def atOnce : List Move × System Store Choice HttpError Unit :=
  ranFrom staffed [(0, 3), (1, 2), (3, 5), (1, 3)]

example : (atOnce.2.store.runtimeOutcomesOf "org".toList "0".toList).length = 2 := by
  decide +kernel

/-- The outcome has been stored, and the experience has not been marked. -/
private def stopped : Store := (ranFrom staffed [(0, 3), (1, 3)]).2.store

/-- All calls are made again. -/
private def resumed : List Move × System Store Choice HttpError Unit :=
  ranFrom stopped [(1, 5), (2, 9), (3, 5), (4, 9)]

end Examples

end Learning
