import VitoPlatform.Learning.GovernedCalls

/-!
# The evidence behind what has been learned

In every state that any calls reach, however they interleave and wherever they stop, each row of
the learning core rests on the rows it refers to. A skill that has been approved for registration
goes back, within one organization, to an experience whose outcomes support it, by a reflection on
them and a candidate that has climbed from an observation to a pattern.
-/

namespace Learning

open Text Concurrent Services Services.Steps Invocation

section Programs

variable {calls : List Call} {i : Nat} {s : Store} {platform : Platform}

theorem recordRuntimeOutcome_safe {input : RecordRuntimeOutcomeInput}
    (hs : (learningSteps calls).inv s) :
    (learningSteps calls).Safe i (recordRuntimeOutcome platform input) s fun _ _ => True := by
  refine exists_bind (fun _ => True) stable_true hs trivial fun t ht _ hexp => ?_
  refine query_bind _ reached_stable ht hexp fun t ht hexp => ?_
  cases platform.runtimeOutcome? t input.organizationId input.experienceId with
  | some outcome => exact returns fun _ => trivial
  | none => exact storeOutcome_safe ht hexp

/-- What the runtime has found of an experience that has been evaluated. -/
def Learnable (input : RuntimeReflectionLearningInput) (outcomeId : Str) (s : Store) : Prop :=
  s.Reached input.organizationId input.experienceId 1 ∧
    s.HasOutcome input.organizationId input.experienceId outcomeId

theorem learnable_stable {input : RuntimeReflectionLearningInput} {outcomeId : Str} :
    (learningSteps calls).Stable i (Learnable input outcomeId) :=
  reached_stable.and hasOutcome_stable

theorem reflectOn_safe {input : RuntimeReflectionLearningInput} {outcome : Outcome}
    (hs : (learningSteps calls).inv s) (hlearnable : Learnable input outcome.id s) :
    (learningSteps calls).Safe i (reflectOn platform input outcome) s fun reflection t =>
      (learningSteps calls).inv t ∧
        t.HasReflection input.organizationId input.experienceId reflection.id := by
  refine query_bind _ learnable_stable hs hlearnable fun t ht hlearnable => ?_
  cases hfound : platform.citing? t input.organizationId input.experienceId outcome.id with
  | some reflection =>
      have hmem := List.mem_of_find?_eq_some hfound
      exact ends _ hasReflection_stable ht (listedReflections_sort reflection hmem)
        fun u hu href => ⟨hu, href⟩
  | none =>
      refine storeReflection_safe ht ⟨hlearnable.1, List.cons_ne_nil _ _, ?_⟩
      exact List.forall_mem_singleton.mpr hlearnable.2

theorem findCandidate_safe {organizationId experienceId reflectionId : Str} (A : Store → Prop)
    (stable : (learningSteps calls).Stable i A) (hs : (learningSteps calls).inv s) (hA : A s) :
    (learningSteps calls).Safe i
      (findCandidate platform organizationId experienceId reflectionId) s
      fun _ t => (learningSteps calls).inv t ∧ A t := by
  refine query_bind A stable hs hA fun t ht hA => ?_
  cases (platform.candidates.sort
      (t.activeCandidatesOf organizationId experienceId reflectionId)).head? with
  | none => exact ends A stable ht hA fun u hu hA => ⟨hu, hA⟩
  | some candidate => exact query_last A stable ht hA

theorem observe_safe {input : RuntimeReflectionLearningInput} {outcome : Outcome}
    {reflection : Reflection} (hs : (learningSteps calls).inv s)
    (href : s.HasReflection input.organizationId input.experienceId reflection.id) :
    (learningSteps calls).Safe i (observe platform input outcome reflection) s
      fun _ _ => True := by
  refine part_bind (findCandidate_safe _ hasReflection_stable hs href) fun found t ⟨ht, href⟩ => ?_
  cases found with
  | some candidate => exact returns fun _ => trivial
  | none =>
      refine insertCandidate_bind ht href fun candidate t ht => ?_
      exact audit_bind (fun _ => True) stable_true ht trivial fun _ _ _ => returns fun _ => trivial

theorem learnFrom_safe {input : RuntimeReflectionLearningInput} {outcome : Option Outcome}
    (hs : (learningSteps calls).inv s)
    (hlearnable : ∀ found ∈ outcome, Learnable input found.id s) :
    (learningSteps calls).Safe i (learnFrom platform input outcome) s fun _ _ => True := by
  cases outcome with
  | none => exact returns fun _ => trivial
  | some outcome =>
      rw [learnFrom]
      split
      · exact returns fun _ => trivial
      · refine part_bind (reflectOn_safe hs (hlearnable outcome rfl)) fun reflection t ⟨ht, href⟩ => ?_
        exact part_bind (observe_safe ht href) fun _ _ _ => returns fun _ => trivial

theorem process_safe {input : RuntimeReflectionLearningInput}
    (hs : (learningSteps calls).inv s) :
    (learningSteps calls).Safe i (process platform input) s fun _ _ => True := by
  refine query_bind (fun _ => True) stable_true hs trivial fun t ht _ => ?_
  refine expect_bind ht fun experience hfound => ?_
  split
  · rename_i hstatus
    have hevaluated : t.Reached input.organizationId input.experienceId 1 := by
      obtain ⟨row, hmem, horg, hid, hindex⟩ := reached_of_getById hfound
      refine ⟨row, hmem, horg, hid, le_trans ?_ hindex⟩
      rcases hstatus with heq | heq
      · rw [heq]
        decide
      · rw [heq]
        decide
    refine query_bind _ reached_stable ht hevaluated fun t ht hevaluated => ?_
    refine learnFrom_safe ht fun outcome houtcome => ⟨hevaluated, ?_⟩
    obtain ⟨hmem, horg, hexp⟩ :=
      (listed_sort ht.1).found outcome (List.mem_of_find?_eq_some houtcome)
    exact ⟨outcome, hmem, horg, hexp, rfl⟩
  · exact returns fun _ => trivial

/-- How a call ends: a promotion that returns is recorded. -/
def EndsRecorded (calls : List Call) (i : Nat) (s : Store) : Prop :=
  (∃ context input, calls[i]? = some (.promote context input)) → Recorded i s

theorem safe_of_other {α : Type} {p : Program Store α}
    (hother : ∀ context input, calls[i]? ≠ some (.promote context input))
    (h : (learningSteps calls).Safe i p s fun _ _ => True) :
    (learningSteps calls).SafeTo i (ignore p) s (fun _ t => EndsRecorded calls i t)
      fun _ _ => True := by
  refine Safe.bind (h.mono (fun _ t _ => returns fun t => ?_) fun _ _ _ => trivial)
  rintro ⟨context, input, hcall⟩
  exact absurd hcall (hother context input)

theorem program_ends {call : Call} (hcall : calls[i]? = some call) (hs : (learningSteps calls).inv s)
    (hnone : Unchanged i s) :
    (learningSteps calls).SafeTo i (call.program platform i) s
      (fun _ t => EndsRecorded calls i t) fun _ _ => True := by
  have hother : (∀ context input, call ≠ .promote context input) →
      ∀ context input, calls[i]? ≠ some (.promote context input) := by
    intro hne context input heq
    exact hne context input (Option.some.inj (hcall.symm.trans heq))
  cases call with
  | promote context input =>
      refine Safe.bind ((promote_safe hcall hs hnone).mono ?_ fun _ _ _ => trivial)
      rintro _ t ⟨ht, hrecorded⟩
      exact SafeTo.returns _ recorded_stable ht hrecorded fun _ _ hrecorded _ => hrecorded
  | recordExperience => exact safe_of_other (hother (fun _ _ h => by cases h)) (recordExperience_safe hs)
  | tryCapture =>
      exact safe_of_other (hother (fun _ _ h => by cases h)) (attempt_safe (captureExperience_safe hs))
  | recordOutcome => exact safe_of_other (hother (fun _ _ h => by cases h)) (recordOutcome_safe hs)
  | tryRecord =>
      exact safe_of_other (hother (fun _ _ h => by cases h))
        (attempt_safe (recordRuntimeOutcome_safe hs))
  | recordReflection =>
      exact safe_of_other (hother (fun _ _ h => by cases h)) (recordReflection_safe hs)
  | tryProcess =>
      exact safe_of_other (hother (fun _ _ h => by cases h)) (attempt_safe (process_safe hs))
  | createCandidate =>
      exact safe_of_other (hother (fun _ _ h => by cases h)) (createCandidate_safe hs)
  | recordFailurePattern =>
      exact safe_of_other (hother (fun _ _ h => by cases h)) (recordFailurePattern_safe hs)
  | recordSkillCandidate =>
      exact safe_of_other (hother (fun _ _ h => by cases h)) (recordSkillCandidate_safe hs)
  | propose => exact safe_of_other (hother (fun _ _ h => by cases h)) (propose_safe hs)
  | approveForRegistration =>
      exact safe_of_other (hother (fun _ _ h => by cases h))
        (review_safe hs (fun h => by cases h))
  | reject =>
      exact safe_of_other (hother (fun _ _ h => by cases h)) (review_safe hs (fun h => by cases h))

end Programs

/-- Before a run, the changes of maturity are older than its calls. -/
def Before (calls : List Call) (store : Store) : Prop :=
  ∀ change ∈ store.changes, calls.length ≤ change.session

section Runs

variable {platform : Platform} {calls : List Call} {store : Store} {moves : List Move}
variable {s : System Store Choice HttpError Unit}

/-- What every run of calls does, and how its calls end. -/
theorem run_learns (h : Run platform calls store moves s) (hsound : Sound store)
    (hbefore : Before calls store) :
    MovesDo (learningSteps calls) moves ∧ (Sound s.store ∧ Numbered calls s.store) ∧
      ∀ i (p : Program Store Unit), s.procs[i]? = some p →
        p.EndsIn (fun _ t => EndsRecorded calls i t) (fun _ _ => True) s.store := by
  have hinv : (learningSteps calls).inv store :=
    ⟨hsound, fun change hchange => .inl (hbefore change hchange)⟩
  have hrely : ∀ i j s t, i ≠ j → (learningSteps calls).does i s t →
      (learningSteps calls).rely j s t := fun i _ _ _ hij hdoes => ⟨i, hij, hdoes⟩
  have hsafe : ∀ i p, (programs platform calls)[i]? = some p →
      (learningSteps calls).SafeTo i p store (fun _ t => EndsRecorded calls i t)
        fun _ _ => True := by
    intro i p hp
    rw [programs, List.getElem?_mapIdx, Option.map_eq_some_iff] at hp
    obtain ⟨call, hcall, rfl⟩ := hp
    refine program_ends hcall hinv fun old hold heq => ?_
    have hlong := hbefore old hold
    have hshort := (List.getElem?_eq_some_iff.mp hcall).1
    omega
  obtain ⟨hdoes, hends⟩ := run_ends h hrely hsafe hinv
  refine ⟨hdoes, ?_, hends⟩
  exact hdoes.induction (P := fun _ s => (learningSteps calls).inv s) h hinv
    fun _ _ hs _ _ hstep => (learningSteps calls).keeps hstep hs

/-- The maturity of a candidate is where its changes have led, each of them asked for by its call,
and the promotions are the changes that have been recorded, all of those whose call has returned
among them. -/
theorem maturity_follows_changes (h : Run platform calls store moves s) (hsound : Sound store)
    (hbefore : Before calls store) :
    (∀ candidate ∈ s.store.candidates,
      climb .observation (s.store.changesOf candidate.id) = some candidate.maturity) ∧
    (∀ change ∈ s.store.changes, change.Governed ∧
      (calls.length ≤ change.session ∨ Asked calls change)) ∧
    (s.store.promotions.map Promotion.step).Perm
      (s.store.recordedChanges.map MaturityChange.step) ∧
    ∀ change ∈ s.store.changes, change.session < calls.length →
      s.procs[change.session]? = some (.done ()) → change.recorded = true := by
  obtain ⟨-, ⟨hs, hnumbered⟩, hends⟩ := run_learns h hsound hbefore
  refine ⟨hs.ladder.climbed, fun change hchange => ⟨hs.ladder.governed change hchange,
    hnumbered change hchange⟩, hs.ladder.promoted, fun change hchange hnew hdone => ?_⟩
  rcases hnumbered change hchange with hold | ⟨input, hcall, -⟩
  · omega
  · exact hends change.session _ hdone ⟨change.context, input, hcall⟩ change hchange rfl

end Runs

section Examples

private def emptyStore : Store where
  organizations := ["org".toList]
  users := ["user".toList]
  digitalEmployees := [⟨"agent".toList, "org".toList⟩]
  experiences := []
  outcomes := []
  reflections := []
  candidates := []
  promotions := []
  failurePatterns := []
  skillCandidates := []
  reviews := []
  changes := []

private theorem emptyStore_sound : Sound emptyStore where
  ladder := {
    keyed := List.nodup_nil
    sessions := List.nodup_nil
    known := fun _ h => (List.not_mem_nil h).elim
    climbed := fun _ h => (List.not_mem_nil h).elim
    governed := fun _ h => (List.not_mem_nil h).elim
    promoted := .nil }
  grounded := {
    experiences := fun _ h => (List.not_mem_nil h).elim
    outcomes := fun _ h => (List.not_mem_nil h).elim
    reflections := fun _ h => (List.not_mem_nil h).elim
    candidates := fun _ h => (List.not_mem_nil h).elim
    failurePatterns := fun _ h => (List.not_mem_nil h).elim
    skillCandidates := fun _ h => (List.not_mem_nil h).elim
    reviews := fun _ h => (List.not_mem_nil h).elim }
  outcomeIds := List.nodup_nil
  onePending := .nil

private theorem emptyStore_before (calls : List Call) : Before calls emptyStore :=
  fun _ h => (List.not_mem_nil h).elim

private def human : TenantContext := ⟨"org".toList, some "user".toList, .jwt⟩

private def passedTests : Call :=
  .recordOutcome human ⟨"0".toList, "tests".toList, none, some (.bool true),
    [("run".toList, .null)], 1, none, none, none⟩

private def raise (m : LearningMaturity) : Call :=
  .promote human ⟨"4".toList, some m, [("run".toList, .null)], "repeated".toList, none, none, none⟩

private def lessons : List Call :=
  [.recordExperience human ⟨"agent".toList, "release".toList, none, none⟩, passedTests, passedTests,
    .recordReflection human ⟨"0".toList, "test first".toList, [], [], [], none,
      ["1".toList, "2".toList], none, none, none⟩,
    .createCandidate human ⟨"0".toList, "3".toList, "tests help".toList, [], some 1⟩,
    raise .hypothesis, raise .pattern,
    .recordSkillCandidate human ⟨"4".toList, "TEST_FIRST".toList, "test".toList, "test".toList,
      [("step".toList, .null)], [], ["1".toList, "2".toList], 1, "ref".toList⟩,
    .propose human "7".toList "test_first".toList,
    .approveForRegistration human "8".toList "sound".toList]

private def plainPlatform : Platform := .plain fun _ => "1".toList

private def runFrom (store : Store) (calls : List Call) (counts : List (Nat × Nat)) :
    List Move × System Store Choice HttpError Unit :=
  Machine.execute System.step ⟨store, programs plainPlatform calls⟩
    (counts.flatMap fun (session, count) =>
      List.replicate count (session, ⟨false, [Char.ofNat (48 + session)], 7⟩))

private theorem runFrom_run (store : Store) (calls : List Call) (counts : List (Nat × Nat)) :
    Run plainPlatform calls store (runFrom store calls counts).1 (runFrom store calls counts).2 :=
  Machine.run_execute _ _ _

/-- One skill goes all the way. -/
private def approved : List Move × System Store Choice HttpError Unit :=
  runFrom emptyStore lessons
    [(0, 3), (1, 4), (2, 4), (3, 6), (4, 5), (5, 4), (6, 4), (7, 4), (8, 4), (9, 2)]

/-- A promotion stops between its change and the record of it. -/
private def interrupted : List Move × System Store Choice HttpError Unit :=
  runFrom emptyStore lessons [(0, 3), (1, 4), (2, 4), (3, 6), (4, 5), (5, 2), (6, 4)]

private theorem interrupted_run :
    Run plainPlatform lessons emptyStore interrupted.1 interrupted.2 := runFrom_run _ _ _

theorem maturity_follows_changes_interrupted :
    interrupted.2.store.changes.length = 2 ∧ interrupted.2.store.promotions.length = 1 ∧
      (interrupted.2.store.promotions.map Promotion.step).Perm
        (interrupted.2.store.recordedChanges.map MaturityChange.step) := by
  have hcounts : interrupted.2.store.changes.length = 2 ∧
      interrupted.2.store.promotions.length = 1 := by decide +kernel
  refine ⟨hcounts.1, hcounts.2, ?_⟩
  exact (maturity_follows_changes interrupted_run emptyStore_sound
    (emptyStore_before lessons)).2.2.1

private def rejection : List Call := [.reject human "8".toList "no".toList]

/-- Another decision is asked for. -/
private def rejected : List Move × System Store Choice HttpError Unit :=
  runFrom approved.2.store rejection [(0, 3)]

end Examples

end Learning
