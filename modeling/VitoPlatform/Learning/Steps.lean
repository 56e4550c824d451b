import VitoPlatform.Learning.Grounding
import VitoPlatform.Persistence.Checks

/-!
# The steps of the learning core

What one step of a call does to the tables, and that each of these keeps the ladder and the
grounds of all rows. A change of maturity is one that the call of its session has asked for.
-/

namespace Learning

open Text Concurrent Services Services.Steps Invocation

/-- The call of the session has asked for the change. -/
def Asked (calls : List Call) (change : MaturityChange) : Prop :=
  ∃ input, calls[change.session]? = some (.promote change.context input) ∧
    input.candidateId = change.candidateId ∧ input.toMaturity = some change.toMaturity ∧
      input.approvalRef = change.approvalRef

/-- What one step of call `i` does. -/
inductive Does (calls : List Call) (i : Nat) (s t : Store) : Prop
  | nothing : t = s → Does calls i s t
  | experience (row : Experience) : row.status = .observed →
      t = { s with experiences := s.experiences ++ [row] } → Does calls i s t
  | outcome (row : Outcome) : Tables.find Outcome.id s.outcomes row.id = none → row.Grounded s →
      t = { s with outcomes := s.outcomes ++ [row] } → Does calls i s t
  | evaluated (organizationId experienceId id : Str) :
      s.HasOutcome organizationId experienceId id →
        t = s.markExperience organizationId experienceId .observed .evaluated → Does calls i s t
  | reflection (row : Reflection) : row.Grounded s →
      t = { s with reflections := s.reflections ++ [row] } → Does calls i s t
  | reflected (organizationId experienceId id : Str) :
      s.HasReflection organizationId experienceId id →
        t = s.markExperience organizationId experienceId .evaluated .reflected → Does calls i s t
  | candidate (row : Candidate) : Tables.find Candidate.id s.candidates row.id = none →
      row.Grounded s → row.maturity = .observation →
        t = { s with candidates := s.candidates ++ [row] } → Does calls i s t
  | raised (change : MaturityChange) : change.session = i → Asked calls change →
      (∀ old ∈ s.changes, old.session ≠ i) →
        change.fromMaturity.adjacent change.toMaturity = true → change.Governed →
          change.recorded = false → (s.setMaturity change).1 = true →
            t = (s.setMaturity change).2 → Does calls i s t
  | recorded (promotion : Promotion) (change : MaturityChange) : change ∈ s.changes →
      change.session = i → change.recorded = false → promotion.step = change.step →
        t = { s with
          promotions := s.promotions ++ [promotion]
          changes := Tables.write MaturityChange.session s.changes i MaturityChange.record } →
            Does calls i s t
  | failurePattern (row : FailurePattern) : row.Grounded s →
      t = { s with failurePatterns := s.failurePatterns ++ [row] } → Does calls i s t
  | skillCandidate (row : SkillCandidate) : row.Grounded s →
      t = { s with skillCandidates := s.skillCandidates ++ [row] } → Does calls i s t
  | proposed (row : SkillPromotionReview) : row.Grounded s →
      s.pendingReview row.organizationId row.skillCandidateId = false →
        t = { s with reviews := s.reviews ++ [row] } → Does calls i s t
  | decided (organizationId id : Str) (status : SkillPromotionReviewStatus)
      (userId rationale : Str) (now : Int) : status ≠ .pendingReview → userId ≠ [] →
        rationale ≠ [] → utf16Length rationale ≤ 2000 →
          t = (s.decideReview organizationId id status userId rationale now).2 → Does calls i s t

/-- No two reviews of one skill candidate are pending. -/
def Store.OnePending (s : Store) : Prop :=
  s.reviews.Pairwise fun a b => a.status = .pendingReview → b.status = .pendingReview →
    a.organizationId = b.organizationId → a.skillCandidateId ≠ b.skillCandidateId

/-- What holds whatever the calls do. -/
structure Sound (s : Store) : Prop where
  ladder : Ladder s
  grounded : AllGrounded s
  outcomeIds : (s.outcomes.map Outcome.id).Nodup
  onePending : s.OnePending

/-- The changes of the calls are the ones they have asked for. The others are older. -/
def Numbered (calls : List Call) (s : Store) : Prop :=
  ∀ change ∈ s.changes, calls.length ≤ change.session ∨ Asked calls change

section Steps

variable {calls : List Call} {i j : Nat} {s t : Store}

/-- A decision keeps which review it is and what it is about. -/
theorem mem_decideReview {organizationId id userId rationale : Str}
    {status : SkillPromotionReviewStatus} {now : Int} {row : SkillPromotionReview}
    (h : row ∈ (s.decideReview organizationId id status userId rationale now).2.reviews) :
    ∃ old ∈ s.reviews, row = old ∨ old.status = .pendingReview ∧
      row = old.decided status userId rationale now := by
  obtain ⟨old, hold, rfl⟩ := List.mem_map.mp h
  refine ⟨old, hold, ?_⟩
  split
  · rename_i hfound
    rw [Store.findsPending, decide_eq_true_eq] at hfound
    exact .inr ⟨hfound.2.2, rfl⟩
  · exact .inl rfl

theorem Does.grows (h : Does calls i s t) : Grows s t := by
  have hcons : ∀ {α : Type} (rows : List α) (row : α), rows ⊆ rows ++ [row] :=
    fun rows row => List.subset_append_left rows [row]
  have hrefl := Grows.refl s
  cases h with
  | nothing ht => rw [ht]; exact hrefl
  | experience row _ ht =>
      subst ht
      refine { hrefl with reached := fun hreached => ?_ }
      exact hreached.imp fun _ hrow => ⟨hcons _ _ hrow.1, hrow.2⟩
  | outcome row _ _ ht => subst ht; exact { hrefl with outcomes := hcons _ _ }
  | evaluated _ _ _ _ ht => subst ht; exact Grows.mark (by decide)
  | reflection row _ ht => subst ht; exact { hrefl with reflections := hcons _ _ }
  | reflected _ _ _ _ ht => subst ht; exact Grows.mark (by decide)
  | candidate row _ _ _ ht =>
      subst ht
      refine { hrefl with candidates := fun hcandidate => ?_ }
      exact hcandidate.imp fun _ hrow => ⟨hcons _ _ hrow.1, hrow.2⟩
  | raised change _ _ _ _ _ _ hfound ht =>
      subst ht
      rw [(setMaturity_found hfound).2]
      refine { hrefl with candidates := ?_, patterns := ?_ }
      · rintro org exp id ⟨old, hold, horg, hexp, hid⟩
        refine ⟨_, List.mem_map.mpr ⟨old, hold, rfl⟩, ?_⟩
        split
        · exact ⟨horg, hexp, hid⟩
        · exact ⟨horg, hexp, hid⟩
      · intro id hpattern
        exact hpattern.imp fun _ hrow => ⟨hcons _ _ hrow.1, hrow.2⟩
  | recorded promotion change _ _ _ _ ht =>
      subst ht
      refine { hrefl with patterns := ?_ }
      rintro id ⟨old, hold, hid, hto⟩
      refine ⟨_, Tables.mem_write.mpr ⟨old, hold, rfl⟩, ?_⟩
      split
      · exact ⟨hid, hto⟩
      · exact ⟨hid, hto⟩
  | failurePattern _ _ ht => subst ht; exact { hrefl with }
  | skillCandidate _ _ ht => subst ht; exact { hrefl with skills := hcons _ _ }
  | proposed _ _ _ ht => subst ht; exact { hrefl with }
  | decided _ _ _ _ _ _ _ _ _ _ ht => subst ht; exact { hrefl with }

/-- A decided review has its reasons. -/
theorem SkillPromotionReview.Grounded.decide {row : SkillPromotionReview}
    {status : SkillPromotionReviewStatus} {userId rationale : Str} {now : Int}
    (h : row.Grounded s) (huser : userId ≠ []) (hrationale : rationale ≠ [])
    (hlength : utf16Length rationale ≤ 2000) :
    (row.decided status userId rationale now).Grounded s :=
  ⟨h.skill, h.code, h.requested,
    fun _ => ⟨userId, rationale, rfl, huser, rfl, hrationale, hlength⟩⟩

theorem Does.allGrounded (h : Does calls i s t) (hs : AllGrounded s) : AllGrounded t := by
  have hgrows := h.grows
  cases h with
  | nothing ht => rw [ht]; exact hs
  | experience row hobserved ht =>
      subst ht
      refine hs.grow hgrows (forall_mem_snoc ⟨?_, ?_⟩) (fun _ => .inl) (fun _ => .inl) (fun _ => .inl)
        (fun _ => .inl) (fun _ => .inl) (fun _ => .inl)
      · rw [hobserved]
        intro hstatus
        cases hstatus
      · rw [hobserved]
        intro hstatus
        cases hstatus
  | outcome row _ hrow ht =>
      subst ht
      exact hs.grow hgrows (fun _ => .inl) (forall_mem_snoc (hgrows.reached hrow)) (fun _ => .inl)
        (fun _ => .inl) (fun _ => .inl) (fun _ => .inl) (fun _ => .inl)
  | evaluated organizationId experienceId id houtcome ht =>
      subst ht
      refine hs.grow hgrows (fun row hrow => ?_) (fun _ => .inl) (fun _ => .inl) (fun _ => .inl)
        (fun _ => .inl) (fun _ => .inl) (fun _ => .inl)
      refine (mem_markExperience hrow).imp_right ?_
      rintro ⟨rfl, rfl, hstatus, -⟩
      obtain ⟨outcome, hmem, horg, hexp, -⟩ := houtcome
      refine ⟨fun _ => ⟨outcome, hmem, horg, hexp⟩, fun htwo => ?_⟩
      rw [hstatus] at htwo
      exact absurd htwo (by decide)
  | reflection row hrow ht =>
      subst ht
      exact hs.grow hgrows (fun _ => .inl) (fun _ => .inl) (forall_mem_snoc (hrow.mono hgrows))
        (fun _ => .inl) (fun _ => .inl) (fun _ => .inl) (fun _ => .inl)
  | reflected organizationId experienceId id hreflection ht =>
      subst ht
      refine hs.grow hgrows (fun row hrow => ?_) (fun _ => .inl) (fun _ => .inl) (fun _ => .inl)
        (fun _ => .inl) (fun _ => .inl) (fun _ => .inl)
      refine (mem_markExperience hrow).imp_right ?_
      rintro ⟨rfl, rfl, hstatus, old, hold, horg, hid, hbefore⟩
      obtain ⟨reflection, hmem, hreflects⟩ := hreflection
      refine ⟨fun _ => ?_, fun _ => ⟨reflection, hmem, hreflects.1, hreflects.2.1⟩⟩
      have houtcome := (hs.experiences old hold).1 (by rw [hbefore]; decide)
      rwa [horg, hid] at houtcome
  | candidate row _ hrow _ ht =>
      subst ht
      exact hs.grow hgrows (fun _ => .inl) (fun _ => .inl) (fun _ => .inl)
        (forall_mem_snoc (hgrows.hasReflection hrow)) (fun _ => .inl) (fun _ => .inl) (fun _ => .inl)
  | raised change _ _ _ _ _ _ hfound ht =>
      subst ht
      rw [(setMaturity_found hfound).2] at hgrows ⊢
      refine hs.grow hgrows (fun _ => .inl) (fun _ => .inl) (fun _ => .inl) (fun row hrow => ?_)
        (fun _ => .inl) (fun _ => .inl) (fun _ => .inl)
      obtain ⟨old, hold, rfl⟩ := List.mem_map.mp hrow
      refine .inr (hgrows.hasReflection ?_)
      split
      · exact hs.candidates old hold
      · exact hs.candidates old hold
  | recorded promotion change _ _ _ _ ht =>
      subst ht
      exact hs.grow hgrows (fun _ => .inl) (fun _ => .inl) (fun _ => .inl) (fun _ => .inl)
        (fun _ => .inl) (fun _ => .inl) (fun _ => .inl)
  | failurePattern row hrow ht =>
      subst ht
      exact hs.grow hgrows (fun _ => .inl) (fun _ => .inl) (fun _ => .inl) (fun _ => .inl)
        (forall_mem_snoc (hrow.mono hgrows)) (fun _ => .inl) (fun _ => .inl)
  | skillCandidate row hrow ht =>
      subst ht
      exact hs.grow hgrows (fun _ => .inl) (fun _ => .inl) (fun _ => .inl) (fun _ => .inl)
        (fun _ => .inl) (forall_mem_snoc (hrow.mono hgrows)) (fun _ => .inl)
  | proposed row hrow _ ht =>
      subst ht
      exact hs.grow hgrows (fun _ => .inl) (fun _ => .inl) (fun _ => .inl) (fun _ => .inl)
        (fun _ => .inl) (fun _ => .inl) (forall_mem_snoc (hrow.mono hgrows))
  | decided organizationId id status userId rationale now _ huser hrationale hlength ht =>
      subst ht
      refine hs.grow hgrows (fun _ => .inl) (fun _ => .inl) (fun _ => .inl) (fun _ => .inl)
        (fun _ => .inl) (fun _ => .inl) (fun row hrow => ?_)
      obtain ⟨old, hold, rfl | ⟨-, rfl⟩⟩ := mem_decideReview hrow
      · exact .inl hold
      · exact .inr (((hs.reviews old hold).decide huser hrationale hlength).mono hgrows)

theorem Does.ladder (h : Does calls i s t) (hs : Ladder s) : Ladder t := by
  cases h with
  | nothing ht => rw [ht]; exact hs
  | candidate row hnew _ hbottom ht => subst ht; exact hs.insert hnew hbottom
  | raised change hsession _ hfresh hadjacent hgoverned hnew hfound ht =>
      subst ht hsession
      exact hs.change hfound hfresh hadjacent hgoverned hnew
  | recorded promotion change hmem hsession hnew hstep ht =>
      subst ht hsession
      exact hs.record hmem hnew hstep
  | experience _ _ ht | outcome _ _ _ ht | evaluated _ _ _ _ ht | reflection _ _ ht
  | reflected _ _ _ _ ht | failurePattern _ _ ht | skillCandidate _ _ ht | proposed _ _ _ ht
  | decided _ _ _ _ _ _ _ _ _ _ ht => subst ht; exact hs.congr rfl rfl rfl

/-- What a step does to the changes. -/
theorem Does.changes_cases (h : Does calls i s t) : t.changes = s.changes ∨
    (∃ change, change.session = i ∧ Asked calls change ∧ t.changes = s.changes ++ [change]) ∨
      t.changes = Tables.write MaturityChange.session s.changes i MaturityChange.record := by
  cases h with
  | raised change hsession hasked _ _ _ _ hfound ht =>
      subst ht
      rw [(setMaturity_found hfound).2]
      exact .inr (.inl ⟨change, hsession, hasked, rfl⟩)
  | recorded _ _ _ _ _ _ ht => subst ht; exact .inr (.inr rfl)
  | nothing ht | candidate _ _ _ _ ht | experience _ _ ht | outcome _ _ _ ht | evaluated _ _ _ _ ht
  | reflection _ _ ht | reflected _ _ _ _ ht | failurePattern _ _ ht | skillCandidate _ _ ht
  | proposed _ _ _ ht | decided _ _ _ _ _ _ _ _ _ _ ht => subst ht; exact .inl rfl

theorem Does.numbered (h : Does calls i s t) (hs : Numbered calls s) : Numbered calls t := by
  rcases h.changes_cases with ht | ⟨change, -, hasked, ht⟩ | ht
  · unfold Numbered
    rw [ht]
    exact hs
  · unfold Numbered
    rw [ht]
    exact List.forall_mem_append.mpr ⟨hs, List.forall_mem_singleton.mpr (.inr hasked)⟩
  · intro change hchange
    rw [ht] at hchange
    obtain ⟨old, hold, rfl⟩ := Tables.mem_write.mp hchange
    split
    · exact hs old hold
    · exact hs old hold

theorem Does.onePending (h : Does calls i s t) (hs : s.OnePending) : t.OnePending := by
  cases h with
  | proposed row _ hnone ht =>
      subst ht
      refine List.pairwise_append.mpr ⟨hs, List.pairwise_singleton _ _, fun a ha b hb => ?_⟩
      intro hpending _ horg hskill
      rw [List.mem_singleton.mp hb] at horg hskill
      refine absurd hnone (Bool.not_eq_false _ ▸ List.any_eq_true.mpr ⟨a, ha, ?_⟩)
      exact decide_eq_true ⟨horg, hskill, hpending⟩
  | decided _ _ status _ _ _ hfinal _ _ _ ht =>
      subst ht
      refine List.pairwise_map.mpr (hs.imp fun {a b} hab => ?_)
      split
      · intro hpending
        exact absurd hpending hfinal
      · split
        · intro _ hpending
          exact absurd hpending hfinal
        · exact hab
  | nothing ht | candidate _ _ _ _ ht | experience _ _ ht | outcome _ _ _ ht | evaluated _ _ _ _ ht
  | reflection _ _ ht | reflected _ _ _ _ ht | failurePattern _ _ ht | skillCandidate _ _ ht
  | recorded _ _ _ _ _ _ ht => subst ht; exact hs
  | raised _ _ _ _ _ _ _ hfound ht =>
      subst ht
      rw [(setMaturity_found hfound).2]
      exact hs

theorem Does.sound (h : Does calls i s t) (hs : Sound s) : Sound t := by
  refine ⟨h.ladder hs.ladder, h.allGrounded hs.grounded, ?_, h.onePending hs.onePending⟩
  cases h with
  | outcome row hnew _ ht => subst ht; exact Tables.nodup_append hs.outcomeIds hnew
  | raised _ _ _ _ _ _ _ hfound ht =>
      subst ht
      rw [(setMaturity_found hfound).2]
      exact hs.outcomeIds
  | nothing ht | candidate _ _ _ _ ht | experience _ _ ht | evaluated _ _ _ _ ht
  | reflection _ _ ht | reflected _ _ _ _ ht | failurePattern _ _ ht | skillCandidate _ _ ht
  | recorded _ _ _ _ _ _ ht | proposed _ _ _ ht | decided _ _ _ _ _ _ _ _ _ _ ht =>
      subst ht; exact hs.outcomeIds

/-- A review that has been decided stays as it is. -/
theorem Does.final (h : Does calls i s t) {row : SkillPromotionReview} (hrow : row ∈ s.reviews)
    (hfinal : row.status ≠ .pendingReview) : row ∈ t.reviews := by
  cases h with
  | proposed _ _ _ ht => subst ht; exact List.mem_append_left _ hrow
  | decided organizationId id _ _ _ _ _ _ _ _ ht =>
      subst ht
      refine List.mem_map.mpr ⟨row, hrow, if_neg fun hfound => hfinal ?_⟩
      rw [Store.findsPending, decide_eq_true_eq] at hfound
      exact hfound.2.2
  | raised _ _ _ _ _ _ _ hfound ht =>
      subst ht
      rw [(setMaturity_found hfound).2]
      exact hrow
  | nothing ht | candidate _ _ _ _ ht | experience _ _ ht | outcome _ _ _ ht | evaluated _ _ _ _ ht
  | reflection _ _ ht | reflected _ _ _ _ ht | failurePattern _ _ ht | skillCandidate _ _ ht
  | recorded _ _ _ _ _ _ ht => subst ht; exact hrow

end Steps

/-- The steps of all calls. -/
def learningSteps (calls : List Call) : Steps Store where
  inv s := Sound s ∧ Numbered calls s
  does := Does calls
  rely i s t := ∃ j, j ≠ i ∧ Does calls j s t
  records _ _ _ := False
  refl _ _ := .nothing rfl
  keeps hdoes hs := ⟨hdoes.sound hs.1, hdoes.numbered hs.2⟩
  between hbetween hs := by
    rcases hbetween with ⟨_, _, hdoes⟩ | hnever
    · exact ⟨hdoes.sound hs.1, hdoes.numbered hs.2⟩
    · exact hnever.elim

end Learning
