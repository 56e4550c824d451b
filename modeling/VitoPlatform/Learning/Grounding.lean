import VitoPlatform.Learning.Ladder

/-!
# What the rows rest on

Every row of the learning core rests on rows that have been there before: an outcome on its
experience, a reflection on the outcomes it cites, a candidate on its reflection, a failure pattern
on a negative outcome, a skill candidate on two outcomes and on a candidate that has climbed to
`PATTERN`, and a promotion review on its skill candidate, all in one organization. These facts only
grow, and so a row that is grounded once stays so.
-/

namespace Learning

open Text Services Invocation

def ExperienceStatus.index : ExperienceStatus → Nat
  | .observed => 0
  | .evaluated => 1
  | .reflected => 2
  | .learningCandidate => 3
  | .archived => 4

namespace Store

variable (s : Store) (organizationId experienceId id : Str)

/-- The experience exists, and its status has come so far. -/
def Reached (n : Nat) : Prop :=
  ∃ experience ∈ s.experiences, experience.organizationId = organizationId ∧
    experience.id = id ∧ n ≤ experience.status.index

def HasOutcome : Prop :=
  ∃ outcome ∈ s.outcomes, outcome.organizationId = organizationId ∧
    outcome.experienceId = experienceId ∧ outcome.id = id

def HasReflection : Prop :=
  ∃ reflection ∈ s.reflections, reflection.organizationId = organizationId ∧
    reflection.experienceId = experienceId ∧ reflection.id = id

def HasCandidate : Prop :=
  ∃ candidate ∈ s.candidates, candidate.organizationId = organizationId ∧
    candidate.experienceId = experienceId ∧ candidate.id = id

/-- The candidate has been raised to `PATTERN` once. -/
def HasPattern : Prop :=
  ∃ change ∈ s.changes, change.candidateId = id ∧ change.toMaturity = .pattern

def HasSkill : Prop :=
  ∃ skill ∈ s.skillCandidates, skill.organizationId = organizationId ∧ skill.id = id

end Store

/-- What never becomes less. -/
structure Grows (s t : Store) : Prop where
  reached : ∀ {organizationId id n}, s.Reached organizationId id n → t.Reached organizationId id n
  outcomes : s.outcomes ⊆ t.outcomes
  reflections : s.reflections ⊆ t.reflections
  candidates : ∀ {organizationId experienceId id},
    s.HasCandidate organizationId experienceId id → t.HasCandidate organizationId experienceId id
  patterns : ∀ {id}, s.HasPattern id → t.HasPattern id
  skills : s.skillCandidates ⊆ t.skillCandidates

section Grows

variable {s t : Store} {organizationId experienceId id : Str}

theorem Grows.hasOutcome (h : Grows s t) (hs : s.HasOutcome organizationId experienceId id) :
    t.HasOutcome organizationId experienceId id :=
  hs.imp fun _ hrow => ⟨h.outcomes hrow.1, hrow.2⟩

theorem Grows.hasReflection (h : Grows s t)
    (hs : s.HasReflection organizationId experienceId id) :
    t.HasReflection organizationId experienceId id :=
  hs.imp fun _ hrow => ⟨h.reflections hrow.1, hrow.2⟩

theorem Grows.hasSkill (h : Grows s t) (hs : s.HasSkill organizationId id) :
    t.HasSkill organizationId id :=
  hs.imp fun _ hrow => ⟨h.skills hrow.1, hrow.2⟩

theorem Grows.refl (s : Store) : Grows s s :=
  ⟨id, List.Subset.refl _, List.Subset.refl _, id, id, List.Subset.refl _⟩

end Grows

/-! ## Grounded rows -/

section Rows

variable (s : Store)

/-- An experience has a status only with the evidence for it. -/
def Experience.Grounded (experience : Experience) : Prop :=
  (1 ≤ experience.status.index → ∃ outcome ∈ s.outcomes,
    outcome.organizationId = experience.organizationId ∧ outcome.experienceId = experience.id) ∧
  (2 ≤ experience.status.index → ∃ reflection ∈ s.reflections,
    reflection.organizationId = experience.organizationId ∧
      reflection.experienceId = experience.id)

def Outcome.Grounded (outcome : Outcome) : Prop :=
  s.Reached outcome.organizationId outcome.experienceId 0

structure Reflection.Grounded (reflection : Reflection) : Prop where
  evaluated : s.Reached reflection.organizationId reflection.experienceId 1
  cites : reflection.evidenceOutcomeIds ≠ []
  outcomes : ∀ id ∈ reflection.evidenceOutcomeIds,
    s.HasOutcome reflection.organizationId reflection.experienceId id

def Candidate.Grounded (candidate : Candidate) : Prop :=
  s.HasReflection candidate.organizationId candidate.experienceId candidate.reflectionId

structure FailurePattern.Grounded (pattern : FailurePattern) : Prop where
  reflected : s.Reached pattern.organizationId pattern.experienceId 2
  reflection : s.HasReflection pattern.organizationId pattern.experienceId pattern.reflectionId
  outcomes : ∀ id ∈ pattern.outcomeIds, s.HasOutcome pattern.organizationId pattern.experienceId id
  negative : ∃ outcome ∈ s.outcomes, outcome.organizationId = pattern.organizationId ∧
    outcome.experienceId = pattern.experienceId ∧ outcome.id ∈ pattern.outcomeIds ∧
      outcome.score < 0

/-- What a skill candidate has by itself. -/
structure SkillCandidate.Checked (skill : SkillCandidate) : Prop where
  confident : MIN_SKILL_CANDIDATE_CONFIDENCE ≤ skill.confidence ∧ skill.confidence ≤ 1
  approved : skill.approvedByUserId ≠ [] ∧ skill.approvalRef ≠ []
  distinct : skill.supportingOutcomeIds.Nodup
  two : 2 ≤ skill.supportingOutcomeIds.length

def SkillCandidate.Grounded (skill : SkillCandidate) : Prop :=
  skill.Checked ∧ s.HasPattern skill.learningCandidateId ∧
    ∃ experienceId, s.HasCandidate skill.organizationId experienceId skill.learningCandidateId ∧
      ∀ id ∈ skill.supportingOutcomeIds, s.HasOutcome skill.organizationId experienceId id

/-- A user has given reasons for the decision. -/
def SkillPromotionReview.Decided (review : SkillPromotionReview) : Prop :=
  ∃ userId rationale, review.reviewedByUserId = some userId ∧ userId ≠ [] ∧
    review.reviewRationale = some rationale ∧ rationale ≠ [] ∧ utf16Length rationale ≤ 2000

structure SkillPromotionReview.Grounded (review : SkillPromotionReview) : Prop where
  skill : s.HasSkill review.organizationId review.skillCandidateId
  code : isCapabilityCode review.targetCapabilityCode = true
  requested : review.requestedByUserId ≠ []
  decided : review.status ≠ .pendingReview → review.Decided

end Rows

section Rows

variable {s t : Store} (h : Grows s t)

include h

theorem Experience.Grounded.mono {row : Experience} (hs : row.Grounded s) : row.Grounded t := by
  refine ⟨fun hstatus => ?_, fun hstatus => ?_⟩
  · exact (hs.1 hstatus).imp fun _ hrow => ⟨h.outcomes hrow.1, hrow.2⟩
  · exact (hs.2 hstatus).imp fun _ hrow => ⟨h.reflections hrow.1, hrow.2⟩

theorem Reflection.Grounded.mono {row : Reflection} (hs : row.Grounded s) : row.Grounded t :=
  ⟨h.reached hs.evaluated, hs.cites, fun id hid => h.hasOutcome (hs.outcomes id hid)⟩

theorem FailurePattern.Grounded.mono {row : FailurePattern} (hs : row.Grounded s) :
    row.Grounded t :=
  ⟨h.reached hs.reflected, h.hasReflection hs.reflection,
    fun id hid => h.hasOutcome (hs.outcomes id hid),
    hs.negative.imp fun _ hrow => ⟨h.outcomes hrow.1, hrow.2⟩⟩

theorem SkillCandidate.Grounded.mono {row : SkillCandidate} (hs : row.Grounded s) :
    row.Grounded t := by
  obtain ⟨hchecked, hpattern, experienceId, hcandidate, houtcomes⟩ := hs
  exact ⟨hchecked, h.patterns hpattern, experienceId, h.candidates hcandidate,
    fun id hid => h.hasOutcome (houtcomes id hid)⟩

theorem SkillPromotionReview.Grounded.mono {row : SkillPromotionReview} (hs : row.Grounded s) :
    row.Grounded t :=
  ⟨h.hasSkill hs.skill, hs.code, hs.requested, hs.decided⟩

end Rows

/-! ## Grounded stores -/

structure AllGrounded (s : Store) : Prop where
  experiences : ∀ row ∈ s.experiences, row.Grounded s
  outcomes : ∀ row ∈ s.outcomes, row.Grounded s
  reflections : ∀ row ∈ s.reflections, row.Grounded s
  candidates : ∀ row ∈ s.candidates, row.Grounded s
  failurePatterns : ∀ row ∈ s.failurePatterns, row.Grounded s
  skillCandidates : ∀ row ∈ s.skillCandidates, row.Grounded s
  reviews : ∀ row ∈ s.reviews, row.Grounded s

section Stores

variable {s t : Store}

/-- A store that grows stays grounded if each row is an old one or is grounded. -/
theorem AllGrounded.grow (hs : AllGrounded s) (h : Grows s t)
    (experiences : ∀ row ∈ t.experiences, row ∈ s.experiences ∨ row.Grounded t)
    (outcomes : ∀ row ∈ t.outcomes, row ∈ s.outcomes ∨ row.Grounded t)
    (reflections : ∀ row ∈ t.reflections, row ∈ s.reflections ∨ row.Grounded t)
    (candidates : ∀ row ∈ t.candidates, row ∈ s.candidates ∨ row.Grounded t)
    (failurePatterns : ∀ row ∈ t.failurePatterns, row ∈ s.failurePatterns ∨ row.Grounded t)
    (skillCandidates : ∀ row ∈ t.skillCandidates, row ∈ s.skillCandidates ∨ row.Grounded t)
    (reviews : ∀ row ∈ t.reviews, row ∈ s.reviews ∨ row.Grounded t) : AllGrounded t where
  experiences row hrow := (experiences row hrow).elim (fun hold => (hs.experiences row hold).mono h) id
  outcomes row hrow := (outcomes row hrow).elim (fun hold => h.reached (hs.outcomes row hold)) id
  reflections row hrow := (reflections row hrow).elim (fun hold => (hs.reflections row hold).mono h) id
  candidates row hrow :=
    (candidates row hrow).elim (fun hold => h.hasReflection (hs.candidates row hold)) id
  failurePatterns row hrow :=
    (failurePatterns row hrow).elim (fun hold => (hs.failurePatterns row hold).mono h) id
  skillCandidates row hrow :=
    (skillCandidates row hrow).elim (fun hold => (hs.skillCandidates row hold).mono h) id
  reviews row hrow := (reviews row hrow).elim (fun hold => (hs.reviews row hold).mono h) id

/-- The rows of a table that has got one more. -/
theorem forall_mem_snoc {α : Type} {rows : List α} {new : α} {P : α → Prop} (h : P new) :
    ∀ row ∈ rows ++ [new], row ∈ rows ∨ P row := fun row hrow => by
  rcases List.mem_append.mp hrow with hold | hnew
  · exact .inl hold
  · rw [List.mem_singleton.mp hnew]
    exact .inr h

/-- A mark moves an experience on, and nothing else. -/
theorem mem_markExperience {organizationId experienceId : Str} {current next : ExperienceStatus}
    {row : Experience}
    (h : row ∈ (s.markExperience organizationId experienceId current next).experiences) :
    row ∈ s.experiences ∨ row.organizationId = organizationId ∧ row.id = experienceId ∧
      row.status = next ∧ ∃ old ∈ s.experiences, old.organizationId = organizationId ∧
        old.id = experienceId ∧ old.status = current := by
  obtain ⟨old, hold, rfl⟩ := List.mem_map.mp h
  split
  · rename_i hfound
    exact .inr ⟨hfound.1, hfound.2.1, rfl, old, hold, hfound⟩
  · exact .inl hold

theorem Grows.mark {organizationId experienceId : Str} {current next : ExperienceStatus}
    (hnext : current.index ≤ next.index) :
    Grows s (s.markExperience organizationId experienceId current next) where
  reached := by
    rintro org id n ⟨old, hold, horg, hid, hn⟩
    refine ⟨_, List.mem_map.mpr ⟨old, hold, rfl⟩, ?_⟩
    split
    · rename_i hfound
      rw [hfound.2.2] at hn
      exact ⟨horg, hid, hn.trans hnext⟩
    · exact ⟨horg, hid, hn⟩
  outcomes := List.Subset.refl _
  reflections := List.Subset.refl _
  candidates := id
  patterns := id
  skills := List.Subset.refl _

end Stores

end Learning
