import Mathlib.Data.List.Perm.Subperm
import VitoPlatform.Learning.Calls

/-!
# Candidates, promotions, patterns and skills, step by step

The calls that build on reflections. A promotion writes twice: it changes the maturity where it
finds the candidate as it has read it, and then records the promotion. A call that returns has done
both (`promote_safe`); one that stops in between has not recorded its change.
-/

namespace Learning

open Text Concurrent Services Services.Steps Invocation

variable {calls : List Call} {i : Nat} {s : Store} {α : Type} {post : α → Store → Prop}
variable {platform : Platform} {organizationId experienceId : Str}

/-! ## Learning candidates -/

theorem ended_validateCandidate (input : CreateLearningCandidateInput) :
    Ended (validateCandidate input) :=
  (ended_require _ _).bind fun _ => (ended_require _ _).bind fun _ =>
    (ended_require _ _).bind fun _ => ended_require _ _

/-- Reflections on the experience. -/
def ListedReflections (organizationId experienceId : Str) (rows : List Reflection) (s : Store) :
    Prop :=
  ∀ reflection ∈ rows, s.HasReflection organizationId experienceId reflection.id

theorem listedReflections_stable {rows : List Reflection} :
    (learningSteps calls).Stable i (ListedReflections organizationId experienceId rows) :=
  stable_of_grows fun h hrows reflection hmem => h.hasReflection (hrows reflection hmem)

theorem listedReflections_sort : ListedReflections organizationId experienceId
    (platform.reflections.sort (s.reflectionsOf organizationId experienceId)) s := by
  intro reflection hreflection
  obtain ⟨hmem, hmatch⟩ := List.mem_filter.mp (platform.reflections.mem_sort.mp hreflection)
  obtain ⟨horg, hexp⟩ := of_decide_eq_true hmatch
  exact ⟨reflection, hmem, horg, hexp, rfl⟩

/-- The reflections on an experience. -/
theorem listReflections_bind {k : List Reflection → Program Store α} (A : Store → Prop)
    (stable : (learningSteps calls).Stable i A) (hs : (learningSteps calls).inv s) (hA : A s)
    (next : ∀ rows t, (learningSteps calls).inv t → A t →
      ListedReflections organizationId experienceId rows t →
        (learningSteps calls).Safe i (k rows) t post) :
    (learningSteps calls).Safe i
      (listReflections platform organizationId experienceId >>= k) s post := by
  have hread : (learningSteps calls).Safe i (listReflections platform organizationId experienceId) s
      fun rows t => (learningSteps calls).inv t ∧ A t ∧
        ListedReflections organizationId experienceId rows t := by
    refine getExperience_bind A stable hs hA fun _ t ht hA _ => ?_
    rw [← Proc.bind_done (query _)]
    refine query_bind A stable ht hA fun t ht hA => ?_
    exact ends _ (stable.and listedReflections_stable) ht ⟨hA, listedReflections_sort⟩
      fun u hu hA => ⟨hu, hA⟩
  exact part_bind hread fun rows t ⟨ht, hA, hrows⟩ => next rows t ht hA hrows

theorem hasReflection_of_any {rows : List Reflection} {id : Str}
    (hrows : ListedReflections organizationId experienceId rows s)
    (h : rows.any (fun reflection => reflection.id = id) = true) :
    s.HasReflection organizationId experienceId id := by
  obtain ⟨reflection, hmem, heq⟩ := List.any_eq_true.mp h
  rw [← of_decide_eq_true heq]
  exact hrows reflection hmem

/-- A candidate drawn from a reflection on the experience. -/
theorem insertCandidate_bind {input : CreateLearningCandidateInput} {k : Candidate → Program Store α}
    (hs : (learningSteps calls).inv s)
    (href : s.HasReflection organizationId input.experienceId input.reflectionId)
    (next : ∀ candidate t, (learningSteps calls).inv t →
      (learningSteps calls).Safe i (k candidate) t post) :
    (learningSteps calls).Safe i (insertCandidate organizationId input >>= k) s post :=
  insert_bind Candidate.id Store.candidates Store.admitsCandidate
    (fun s rows => { s with candidates := rows }) _ hasReflection_stable hs href
    (fun _ _ _ href hnew _ => .candidate _ hnew href rfl rfl) fun _ _ _ _ ht => next _ _ ht

theorem createCandidate_safe {context : TenantContext} {input : CreateLearningCandidateInput}
    (hs : (learningSteps calls).inv s) :
    (learningSteps calls).Safe i (createCandidate platform context input) s fun _ _ => True := by
  refine checked_bind (ended_validateCandidate input) hs fun _ _ => ?_
  refine getExperience_bind (fun _ => True) stable_true hs trivial fun _ t ht _ _ => ?_
  refine require_bind ht fun _ => ?_
  refine listReflections_bind (fun _ => True) stable_true ht trivial fun rows t ht _ hrows => ?_
  refine require_bind ht fun hany => ?_
  refine insertCandidate_bind ht (hasReflection_of_any hrows hany) fun _ t ht => ?_
  exact audit_bind (fun _ => True) stable_true ht trivial fun _ _ _ => returns fun _ => trivial

/-! ## Promotions -/

theorem ended_validatePromotion (input : PromoteLearningCandidateInput) :
    Ended (validatePromotion input) :=
  (ended_require _ _).bind fun _ => (ended_expect _ _).bind fun _ =>
    (ended_require _ _).bind fun _ => (ended_require _ _).bind fun _ => ended_pure _

theorem toMaturity_of_validate {input : PromoteLearningCandidateInput} {m : LearningMaturity}
    (h : validatePromotion input = .done m) : input.toMaturity = some m := by
  unfold validatePromotion requireText at h
  obtain ⟨-, h⟩ := require_bind_eq_done.mp h
  obtain ⟨n, hn, h⟩ := expect_bind_eq_done.mp h
  obtain ⟨-, h⟩ := require_bind_eq_done.mp h
  obtain ⟨-, h⟩ := require_bind_eq_done.mp h
  cases h
  exact hn

theorem ended_approvePolicy (context : TenantContext) (approvalRef : Option Str)
    (m : LearningMaturity) : Ended (approvePolicy context approvalRef m) := by
  unfold approvePolicy
  split
  · exact (ended_require _ _).bind fun _ => ended_require _ _
  · trivial

theorem governed_of_approve {change : MaturityChange}
    (h : approvePolicy change.context change.approvalRef change.toMaturity = .done ()) :
    change.Governed := by
  intro hpolicy
  rw [approvePolicy, if_pos hpolicy] at h
  obtain ⟨hhuman, h⟩ := require_bind_eq_done.mp h
  exact ⟨hhuman, require_eq_done.mp h⟩

/-- The session has made no change yet. -/
def Unchanged (i : Nat) (s : Store) : Prop := ∀ old ∈ s.changes, old.session ≠ i

/-- The change is the only one of its session, and not recorded. -/
def Changed (change : MaturityChange) (s : Store) : Prop :=
  change ∈ s.changes ∧ ∀ old ∈ s.changes, old.session = change.session → old = change

/-- What the session has changed is recorded. -/
def Recorded (i : Nat) (s : Store) : Prop :=
  ∀ old ∈ s.changes, old.session = i → old.recorded = true

theorem unchanged_stable : (learningSteps calls).Stable i (Unchanged i) := by
  rintro s t - hA (⟨j, hj, hdoes⟩ | hnever)
  · rcases hdoes.changes_cases with ht | ⟨change, rfl, -, ht⟩ | ht
    · unfold Unchanged
      rw [ht]
      exact hA
    · unfold Unchanged
      rw [ht]
      exact List.forall_mem_append.mpr ⟨hA, List.forall_mem_singleton.mpr hj⟩
    · intro row hrow
      rw [ht] at hrow
      obtain ⟨old, hold, rfl⟩ := Tables.mem_write.mp hrow
      split
      · exact hA old hold
      · exact hA old hold
  · exact hnever.elim

theorem changed_stable {change : MaturityChange} (hi : change.session = i) :
    (learningSteps calls).Stable i (Changed change) := by
  subst hi
  rintro s t - ⟨hmem, honly⟩ (⟨j, hj, hdoes⟩ | hnever)
  · rcases hdoes.changes_cases with ht | ⟨other, rfl, -, ht⟩ | ht
    · unfold Changed
      rw [ht]
      exact ⟨hmem, honly⟩
    · unfold Changed
      rw [ht]
      refine ⟨List.mem_append_left _ hmem, List.forall_mem_append.mpr ⟨honly, ?_⟩⟩
      exact List.forall_mem_singleton.mpr fun heq => absurd heq hj
    · unfold Changed
      rw [ht]
      refine ⟨Tables.mem_write.mpr ⟨change, hmem, (if_neg (Ne.symm hj)).symm⟩, fun row hrow => ?_⟩
      obtain ⟨old, hold, rfl⟩ := Tables.mem_write.mp hrow
      split
      · rename_i hsession
        exact fun heq => absurd (hsession.symm.trans heq) hj
      · exact honly old hold
  · exact hnever.elim

theorem recorded_stable : (learningSteps calls).Stable i (Recorded i) := by
  rintro s t - hA (⟨j, hj, hdoes⟩ | hnever)
  · rcases hdoes.changes_cases with ht | ⟨change, rfl, -, ht⟩ | ht
    · unfold Recorded
      rw [ht]
      exact hA
    · unfold Recorded
      rw [ht]
      refine List.forall_mem_append.mpr ⟨hA, List.forall_mem_singleton.mpr ?_⟩
      exact fun heq => absurd heq hj
    · intro row hrow
      rw [ht] at hrow
      obtain ⟨old, hold, rfl⟩ := Tables.mem_write.mp hrow
      split
      · exact fun _ => rfl
      · exact hA old hold
  · exact hnever.elim

/-- A candidate with the identifier that has been asked for. -/
theorem getCandidate_ends {candidateId : Str} (A : Store → Prop)
    (stable : (learningSteps calls).Stable i A) (hs : (learningSteps calls).inv s) (hA : A s) :
    (learningSteps calls).SafeTo i (getCandidate organizationId candidateId) s
      (fun candidate t => (learningSteps calls).inv t ∧ A t ∧ candidate.id = candidateId)
      fun _ _ => True := by
  refine SafeTo.change_bind A stable hs hA (fun _ _ _ _ => trivial) fun t c ht hA =>
    ⟨.nothing rfl, ?_, ?_⟩
  · rintro _ ⟨⟩ ht
    rw [← Proc.bind_done (Proc.expect _ _)]
    refine SafeTo.expect_bind A stable ht hA (fun _ _ _ => trivial) fun candidate hfound => ?_
    unfold Store.getCandidate at hfound
    have hmatch := List.find?_some hfound
    rw [decide_eq_true_eq] at hmatch
    exact SafeTo.returns A stable ht hA fun u hu hA => ⟨hu, hA, hmatch.2⟩
  · intro error he
    cases he

/-- The change by its session, where the candidate is found as it has been read. -/
theorem setMaturity_ends (change : MaturityChange) (hi : change.session = i)
    (hasked : Asked calls change)
    (hadjacent : change.fromMaturity.adjacent change.toMaturity = true)
    (hgoverned : change.Governed) (hnew : change.recorded = false)
    (hs : (learningSteps calls).inv s) (hnone : Unchanged i s) :
    (learningSteps calls).SafeTo i (setMaturity change) s
      (fun changed t => (learningSteps calls).inv t ∧ (changed = true → Changed change t))
      fun _ _ => True := by
  subst hi
  rw [← Proc.bind_done (setMaturity change)]
  refine SafeTo.change_bind _ unchanged_stable hs hnone (fun _ _ _ _ => trivial) fun t c ht hnone => ?_
  dsimp only
  cases hfound : (t.setMaturity change).1 with
  | false =>
      rw [setMaturity_missed hfound]
      refine ⟨.nothing rfl, ?_, ?_⟩
      · rintro _ ⟨⟩ hafter
        refine SafeTo.returns (fun _ => True) stable_true hafter trivial fun u hu _ => ⟨hu, ?_⟩
        intro hfalse
        cases hfalse
      · intro error he
        cases he
  | true =>
      refine ⟨.raised change rfl hasked hnone hadjacent hgoverned hnew hfound rfl, ?_, ?_⟩
      · rintro _ ⟨⟩ hafter
        have hchanged : Changed change (t.setMaturity change).2 := by
          rw [(setMaturity_found hfound).2]
          refine ⟨List.mem_append_right _ (List.mem_singleton_self _), ?_⟩
          refine List.forall_mem_append.mpr
            ⟨fun old hold heq => absurd heq (hnone old hold), List.forall_mem_singleton.mpr ?_⟩
          exact fun _ => rfl
        exact SafeTo.returns _ (changed_stable rfl) hafter hchanged fun u hu hA => ⟨hu, fun _ => hA⟩
      · intro error he
        cases he

/-- The record of the change. -/
theorem createPromotion_ends {context : TenantContext} {candidate : Candidate}
    {m : LearningMaturity} {input : PromoteLearningCandidateInput}
    (hs : (learningSteps calls).inv s)
    (hchanged : Changed (candidate.change i context m input.approvalRef) s) :
    (learningSteps calls).SafeTo i (createPromotion i context candidate m input) s
      (fun _ t => (learningSteps calls).inv t ∧ Recorded i t) fun _ _ => True := by
  rw [← Proc.bind_done (createPromotion _ _ _ _ _)]
  refine SafeTo.change_bind _ (changed_stable rfl) hs hchanged (fun _ _ _ _ => trivial)
    fun t c ht hchanged => ?_
  unfold Store.insertPromotion Store.insert
  split
  · refine ⟨.recorded _ _ hchanged.1 rfl rfl rfl rfl, ?_, ?_⟩
    · rintro _ ⟨⟩ hafter
      refine SafeTo.returns _ recorded_stable hafter ?_ fun u hu hA => ⟨hu, hA⟩
      intro row hrow hsession
      obtain ⟨old, hold, rfl⟩ := Tables.mem_write.mp hrow
      split
      · rfl
      · rename_i hother
        rw [if_neg hother] at hsession
        exact absurd hsession hother
    · intro error he
      cases he
  · refine ⟨.nothing rfl, ?_, fun _ _ => hchanged⟩
    rintro _ ⟨⟩

/-- A promotion that returns has recorded its change. -/
theorem promote_safe {context : TenantContext} {input : PromoteLearningCandidateInput}
    (hcall : calls[i]? = some (.promote context input)) (hs : (learningSteps calls).inv s)
    (hnone : Unchanged i s) :
    (learningSteps calls).SafeTo i (promote i context input) s
      (fun _ t => (learningSteps calls).inv t ∧ Recorded i t) fun _ _ => True := by
  have hstable : (learningSteps calls).Stable i (Unchanged i) := unchanged_stable
  refine SafeTo.checked_bind _ hstable (ended_validatePromotion input) hs hnone
    (fun _ _ _ _ => trivial) fun m hvalid => ?_
  refine Safe.bind ((getCandidate_ends _ hstable hs hnone).mono ?_ fun _ _ _ => trivial)
  rintro candidate t ⟨ht, hnone, hid⟩
  refine SafeTo.checked_bind _ hstable (ended_require _ _) ht hnone (fun _ _ _ _ => trivial)
    fun _ _ => ?_
  refine SafeTo.checked_bind _ hstable (ended_require _ _) ht hnone (fun _ _ _ _ => trivial)
    fun _ hadjacent => ?_
  refine SafeTo.checked_bind _ hstable (ended_approvePolicy _ _ _) ht hnone
    (fun _ _ _ _ => trivial) fun _ happroved => ?_
  have hchange := setMaturity_ends (candidate.change i context m input.approvalRef) rfl
    ⟨input, hcall, hid.symm, toMaturity_of_validate hvalid, rfl⟩ (require_eq_done.mp hadjacent)
    (governed_of_approve happroved) rfl ht hnone
  refine Safe.bind (hchange.mono ?_ fun _ _ _ => trivial)
  rintro changed u ⟨hu, hchanged⟩
  refine SafeTo.checked_bind (fun _ => True) stable_true (ended_require _ _) hu trivial
    (fun _ _ _ _ => trivial) fun _ hrequired => ?_
  have hrecord := createPromotion_ends hu (hchanged (require_eq_done.mp hrequired))
  refine Safe.bind (hrecord.mono ?_ fun _ _ _ => trivial)
  rintro promotion v ⟨hv, hrecorded⟩
  refine SafeTo.query_bind _ recorded_stable hv hrecorded (fun _ _ _ _ => trivial) ?_
  exact fun _ w hw hrecorded _ =>
    SafeTo.returns _ recorded_stable hw hrecorded fun x hx hrecorded => ⟨hx, hrecorded⟩

/-! ## Failure patterns -/

theorem ended_validateFailurePattern (input : RecordFailurePatternInput) :
    Ended (validateFailurePattern input) :=
  (ended_require _ _).bind fun _ => (ended_require _ _).bind fun _ =>
    (ended_require _ _).bind fun _ => (ended_require _ _).bind fun _ =>
      (ended_require _ _).bind fun _ => (ended_require _ _).bind fun _ =>
        (ended_require _ _).bind fun _ => ended_require _ _

/-- As many distinct outcomes as identifiers are all of them. -/
theorem hasOutcome_of_length {rows : List Outcome} {ids : List Str}
    (hrows : Listed organizationId experienceId rows s) (hids : ids.Nodup)
    (hlength : (rows.filter (fun outcome => outcome.id ∈ ids)).length = ids.length) :
    ∀ id ∈ ids, s.HasOutcome organizationId experienceId id := by
  intro id hid
  have hsubset : ((rows.filter (fun outcome => outcome.id ∈ ids)).map Outcome.id) ⊆ ids := by
    intro x hx
    obtain ⟨outcome, houtcome, rfl⟩ := List.mem_map.mp hx
    exact of_decide_eq_true (List.mem_filter.mp houtcome).2
  have hnodup : ((rows.filter (fun outcome => outcome.id ∈ ids)).map Outcome.id).Nodup :=
    (List.filter_sublist.map _).nodup hrows.distinct
  have hperm := (List.subperm_of_subset hnodup hsubset).perm_of_length_le
    (by rw [List.length_map, hlength])
  obtain ⟨outcome, houtcome, rfl⟩ := List.mem_map.mp (hperm.mem_iff.mpr hid)
  obtain ⟨hmem, horg, hexp⟩ := hrows.found outcome (List.mem_filter.mp houtcome).1
  exact ⟨outcome, hmem, horg, hexp, rfl⟩

theorem nodup_eraseDups : ∀ ids : List Str, ids.eraseDups.Nodup
  | [] => List.nodup_nil
  | id :: rest => by
      rw [List.eraseDups_cons, List.nodup_cons]
      refine ⟨fun hmem => ?_, nodup_eraseDups _⟩
      have hkept := (List.mem_filter.mp (List.mem_eraseDups.mp hmem)).2
      rw [beq_self_eq_true] at hkept
      cases hkept
  termination_by ids => ids.length
  decreasing_by exact Nat.lt_succ_of_le (List.length_filter_le _ _)

/-- What a failure pattern has to rest on. -/
def Blamable (organizationId : Str) (input : RecordFailurePatternInput) (ids : List Str)
    (s : Store) : Prop :=
  s.Reached organizationId input.experienceId 2 ∧
    s.HasReflection organizationId input.experienceId input.reflectionId ∧
    (∀ id ∈ ids, s.HasOutcome organizationId input.experienceId id) ∧
    ∃ outcome ∈ s.outcomes, outcome.organizationId = organizationId ∧
      outcome.experienceId = input.experienceId ∧ outcome.id ∈ ids ∧ outcome.score < 0

theorem blamable_stable {input : RecordFailurePatternInput} {ids : List Str} :
    (learningSteps calls).Stable i (Blamable organizationId input ids) :=
  stable_of_grows fun h hs =>
    ⟨h.reached hs.1, h.hasReflection hs.2.1, fun id hid => h.hasOutcome (hs.2.2.1 id hid),
      hs.2.2.2.imp fun _ hrow => ⟨h.outcomes hrow.1, hrow.2⟩⟩

theorem recordFailurePattern_safe {context : TenantContext} {input : RecordFailurePatternInput}
    (hs : (learningSteps calls).inv s) :
    (learningSteps calls).Safe i (recordFailurePattern platform context input) s
      fun _ _ => True := by
  refine checked_bind (ended_validateFailurePattern input) hs fun _ _ => ?_
  refine getExperience_bind (fun _ => True) stable_true hs trivial fun experience t ht _ hexp => ?_
  refine require_bind ht fun hstatus => ?_
  have hreflected : t.Reached context.organizationId input.experienceId 2 := by
    obtain ⟨row, hmem, horg, hid, hindex⟩ := hexp
    refine ⟨row, hmem, horg, hid, le_trans ?_ hindex⟩
    rcases of_decide_eq_true hstatus with heq | heq
    · rw [heq]
      decide
    · rw [heq]
      decide
  refine listReflections_bind _ reached_stable ht hreflected fun rows t ht hreflected hrows => ?_
  refine require_bind ht fun hany => ?_
  refine listOutcomes_bind _ (reached_stable.and hasReflection_stable) ht
    ⟨hreflected, hasReflection_of_any hrows hany⟩ fun outcomes t ht hA houtcomes => ?_
  refine require_bind ht fun hlength => require_bind ht fun hnegative => ?_
  have hblamable : Blamable context.organizationId input input.outcomeIds.eraseDups t := by
    refine ⟨hA.1, hA.2, ?_, ?_⟩
    · exact hasOutcome_of_length houtcomes (nodup_eraseDups _) (of_decide_eq_true hlength)
    · obtain ⟨outcome, hmem, hscore⟩ := List.any_eq_true.mp hnegative
      obtain ⟨hlisted, hid⟩ := List.mem_filter.mp hmem
      obtain ⟨hrow, horg, hexp⟩ := houtcomes.found outcome hlisted
      exact ⟨outcome, hrow, horg, hexp, of_decide_eq_true hid, of_decide_eq_true hscore⟩
  refine insert_bind FailurePattern.id Store.failurePatterns Store.admitsFailurePattern
    (fun s rows => { s with failurePatterns := rows }) _ blamable_stable ht hblamable
    (fun t c _ h _ _ => .failurePattern _ ⟨h.1, h.2.1, h.2.2.1, h.2.2.2⟩ rfl) fun _ _ _ _ ht => ?_
  exact audit_bind (fun _ => True) stable_true ht trivial fun _ _ _ => returns fun _ => trivial

/-! ## Skill candidates -/

theorem ended_validateSkillCandidate (input : RecordSkillCandidateInput) :
    Ended (validateSkillCandidate input) :=
  (ended_require _ _).bind fun _ => (ended_require _ _).bind fun _ =>
    (ended_require _ _).bind fun _ => (ended_require _ _).bind fun _ =>
      (ended_require _ _).bind fun _ => (ended_require _ _).bind fun _ => ended_require _ _

theorem human_ne_nil {context : TenantContext} {userId : Str} (h : context.human? = some userId) :
    userId ≠ [] := by
  unfold TenantContext.human? at h
  split at h
  · exact of_decide_eq_true (Option.filter_eq_some_iff.mp h).2
  · cases h

/-- What the checks of a skill candidate say of it. -/
theorem checked_of_validate {input : RecordSkillCandidateInput}
    (h : validateSkillCandidate input = .done ()) :
    (MIN_SKILL_CANDIDATE_CONFIDENCE ≤ input.confidence ∧ input.confidence ≤ 1) ∧
      ¬ Blank input.approvalRef := by
  unfold validateSkillCandidate requireText requireRange at h
  simp only [require_bind_eq_done, require_eq_done, decide_eq_true_eq, Store.inRange,
    Option.all_some] at h
  exact ⟨h.2.2.2.2.2.1, h.2.2.2.2.2.2⟩

/-- A candidate at `PATTERN` or above has been raised to it. -/
theorem hasPattern_of_maturity {candidate : Candidate} (hs : Ladder s)
    (hmem : candidate ∈ s.candidates)
    (h : candidate.maturity = .pattern ∨ candidate.maturity = .policy) :
    s.HasPattern candidate.id := by
  have hhigh : 2 ≤ candidate.maturity.index := by
    rcases h with heq | heq
    · rw [heq]
      decide
    · rw [heq]
      decide
  obtain ⟨change, hchange, hindex⟩ := climb_passes (hs.climbed candidate hmem) (by decide) hhigh
  obtain ⟨hrow, hid⟩ := List.mem_filter.mp hchange
  refine ⟨change, hrow, of_decide_eq_true hid, ?_⟩
  cases hto : change.toMaturity with
  | pattern => rfl
  | observation | hypothesis | policy =>
      rw [hto] at hindex
      cases hindex

/-- What has been read of a candidate and still holds. -/
def Mature (organizationId candidateId : Str) (candidate : Candidate) (s : Store) : Prop :=
  s.HasCandidate organizationId candidate.experienceId candidateId ∧
    (candidate.maturity = .pattern ∨ candidate.maturity = .policy → s.HasPattern candidateId)

theorem mature_stable {candidateId : Str} {candidate : Candidate} :
    (learningSteps calls).Stable i (Mature organizationId candidateId candidate) :=
  stable_of_grows fun h hs => ⟨h.candidates hs.1, fun hm => h.patterns (hs.2 hm)⟩

theorem getCandidate_bind {candidateId : Str} {k : Candidate → Program Store α}
    (hs : (learningSteps calls).inv s)
    (next : ∀ candidate t, (learningSteps calls).inv t →
      Mature organizationId candidateId candidate t →
        (learningSteps calls).Safe i (k candidate) t post) :
    (learningSteps calls).Safe i (getCandidate organizationId candidateId >>= k) s post := by
  have hread : (learningSteps calls).Safe i (getCandidate organizationId candidateId) s
      fun candidate t => (learningSteps calls).inv t ∧
        Mature organizationId candidateId candidate t := by
    refine query_bind (fun _ => True) stable_true hs trivial fun t ht _ => ?_
    rw [← Proc.bind_done (Proc.expect _ _)]
    refine expect_bind ht fun candidate hfound => ?_
    unfold Store.getCandidate at hfound
    have hmatch := List.find?_some hfound
    rw [decide_eq_true_eq] at hmatch
    obtain ⟨horg, rfl⟩ := hmatch
    have hmem := List.mem_of_find?_eq_some hfound
    refine ends _ mature_stable ht ⟨⟨candidate, hmem, horg, rfl, rfl⟩, ?_⟩ fun u hu hA => ⟨hu, hA⟩
    exact hasPattern_of_maturity ht.1.ladder hmem
  exact part_bind hread fun candidate t ⟨ht, hA⟩ => next candidate t ht hA

theorem hasOutcome_of_belong {ids : List Str} (hs : Sound s)
    (h : s.outcomesBelongToExperience organizationId experienceId ids = true) :
    ∀ id ∈ ids, s.HasOutcome organizationId experienceId id := by
  intro id hid
  have hlisted : Listed organizationId experienceId (s.outcomesOf organizationId experienceId) s :=
    ⟨fun outcome houtcome => ⟨(List.mem_filter.mp houtcome).1,
      of_decide_eq_true (List.mem_filter.mp houtcome).2⟩,
      (List.filter_sublist.map _).nodup hs.outcomeIds⟩
  exact hasOutcome_of_length hlisted (nodup_eraseDups ids) (of_decide_eq_true h).2 id
    (List.mem_eraseDups.mpr hid)

/-- What a skill candidate has to rest on. -/
def Supported (organizationId candidateId experienceId : Str) (ids : List Str) (s : Store) : Prop :=
  s.HasPattern candidateId ∧ s.HasCandidate organizationId experienceId candidateId ∧
    ∀ id ∈ ids, s.HasOutcome organizationId experienceId id

theorem supported_stable {candidateId : Str} {ids : List Str} :
    (learningSteps calls).Stable i (Supported organizationId candidateId experienceId ids) :=
  stable_of_grows fun h hs =>
    ⟨h.patterns hs.1, h.candidates hs.2.1, fun id hid => h.hasOutcome (hs.2.2 id hid)⟩

theorem recordSkillCandidate_safe {context : TenantContext} {input : RecordSkillCandidateInput}
    (hs : (learningSteps calls).inv s) :
    (learningSteps calls).Safe i (recordSkillCandidate context input) s fun _ _ => True := by
  refine checked_bind (ended_validateSkillCandidate input) hs fun _ hvalid => ?_
  obtain ⟨hconfidence, happroval⟩ := checked_of_validate hvalid
  refine expect_bind hs fun userId huser => ?_
  refine getCandidate_bind hs fun candidate t ht hmature => ?_
  refine require_bind ht fun _ => require_bind ht fun hmaturity => require_bind ht fun _ => ?_
  refine require_bind ht fun htwo => ?_
  refine query_bind _ mature_stable ht hmature fun t ht hmature => ?_
  refine require_bind ht fun hbelong => ?_
  have hsupported : Supported context.organizationId input.learningCandidateId
      candidate.experienceId input.supportingOutcomeIds.eraseDups t :=
    ⟨hmature.2 (of_decide_eq_true hmaturity), hmature.1, hasOutcome_of_belong ht.1 hbelong⟩
  refine insert_bind SkillCandidate.id Store.skillCandidates Store.admitsSkillCandidate
    (fun s rows => { s with skillCandidates := rows }) _ supported_stable ht hsupported
    (fun t c _ h _ _ => .skillCandidate _ ⟨⟨hconfidence, ⟨human_ne_nil huser, ?_⟩,
      nodup_eraseDups _, of_decide_eq_true htwo⟩, h.1, candidate.experienceId, h.2⟩ rfl)
    fun _ _ _ _ ht => ?_
  · exact fun hblank => happroval (trim_eq_nil_iff.mp hblank)
  · exact audit_bind (fun _ => True) stable_true ht trivial fun _ _ _ => returns fun _ => trivial

/-! ## Promotion reviews -/

theorem hasSkill_stable {id : Str} :
    (learningSteps calls).Stable i fun s => s.HasSkill organizationId id :=
  stable_of_grows fun h => h.hasSkill

theorem propose_safe {context : TenantContext} {skillCandidateId targetCapabilityCode : Str}
    (hs : (learningSteps calls).inv s) :
    (learningSteps calls).Safe i (propose platform context skillCandidateId targetCapabilityCode) s
      fun _ _ => True := by
  refine expect_bind hs fun userId huser => ?_
  refine query_bind (fun _ => True) stable_true hs trivial fun t ht _ => ?_
  refine expect_bind ht fun candidate hfound => require_bind ht fun _ => ?_
  unfold Store.getSkillCandidate at hfound
  have hmatch := List.find?_some hfound
  rw [decide_eq_true_eq] at hmatch
  have hskill : t.HasSkill context.organizationId candidate.id :=
    ⟨candidate, List.mem_of_find?_eq_some hfound, hmatch.1, rfl⟩
  refine checked_bind ((ended_require _ _).bind fun _ => ended_pure _) ht fun code hcode => ?_
  have hvalid : isCapabilityCode code = true := by
    obtain ⟨hvalid, heq⟩ := require_bind_eq_done.mp hcode
    cases heq
    exact hvalid
  refine query_bind _ hasSkill_stable ht hskill fun t ht hskill => require_bind ht fun _ => ?_
  refine insert_bind SkillPromotionReview.id Store.reviews Store.admitsReview
    (fun s rows => { s with reviews := rows }) _ hasSkill_stable ht hskill
    (fun t c _ hskill _ hadmits => ?_) fun _ _ _ _ ht => ?_
  · refine .proposed _ ⟨hskill, hvalid, human_ne_nil huser, ?_⟩ (of_decide_eq_true hadmits).2 rfl
    exact fun hpending => absurd rfl hpending
  · exact audit_bind (fun _ => True) stable_true ht trivial fun _ _ _ => returns fun _ => trivial

theorem reviewMissing_safe {id : Str} (hs : (learningSteps calls).inv s) :
    (learningSteps calls).Safe i (reviewMissing organizationId id : Program Store α) s post := by
  have hread : (learningSteps calls).Safe i
      ((query fun s => s.getReview organizationId id).tryCatch fun _ => pure none) s
      fun _ t => (learningSteps calls).inv t := by
    refine tryCatch_bind ?_ fun _ t ht => ?_
    · exact (query_last (fun _ => True) stable_true hs trivial).mono (fun _ _ h => h.1)
        fun _ _ h => h
    · exact ends (fun _ => True) stable_true ht trivial fun u hu _ => hu
  refine part_bind hread fun existing t ht => ?_
  cases existing with
  | none => exact fails ht
  | some review => exact fails ht

theorem review_safe {context : TenantContext} {id rationale : Str}
    {status : SkillPromotionReviewStatus} (hs : (learningSteps calls).inv s)
    (hfinal : status ≠ .pendingReview) :
    (learningSteps calls).Safe i (review context id status rationale) s fun _ _ => True := by
  refine expect_bind hs fun userId huser => require_bind hs fun hrationale => ?_
  obtain ⟨hnonempty, hlength⟩ := of_decide_eq_true hrationale
  refine change_bind (fun _ => True) stable_true hs trivial fun t c ht _ =>
    ⟨.decided _ id status userId _ c.now hfinal (human_ne_nil huser) hnonempty hlength rfl, ?_⟩
  intro decided hdecided hafter
  cases decided with
  | none => exact reviewMissing_safe hafter
  | some row =>
      exact audit_bind (fun _ => True) stable_true hafter trivial
        fun _ _ _ => returns fun _ => trivial

end Learning
