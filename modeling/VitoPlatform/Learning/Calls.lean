import VitoPlatform.Learning.Steps

/-!
# The calls of the learning core, step by step

Every step that a call makes is one of the steps that keep the ladder and the grounds, whatever the
other calls do in between. What a call has found only grows, and so it still holds where the call
relies on it.
-/

namespace Learning

open Text Concurrent Services Services.Steps Invocation

variable {calls : List Call} {i : Nat} {s : Store} {α β : Type} {post : α → Store → Prop}
variable {platform : Platform} {organizationId experienceId : Str}

/-- What only grows is kept by all steps. -/
theorem stable_of_grows {A : Store → Prop} (h : ∀ {s t}, Grows s t → A s → A t) :
    (learningSteps calls).Stable i A := by
  rintro s t - hA (⟨_, _, hdoes⟩ | hnever)
  · exact h hdoes.grows hA
  · exact hnever.elim

theorem reached_stable {n : Nat} :
    (learningSteps calls).Stable i fun s => s.Reached organizationId experienceId n :=
  stable_of_grows fun h => h.reached

/-- An insertion, of a row that is new and that the table admits. -/
theorem insert_bind (key : β → Str) (rows : Store → List β) (admitted : Store → β → Bool)
    (put : Store → List β → Store) {row : Choice → β} {k : β → Program Store α} (A : Store → Prop)
    (stable : (learningSteps calls).Stable i A) (hs : (learningSteps calls).inv s) (hA : A s)
    (hdoes : ∀ t c, (learningSteps calls).inv t → A t →
      Tables.find key (rows t) (key (row c)) = none → admitted t (row c) = true →
        Does calls i t (put t (rows t ++ [row c])))
    (next : ∀ t c, Does calls i t (put t (rows t ++ [row c])) → A t →
      (learningSteps calls).inv (put t (rows t ++ [row c])) →
        (learningSteps calls).Safe i (k (row c)) (put t (rows t ++ [row c])) post) :
    (learningSteps calls).Safe i
      ((change fun c s => s.insert key (rows s) (admitted s (row c)) (row c) (put s)) >>= k)
      s post := by
  refine change_bind A stable hs hA fun t c ht hA => ?_
  unfold Store.insert
  split
  · rename_i hnew
    rw [Bool.and_eq_true, Option.isNone_iff_eq_none] at hnew
    have hstep := hdoes t c ht hA hnew.1 hnew.2
    refine ⟨hstep, ?_⟩
    rintro _ ⟨⟩ hafter
    exact next t c hstep hA hafter
  · refine ⟨.nothing rfl, ?_⟩
    rintro _ ⟨⟩

/-- The audit record of a write. -/
theorem audit_bind {k : Unit → Program Store α} (A : Store → Prop)
    (stable : (learningSteps calls).Stable i A) (hs : (learningSteps calls).inv s) (hA : A s)
    (next : ∀ t, (learningSteps calls).inv t → A t → (learningSteps calls).Safe i (k ()) t post) :
    (learningSteps calls).Safe i (audit >>= k) s post :=
  query_bind A stable hs hA next

theorem attempt_safe {p : Program Store α}
    (h : (learningSteps calls).Safe i p s fun _ _ => True) :
    (learningSteps calls).Safe i (attempt p) s fun _ _ => True := by
  refine tryCatch_bind (part_bind h fun _ _ _ => returns fun _ => trivial) fun _ t ht => ?_
  refine tryCatch_bind ?_ fun _ _ _ => returns fun _ => trivial
  exact audit_bind (fun _ => True) stable_true ht trivial fun _ _ _ => returns fun _ => trivial

/-! ## Experiences -/

theorem ended_validateExperience (input : RecordExperienceInput) :
    Ended (validateExperience input) :=
  (ended_require _ _).bind fun _ => (ended_require _ _).bind fun _ =>
    (ended_require _ _).bind fun _ => ended_require _ _

theorem storeExperience_safe {input : RecordExperienceInput} {notFound : String}
    (hs : (learningSteps calls).inv s) :
    (learningSteps calls).Safe i (storeExperience organizationId input notFound) s
      fun _ _ => True := by
  refine query_bind (fun _ => True) stable_true hs trivial fun t ht _ => ?_
  refine require_bind ht fun _ => ?_
  refine insert_bind Experience.id Store.experiences Store.admitsExperience
    (fun s rows => { s with experiences := rows }) (fun _ => True) stable_true ht trivial
    (fun t c _ _ _ _ => .experience _ rfl rfl) fun t c _ _ ht => ?_
  exact audit_bind (fun _ => True) stable_true ht trivial fun _ _ _ => returns fun _ => trivial

theorem recordExperience_safe {context : TenantContext} {input : RecordExperienceInput}
    (hs : (learningSteps calls).inv s) :
    (learningSteps calls).Safe i (recordExperience context input) s fun _ _ => True :=
  checked_bind (ended_validateExperience input) hs fun _ _ => storeExperience_safe hs

theorem captureExperience_safe {input : RecordExperienceInput}
    (hs : (learningSteps calls).inv s) :
    (learningSteps calls).Safe i (captureExperience organizationId input) s fun _ _ => True :=
  checked_bind (ended_require _ _) hs fun _ _ =>
    checked_bind (ended_validateExperience input) hs fun _ _ => storeExperience_safe hs

theorem reached_of_getById {experience : Experience}
    (h : s.getById organizationId experienceId = some experience) :
    s.Reached organizationId experienceId experience.status.index := by
  unfold Store.getById at h
  have hmatch := List.find?_some h
  rw [decide_eq_true_eq] at hmatch
  exact ⟨experience, List.mem_of_find?_eq_some h, hmatch.1, hmatch.2, Nat.le_refl _⟩

/-- The experience that has been found. -/
theorem getExperience_bind {k : Experience → Program Store α} (A : Store → Prop)
    (stable : (learningSteps calls).Stable i A) (hs : (learningSteps calls).inv s) (hA : A s)
    (next : ∀ experience t, (learningSteps calls).inv t → A t →
      t.Reached organizationId experienceId experience.status.index →
        (learningSteps calls).Safe i (k experience) t post) :
    (learningSteps calls).Safe i (getExperience organizationId experienceId >>= k) s post := by
  have hread : (learningSteps calls).Safe i (getExperience organizationId experienceId) s
      fun experience t => (learningSteps calls).inv t ∧ A t ∧
        t.Reached organizationId experienceId experience.status.index := by
    refine query_bind A stable hs hA fun t ht hA => ?_
    rw [← Proc.bind_done (Proc.expect _ _)]
    refine expect_bind ht fun experience hfound => ?_
    exact ends _ (stable.and reached_stable) ht ⟨hA, reached_of_getById hfound⟩
      fun u hu hA => ⟨hu, hA⟩
  exact part_bind hread fun experience t ⟨ht, hA, hreached⟩ => next experience t ht hA hreached

theorem reached_of_exists (h : s.experienceExists organizationId experienceId = true) :
    s.Reached organizationId experienceId 0 := by
  obtain ⟨experience, hmem, hmatch⟩ := List.any_eq_true.mp h
  obtain ⟨hid, horg⟩ := of_decide_eq_true hmatch
  exact ⟨experience, hmem, horg, hid, Nat.zero_le _⟩

/-- The experience exists. -/
theorem exists_bind {k : Unit → Program Store α} {error : HttpError} (A : Store → Prop)
    (stable : (learningSteps calls).Stable i A) (hs : (learningSteps calls).inv s) (hA : A s)
    (next : ∀ t, (learningSteps calls).inv t → A t → t.Reached organizationId experienceId 0 →
      (learningSteps calls).Safe i (k ()) t post) :
    (learningSteps calls).Safe i
      (query (fun s => s.experienceExists organizationId experienceId) >>= fun found =>
        Proc.require found error >>= k) s post :=
  query_bind A stable hs hA fun t ht hA =>
    require_bind ht fun hfound => next t ht hA (reached_of_exists hfound)

/-! ## Outcomes -/

theorem ended_validateOutcome (input : RecordOutcomeInput) : Ended (validateOutcome input) :=
  (ended_require _ _).bind fun _ => (ended_require _ _).bind fun _ =>
    (ended_require _ _).bind fun _ => (ended_require _ _).bind fun _ =>
      (ended_require _ _).bind fun _ => ended_require _ _

theorem hasOutcome_stable {id : Str} :
    (learningSteps calls).Stable i fun s => s.HasOutcome organizationId experienceId id :=
  stable_of_grows fun h => h.hasOutcome

theorem hasReflection_stable {id : Str} :
    (learningSteps calls).Stable i fun s => s.HasReflection organizationId experienceId id :=
  stable_of_grows fun h => h.hasReflection

/-- A mark, where it is a step. -/
theorem mark_bind {current next : ExperienceStatus} {k : Unit → Program Store α}
    (A : Store → Prop) (stable : (learningSteps calls).Stable i A)
    (hs : (learningSteps calls).inv s) (hA : A s) (hindex : current.index ≤ next.index)
    (hA' : ∀ {s t}, Grows s t → A s → A t)
    (hdoes : ∀ t, A t → Does calls i t (t.markExperience organizationId experienceId current next))
    (hk : ∀ t, (learningSteps calls).inv t → A t → (learningSteps calls).Safe i (k ()) t post) :
    (learningSteps calls).Safe i (mark organizationId experienceId current next >>= k) s post := by
  refine change_bind A stable hs hA fun t c ht hA => ⟨hdoes t hA, ?_⟩
  rintro _ ⟨⟩ hafter
  exact hk _ hafter (hA' (Grows.mark hindex) hA)

theorem storeOutcome_safe {input : RecordOutcomeInput} (hs : (learningSteps calls).inv s)
    (hexp : s.Reached organizationId input.experienceId 0) :
    (learningSteps calls).Safe i (storeOutcome organizationId input) s fun _ _ => True := by
  refine insert_bind Outcome.id Store.outcomes Store.admitsOutcome
    (fun s rows => { s with outcomes := rows }) _ reached_stable hs hexp
    (fun t c _ hexp hnew _ => .outcome _ hnew hexp rfl) fun t c _ _ ht => ?_
  refine mark_bind (fun s => s.HasOutcome organizationId input.experienceId c.id)
    hasOutcome_stable ht ⟨_, List.mem_append_right _ (List.mem_singleton_self _), rfl, rfl, rfl⟩
    (by decide) (fun h => h.hasOutcome) (fun t hout => .evaluated _ _ _ hout rfl) fun t ht _ => ?_
  exact audit_bind (fun _ => True) stable_true ht trivial fun _ _ _ => returns fun _ => trivial

theorem recordOutcome_safe {context : TenantContext} {input : RecordOutcomeInput}
    (hs : (learningSteps calls).inv s) :
    (learningSteps calls).Safe i (recordOutcome context input) s fun _ _ => True :=
  checked_bind (ended_validateOutcome input) hs fun _ _ =>
    exists_bind (fun _ => True) stable_true hs trivial fun _ ht _ hexp => storeOutcome_safe ht hexp

/-- Outcomes of the experience, each once. -/
structure Listed (organizationId experienceId : Str) (rows : List Outcome) (s : Store) : Prop where
  found : ∀ outcome ∈ rows, outcome ∈ s.outcomes ∧ outcome.organizationId = organizationId ∧
    outcome.experienceId = experienceId
  distinct : (rows.map Outcome.id).Nodup

theorem listed_sort (hs : Sound s) : Listed organizationId experienceId
    (platform.outcomes.sort (s.outcomesOf organizationId experienceId)) s where
  found outcome houtcome := by
    obtain ⟨hmem, hmatch⟩ := List.mem_filter.mp (platform.outcomes.mem_sort.mp houtcome)
    exact ⟨hmem, of_decide_eq_true hmatch⟩
  distinct := by
    rw [((platform.outcomes.perm _).map Outcome.id).nodup_iff]
    exact (List.filter_sublist.map _).nodup hs.outcomeIds

theorem listed_stable {rows : List Outcome} :
    (learningSteps calls).Stable i (Listed organizationId experienceId rows) :=
  stable_of_grows fun h hlisted =>
    ⟨fun outcome houtcome => (hlisted.found outcome houtcome).imp_left (h.outcomes ·),
      hlisted.distinct⟩

/-- The outcomes of an experience. -/
theorem listOutcomes_bind {k : List Outcome → Program Store α} (A : Store → Prop)
    (stable : (learningSteps calls).Stable i A) (hs : (learningSteps calls).inv s) (hA : A s)
    (next : ∀ rows t, (learningSteps calls).inv t → A t →
      Listed organizationId experienceId rows t →
        (learningSteps calls).Safe i (k rows) t post) :
    (learningSteps calls).Safe i
      (listOutcomes platform organizationId experienceId >>= k) s post := by
  have hread : (learningSteps calls).Safe i (listOutcomes platform organizationId experienceId) s
      fun rows t => (learningSteps calls).inv t ∧ A t ∧
        Listed organizationId experienceId rows t := by
    refine query_bind A stable hs hA fun t ht hA => require_bind ht fun _ => ?_
    rw [← Proc.bind_done (query _)]
    refine query_bind A stable ht hA fun t ht hA => ?_
    exact ends _ (stable.and listed_stable) ht ⟨hA, listed_sort ht.1⟩ fun u hu hA => ⟨hu, hA⟩
  exact part_bind hread fun rows t ⟨ht, hA, hrows⟩ => next rows t ht hA hrows

/-! ## Reflections -/

theorem ended_validateReflection (input : RecordReflectionInput) :
    Ended (validateReflection input) :=
  (ended_require _ _).bind fun _ => (ended_require _ _).bind fun _ =>
    (ended_require _ _).bind fun _ => (ended_require _ _).bind fun _ => ended_require _ _

theorem cites_of_validate {input : RecordReflectionInput}
    (h : validateReflection input = .done ()) : input.evidenceOutcomeIds ≠ [] := by
  unfold validateReflection requireText at h
  simp only [require_bind_eq_done, decide_eq_true_eq] at h
  exact h.2.2.1

theorem eraseDups_ne_nil {ids : List Str} (h : ids ≠ []) : ids.eraseDups ≠ [] := by
  obtain ⟨id, hid⟩ := List.exists_mem_of_ne_nil ids h
  exact List.ne_nil_of_mem (List.mem_eraseDups.mpr hid)

/-- What a reflection has to rest on. -/
structure Citable (organizationId : Str) (input : RecordReflectionInput) (s : Store) : Prop where
  evaluated : s.Reached organizationId input.experienceId 1
  cites : input.evidenceOutcomeIds ≠ []
  outcomes : ∀ id ∈ input.evidenceOutcomeIds,
    s.HasOutcome organizationId input.experienceId id

theorem citable_stable {input : RecordReflectionInput} :
    (learningSteps calls).Stable i (Citable organizationId input) :=
  stable_of_grows fun h hs =>
    ⟨h.reached hs.evaluated, hs.cites, fun id hid => h.hasOutcome (hs.outcomes id hid)⟩

/-- A reflection on outcomes of the experience. -/
theorem storeReflection_safe {input : RecordReflectionInput}
    (hs : (learningSteps calls).inv s) (hcitable : Citable organizationId input s) :
    (learningSteps calls).Safe i (storeReflection organizationId input) s fun reflection t =>
      (learningSteps calls).inv t ∧
        t.HasReflection organizationId input.experienceId reflection.id := by
  refine insert_bind Reflection.id Store.reflections Store.admitsReflection
    (fun s rows => { s with reflections := rows }) _ citable_stable hs hcitable
    (fun t c _ hcitable _ _ =>
      .reflection _ ⟨hcitable.evaluated, hcitable.cites, hcitable.outcomes⟩ rfl)
    fun t c _ _ ht => ?_
  refine mark_bind (fun s => s.HasReflection organizationId input.experienceId c.id)
    hasReflection_stable ht
    ⟨_, List.mem_append_right _ (List.mem_singleton_self _), rfl, rfl, rfl⟩ (by decide)
    (fun h => h.hasReflection) (fun t href => .reflected _ _ _ href rfl) fun t ht href => ?_
  exact audit_bind _ hasReflection_stable ht href fun t ht href =>
    ends _ hasReflection_stable ht href fun u hu href => ⟨hu, href⟩

theorem recordReflection_safe {context : TenantContext} {input : RecordReflectionInput}
    (hs : (learningSteps calls).inv s) :
    (learningSteps calls).Safe i (recordReflection platform context input) s fun _ _ => True := by
  refine checked_bind (ended_validateReflection input) hs fun _ hvalid => ?_
  refine getExperience_bind (fun _ => True) stable_true hs trivial fun experience t ht _ hexp => ?_
  refine require_bind ht fun hstatus => ?_
  have hevaluated : t.Reached context.organizationId input.experienceId 1 := by
    obtain ⟨row, hmem, horg, hid, hindex⟩ := hexp
    refine ⟨row, hmem, horg, hid, le_trans ?_ hindex⟩
    rcases of_decide_eq_true hstatus with heq | heq
    · rw [heq]
      decide
    · rw [heq]
      decide
  refine listOutcomes_bind _ reached_stable ht hevaluated fun rows t ht hevaluated hrows => ?_
  refine require_bind ht fun _ => require_bind ht fun hcited => ?_
  have hcitable : Citable context.organizationId
      { input with evidenceOutcomeIds := input.evidenceOutcomeIds.eraseDups } t := by
    refine ⟨hevaluated, eraseDups_ne_nil (cites_of_validate hvalid), fun id hid => ?_⟩
    obtain ⟨outcome, houtcome, heq⟩ := List.any_eq_true.mp (List.all_eq_true.mp hcited id hid)
    obtain ⟨hmem, horg, hexp⟩ := hrows.found outcome houtcome
    exact ⟨outcome, hmem, horg, hexp, of_decide_eq_true heq⟩
  exact (storeReflection_safe ht hcitable).mono (fun _ _ _ => trivial) fun _ _ h => h

end Learning
