import VitoPlatform.Learning.Pipeline

/-!
# The maturity ladder

The changes of a candidate are a climb over the ladder, one step at a time, from `OBSERVATION` to
the maturity that the candidate has. Nothing gets to `POLICY` but by an authenticated human with an
approval, and the promotions are exactly the changes that have been recorded.
-/

namespace Learning

open Text Services

/-- Where a sequence of changes leads, if each starts where the one before has ended. -/
def climb (m : LearningMaturity) : List MaturityChange → Option LearningMaturity
  | [] => some m
  | change :: rest =>
      if change.fromMaturity = m ∧ m.adjacent change.toMaturity then climb change.toMaturity rest
      else none

theorem climb_append {m n : LearningMaturity} {past : List MaturityChange}
    {change : MaturityChange} (h : climb m past = some n) (hfrom : change.fromMaturity = n)
    (hnext : n.adjacent change.toMaturity = true) :
    climb m (past ++ [change]) = some change.toMaturity := by
  induction past generalizing m with
  | nil =>
      cases h
      rw [List.nil_append, climb, if_pos ⟨hfrom, hnext⟩, climb]
  | cons first rest ih =>
      rw [climb] at h
      split at h
      · rename_i hfirst
        rw [List.cons_append, climb, if_pos hfirst]
        exact ih h
      · cases h

/-- A climb passes every rung on its way up. -/
theorem climb_passes {m n : LearningMaturity} {path : List MaturityChange}
    (h : climb m path = some n) {k : Nat} (hlow : m.index < k) (hhigh : k ≤ n.index) :
    ∃ change ∈ path, change.toMaturity.index = k := by
  induction path generalizing m with
  | nil =>
      cases h
      omega
  | cons first rest ih =>
      rw [climb] at h
      split at h
      · rename_i hfirst
        have hnext := of_decide_eq_true hfirst.2
        by_cases hk : first.toMaturity.index = k
        · exact ⟨first, List.mem_cons_self, hk⟩
        · obtain ⟨change, hmem, hchange⟩ := ih h (by omega)
          exact ⟨change, List.mem_cons_of_mem _ hmem, hchange⟩
      · cases h

/-- The climb does not look at what has been recorded. -/
theorem climb_map {f : MaturityChange → MaturityChange}
    (hfrom : ∀ change, (f change).fromMaturity = change.fromMaturity)
    (hto : ∀ change, (f change).toMaturity = change.toMaturity) (m : LearningMaturity)
    (path : List MaturityChange) : climb m (path.map f) = climb m path := by
  induction path generalizing m with
  | nil => rfl
  | cons first rest ih => rw [List.map_cons, climb, climb, hfrom, hto, ih]

def Store.changesOf (s : Store) (candidateId : Str) : List MaturityChange :=
  s.changes.filter (·.candidateId = candidateId)

/-- What a promotion says of a change. -/
structure Step where
  organizationId : Str
  candidateId : Str
  fromMaturity : LearningMaturity
  toMaturity : LearningMaturity
  approvalRef : Option Str

def Promotion.step (promotion : Promotion) : Step where
  organizationId := promotion.organizationId
  candidateId := promotion.candidateId
  fromMaturity := promotion.fromMaturity
  toMaturity := promotion.toMaturity
  approvalRef := promotion.approvalRef

def MaturityChange.step (change : MaturityChange) : Step where
  organizationId := change.context.organizationId
  candidateId := change.candidateId
  fromMaturity := change.fromMaturity
  toMaturity := change.toMaturity
  approvalRef := change.approvalRef

def Store.recordedChanges (s : Store) : List MaturityChange := s.changes.filter (·.recorded)

/-- A change to a policy has been approved by a human. -/
def MaturityChange.Governed (change : MaturityChange) : Prop :=
  change.toMaturity = .policy →
    change.context.human?.isSome = true ∧ hasApproval change.approvalRef = true

structure Ladder (s : Store) : Prop where
  keyed : (s.candidates.map Candidate.id).Nodup
  sessions : (s.changes.map MaturityChange.session).Nodup
  known : ∀ change ∈ s.changes, change.candidateId ∈ s.candidates.map Candidate.id
  climbed : ∀ candidate ∈ s.candidates,
    climb .observation (s.changesOf candidate.id) = some candidate.maturity
  governed : ∀ change ∈ s.changes, change.Governed
  promoted : (s.promotions.map Promotion.step).Perm (s.recordedChanges.map MaturityChange.step)

section Rules

variable {s t : Store}

/-- The tables that the ladder is about. -/
theorem Ladder.congr (h : Ladder s) (hcandidates : t.candidates = s.candidates)
    (hpromotions : t.promotions = s.promotions) (hchanges : t.changes = s.changes) :
    Ladder t := by
  obtain ⟨keyed, sessions, known, climbed, governed, promoted⟩ := h
  unfold Store.changesOf at climbed
  unfold Store.recordedChanges at promoted
  refine ⟨?_, ?_, ?_, ?_, ?_, ?_⟩
  · rwa [hcandidates]
  · rwa [hchanges]
  · rwa [hchanges, hcandidates]
  · unfold Store.changesOf
    rwa [hcandidates, hchanges]
  · rwa [hchanges]
  · unfold Store.recordedChanges
    rwa [hpromotions, hchanges]

/-- A new candidate starts at the bottom. -/
theorem Ladder.insert {row : Candidate} (h : Ladder s)
    (hnew : Tables.find Candidate.id s.candidates row.id = none)
    (hbottom : row.maturity = .observation) :
    Ladder { s with candidates := s.candidates ++ [row] } where
  keyed := Tables.nodup_append h.keyed hnew
  sessions := h.sessions
  known := fun change hchange => by
    rw [List.map_append]
    exact List.mem_append_left _ (h.known change hchange)
  climbed := by
    refine List.forall_mem_append.mpr ⟨h.climbed, List.forall_mem_singleton.mpr ?_⟩
    have hnone : s.changesOf row.id = [] := by
      refine List.filter_eq_nil_iff.mpr fun change hchange heq => ?_
      obtain ⟨old, hold, hid⟩ := List.mem_map.mp (h.known change hchange)
      exact Tables.find_none_iff.mp hnew old hold (hid.trans (of_decide_eq_true heq))
    show climb .observation (s.changesOf row.id) = some row.maturity
    rw [hnone, climb, hbottom]
  governed := h.governed
  promoted := h.promoted

/-- The candidate whose maturity a change sets. -/
theorem findsCandidate_iff {organizationId candidateId : Str} {m : LearningMaturity}
    {candidate : Candidate} :
    Store.findsCandidate organizationId candidateId m candidate = true ↔
      candidate.organizationId = organizationId ∧ candidate.id = candidateId ∧
        candidate.maturity = m ∧ candidate.status = .active := by
  rw [Store.findsCandidate, decide_eq_true_eq]

/-- What a change that finds its candidate does. -/
theorem setMaturity_found {change : MaturityChange} (h : (s.setMaturity change).1 = true) :
    (∃ candidate ∈ s.candidates, Store.findsCandidate change.context.organizationId
      change.candidateId change.fromMaturity candidate = true) ∧
    (s.setMaturity change).2 =
      { s with
        candidates := s.candidates.map fun candidate =>
          if Store.findsCandidate change.context.organizationId change.candidateId
              change.fromMaturity candidate then
            { candidate with maturity := change.toMaturity }
          else candidate
        changes := s.changes ++ [change] } := by
  unfold Store.setMaturity at h ⊢
  dsimp only at h ⊢
  split at h
  · rename_i hany
    rw [if_pos hany]
    exact ⟨List.any_eq_true.mp hany, rfl⟩
  · cases h

theorem setMaturity_missed {change : MaturityChange} (h : (s.setMaturity change).1 = false) :
    (s.setMaturity change).2 = s := by
  unfold Store.setMaturity at h ⊢
  dsimp only at h ⊢
  split at h
  · cases h
  · rename_i hnone
    rw [if_neg hnone]

/-- A change, one step from where the candidate is. -/
theorem Ladder.change {change : MaturityChange} (h : Ladder s)
    (hfound : (s.setMaturity change).1 = true)
    (hsession : ∀ old ∈ s.changes, old.session ≠ change.session)
    (hadjacent : change.fromMaturity.adjacent change.toMaturity = true)
    (hgoverned : change.Governed) (hnew : change.recorded = false) :
    Ladder (s.setMaturity change).2 := by
  obtain ⟨⟨found, hmem, hfinds⟩, heq⟩ := setMaturity_found hfound
  obtain ⟨-, hid, hmaturity, -⟩ := findsCandidate_iff.mp hfinds
  rw [heq]
  have hkeys : ∀ candidate : Candidate, (if Store.findsCandidate change.context.organizationId
      change.candidateId change.fromMaturity candidate then
        { candidate with maturity := change.toMaturity } else candidate).id = candidate.id := by
    intro candidate
    split
    · rfl
    · rfl
  have hids : (s.candidates.map fun candidate => if Store.findsCandidate
      change.context.organizationId change.candidateId change.fromMaturity candidate then
        { candidate with maturity := change.toMaturity } else candidate).map Candidate.id =
          s.candidates.map Candidate.id := by
    rw [List.map_map]
    exact List.map_congr_left fun candidate _ => hkeys candidate
  constructor
  · show (List.map Candidate.id _).Nodup
    rw [hids]
    exact h.keyed
  · show (List.map MaturityChange.session (s.changes ++ [change])).Nodup
    rw [List.map_append, List.nodup_append]
    refine ⟨h.sessions, List.nodup_singleton _, fun a ha b hb hab => ?_⟩
    obtain ⟨old, hold, rfl⟩ := List.mem_map.mp ha
    exact hsession old hold (hab.trans (List.mem_singleton.mp hb))
  · show ∀ c ∈ s.changes ++ [change], c.candidateId ∈ List.map Candidate.id _
    rw [hids]
    refine List.forall_mem_append.mpr ⟨h.known, List.forall_mem_singleton.mpr ?_⟩
    exact List.mem_map.mpr ⟨found, hmem, hid⟩
  · intro candidate hcandidate
    obtain ⟨old, hold, rfl⟩ := List.mem_map.mp hcandidate
    have hchanges : ∀ id, Store.changesOf { s with changes := s.changes ++ [change] } id =
        s.changesOf id ++ if change.candidateId = id then [change] else [] := by
      intro id
      unfold Store.changesOf
      rw [List.filter_append]
      congr 1
      by_cases heq : change.candidateId = id
      · rw [List.filter_cons_of_pos (by simpa using heq), if_pos heq, List.filter_nil]
      · rw [List.filter_cons_of_neg (by simpa using heq), if_neg heq, List.filter_nil]
    show climb .observation (Store.changesOf { s with changes := s.changes ++ [change] } _) = _
    rw [hkeys, hchanges]
    by_cases hsame : change.candidateId = old.id
    · -- The keys are unique, so the candidate is the one that is found.
      have hold' : old = found :=
        List.inj_on_of_nodup_map h.keyed hold hmem (hsame.symm.trans hid.symm)
      subst hold'
      rw [if_pos hsame, if_pos hfinds]
      exact climb_append (h.climbed old hold) hmaturity.symm (by rw [hmaturity]; exact hadjacent)
    · rw [if_neg hsame, List.append_nil, if_neg]
      · exact h.climbed old hold
      · intro hfinds'
        exact hsame (findsCandidate_iff.mp hfinds').2.1.symm
  · exact List.forall_mem_append.mpr ⟨h.governed, List.forall_mem_singleton.mpr hgoverned⟩
  · have hrecorded : (s.changes ++ [change]).filter (·.recorded) = s.recordedChanges := by
      rw [List.filter_append, List.filter_cons_of_neg (by simp [hnew]), List.filter_nil,
        List.append_nil, Store.recordedChanges]
    show (s.promotions.map Promotion.step).Perm
      (((s.changes ++ [change]).filter (·.recorded)).map MaturityChange.step)
    rw [hrecorded]
    exact h.promoted

/-- The promotion of a change that the session has made and not yet recorded. -/
theorem Ladder.record {promotion : Promotion} {change : MaturityChange} (h : Ladder s)
    (hmem : change ∈ s.changes) (hnew : change.recorded = false)
    (hstep : promotion.step = change.step) :
    Ladder { s with
      promotions := s.promotions ++ [promotion]
      changes := Tables.write MaturityChange.session s.changes change.session
        MaturityChange.record } := by
  have hchange : ∀ {old}, old ∈ Tables.write MaturityChange.session s.changes change.session
      MaturityChange.record →
        ∃ first ∈ s.changes, old.candidateId = first.candidateId ∧
          (first.Governed → old.Governed) := by
    intro old hold
    obtain ⟨first, hfirst, rfl⟩ := Tables.mem_write.mp hold
    refine ⟨first, hfirst, ?_⟩
    split
    · exact ⟨rfl, id⟩
    · exact ⟨rfl, id⟩
  constructor
  · exact h.keyed
  · show ((Tables.write _ _ _ _).map MaturityChange.session).Nodup
    rw [Tables.map_key_write (fun _ => rfl : ∀ old : MaturityChange, old.record.session = _)]
    exact h.sessions
  · intro old hold
    obtain ⟨first, hfirst, hid, -⟩ := hchange hold
    rw [hid]
    exact h.known first hfirst
  · intro candidate hcandidate
    have hclimbed := h.climbed candidate hcandidate
    unfold Store.changesOf at hclimbed ⊢
    rw [← hclimbed, Tables.write, List.filter_map]
    have hsame : ((fun change : MaturityChange => decide (change.candidateId = candidate.id)) ∘
        fun old => if old.session = change.session then old.record else old) =
          fun change => decide (change.candidateId = candidate.id) := by
      funext old
      rw [Function.comp_apply]
      split
      · rfl
      · rfl
    rw [hsame]
    refine climb_map (fun old => ?_) (fun old => ?_) _ _
    · split
      · rfl
      · rfl
    · split
      · rfl
      · rfl
  · intro old hold
    obtain ⟨first, hfirst, -, hgoverned⟩ := hchange hold
    exact hgoverned (h.governed first hfirst)
  · show (List.map Promotion.step (s.promotions ++ [promotion])).Perm _
    have hperm := Tables.filter_write_perm (p := MaturityChange.recorded)
      (f := MaturityChange.record) h.sessions hmem hnew rfl
    refine List.Perm.trans ?_ (hperm.map MaturityChange.step).symm
    rw [List.map_append, List.map_cons, List.map_nil, List.map_cons, hstep]
    exact (List.perm_append_singleton _ _).trans (h.promoted.cons _)

end Rules

end Learning
