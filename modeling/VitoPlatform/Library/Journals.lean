import Mathlib.Data.List.Induction

/-!
# Journals

A journal is a list of entries that only grows. Each entry may be judged by what came before it
(`Recorded`), and some entries set or clear a value for a key: what stands for the key is the last
of them (`standing`).
-/

namespace Journals

variable {E K A : Type}

/-- Each entry holds of what came before it. -/
def Recorded (Holds : List E → E → Prop) (journal : List E) : Prop :=
  ∀ before entry after, journal = before ++ entry :: after → Holds before entry

theorem recorded_nil {Holds : List E → E → Prop} : Recorded Holds [] := by
  intro before entry after h
  cases before with
  | nil => cases h
  | cons first before => cases h

theorem Recorded.snoc {Holds : List E → E → Prop} {journal : List E} {entry : E}
    (h : Recorded Holds journal) (hentry : Holds journal entry) :
    Recorded Holds (journal ++ [entry]) := by
  intro before other after hsplit
  obtain ⟨rest, rfl, hrest⟩ | ⟨rest, rfl, hrest⟩ := List.append_eq_append_iff.mp hsplit
  · cases rest with
    | nil =>
        rw [List.append_nil]
        rw [List.nil_append, List.cons.injEq] at hrest
        rw [← hrest.1]
        exact hentry
    | cons first rest =>
        obtain ⟨-, hnil⟩ := List.cons.inj hrest
        cases rest <;> cases hnil
  · cases rest with
    | nil =>
        rw [List.nil_append, List.cons.injEq] at hrest
        rw [List.append_nil] at hentry
        rw [hrest.1]
        exact hentry
    | cons first rest =>
        obtain ⟨rfl, -⟩ := List.cons.inj hrest
        exact h before other rest rfl

theorem Recorded.of_append {Holds : List E → E → Prop} {before after : List E}
    (h : Recorded Holds (before ++ after)) : Recorded Holds before := by
  rintro earlier entry later rfl
  exact h earlier entry (later ++ after) (by rw [List.append_assoc, List.cons_append])

/-- The place of an entry in a journal, of what came before it and of what came after it. -/
theorem exists_split {first entry : E} {rest journal : List E}
    (h : (first :: entry :: rest).Sublist journal) : ∃ before after,
      journal = before ++ entry :: after ∧ first ∈ before ∧ rest.Sublist after := by
  obtain ⟨start, later, rfl, hfirst, hlater⟩ := List.cons_sublist_iff.mp h
  obtain ⟨middle, last, rfl, hentry, hlast⟩ := List.cons_sublist_iff.mp hlater
  obtain ⟨left, right, rfl⟩ := List.append_of_mem hentry
  refine ⟨start ++ left, right ++ last, ?_, List.mem_append_left _ hfirst, ?_⟩
  · rw [List.append_assoc, List.append_assoc, List.cons_append]
  · exact hlast.trans (List.sublist_append_right _ _)

variable [DecidableEq K]

/-- What an entry leaves standing for a key, where `value` is what it sets or clears. -/
def stand (write : E → Option (K × Option A)) (key : K) (old : Option A) (entry : E) : Option A :=
  match write entry with
  | some (written, value) => if written = key then value else old
  | none => old

/-- What stands for a key: the last value that has been set and not cleared. -/
def standing (write : E → Option (K × Option A)) (journal : List E) (key : K) : Option A :=
  journal.foldl (stand write key) none

variable {write : E → Option (K × Option A)} {journal : List E} {key : K} {entry : E} {a : A}

theorem standing_snoc : standing write (journal ++ [entry]) key =
    stand write key (standing write journal key) entry := by
  rw [standing, List.foldl_append]
  rfl

theorem stand_of_none {old : Option A} (h : write entry = none) :
    stand write key old entry = old := by
  rw [stand, h]

/-- An entry that writes another key. -/
def Passes (write : E → Option (K × Option A)) (key : K) (entry : E) : Prop :=
  ∀ value, write entry ≠ some (key, value)

theorem stand_of_passes {old : Option A} (h : Passes write key entry) :
    stand write key old entry = old := by
  unfold stand
  split
  · rename_i written value hwrite
    rw [if_neg]
    rintro rfl
    exact h value hwrite
  · rfl

theorem stand_of_write {old value : Option A} (h : write entry = some (key, value)) :
    stand write key old entry = value := by
  rw [stand, h]
  exact if_pos rfl

omit [DecidableEq K] in
theorem not_passes_iff : ¬ Passes write key entry ↔ ∃ value, write entry = some (key, value) := by
  simp [Passes]

/-- What stands has been set, and not been written since. -/
theorem standing_eq_some (h : standing write journal key = some a) :
    ∃ before entry after, journal = before ++ entry :: after ∧
      write entry = some (key, some a) ∧ ∀ later ∈ after, Passes write key later := by
  induction journal using List.reverseRecOn with
  | nil => cases h
  | append_singleton journal entry ih =>
      rw [standing_snoc] at h
      by_cases hpasses : Passes write key entry
      · rw [stand_of_passes hpasses] at h
        obtain ⟨before, set, after, rfl, hset, hafter⟩ := ih h
        refine ⟨before, set, after ++ [entry], ?_, hset, ?_⟩
        · rw [List.append_assoc, List.cons_append]
        · exact List.forall_mem_append.mpr ⟨hafter, List.forall_mem_singleton.mpr hpasses⟩
      · obtain ⟨value, hvalue⟩ := not_passes_iff.mp hpasses
        rw [stand_of_write hvalue] at h
        exact ⟨journal, entry, [], rfl, by rw [hvalue, h], List.forall_mem_nil _⟩

/-- What does not stand has been cleared since it has been set. -/
theorem exists_clear {before after : List E}
    (h : standing write (before ++ entry :: after) key = none)
    (hset : write entry = some (key, some a)) :
    ∃ later ∈ after, write later = some (key, none) := by
  by_contra hkept
  have hstands : (standing write (before ++ entry :: after) key).isSome := by
    clear h
    induction after using List.reverseRecOn with
    | nil =>
        rw [standing_snoc, stand_of_write hset]
        rfl
    | append_singleton after last ih =>
        have hlast : write last ≠ some (key, none) := fun heq =>
          hkept ⟨last, List.mem_append_right _ (List.mem_singleton_self _), heq⟩
        have hstands := ih fun ⟨later, hlater, heq⟩ =>
          hkept ⟨later, List.mem_append_left _ hlater, heq⟩
        rw [← List.cons_append, ← List.append_assoc, standing_snoc]
        by_cases hpasses : Passes write key last
        · rw [stand_of_passes hpasses]
          exact hstands
        · obtain ⟨value, hvalue⟩ := not_passes_iff.mp hpasses
          rw [stand_of_write hvalue]
          cases value with
          | none => exact absurd hvalue hlast
          | some value => rfl
  rw [h] at hstands
  cases hstands

end Journals
