import Mathlib.Data.List.Basic
import Mathlib.Data.List.DropRight
import Mathlib.Data.List.TakeWhile

/-!
# Trimming

A list without the items at its ends that are blank by some test. What is left stands between two
blanks, and begins and ends with an item that is not blank.
-/

namespace Trimming

variable {α : Type} {p : α → Bool} {s t : List α}

def trim (p : α → Bool) (s : List α) : List α := (s.dropWhile p).rdropWhile p

def Blank (p : α → Bool) (s : List α) : Prop := ∀ a ∈ s, p a = true

instance (s : List α) : Decidable (Blank p s) := inferInstanceAs (Decidable (∀ a ∈ s, p a = true))

theorem exists_rdropWhile (p : α → Bool) (s : List α) :
    ∃ t, Blank p t ∧ s = s.rdropWhile p ++ t := by
  induction s using List.reverseRecOn with
  | nil => exact ⟨[], nofun, rfl⟩
  | append_singleton s a ih =>
      by_cases ha : p a = true
      · obtain ⟨t, ht, hs⟩ := ih
        refine ⟨t ++ [a], fun b hb => ?_, ?_⟩
        · obtain hb | hb := List.mem_append.mp hb
          · exact ht b hb
          · rw [List.mem_singleton.mp hb]
            exact ha
        · rw [List.rdropWhile_concat_pos _ _ _ ha, ← List.append_assoc, ← hs]
      · exact ⟨[], nofun, by rw [List.rdropWhile_concat_neg _ _ _ ha, List.append_nil]⟩

/-- A list is its trimmed form between two blanks. -/
theorem exists_trim (p : α → Bool) (s : List α) :
    ∃ a b, Blank p a ∧ Blank p b ∧ s = a ++ (trim p s ++ b) := by
  obtain ⟨b, hb, h⟩ := exists_rdropWhile p (s.dropWhile p)
  refine ⟨s.takeWhile p, b, fun c hc => List.mem_takeWhile_imp hc, hb, ?_⟩
  rw [trim, ← h, List.takeWhile_append_dropWhile]

theorem length_trim_le (p : α → Bool) (s : List α) : (trim p s).length ≤ s.length := by
  obtain ⟨a, b, -, -, h⟩ := exists_trim p s
  have hlength := congrArg List.length h
  rw [List.length_append, List.length_append] at hlength
  omega

theorem trim_eq_nil_iff : trim p s = [] ↔ Blank p s := by
  constructor
  · intro h
    obtain ⟨a, b, ha, hb, hs⟩ := exists_trim p s
    rw [h, List.nil_append] at hs
    rw [hs]
    exact fun c hc => (List.mem_append.mp hc).elim (ha c) (hb c)
  · intro h
    rw [trim, List.dropWhile_eq_nil_iff.mpr h]
    rfl

/-- The last item of what is left is not blank. -/
theorem not_getLast_trim (h : trim p s ≠ []) : ¬ p ((trim p s).getLast h) = true :=
  List.rdropWhile_last_not p _ h

/-- What is left is not blank. -/
theorem not_blank_trim (h : trim p s ≠ []) : ¬ Blank p (trim p s) := fun hblank =>
  not_getLast_trim h (hblank _ (List.getLast_mem h))

/-- Nor is the first one. -/
theorem not_head_trim {a : α} {rest : List α} (h : trim p s = a :: rest) : p a = false := by
  obtain ⟨more, hmore⟩ := List.rdropWhile_prefix p (s.dropWhile p)
  change trim p s ++ more = s.dropWhile p at hmore
  rw [h, List.cons_append] at hmore
  have hne : s.dropWhile p ≠ [] := hmore ▸ List.cons_ne_nil a _
  have hhead := List.head_dropWhile_not p hne
  simpa only [← hmore, List.head_cons] using hhead

@[simp] theorem trim_trim (p : α → Bool) (s : List α) : trim p (trim p s) = trim p s := by
  cases h : trim p s with
  | nil => rfl
  | cons a rest =>
      have hne : trim p s ≠ [] := h ▸ List.cons_ne_nil a rest
      have ha : ¬ p a = true := by
        rw [not_head_trim h]
        exact Bool.false_ne_true
      rw [trim, List.dropWhile_cons_of_neg ha, List.rdropWhile_eq_self_iff]
      intro hne'
      have hlast := not_getLast_trim hne
      simpa only [h] using hlast

end Trimming
