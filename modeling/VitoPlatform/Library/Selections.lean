import Mathlib.Data.List.Forall2

/-!
# Selections from lists

What `filterMap` selects from lists whose items are related, and when two selections from one list,
or two lists that are put together of pieces, agree item by item.
-/

namespace Selections

variable {α β γ : Type} {R : α → β → Prop} {as : List α} {bs : List β}

theorem exists_of_forall₂ (h : List.Forall₂ R as bs) {a : α} (ha : a ∈ as) :
    ∃ b, b ∈ bs ∧ R a b := by
  induction h with
  | nil => cases ha
  | cons hab _ ih =>
      obtain rfl | ha := List.mem_cons.mp ha
      · exact ⟨_, List.mem_cons_self, hab⟩
      · obtain ⟨b, hb, hab⟩ := ih ha
        exact ⟨b, List.mem_cons_of_mem _ hb, hab⟩

/-- Two lists of pieces, of which those of the one are never shorter, are equal only piece by
piece. -/
theorem flatMap_eq_iff {f g : α → List γ} {items : List α}
    (h : ∀ a ∈ items, (g a).length ≤ (f a).length) :
    items.flatMap f = items.flatMap g ↔ ∀ a ∈ items, f a = g a := by
  refine ⟨fun heq => ?_, List.flatMap_congr⟩
  have hall : ∀ rest : List α, (∀ a ∈ rest, (g a).length ≤ (f a).length) →
      (rest.flatMap g).length ≤ (rest.flatMap f).length := fun rest hrest => by
    induction rest with
    | nil => exact Nat.le_refl _
    | cons a rest ih =>
        have ha := hrest a List.mem_cons_self
        have ih := ih fun b hb => hrest b (List.mem_cons_of_mem a hb)
        rw [List.flatMap_cons, List.flatMap_cons, List.length_append, List.length_append]
        omega
  induction items with
  | nil => nofun
  | cons a rest ih =>
      have hrest : ∀ b ∈ rest, (g b).length ≤ (f b).length := fun b hb =>
        h b (List.mem_cons_of_mem a hb)
      have ha := h a List.mem_cons_self
      have hle := hall rest hrest
      rw [List.flatMap_cons, List.flatMap_cons] at heq
      have hlength := congrArg List.length heq
      rw [List.length_append, List.length_append] at hlength
      obtain ⟨hhead, htail⟩ := List.append_inj heq (by omega)
      intro b hb
      obtain rfl | hb := List.mem_cons.mp hb
      · exact hhead
      · exact ih hrest htail b hb

end Selections
