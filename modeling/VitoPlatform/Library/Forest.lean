import Mathlib.Logic.Function.Basic
import Mathlib.Logic.Relation

/-!
# Forests

A forest is given by the parent of each node, if it has one, such that no node is above itself.
Hanging a node under another keeps a forest one unless the other is below the node.
-/

namespace Forest

open Relation

variable {α : Type} {parent : α → Option α} {a b c : α}

/-- `b` is the parent of `a`. -/
def Up (parent : α → Option α) (a b : α) : Prop := parent a = some b

/-- `b` is `a`, or above it. -/
def AtOrAbove (parent : α → Option α) (a b : α) : Prop := ReflTransGen (Up parent) a b

def IsForest (parent : α → Option α) : Prop := ∀ a, ¬ TransGen (Up parent) a a

/-- Whoever is at or above a node with a parent is the node, or at or above the parent. -/
theorem atOrAbove_iff (h : parent a = some b) :
    AtOrAbove parent a c ↔ a = c ∨ AtOrAbove parent b c := by
  unfold AtOrAbove
  rw [ReflTransGen.cases_head_iff]
  constructor
  · rintro (rfl | ⟨d, hd, hdc⟩)
    · exact .inl rfl
    · obtain rfl : b = d := Option.some.inj (h.symm.trans hd)
      exact .inr hdc
  · rintro (rfl | hbc)
    · exact .inl rfl
    · exact .inr ⟨b, h, hbc⟩

theorem atOrAbove_root (h : parent a = none) : AtOrAbove parent a c ↔ a = c := by
  unfold AtOrAbove
  rw [ReflTransGen.cases_head_iff]
  constructor
  · rintro (rfl | ⟨d, hd, -⟩)
    · rfl
    · cases h.symm.trans hd
  · exact .inl

/-- A node that is nobody's parent is above nobody. -/
theorem not_atOrAbove_of_leaf (hleaf : ∀ b, parent b ≠ some a) (hne : b ≠ a) :
    ¬ AtOrAbove parent b a := by
  intro h
  rcases ReflTransGen.cases_tail h with rfl | ⟨c, -, hca⟩
  · exact hne rfl
  · exact hleaf c hca

/-- What is above a node on a loop is on a loop. -/
theorem loop_above (hloop : TransGen (Up parent) a a) (h : AtOrAbove parent a b) :
    TransGen (Up parent) b b := by
  induction h with
  | refl => exact hloop
  | tail _ hstep ih =>
      obtain ⟨d, hd, hback⟩ := TransGen.head'_iff.mp ih
      obtain rfl := Option.some.inj (hstep.symm.trans hd)
      exact .tail' hback hstep

section Update

variable [DecidableEq α] {target : Option α}

/-- A way up that does not start at the changed node, and does not come to it, is as before. -/
theorem atOrAbove_of_update (h : AtOrAbove (Function.update parent a target) b c)
    (hnot : ¬ AtOrAbove parent b a) : AtOrAbove parent b c := by
  induction h with
  | refl => exact .refl
  | tail _ hstep ih =>
      rename_i d e _
      have hne : d ≠ a := by
        rintro rfl
        exact hnot ih
      unfold Up at hstep
      rw [Function.update_of_ne hne] at hstep
      exact ih.tail hstep

/-- A loop that does not come to the changed node is an old one. -/
theorem loop_of_update (h : TransGen (Up (Function.update parent a target)) b c)
    (hnot : ¬ AtOrAbove (Function.update parent a target) b a) : TransGen (Up parent) b c := by
  have hold : ∀ {d e}, AtOrAbove (Function.update parent a target) b d →
      Up (Function.update parent a target) d e → Up parent d e := by
    intro d e hd hstep
    have hne : d ≠ a := by
      rintro rfl
      exact hnot hd
    unfold Up at hstep
    rwa [Function.update_of_ne hne] at hstep
  induction h with
  | single hstep => exact .single (hold .refl hstep)
  | tail hpath hstep ih => exact ih.tail (hold hpath.to_reflTransGen hstep)

/-- A node can be hung under a node that is not below it. -/
theorem IsForest.update (h : IsForest parent)
    (hnot : ∀ b, target = some b → ¬ AtOrAbove parent b a) :
    IsForest (Function.update parent a target) := by
  intro c hc
  by_cases hca : AtOrAbove (Function.update parent a target) c a
  · -- A loop below the changed node goes through it, and over its new parent.
    obtain ⟨b, hb, hba⟩ := TransGen.head'_iff.mp (loop_above hc hca)
    unfold Up at hb
    rw [Function.update_self] at hb
    exact hnot b hb (atOrAbove_of_update hba (hnot b hb))
  · exact h c (loop_of_update hc hca)

end Update

end Forest
