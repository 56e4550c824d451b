import Mathlib.Data.List.Sort
import Mathlib.Data.List.Nodup

/-!
# The first of a ranked list

A list sorted by a comparison, and the element that comes first. Where no two elements of the
list compare as equal, that element is the one ahead of all others: it does not depend on the
order of the list, it stays when another element is left out, and it stays when it moves ahead.
-/

namespace Ranking

variable {α : Type} {cmp : α → α → Ordering}

/-- `a` comes before `b`, or compares as equal. -/
def Ahead (cmp : α → α → Ordering) (a b : α) : Prop := (cmp a b).isLE = true

/-- `list.sort(cmp)`: the stable sort. -/
def sort (cmp : α → α → Ordering) (l : List α) : List α := l.mergeSort fun a b => (cmp a b).isLE

/-- The element a sort puts first. -/
def first (cmp : α → α → Ordering) (l : List α) : Option α := (sort cmp l).head?

/-- Elements of the list that compare as equal are equal. -/
def Strict (cmp : α → α → Ordering) (l : List α) : Prop :=
  ∀ a ∈ l, ∀ b ∈ l, cmp a b = .eq → a = b

theorem sort_perm (l : List α) : (sort cmp l).Perm l := List.mergeSort_perm _ _

theorem first_eq_none_iff {l : List α} : first cmp l = none ↔ l = [] := by
  rw [first, List.head?_eq_none_iff]
  constructor
  · intro h
    exact List.perm_nil.mp (h ▸ (sort_perm l).symm)
  · rintro rfl
    exact List.mergeSort_nil

theorem mem_of_first {l : List α} {a : α} (h : first cmp l = some a) : a ∈ l :=
  (sort_perm l).mem_iff.mp (List.mem_of_head? h)

section Transitive

variable [Std.TransCmp cmp]

theorem ahead_refl (a : α) : Ahead cmp a a := by
  have hself : cmp a a = .eq := Std.ReflCmp.compare_self
  rw [Ahead, hself]
  rfl

theorem Ahead.antisymm {a b : α} (h : Ahead cmp a b) (h' : Ahead cmp b a) : cmp a b = .eq := by
  have hswap : cmp b a = (cmp a b).swap := Std.OrientedCmp.eq_swap
  rw [Ahead] at h h'
  rw [hswap] at h'
  cases hcmp : cmp a b with
  | eq => rfl
  | lt => simp [hcmp] at h'
  | gt => simp [hcmp] at h

/-- Nothing of the list is ahead of the first element, but what compares as equal. -/
theorem ahead_of_first {l : List α} {a b : α} (h : first cmp l = some a) (hb : b ∈ l) :
    Ahead cmp a b := by
  have hsorted : (sort cmp l).Pairwise fun a b => (cmp a b).isLE = true :=
    List.pairwise_mergeSort (fun _ _ _ => Std.TransCmp.isLE_trans)
      (fun x y => by
        have hswap : cmp y x = (cmp x y).swap := Std.OrientedCmp.eq_swap
        rw [hswap]
        cases cmp x y <;> rfl) l
  have hmem : b ∈ sort cmp l := (sort_perm l).mem_iff.mpr hb
  obtain ⟨rest, hrest⟩ := List.head?_eq_some_iff.mp h
  rw [hrest] at hsorted hmem
  rcases List.mem_cons.mp hmem with rfl | hmem
  · exact ahead_refl b
  · exact List.rel_of_pairwise_cons hsorted hmem

/-- The first element is the one ahead of all. -/
theorem first_eq_some_iff {l : List α} (strict : Strict cmp l) {a : α} :
    first cmp l = some a ↔ a ∈ l ∧ ∀ b ∈ l, Ahead cmp a b := by
  constructor
  · intro h
    exact ⟨mem_of_first h, fun b hb => ahead_of_first h hb⟩
  · rintro ⟨ha, hahead⟩
    cases hfirst : first cmp l with
    | none =>
        rw [first_eq_none_iff.mp hfirst] at ha
        exact (List.not_mem_nil ha).elim
    | some c =>
        have hc : c ∈ l := mem_of_first hfirst
        rw [strict c hc a ha ((ahead_of_first hfirst ha).antisymm (hahead c hc))]

/-- The first element of a list does not depend on the order it stands in. -/
theorem first_perm {l l' : List α} (strict : Strict cmp l) (h : l.Perm l') :
    first cmp l = first cmp l' := by
  have strict' : Strict cmp l' := fun a ha b hb => strict a (h.mem_iff.mpr ha) b (h.mem_iff.mpr hb)
  ext a
  rw [first_eq_some_iff strict, first_eq_some_iff strict', h.mem_iff]
  simp only [h.mem_iff]

end Transitive

/-! ## The higher score first, then by name -/

section Keys

variable {κ ν : Type} [LinearOrder κ]
variable {score : α → κ} {name : α → ν} {cmp : ν → ν → Ordering}

/-- The higher score first, and among equal scores by name. -/
def byScoreThenName (score : α → κ) (name : α → ν) (cmp : ν → ν → Ordering) (a b : α) : Ordering :=
  (compare (score b) (score a)).then (cmp (name a) (name b))

theorem byScoreThenName_eq {a b : α} :
    byScoreThenName score name cmp a b = .eq ↔
      score b = score a ∧ cmp (name a) (name b) = .eq := by
  rw [byScoreThenName, Ordering.then_eq_eq, compare_eq_iff_eq]

theorem ahead_byScoreThenName {a b : α} :
    Ahead (byScoreThenName score name cmp) a b ↔
      score b < score a ∨ score b = score a ∧ (cmp (name a) (name b)).isLE = true := by
  rw [Ahead, byScoreThenName]
  rcases lt_trichotomy (score b) (score a) with hlt | heq | hgt
  · simp [compare_lt_iff_lt.mpr hlt, hlt]
  · simp [heq]
  · simp [compare_gt_iff_gt.mpr hgt, hgt.not_gt, hgt.ne']

instance transCmp_byScoreThenName [Std.TransCmp cmp] :
    Std.TransCmp (byScoreThenName score name cmp) where
  eq_swap {a b} := by
    have hname : cmp (name a) (name b) = (cmp (name b) (name a)).swap := Std.OrientedCmp.eq_swap
    have hscore : compare (score b) (score a) = (compare (score a) (score b)).swap := by
      rcases lt_trichotomy (score a) (score b) with hlt | heq | hgt
      · rw [compare_lt_iff_lt.mpr hlt, compare_gt_iff_gt.mpr hlt]
        rfl
      · simp [heq]
      · rw [compare_lt_iff_lt.mpr hgt, compare_gt_iff_gt.mpr hgt]
        rfl
    rw [byScoreThenName, byScoreThenName, hname, hscore, Ordering.swap_then]
  isLE_trans {a b c} hab hbc := by
    rcases ahead_byScoreThenName.mp hab with hab | ⟨hab, hab'⟩ <;>
      rcases ahead_byScoreThenName.mp hbc with hbc | ⟨hbc, hbc'⟩
    · exact ahead_byScoreThenName.mpr (.inl (hbc.trans hab))
    · exact ahead_byScoreThenName.mpr (.inl (hbc ▸ hab))
    · exact ahead_byScoreThenName.mpr (.inl (hab ▸ hbc))
    · exact ahead_byScoreThenName.mpr
        (.inr ⟨hbc.trans hab, Std.TransCmp.isLE_trans hab' hbc'⟩)

/-- Different names make the comparison strict. -/
theorem strict_byScoreThenName [Std.LawfulEqCmp cmp] {l : List α} (h : (l.map name).Nodup) :
    Strict (byScoreThenName score name cmp) l := fun _ ha _ hb heq =>
  List.inj_on_of_nodup_map h ha hb
    (Std.LawfulEqCmp.eq_of_compare (byScoreThenName_eq.mp heq).2)

/-- Strictly ahead: by a higher score, or by name. -/
theorem ahead_iff_lt [Std.TransCmp cmp] [Std.LawfulEqCmp cmp] {a b : α} (h : name a ≠ name b) :
    Ahead (byScoreThenName score name cmp) a b ↔
      score b < score a ∨ score b = score a ∧ cmp (name a) (name b) = .lt := by
  have hne : cmp (name a) (name b) ≠ .eq := fun heq => h (Std.LawfulEqCmp.eq_of_compare heq)
  rw [ahead_byScoreThenName]
  cases hcmp : cmp (name a) (name b) <;> simp_all

end Keys

/-- Sorting commutes with a map that keeps the comparison. -/
theorem sort_map {β : Type} {cmpβ : β → β → Ordering} {f : α → β}
    {l : List α} (h : ∀ a ∈ l, ∀ b ∈ l, cmp a b = cmpβ (f a) (f b)) :
    sort cmpβ (l.map f) = (sort cmp l).map f :=
  (List.map_mergeSort fun a ha b hb => by rw [h a ha b hb]).symm

end Ranking
