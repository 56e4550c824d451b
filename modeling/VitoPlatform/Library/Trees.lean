import VitoPlatform.Library.Forest
import VitoPlatform.Library.Tables
import Mathlib.Data.List.Nodup
import Mathlib.Data.List.Perm.Basic

/-!
# Trees of a table

The rows of a table whose parents make a forest, as trees: each row with the rows below it, from
the rows without a parent on. The trees list every row exactly once (`flattenAll_trees`).
-/

namespace Trees

open Forest Relation List

inductive RowTree (α : Type) where
  | node (value : α) (children : List (RowTree α))

mutual

/-- All values of a tree. -/
def RowTree.flatten {α : Type} : RowTree α → List α
  | .node value children => value :: flattenAll children

def flattenAll {α : Type} : List (RowTree α) → List α
  | [] => []
  | tree :: trees => tree.flatten ++ flattenAll trees

end

variable {α β K : Type} [DecidableEq K]

theorem flattenAll_map (l : List β) (f : β → RowTree α) :
    flattenAll (l.map f) = l.flatMap fun b => (f b).flatten := by
  induction l with
  | nil => rfl
  | cons b l ih => rw [map_cons, flattenAll, ih, flatMap_cons]

/-- The tree of what is seen of a value and those below it, as deep as `fuel`. -/
def build (children : α → List α) (view : α → β) : Nat → α → RowTree β
  | 0, a => .node (view a) []
  | fuel + 1, a => .node (view a) ((children a).map (build children view fuel))

theorem flatten_build_view (children : α → List α) (view : α → β) (fuel : Nat) (a : α) :
    (build children view fuel a).flatten = ((build children id fuel a).flatten).map view := by
  induction fuel generalizing a with
  | zero => rfl
  | succ fuel ih =>
      rw [build, build, RowTree.flatten, RowTree.flatten, flattenAll_map, flattenAll_map, map_cons,
        map_flatMap]
      exact congrArg (view a :: ·) (flatMap_congr fun c _ => ih c)

variable (key : α → K) (up : α → Option K) (rows : List α)

/-- The rows under a row. -/
def children (a : α) : List α := rows.filter fun row => up row = some (key a)

def roots : List α := rows.filter fun row => up row = none

/-- The trees from the roots on; no tree is deeper than there are rows. -/
def trees (view : α → β) : List (RowTree β) :=
  (roots up rows).map (build (children key up rows) view rows.length)

/-- The parent of a key. -/
def parent (k : K) : Option K := (Tables.find key rows k).bind up

open scoped Classical in
/-- The rows at or below a row. -/
noncomputable def below (a : α) : List α :=
  rows.filter fun row => AtOrAbove (parent key up rows) (key row) (key a)

open scoped Classical in
/-- The rows at or above a row. -/
noncomputable def above (a : α) : List α :=
  rows.filter fun row => AtOrAbove (parent key up rows) (key a) (key row)

variable {key up rows} {a b r : α}

theorem mem_below : r ∈ below key up rows a ↔
    r ∈ rows ∧ AtOrAbove (parent key up rows) (key r) (key a) := by
  simp only [below, mem_filter, decide_eq_true_eq]

theorem mem_above : r ∈ above key up rows a ↔
    r ∈ rows ∧ AtOrAbove (parent key up rows) (key a) (key r) := by
  simp only [above, mem_filter, decide_eq_true_eq]

theorem mem_children : r ∈ children key up rows a ↔ r ∈ rows ∧ up r = some (key a) := by
  rw [children, mem_filter, decide_eq_true_eq]

omit [DecidableEq K] in
theorem mem_roots : r ∈ roots up rows ↔ r ∈ rows ∧ up r = none := by
  rw [roots, mem_filter, decide_eq_true_eq]

/-- Some of the rows of a forest make a forest. -/
theorem forest_of_subset {all : List α} (hkeys : (all.map key).Nodup) (hsub : rows ⊆ all)
    (h : IsForest (parent key up all)) : IsForest (parent key up rows) := by
  intro k hloop
  refine h k (TransGen.mono (fun a b hab => ?_) k k hloop)
  obtain ⟨row, hfound, hup⟩ := Option.bind_eq_some_iff.mp hab
  obtain ⟨hrow, rfl⟩ := Tables.find_some hfound
  exact Option.bind_eq_some_iff.mpr ⟨row, Tables.find_of_mem hkeys (hsub hrow), hup⟩

section Forest

variable (hkeys : (rows.map key).Nodup)
include hkeys

theorem parent_of_mem (up : α → Option K) (h : r ∈ rows) : parent key up rows (key r) = up r := by
  rw [parent, Tables.find_of_mem hkeys h]
  rfl

omit [DecidableEq K] in
theorem eq_of_key (ha : a ∈ rows) (hb : b ∈ rows) (h : key a = key b) : a = b :=
  inj_on_of_nodup_map hkeys ha hb h

omit [DecidableEq K] in
theorem nodup_filter (p : α → Bool) : (rows.filter p).Nodup := hkeys.of_map.filter p

theorem nodup_below (a : α) : (below key up rows a).Nodup := nodup_filter hkeys _

variable (hforest : IsForest (parent key up rows))
include hforest

/-- Nobody is below a sibling. -/
theorem not_atOrAbove_sibling {c c' : α} (hc : c ∈ rows) (hc' : c' ∈ rows) (hne : c ≠ c')
    (hup : up c = some (key a)) (hup' : up c' = some (key a)) :
    ¬ AtOrAbove (parent key up rows) (key c) (key c') := by
  intro h
  rw [← parent_of_mem hkeys up hc] at hup
  rw [← parent_of_mem hkeys up hc'] at hup'
  rcases (atOrAbove_iff hup).mp h with hsame | habove
  · exact hne (eq_of_key hkeys hc hc' hsame)
  · exact hforest _ (TransGen.tail' habove hup')

/-- The rows at or below a row are itself and those at or below its children. -/
theorem below_perm (ha : a ∈ rows) :
    below key up rows a ~ a :: (children key up rows a).flatMap (below key up rows) := by
  refine (perm_ext_iff_of_nodup (nodup_below hkeys a) ?_).mpr fun r => ?_
  · refine nodup_cons.mpr ⟨?_, nodup_flatMap.mpr ⟨fun c _ => nodup_below hkeys c, ?_⟩⟩
    · intro hmem
      obtain ⟨c, hc, hac⟩ := mem_flatMap.mp hmem
      obtain ⟨hc, hup⟩ := mem_children.mp hc
      rw [← parent_of_mem hkeys up hc] at hup
      exact hforest _ (TransGen.tail' (mem_below.mp hac).2 hup)
    · refine (nodup_filter hkeys _).imp_of_mem fun {c c'} hc hc' hne => ?_
      obtain ⟨hc, hup⟩ := mem_children.mp hc
      obtain ⟨hc', hup'⟩ := mem_children.mp hc'
      intro r hrc hrc'
      -- On the one way up from a row below both, one child is above the other.
      rcases ReflTransGen.total_of_right_unique
        (fun _ _ _ h h' => Option.some.inj (h.symm.trans h')) (mem_below.mp hrc).2
        (mem_below.mp hrc').2 with h | h
      · exact not_atOrAbove_sibling hkeys hforest hc hc' hne hup hup' h
      · exact not_atOrAbove_sibling hkeys hforest hc' hc (Ne.symm hne) hup' hup h
  · rw [mem_below, mem_cons, mem_flatMap]
    constructor
    · rintro ⟨hr, hra⟩
      rcases ReflTransGen.cases_tail hra with hsame | ⟨k, hrk, hka⟩
      · exact .inl (eq_of_key hkeys hr ha hsame.symm)
      · obtain ⟨c, hfound, hup⟩ := Option.bind_eq_some_iff.mp hka
        obtain ⟨hc, rfl⟩ := Tables.find_some hfound
        exact .inr ⟨c, mem_children.mpr ⟨hc, hup⟩, mem_below.mpr ⟨hr, hrk⟩⟩
    · rintro (rfl | ⟨c, hc, hrc⟩)
      · exact ⟨ha, .refl⟩
      · obtain ⟨hc, hup⟩ := mem_children.mp hc
        rw [← parent_of_mem hkeys up hc] at hup
        obtain ⟨hr, hrc⟩ := mem_below.mp hrc
        exact ⟨hr, ReflTransGen.tail hrc hup⟩

/-- A tree that is deep enough lists what is at or below its root. -/
theorem flatten_build {fuel : Nat} (ha : a ∈ rows)
    (hfuel : (below key up rows a).length ≤ fuel + 1) :
    (build (children key up rows) id fuel a).flatten ~ below key up rows a := by
  induction fuel generalizing a with
  | zero =>
      have hperm := below_perm hkeys hforest ha
      have hlength := hperm.length_eq
      rw [length_cons] at hlength
      have hnone : (children key up rows a).flatMap (below key up rows) = [] :=
        length_eq_zero_iff.mp (by omega)
      rw [hnone] at hperm
      exact hperm.symm
  | succ fuel ih =>
      have hperm := below_perm hkeys hforest ha
      have hlength := hperm.length_eq
      rw [length_cons] at hlength
      rw [build, RowTree.flatten, flattenAll_map]
      refine (Perm.cons a (Perm.flatMap_left _ fun c hc => ih (mem_children.mp hc).1 ?_)).trans
        hperm.symm
      have hle : (below key up rows c).length ≤
          ((children key up rows a).flatMap (below key up rows)).length := by
        rw [flatMap_def]
        exact (sublist_flatten_of_mem (mem_map_of_mem hc)).length_le
      omega

/-- Every row has a root above it, if every parent is there. -/
theorem exists_root (hclosed : ∀ r ∈ rows, ∀ k, up r = some k → ∃ a ∈ rows, key a = k)
    (hr : r ∈ rows) : ∃ a ∈ roots up rows, AtOrAbove (parent key up rows) (key r) (key a) := by
  generalize hn : (above key up rows r).length = n
  induction n using Nat.strongRecOn generalizing r with
  | ind n ih =>
      cases hup : up r with
      | none => exact ⟨r, mem_roots.mpr ⟨hr, hup⟩, .refl⟩
      | some k =>
          obtain ⟨b, hb, rfl⟩ := hclosed r hr k hup
          have hparent := (parent_of_mem hkeys up hr).trans hup
          have hnot : r ∉ above key up rows b := fun h =>
            hforest _ (TransGen.head' hparent (mem_above.mp h).2)
          have hsub : r :: above key up rows b ⊆ above key up rows r := by
            intro x hx
            rcases mem_cons.mp hx with rfl | hx
            · exact mem_above.mpr ⟨hr, .refl⟩
            · obtain ⟨hx, hbx⟩ := mem_above.mp hx
              exact mem_above.mpr ⟨hx, (atOrAbove_iff hparent).mpr (.inr hbx)⟩
          have hlt : (above key up rows b).length < n := by
            have hnodup : (r :: above key up rows b).Nodup :=
              nodup_cons.mpr ⟨hnot, nodup_filter hkeys _⟩
            have hle := (subperm_of_subset hnodup hsub).length_le
            rw [length_cons, hn] at hle
            omega
          obtain ⟨a, ha, hba⟩ := ih _ hlt hb rfl
          exact ⟨a, ha, (atOrAbove_iff hparent).mpr (.inr hba)⟩

/-- The trees list every row exactly once. -/
theorem flattenAll_trees (view : α → β)
    (hclosed : ∀ r ∈ rows, ∀ k, up r = some k → ∃ a ∈ rows, key a = k) :
    flattenAll (trees key up rows view) ~ rows.map view := by
  rw [trees, flattenAll_map]
  simp only [flatten_build_view _ view]
  rw [← map_flatMap]
  refine Perm.map view ?_
  have hbelow : (roots up rows).flatMap
      (fun a => (build (children key up rows) id rows.length a).flatten) ~
        (roots up rows).flatMap (below key up rows) := by
    refine Perm.flatMap_left _ fun a ha => flatten_build hkeys hforest (mem_roots.mp ha).1 ?_
    exact Nat.le_succ_of_le (length_filter_le _ _)
  refine hbelow.trans ((perm_ext_iff_of_nodup ?_ hkeys.of_map).mpr fun r => ?_)
  · refine nodup_flatMap.mpr ⟨fun a _ => nodup_below hkeys a, ?_⟩
    refine (nodup_filter hkeys _).imp_of_mem fun {a a'} ha ha' hne => ?_
    obtain ⟨ha, hroot⟩ := mem_roots.mp ha
    obtain ⟨ha', hroot'⟩ := mem_roots.mp ha'
    rw [← parent_of_mem hkeys up ha] at hroot
    rw [← parent_of_mem hkeys up ha'] at hroot'
    intro r hra hra'
    rcases ReflTransGen.total_of_right_unique
      (fun _ _ _ h h' => Option.some.inj (h.symm.trans h')) (mem_below.mp hra).2
      (mem_below.mp hra').2 with h | h
    · exact hne (eq_of_key hkeys ha ha' ((atOrAbove_root hroot).mp h))
    · exact hne (eq_of_key hkeys ha' ha ((atOrAbove_root hroot').mp h)).symm
  · rw [mem_flatMap]
    constructor
    · rintro ⟨a, -, hra⟩
      exact (mem_below.mp hra).1
    · intro hr
      obtain ⟨a, ha, hra⟩ := exists_root hkeys hforest hclosed hr
      exact ⟨a, ha, mem_below.mpr ⟨hr, hra⟩⟩

end Forest

/-- Rows in groups, one for each row of another table that they refer to. -/
theorem group_perm {γ : Type} {key : α → K} {rows : List α} (reference : γ → Option K)
    (hkeys : (rows.map key).Nodup) (xs : List γ)
    (hthere : ∀ x ∈ xs, ∃ row ∈ rows, reference x = some (key row)) :
    (rows.flatMap fun row => xs.filter fun x => reference x = some (key row)) ~ xs := by
  induction xs with
  | nil => simp
  | cons x xs ih =>
      obtain ⟨hx, hxs⟩ := forall_mem_cons.mp hthere
      obtain ⟨row, hrow, href⟩ := hx
      obtain ⟨before, after, rfl⟩ := append_of_mem hrow
      -- The first row of `xs` is in the group of `row`, and in no other.
      have hother : ∀ other ∈ before ++ after, reference x ≠ some (key other) := by
        intro other hmem hsame
        rw [map_append, map_cons, nodup_middle, nodup_cons] at hkeys
        rw [Option.some.inj (href.symm.trans hsame), ← map_append] at hkeys
        exact hkeys.1 (mem_map_of_mem hmem)
      have hgroups : ∀ part : List α, (∀ other ∈ part, other ∈ before ++ after) →
          (part.flatMap fun row => (x :: xs).filter fun x => reference x = some (key row)) =
            part.flatMap fun row => xs.filter fun x => reference x = some (key row) := by
        intro part hpart
        refine flatMap_congr fun other hmem => filter_cons_of_neg ?_
        simpa using hother other (hpart other hmem)
      rw [flatMap_append, flatMap_cons, hgroups before fun _ h => mem_append_left _ h,
        hgroups after fun _ h => mem_append_right _ h, filter_cons_of_pos (by simpa using href)]
      refine perm_middle.trans (Perm.cons x ?_)
      have hrest := ih hxs
      rw [flatMap_append, flatMap_cons] at hrest
      exact hrest

end Trees
