import Mathlib.Data.List.Nodup

/-!
# Tables

Rows under a key, in the order of their insertion: looking a row up, writing it, and adding one
under a new key.
-/

namespace Tables

variable {α K : Type} [DecidableEq K] {key : α → K} {rows : List α} {row : α} {k k' : K}
variable {f : α → α}

/-- The row under a key. -/
def find (key : α → K) (rows : List α) (k : K) : Option α := rows.find? fun row => key row = k

/-- Write the row under a key. -/
def write (key : α → K) (rows : List α) (k : K) (f : α → α) : List α :=
  rows.map fun row => if key row = k then f row else row

theorem find_some (h : find key rows k = some row) : row ∈ rows ∧ key row = k :=
  ⟨List.mem_of_find?_eq_some h, by simpa using List.find?_some h⟩

theorem find_isSome_iff : (find key rows k).isSome ↔ ∃ row ∈ rows, key row = k := by
  simp [find]

theorem find_none_iff : find key rows k = none ↔ ∀ row ∈ rows, key row ≠ k := by
  simp [find]

/-- Under unique keys, a row is what is found under its key. -/
theorem find_of_mem (hkeys : (rows.map key).Nodup) (h : row ∈ rows) :
    find key rows (key row) = some row := by
  cases hfound : find key rows (key row) with
  | none => exact absurd rfl (find_none_iff.mp hfound row h)
  | some other =>
      obtain ⟨hmem, hkey⟩ := find_some hfound
      rw [List.inj_on_of_nodup_map hkeys hmem h hkey]

/-- The only row that meets a condition is the one that is found by it. -/
theorem find?_of_unique {p : α → Bool} (h : row ∈ rows) (hp : p row = true)
    (hunique : ∀ other ∈ rows, p other = true → other = row) : rows.find? p = some row := by
  cases hfound : rows.find? p with
  | none => exact absurd hp (List.find?_eq_none.mp hfound row h)
  | some other =>
      rw [hunique other (List.mem_of_find?_eq_some hfound) (List.find?_some hfound)]

theorem mem_write : row ∈ write key rows k f ↔
    ∃ old ∈ rows, row = if key old = k then f old else old := by
  simp only [write, List.mem_map, eq_comm]

/-- Writing keeps the keys. -/
theorem map_key_write (hkey : ∀ row, key (f row) = key row) :
    (write key rows k f).map key = rows.map key := by
  rw [write, List.map_map]
  refine List.map_congr_left fun row _ => ?_
  rw [Function.comp_apply]
  split
  · exact hkey row
  · rfl

theorem find_write (hkey : ∀ row, key (f row) = key row) :
    find key (write key rows k f) k' = if k' = k then (find key rows k).map f
      else find key rows k' := by
  unfold find write
  rw [List.find?_map]
  have hsame : (fun row => decide (key row = k')) ∘ (fun row => if key row = k then f row else row) =
      fun row => decide (key row = k') := by
    funext row
    rw [Function.comp_apply]
    split
    · rw [hkey]
    · rfl
  rw [hsame]
  split
  · rename_i heq
    subst heq
    cases hfound : rows.find? (fun row => decide (key row = k')) with
    | none => rfl
    | some row =>
        rw [Option.map_some, Option.map_some, if_pos (find_some hfound).2]
  · rename_i hne
    cases hfound : rows.find? (fun row => decide (key row = k')) with
    | none => rfl
    | some row =>
        have hother : key row ≠ k := by
          rw [(find_some hfound).2]
          exact hne
        rw [Option.map_some, if_neg hother]

/-- A row under a new key is found there, and the others as before. -/
theorem find_append (hnew : find key rows (key row) = none) :
    find key (rows ++ [row]) k = if k = key row then some row else find key rows k := by
  unfold find at hnew ⊢
  rw [List.find?_append]
  split
  · rename_i heq
    subst heq
    rw [hnew]
    simp
  · rename_i hne
    have hother : [row].find? (fun row => decide (key row = k)) = none := by
      simp [Ne.symm hne]
    rw [hother, Option.or_none]

/-- What is found is found after an insertion. -/
theorem find_append_of_some {new : α} (h : find key rows k = some row) :
    find key (rows ++ [new]) k = some row := by
  unfold find at h ⊢
  rw [List.find?_append, h]
  rfl

/-- What is found is found after a write, as it has been written. -/
theorem find_write_of_some (hkey : ∀ row, key (f row) = key row)
    (h : find key rows k' = some row) :
    find key (write key rows k f) k' = some (if k' = k then f row else row) := by
  rw [find_write hkey]
  split
  · rename_i heq
    rw [← heq, h, Option.map_some]
  · exact h

/-- An insertion under a new key keeps the keys unique. -/
theorem nodup_append (hkeys : (rows.map key).Nodup) (hnew : find key rows (key row) = none) :
    ((rows ++ [row]).map key).Nodup := by
  rw [List.map_append, List.nodup_append]
  refine ⟨hkeys, List.nodup_singleton _, fun a ha b hb hab => ?_⟩
  obtain ⟨old, hold, rfl⟩ := List.mem_map.mp ha
  exact find_none_iff.mp hnew old hold (hab.trans (List.mem_singleton.mp hb))

/-- A write that makes the row under a key meet a condition adds it to those that do. -/
theorem filter_write_perm {p : α → Bool} (hkeys : (rows.map key).Nodup) (hmem : row ∈ rows)
    (hbefore : p row = false) (hafter : p (f row) = true) :
    ((write key rows (key row) f).filter p).Perm (f row :: rows.filter p) := by
  induction rows with
  | nil => cases hmem
  | cons first rest ih =>
      rw [List.map_cons, List.nodup_cons] at hkeys
      by_cases hfirst : key first = key row
      · -- No other row has the key.
        have hrest : write key rest (key row) f = rest := by
          refine (List.map_congr_left fun other hother => if_neg fun heq => ?_).trans
            (List.map_id rest)
          exact hkeys.1 (List.mem_map.mpr ⟨other, hother, heq.trans hfirst.symm⟩)
        obtain rfl | hlater := List.mem_cons.mp hmem
        · rw [write, List.map_cons, ← write, hrest, if_pos rfl, List.filter_cons_of_pos hafter,
            List.filter_cons_of_neg (by rw [hbefore]; exact Bool.false_ne_true)]
        · exact absurd (List.mem_map.mpr ⟨row, hlater, hfirst.symm⟩) hkeys.1
      · have hlater : row ∈ rest := by
          rcases List.mem_cons.mp hmem with rfl | hlater
          · exact absurd rfl hfirst
          · exact hlater
        rw [write, List.map_cons, ← write, if_neg hfirst, List.filter_cons, List.filter_cons]
        split
        · exact ((ih hkeys.2 hlater).cons first).trans (List.Perm.swap _ _ _)
        · exact ih hkeys.2 hlater

section Views

variable {β : Type} {view : α → β} {key' : β → K} {g : β → β}

/-- Writing a row writes what is seen of it. -/
theorem map_write (hkey : ∀ row, key' (view row) = key row)
    (hview : ∀ row ∈ rows, key row = k → view (f row) = g (view row)) :
    (write key rows k f).map view = write key' (rows.map view) k g := by
  rw [write, write, List.map_map, List.map_map]
  refine List.map_congr_left fun row hrow => ?_
  rw [Function.comp_apply, Function.comp_apply, hkey]
  split
  · rename_i hk
    exact hview row hrow hk
  · rfl

/-- What is not seen of a row can be written unseen. -/
theorem map_write_of_same (hview : ∀ row, view (f row) = view row) :
    (write key rows k f).map view = rows.map view := by
  rw [write, List.map_map]
  refine List.map_congr_left fun row _ => ?_
  rw [Function.comp_apply]
  split
  · exact hview row
  · rfl

theorem find_map (key' : β → K) (hkey : ∀ row, key' (view row) = key row) :
    find key' (rows.map view) k = (find key rows k).map view := by
  rw [find, find, List.find?_map]
  refine congrArg (Option.map view) (congrArg (List.find? · rows) ?_)
  funext row
  rw [Function.comp_apply, hkey]

end Views

end Tables
