import Mathlib.Algebra.GroupWithZero.Nat
import Mathlib.Data.List.Nodup

/-!
# Maps that remember the order of insertion

A map whose entries stand in the order in which their keys came in. Writing a value under a
key that is there leaves the key in its place; a key that is deleted and written again comes
last.
-/

structure InsertionMap (K V : Type) where
  entries : List (K × V)
  nodup : (entries.map Prod.fst).Nodup

namespace InsertionMap

variable {K V : Type} {m : InsertionMap K V} {k k' : K} {v v' : V}

def empty : InsertionMap K V := ⟨[], List.nodup_nil⟩

def size (m : InsertionMap K V) : Nat := m.entries.length

def keys (m : InsertionMap K V) : List K := m.entries.map Prod.fst

def values (m : InsertionMap K V) : List V := m.entries.map Prod.snd

/-- The entries for which `p` holds. -/
def filter (m : InsertionMap K V) (p : K × V → Bool) : InsertionMap K V :=
  ⟨m.entries.filter p, m.nodup.sublist (List.filter_sublist.map _)⟩

/-- Other values under the same keys. -/
def mapValues (m : InsertionMap K V) (f : V → V) : InsertionMap K V :=
  ⟨m.entries.map fun entry => (entry.1, f entry.2), by
    rw [List.map_map]
    exact m.nodup⟩

/-- Without the `n` oldest entries. -/
def drop (m : InsertionMap K V) (n : Nat) : InsertionMap K V :=
  ⟨m.entries.drop n, m.nodup.sublist ((List.drop_sublist n _).map _)⟩

/-- Add a key that is not there. -/
def append (m : InsertionMap K V) (k : K) (v : V) (h : k ∉ m.keys) : InsertionMap K V :=
  ⟨m.entries ++ [(k, v)], by
    rw [List.map_append, List.nodup_append]
    refine ⟨m.nodup, List.nodup_singleton _, fun a ha b hb hab => h ?_⟩
    have hk : a = k := hab.trans (List.mem_singleton.mp hb)
    rwa [← hk]⟩

theorem eq_of_entries {m m' : InsertionMap K V} (h : m.entries = m'.entries) : m = m' := by
  obtain ⟨entries, hnodup⟩ := m
  obtain ⟨entries', hnodup'⟩ := m'
  obtain rfl : entries = entries' := h
  rfl

theorem mem_keys_of_mem (h : (k, v) ∈ m.entries) : k ∈ m.keys := List.mem_map_of_mem h

theorem mem_filter {p : K × V → Bool} :
    (k, v) ∈ (m.filter p).entries ↔ (k, v) ∈ m.entries ∧ p (k, v) = true :=
  List.mem_filter

theorem filter_filter (p : K × V → Bool) : (m.filter p).filter p = m.filter p := by
  simp only [filter, List.filter_filter, Bool.and_self]

theorem mem_values : v ∈ m.values ↔ ∃ k, (k, v) ∈ m.entries := by
  simp [values]

theorem mem_mapValues {f : V → V} :
    (k, v) ∈ (m.mapValues f).entries ↔ ∃ u, (k, u) ∈ m.entries ∧ v = f u := by
  simp only [mapValues, List.mem_map, Prod.mk.injEq, Prod.exists]
  constructor
  · rintro ⟨_, u, h, rfl, rfl⟩
    exact ⟨u, h, rfl⟩
  · rintro ⟨u, h, rfl⟩
    exact ⟨k, u, h, rfl, rfl⟩

section Keys

variable [DecidableEq K]

def get (m : InsertionMap K V) (k : K) : Option V :=
  (m.entries.find? fun entry => entry.1 = k).map Prod.snd

def has (m : InsertionMap K V) (k : K) : Bool := m.entries.any fun entry => entry.1 = k

def delete (m : InsertionMap K V) (k : K) : InsertionMap K V := m.filter fun entry => entry.1 ≠ k

def set (m : InsertionMap K V) (k : K) (v : V) : InsertionMap K V :=
  if h : k ∈ m.keys then
    ⟨m.entries.map fun entry => if entry.1 = k then (k, v) else entry, by
      have hkeys : ((m.entries.map fun entry => if entry.1 = k then (k, v) else entry).map
          Prod.fst) = m.entries.map Prod.fst := by
        rw [List.map_map]
        refine List.map_congr_left fun entry _ => ?_
        simp only [Function.comp_apply]
        split
        · rename_i hkey
          exact hkey.symm
        · rfl
      rw [hkeys]
      exact m.nodup⟩
  else m.append k v h

theorem has_iff : m.has k = true ↔ k ∈ m.keys := by
  simp [has, keys]

theorem get_eq_some_iff : m.get k = some v ↔ (k, v) ∈ m.entries := by
  obtain ⟨entries, hnodup⟩ := m
  simp only [get]
  induction entries with
  | nil => simp
  | cons entry entries ih =>
      rw [List.map_cons, List.nodup_cons] at hnodup
      obtain ⟨k', v'⟩ := entry
      rw [List.find?_cons]
      by_cases hk : k' = k
      · subst hk
        simp only [decide_true, Option.map_some, Option.some.injEq, List.mem_cons, Prod.mk.injEq,
          true_and]
        refine ⟨fun h => .inl h.symm, ?_⟩
        rintro (h | h)
        · exact h.symm
        · exact absurd (List.mem_map_of_mem h) hnodup.1
      · have hne : (k, v) ≠ (k', v') := fun h => hk (Prod.mk.inj h).1.symm
        simp only [hk, decide_false, List.mem_cons, hne, false_or]
        exact ih hnodup.2

theorem mem_delete : (k, v) ∈ (m.delete k').entries ↔ (k, v) ∈ m.entries ∧ k ≠ k' := by
  simp [delete, mem_filter]

theorem not_mem_keys_delete : k ∉ (m.delete k).keys := by
  intro h
  obtain ⟨⟨k', v⟩, hmem, rfl⟩ := List.mem_map.mp h
  exact (mem_delete.mp hmem).2 rfl

theorem set_of_not_mem (h : k ∉ m.keys) : (m.set k v).entries = m.entries ++ [(k, v)] := by
  rw [set, dif_neg h]
  rfl

theorem keys_set_of_mem (h : k ∈ m.keys) : (m.set k v).keys = m.keys := by
  rw [set, dif_pos h, keys, keys, List.map_map]
  refine List.map_congr_left fun entry _ => ?_
  rw [Function.comp_apply]
  split_ifs with hkey
  · exact hkey.symm
  · rfl

theorem keys_set_of_not_mem (h : k ∉ m.keys) : (m.set k v).keys = m.keys ++ [k] := by
  rw [keys, set_of_not_mem h, List.map_append]
  rfl

theorem sum_replace_le {entries : List (K × V)} (hnodup : (entries.map Prod.fst).Nodup)
    (f : V → Nat) :
    (entries.map fun entry => f (if entry.1 = k then (k, v) else entry).2).sum ≤
      (entries.map fun entry => f entry.2).sum + f v := by
  induction entries with
  | nil => exact Nat.zero_le _
  | cons entry entries ih =>
      rw [List.map_cons, List.nodup_cons] at hnodup
      rw [List.map_cons, List.map_cons, List.sum_cons, List.sum_cons]
      by_cases hentry : entry.1 = k
      · have hrest : ∀ other ∈ entries, other.1 ≠ k := fun other hother heq =>
          hnodup.1 ((hentry.trans heq.symm) ▸ List.mem_map_of_mem hother)
        have hsame : (entries.map fun entry => f (if entry.1 = k then (k, v) else entry).2) =
            entries.map fun entry => f entry.2 :=
          List.map_congr_left fun other hother => by rw [if_neg (hrest other hother)]
        rw [hsame, if_pos hentry]
        change f v + _ ≤ _
        omega
      · have hle := ih hnodup.2
        rw [if_neg hentry]
        omega

/-- What the values of a map come to, if one more is written. -/
theorem sum_values_set_le (f : V → Nat) :
    ((m.set k v).values.map f).sum ≤ (m.values.map f).sum + f v := by
  by_cases hk : k ∈ m.keys
  · have hle := sum_replace_le (k := k) (v := v) m.nodup f
    rw [set, dif_pos hk, values, values, List.map_map, List.map_map, List.map_map]
    exact hle
  · rw [values, set_of_not_mem hk, List.map_append, List.map_append, List.sum_append]
    exact Nat.le_of_eq (by simp [values])

/-- `new Map(entries)`: a later entry of a key replaces the value of an earlier one. -/
def ofEntries (entries : List (K × V)) : InsertionMap K V :=
  entries.foldl (fun m entry => m.set entry.1 entry.2) empty

theorem entries_foldl_set (entries : List (K × V)) (m : InsertionMap K V)
    (hnodup : (m.keys ++ entries.map Prod.fst).Nodup) :
    (entries.foldl (fun m entry => m.set entry.1 entry.2) m).entries = m.entries ++ entries := by
  induction entries generalizing m with
  | nil => exact (List.append_nil _).symm
  | cons entry entries ih =>
      have hfresh : entry.1 ∉ m.keys := fun h =>
        (List.nodup_append.mp hnodup).2.2 _ h _ (List.mem_cons_self ..) rfl
      have hset := set_of_not_mem (v := entry.2) hfresh
      rw [List.foldl_cons, ih, hset, List.append_assoc, List.singleton_append]
      rw [keys, hset, List.map_append, List.append_assoc]
      exact hnodup

/-- The entries of a map made from a list of entries with different keys. -/
theorem entries_ofEntries {entries : List (K × V)} (hnodup : (entries.map Prod.fst).Nodup) :
    (ofEntries entries).entries = entries :=
  entries_foldl_set entries empty hnodup

theorem get_ofEntries {entries : List (K × V)} (hnodup : (entries.map Prod.fst).Nodup) :
    (ofEntries entries).get k = some v ↔ (k, v) ∈ entries := by
  rw [get_eq_some_iff, entries_ofEntries hnodup]

/-- A map made from a list of items, each under a key of its own. -/
theorem get_ofEntries_map {ι : Type} {items : List ι} {key : ι → K} {value : ι → V}
    (hnodup : (items.map key).Nodup) :
    (ofEntries (items.map fun item => (key item, value item))).get k = some v ↔
      ∃ item ∈ items, key item = k ∧ value item = v := by
  have hkeys : ((items.map fun item => (key item, value item)).map Prod.fst).Nodup := by
    rw [List.map_map]
    exact hnodup
  rw [get_ofEntries hkeys]
  simp only [List.mem_map, Prod.mk.injEq]

/-- A key has one value. -/
theorem eq_of_mem (h : (k, v) ∈ m.entries) (h' : (k, v') ∈ m.entries) : v = v' :=
  Option.some.inj ((get_eq_some_iff.mpr h).symm.trans (get_eq_some_iff.mpr h'))

end Keys

end InsertionMap
