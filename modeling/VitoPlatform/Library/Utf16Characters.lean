import VitoPlatform.Library.Utf16Bytes

/-!
# The characters of a UTF-16 text

A pair of surrogates is one character, and a surrogate that stands alone is read as the replacement
character. So a text that is cut within a pair has more characters than the whole
(`length_characters_divided`), and any other cut leaves them as they are (`characters_append`).
-/

namespace Utf16

/-- A unit that is not part of a pair. -/
def character (u : UInt16) : Char :=
  if isHigh u || isLow u then '\uFFFD' else Char.ofNat u.toNat

def pair (u v : UInt16) : Char :=
  Char.ofNat (0x10000 + (u.toNat - 0xD800) * 0x400 + (v.toNat - 0xDC00))

def characters : List UInt16 → List Char
  | [] => []
  | [u] => [character u]
  | u :: v :: rest =>
      if isHigh u && isLow v then pair u v :: characters rest
      else character u :: characters (v :: rest)

/-- A pair of surrogates is divided between two texts. -/
def Divides (s t : List UInt16) : Prop :=
  ∃ u ∈ s.getLast?, ∃ v ∈ t.head?, isHigh u = true ∧ isLow v = true

instance (s t : List UInt16) : Decidable (Divides s t) :=
  match hs : s.getLast?, ht : t.head? with
  | some u, some v =>
      decidable_of_iff (isHigh u = true ∧ isLow v = true) (by simp [Divides, hs, ht])
  | none, _ => isFalse (by simp [Divides, hs])
  | _, none => isFalse (by simp [Divides, ht])

variable {u v : UInt16} {s t : List UInt16}

theorem not_isLow_of_isHigh (h : isHigh u = true) : isLow u = false := by
  by_contra hlow
  rw [Bool.not_eq_false] at hlow
  rw [not_isHigh_of_isLow hlow] at h
  cases h

theorem characters_cons (h : ¬ Divides [u] t) :
    characters (u :: t) = character u :: characters t := by
  cases t with
  | nil => rfl
  | cons v t =>
      have hpair : ¬ (isHigh u && isLow v) = true := fun hpair =>
        h ⟨u, rfl, v, rfl, (Bool.and_eq_true_iff).mp hpair⟩
      rw [characters, if_neg hpair]

theorem characters_pair (hu : isHigh u = true) (hv : isLow v = true) :
    characters (u :: v :: t) = pair u v :: characters t := by
  rw [characters, hu, hv, Bool.true_and, if_pos rfl]

/-- A text that is not cut within a pair has the characters of its parts. -/
theorem characters_append (h : ¬ Divides s t) :
    characters (s ++ t) = characters s ++ characters t := by
  fun_induction characters s with
  | case1 => rfl
  | case2 u => exact characters_cons h
  | case3 u v rest hpair ih =>
      obtain ⟨hu, hv⟩ := (Bool.and_eq_true_iff).mp hpair
      have hrest : ¬ Divides rest t := by
        rintro ⟨w, hw, hdivides⟩
        have hne : rest ≠ [] := by
          rintro rfl
          cases hw
        refine h ⟨w, ?_, hdivides⟩
        rw [List.getLast?_cons_of_ne_nil (List.cons_ne_nil v rest),
          List.getLast?_cons_of_ne_nil hne]
        exact hw
      rw [List.cons_append, List.cons_append, characters_pair hu hv, ih hrest, List.cons_append]
  | case4 u v rest hpair ih =>
      have hrest : ¬ Divides (v :: rest) t := by
        rintro ⟨w, hw, hdivides⟩
        refine h ⟨w, ?_, hdivides⟩
        rw [List.getLast?_cons_of_ne_nil (List.cons_ne_nil v rest)]
        exact hw
      have hnot : ¬ Divides [u] (v :: (rest ++ t)) := by
        rintro ⟨w, hw, x, hx, hhigh, hlow⟩
        cases hw
        cases hx
        exact hpair ((Bool.and_eq_true_iff).mpr ⟨hhigh, hlow⟩)
      rw [List.cons_append, List.cons_append, characters_cons hnot, ← List.cons_append, ih hrest,
        List.cons_append]

/-- A pair that is divided is read as two characters. -/
theorem characters_divided (h : Divides s t) : ∃ before after c,
    characters (s ++ t) = before ++ c :: after ∧ characters s = before ++ ['\uFFFD'] ∧
      characters t = '\uFFFD' :: after := by
  obtain ⟨u, hu, v, hv, hhigh, hlow⟩ := h
  obtain ⟨s, rfl⟩ := List.getLast?_eq_some_iff.mp hu
  obtain ⟨t, rfl⟩ := List.head?_eq_some_iff.mp hv
  have hbefore (rest : List UInt16) : ¬ Divides s (u :: rest) := by
    rintro ⟨-, -, w, hw, -, hlow'⟩
    cases hw
    rw [not_isLow_of_isHigh hhigh] at hlow'
    cases hlow'
  have hnot : ¬ Divides [v] t := by
    rintro ⟨w, hw, -, -, hhigh', -⟩
    obtain rfl : v = w := Option.some.inj hw
    rw [not_isHigh_of_isLow hlow] at hhigh'
    cases hhigh'
  refine ⟨characters s, characters t, pair u v, ?_, ?_, ?_⟩
  · rw [List.append_assoc, List.singleton_append, characters_append (hbefore _),
      characters_pair hhigh hlow]
  · rw [characters_append (hbefore [])]
    change characters s ++ [character u] = _
    rw [character, hhigh, Bool.true_or, if_pos rfl]
  · rw [characters_cons hnot, character, hlow, Bool.or_true, if_pos rfl]

/-! ## Pieces -/

section Pieces

variable {p : Char → Bool} {pieces : List (List UInt16)}

/-- The characters of a text of which `p` holds. -/
def filtered (p : Char → Bool) (text : List UInt16) : List Char := (characters text).filter p

theorem filtered_append (h : ¬ Divides s t) :
    filtered p (s ++ t) = filtered p s ++ filtered p t := by
  rw [filtered, characters_append h, List.filter_append]
  rfl

theorem length_filtered_divided (hp : p '\uFFFD' = true) (h : Divides s t) :
    (filtered p (s ++ t)).length < (filtered p s ++ filtered p t).length := by
  obtain ⟨before, after, c, hall, hs, ht⟩ := characters_divided h
  have hlength : ((c :: after).filter p).length ≤ (after.filter p).length + 1 := by
    rw [List.filter_cons]
    split_ifs
    · exact Nat.le_refl _
    · exact Nat.le_succ _
  rw [filtered, filtered, filtered, hall, hs, ht, List.filter_append, List.filter_append,
    List.filter_cons_of_pos hp, List.filter_cons_of_pos hp]
  simp only [List.length_append, List.length_cons, List.filter_nil, List.length_nil]
  omega

/-- Neighbouring pieces do not divide a pair. -/
def Whole (pieces : List (List UInt16)) : Prop := pieces.IsChain fun s t => ¬ Divides s t

/-- The pieces have at least the characters of the whole, and these only if no pair is divided. -/
theorem filtered_flatten (hp : p '\uFFFD' = true) (hne : ∀ piece ∈ pieces, piece ≠ []) :
    (filtered p pieces.flatten).length ≤ (pieces.flatMap (filtered p)).length ∧
      (pieces.flatMap (filtered p) = filtered p pieces.flatten ↔ Whole pieces) := by
  induction pieces with
  | nil => exact ⟨Nat.le_refl _, ⟨fun _ => .nil, fun _ => rfl⟩⟩
  | cons piece pieces ih =>
      obtain ⟨hle, hiff⟩ := ih fun other hother => hne other (List.mem_cons_of_mem piece hother)
      have hhead : Whole (piece :: pieces) ↔ ¬ Divides piece pieces.flatten ∧ Whole pieces := by
        cases pieces with
        | nil =>
            refine ⟨fun _ => ⟨?_, .nil⟩, fun _ => .singleton piece⟩
            rintro ⟨-, -, v, hv, -⟩
            cases hv
        | cons next pieces =>
            obtain ⟨v, rest, rfl⟩ := List.exists_cons_of_ne_nil
              (hne next (List.mem_cons_of_mem piece List.mem_cons_self))
            exact List.isChain_cons_cons
      rw [List.flatten_cons, List.flatMap_cons, hhead]
      by_cases hdivides : Divides piece pieces.flatten
      · have hlt := length_filtered_divided hp hdivides
        rw [List.length_append] at hlt
        refine ⟨?_, ⟨fun heq => ?_, fun h => absurd hdivides h.1⟩⟩
        · rw [List.length_append]
          omega
        · have hlength := congrArg List.length heq
          rw [List.length_append] at hlength
          omega
      · rw [filtered_append hdivides, List.length_append, List.length_append]
        refine ⟨by omega, ⟨fun heq => ⟨hdivides, hiff.mp ?_⟩, fun h => ?_⟩⟩
        · exact List.append_cancel_left heq
        · rw [hiff.mpr h.2]

end Pieces

end Utf16
