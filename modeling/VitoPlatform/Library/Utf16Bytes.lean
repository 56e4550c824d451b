import Mathlib.Data.List.Basic

/-!
# The size of a text in UTF-8

A text is a list of UTF-16 code units, surrogates that stand alone included: each of these is
written as the replacement character. A unit takes three octets at most, and a pair of surrogates
four, so a text that is put together of pieces is never larger than these.
-/

namespace Utf16

def isHigh (u : UInt16) : Bool := 0xD800 ≤ u && u < 0xDC00

def isLow (u : UInt16) : Bool := 0xDC00 ≤ u && u < 0xE000

/-- The octets of a unit that is not part of a pair. -/
def unitBytes (u : UInt16) : Nat := if u < 0x80 then 1 else if u < 0x800 then 2 else 3

/-- `Buffer.byteLength(text, 'utf8')`. -/
def byteLength : List UInt16 → Nat
  | [] => 0
  | [u] => unitBytes u
  | u :: v :: rest =>
      if isHigh u && isLow v then 4 + byteLength rest else unitBytes u + byteLength (v :: rest)

variable {u v : UInt16} {text s t : List UInt16}

theorem unitBytes_le (u : UInt16) : unitBytes u ≤ 3 := by
  unfold unitBytes
  split_ifs <;> omega

theorem unitBytes_of_surrogate (h : 0xD800 ≤ u) : unitBytes u = 3 := by
  have hle : 0xD800 ≤ u.toNat := h
  have h1 : ¬ u < 0x80 := fun hlt => by
    have hlt' : u.toNat < 0x80 := hlt
    omega
  have h2 : ¬ u < 0x800 := fun hlt => by
    have hlt' : u.toNat < 0x800 := hlt
    omega
  rw [unitBytes, if_neg h1, if_neg h2]

theorem not_isHigh_of_isLow (h : isLow v = true) : isHigh v = false := by
  obtain ⟨hle, -⟩ := (Bool.and_eq_true_iff).mp h
  have hnot : ¬ v < 0xDC00 := UInt16.not_lt.mpr (of_decide_eq_true hle)
  rw [isHigh, decide_eq_false hnot, Bool.and_false]

theorem byteLength_le (text : List UInt16) : byteLength text ≤ 3 * text.length := by
  fun_induction byteLength text with
  | case1 => exact Nat.le_refl _
  | case2 u => exact unitBytes_le u
  | case3 u v rest _ ih =>
      rw [List.length_cons, List.length_cons]
      omega
  | case4 u v rest _ ih =>
      have hunit := unitBytes_le u
      rw [List.length_cons] at ih ⊢
      rw [List.length_cons]
      omega

theorem byteLength_cons (h : isHigh u = false) : byteLength (u :: text) =
    unitBytes u + byteLength text := by
  cases text with
  | nil => rfl
  | cons v text => rw [byteLength, h, Bool.false_and, if_neg Bool.false_ne_true]

theorem byteLength_pair (hu : isHigh u = true) (hv : isLow v = true) :
    byteLength (u :: v :: text) = 4 + byteLength text := by
  rw [byteLength, hu, hv, Bool.true_and, if_pos rfl]

/-- A unit in front of a text takes no more than alone. -/
theorem byteLength_cons_le (u : UInt16) (text : List UInt16) :
    byteLength (u :: text) ≤ unitBytes u + byteLength text := by
  cases text with
  | nil => exact Nat.le_refl _
  | cons v rest =>
      rw [byteLength]
      split_ifs with hpair
      · obtain ⟨hhigh, hlow⟩ := (Bool.and_eq_true_iff).mp hpair
        have hu : unitBytes u = 3 :=
          unitBytes_of_surrogate (of_decide_eq_true ((Bool.and_eq_true_iff).mp hhigh).1)
        have hv : unitBytes v = 3 := by
          have hle : (0xDC00 : UInt16) ≤ v :=
            of_decide_eq_true ((Bool.and_eq_true_iff).mp hlow).1
          have hle' : 0xDC00 ≤ v.toNat := hle
          exact unitBytes_of_surrogate (Nat.le_trans (by decide) hle')
        have hrest : byteLength (v :: rest) = 3 + byteLength rest := by
          rw [byteLength_cons (not_isHigh_of_isLow hlow), hv]
        omega
      · exact Nat.le_refl _

/-- A text takes no more than its pieces. -/
theorem byteLength_append_le (s t : List UInt16) :
    byteLength (s ++ t) ≤ byteLength s + byteLength t := by
  fun_induction byteLength s with
  | case1 => exact Nat.le_of_eq (Nat.zero_add (byteLength t)).symm
  | case2 u => exact byteLength_cons_le u t
  | case3 u v rest hpair ih =>
      rw [List.cons_append, List.cons_append, byteLength, if_pos hpair]
      omega
  | case4 u v rest hpair ih =>
      rw [List.cons_append, List.cons_append, byteLength, if_neg hpair, ← List.cons_append]
      omega

end Utf16
