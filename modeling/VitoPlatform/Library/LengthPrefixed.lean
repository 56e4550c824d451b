import VitoPlatform.Library.Text
import Std.Data.String.ToNat

/-!
# Records of length-prefixed fields

A record is written as a sequence of fields, each with a label, the size of its text and the text
itself. The size tells where the text ends, so the text may contain the separators: a record is
determined by how it is written (`encode_injective`). The size of a text is the sum of the sizes
of its characters, whatever these are as long as none is zero.
-/

namespace LengthPrefixed

open Text

variable {size : Char → Nat}

def textSize (size : Char → Nat) (text : Str) : Nat := (text.map size).sum

def encodeField (size : Char → Nat) (field : Str × Str) : Str :=
  '|' :: (field.1 ++ ':' :: ((toString (textSize size field.2)).toList ++ ':' :: field.2))

def encode (size : Char → Nat) (fields : List (Str × Str)) : Str :=
  fields.flatMap (encodeField size)

/-- Of two texts of one size that start a common text, none is longer. -/
theorem append_cancel_of_size (hsize : ∀ c, 0 < size c) {a b s t : Str} (h : a ++ s = b ++ t)
    (hab : textSize size a = textSize size b) : a = b ∧ s = t := by
  induction a generalizing b with
  | nil =>
      cases b with
      | nil => exact ⟨rfl, h⟩
      | cons c b =>
          have hc := hsize c
          simp only [textSize, List.map_nil, List.sum_nil, List.map_cons, List.sum_cons] at hab
          omega
  | cons c a ih =>
      cases b with
      | nil =>
          have hc := hsize c
          simp only [textSize, List.map_nil, List.sum_nil, List.map_cons, List.sum_cons] at hab
          omega
      | cons d b =>
          obtain ⟨rfl, hrest⟩ := List.cons.inj h
          simp only [textSize, List.map_cons, List.sum_cons] at hab
          obtain ⟨rfl, rfl⟩ := ih hrest (Nat.add_left_cancel hab)
          exact ⟨rfl, rfl⟩

theorem colon_not_mem_digits (n : Nat) : ':' ∉ (toString n).toList := by
  intro hmem
  have hdigits : ':' ∈ Nat.toDigits 10 n := by simpa [toString, Nat.repr] using hmem
  have hdigit : Char.isDigit ':' = true :=
    Nat.isDigit_of_mem_toDigits (by decide) (by decide) hdigits
  cases hdigit

theorem digits_injective {n m : Nat} (h : (toString n).toList = (toString m).toList) : n = m :=
  Nat.repr_injective (String.toList_injective h)

/-- A field ends where its size says. -/
theorem encodeField_injective (hsize : ∀ c, 0 < size c) {f g : Str × Str} (hf : ':' ∉ f.1)
    (hg : ':' ∉ g.1) {s t : Str} (h : encodeField size f ++ s = encodeField size g ++ t) :
    f = g ∧ s = t := by
  obtain ⟨label, text⟩ := f
  obtain ⟨label', text'⟩ := g
  have hlabel : ':' ∉ label := hf
  have hlabel' : ':' ∉ label' := hg
  simp only [encodeField, List.cons_append, List.append_assoc, List.cons.injEq, true_and] at h
  obtain ⟨rfl, hsized⟩ := separated_injective hlabel hlabel' h
  obtain ⟨hlength, htexts⟩ :=
    separated_injective (colon_not_mem_digits _) (colon_not_mem_digits _) hsized
  obtain ⟨rfl, rfl⟩ := append_cancel_of_size hsize htexts (digits_injective hlength)
  exact ⟨rfl, rfl⟩

/-- A record is determined by how it is written. -/
theorem encode_injective (hsize : ∀ c, 0 < size c) {fields fields' : List (Str × Str)}
    (hlabels : ∀ f ∈ fields, ':' ∉ f.1) (hlabels' : ∀ f ∈ fields', ':' ∉ f.1)
    (h : encode size fields = encode size fields') : fields = fields' := by
  induction fields generalizing fields' with
  | nil =>
      cases fields' with
      | nil => rfl
      | cons f fields' => cases h
  | cons f fields ih =>
      cases fields' with
      | nil => cases h
      | cons f' fields' =>
          simp only [encode, List.flatMap_cons] at h
          rw [List.forall_mem_cons] at hlabels hlabels'
          obtain ⟨rfl, hrest⟩ := encodeField_injective hsize hlabels.1 hlabels'.1 h
          rw [ih hlabels.2 hlabels'.2 hrest]

end LengthPrefixed
