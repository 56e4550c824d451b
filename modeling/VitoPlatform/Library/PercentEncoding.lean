import VitoPlatform.Library.Utf8

/-!
# Percent encoding

A text in which every character that is not kept stands as its octets in hexadecimal digits, each
behind a percent sign. Where only small characters other than the percent sign are kept, the octets
of the text can be read back (`unescape_escape`), so the encoding is injective.
-/

namespace PercentEncoding

def hexDigit (n : Nat) : Char := Char.ofNat (if n < 10 then 48 + n else 55 + n)

def hexValue (c : Char) : Nat := if c.toNat < 58 then c.toNat - 48 else c.toNat - 55

/-- An octet in two digits. -/
def percent (b : UInt8) : List Char := ['%', hexDigit (b.toNat / 16), hexDigit (b.toNat % 16)]

def escapeChar (keep : Char → Bool) (c : Char) : List Char :=
  if keep c then [c] else (String.utf8EncodeChar c).flatMap percent

def escape (keep : Char → Bool) (text : List Char) : List Char := text.flatMap (escapeChar keep)

def unescape : List Char → List UInt8
  | '%' :: a :: b :: rest => UInt8.ofNat (hexValue a * 16 + hexValue b) :: unescape rest
  | c :: rest => Utf8.octet c :: unescape rest
  | [] => []

/-- Only small characters other than the percent sign are kept. -/
def Plain (keep : Char → Bool) : Prop := ∀ c, keep c = true → c.toNat < 0x80 ∧ c ≠ '%'

variable {keep : Char → Bool} {text rest : List Char} {c : Char}

theorem hexValue_hexDigit : ∀ n < 16, hexValue (hexDigit n) = n := by decide

theorem hexDigit_isAlphanum : ∀ n < 16, (hexDigit n).isAlphanum = true := by decide

theorem unescape_percent (b : UInt8) : unescape (percent b ++ rest) = b :: unescape rest := by
  have hb : b.toNat < 256 := b.toNat_lt
  have hvalue : hexValue (hexDigit (b.toNat / 16)) * 16 + hexValue (hexDigit (b.toNat % 16)) =
      b.toNat := by
    rw [hexValue_hexDigit _ (by omega), hexValue_hexDigit _ (by omega)]
    omega
  rw [percent, List.cons_append, List.cons_append, List.cons_append, List.nil_append, unescape,
    hvalue, UInt8.ofNat_toNat]

theorem unescape_cons (h : c ≠ '%') : unescape (c :: rest) = Utf8.octet c :: unescape rest := by
  rw [unescape]
  rintro a b rest' rfl
  exact absurd rfl h

theorem unescape_flatMap_percent (octets : List UInt8) :
    unescape (octets.flatMap percent ++ rest) = octets ++ unescape rest := by
  induction octets with
  | nil => rfl
  | cons b octets ih =>
      rw [List.flatMap_cons, List.append_assoc, unescape_percent, ih, List.cons_append]

theorem unescape_escape (hkeep : Plain keep) : unescape (escape keep text) = Utf8.encode text := by
  induction text with
  | nil => rfl
  | cons c text ih =>
      rw [escape, List.flatMap_cons, Utf8.encode, List.flatMap_cons, escapeChar]
      rw [escape, Utf8.encode] at ih
      split
      · rename_i hc
        obtain ⟨hsmall, hpercent⟩ := hkeep c hc
        have hsingle : Utf8.encode [c] = [Utf8.octet c] := Utf8.encode_ascii (by simpa [Utf8.Ascii])
        rw [Utf8.encode, List.flatMap_cons, List.flatMap_nil, List.append_nil] at hsingle
        rw [List.singleton_append, unescape_cons hpercent, ih, hsingle, List.singleton_append]
      · rw [unescape_flatMap_percent, ih]

theorem escape_injective (hkeep : Plain keep) : Function.Injective (escape keep) := by
  intro a b h
  have hoctets := congrArg unescape h
  rw [unescape_escape hkeep, unescape_escape hkeep] at hoctets
  have hdecoded := congrArg Utf8.decode hoctets
  rwa [Utf8.decode_encode, Utf8.decode_encode] at hdecoded

theorem mem_percent {d : Char} {b : UInt8} (h : d ∈ percent b) :
    d = '%' ∨ d.isAlphanum = true := by
  have hb : b.toNat < 256 := b.toNat_lt
  simp only [percent, List.mem_cons, List.not_mem_nil, or_false] at h
  obtain rfl | rfl | rfl := h
  · exact .inl rfl
  · exact .inr (hexDigit_isAlphanum _ (by omega))
  · exact .inr (hexDigit_isAlphanum _ (by omega))

/-- What stands in an encoded text: kept characters, percent signs, and digits. -/
theorem mem_escapeChar {d : Char} (h : d ∈ escapeChar keep c) :
    keep d = true ∨ d = '%' ∨ d.isAlphanum = true := by
  rw [escapeChar] at h
  split at h
  · rename_i hc
    rw [List.mem_singleton.mp h]
    exact .inl hc
  · obtain ⟨b, -, hd⟩ := List.mem_flatMap.mp h
    exact .inr (mem_percent hd)

theorem mem_escape {d : Char} (h : d ∈ escape keep text) :
    keep d = true ∨ d = '%' ∨ d.isAlphanum = true := by
  obtain ⟨c, -, hd⟩ := List.mem_flatMap.mp h
  exact mem_escapeChar hd

/-- An encoding determines its text. -/
theorem eq_decode_of_escape_eq (hkeep : Plain keep) {other : List Char}
    (h : escape keep text = other) : text = Utf8.decode (unescape other) := by
  rw [← h, unescape_escape hkeep, Utf8.decode_encode]

end PercentEncoding
