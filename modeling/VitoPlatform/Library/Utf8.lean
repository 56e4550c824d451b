import Mathlib.Data.List.Basic
import Mathlib.Tactic.SplitIfs

/-!
# Texts as octets

The encoding of a text in UTF-8, and the decoding that replaces what is no text: a sequence that
breaks off, or an octet that starts none, becomes the replacement character. The decoder is a
machine that reads octet by octet; where it stands between two characters (`Ended`), the octets
before and after can be decoded on their own.
-/

namespace Utf8

/-- What is read where there is no character. -/
def replacement : Char := '\uFFFD'

/-- Between two characters, or inside one: what has been read of it, how many octets are missing,
and between which bounds the next one has to be. -/
inductive State where
  | start
  | inside (read missing low high : Nat)
  deriving DecidableEq

/-- The first octet of a character. -/
def first (b : Nat) : List Char × State :=
  if b < 0x80 then ([Char.ofNat b], .start)
  else if b < 0xC2 then ([replacement], .start)
  else if b < 0xE0 then ([], .inside (b - 0xC0) 1 0x80 0xBF)
  else if b = 0xE0 then ([], .inside 0 2 0xA0 0xBF)
  else if b = 0xED then ([], .inside 0xD 2 0x80 0x9F)
  else if b < 0xF0 then ([], .inside (b - 0xE0) 2 0x80 0xBF)
  else if b = 0xF0 then ([], .inside 0 3 0x90 0xBF)
  else if b < 0xF4 then ([], .inside (b - 0xF0) 3 0x80 0xBF)
  else if b = 0xF4 then ([], .inside 4 3 0x80 0x8F)
  else ([replacement], .start)

/-- One octet: what it completes, and where the machine stands after it. -/
def step : State → Nat → List Char × State
  | .start, b => first b
  | .inside read missing low high, b =>
      if low ≤ b ∧ b ≤ high then
        if missing ≤ 1 then ([Char.ofNat (read * 64 + (b - 0x80))], .start)
        else ([], .inside (read * 64 + (b - 0x80)) (missing - 1) 0x80 0xBF)
      else (replacement :: (first b).1, (first b).2)

/-- Where the machine stands after some octets. -/
def after : State → List UInt8 → State
  | state, [] => state
  | state, b :: rest => after (step state b.toNat).2 rest

def decodeFrom : State → List UInt8 → List Char
  | .start, [] => []
  | .inside _ _ _ _, [] => [replacement]
  | state, b :: rest => (step state b.toNat).1 ++ decodeFrom (step state b.toNat).2 rest

/-- The text of some octets. -/
def decode (octets : List UInt8) : List Char := decodeFrom .start octets

/-- The octets of a text. -/
def encode (text : List Char) : List UInt8 := text.flatMap String.utf8EncodeChar

/-- The octets do not end inside a character. -/
def Ended (octets : List UInt8) : Prop := after .start octets = .start

instance : DecidablePred Ended := fun octets => inferInstanceAs (Decidable (_ = _))

variable {a b : List UInt8} {state : State} {text : List Char} {c : Char}

theorem decodeFrom_cons (octet : UInt8) :
    decodeFrom state (octet :: b) =
      (step state octet.toNat).1 ++ decodeFrom (step state octet.toNat).2 b := by
  cases state <;> rfl

theorem decodeFrom_append (h : after state a = .start) :
    decodeFrom state (a ++ b) = decodeFrom state a ++ decode b := by
  induction a generalizing state with
  | nil =>
      obtain rfl : state = .start := h
      rfl
  | cons octet a ih =>
      rw [List.cons_append, decodeFrom_cons, decodeFrom_cons, ih h, List.append_assoc]

/-- Where octets end between two characters, they are decoded on their own. -/
theorem decode_append (h : Ended a) : decode (a ++ b) = decode a ++ decode b :=
  decodeFrom_append h

/-- Pieces that do not end inside a character, but for the last one, are decoded one by one. -/
theorem decode_flatten {pieces : List (List UInt8)} (h : ∀ piece ∈ pieces.dropLast, Ended piece) :
    decode pieces.flatten = pieces.flatMap decode := by
  induction pieces with
  | nil => rfl
  | cons piece pieces ih =>
      cases pieces with
      | nil => simp
      | cons next pieces =>
          rw [List.dropLast_cons₂, List.forall_mem_cons] at h
          rw [List.flatten_cons, decode_append h.1, ih h.2]
          rfl

theorem encode_append {more : List Char} : encode (text ++ more) = encode text ++ encode more := by
  rw [encode, List.flatMap_append]
  rfl

/-! ## Reading back what has been encoded -/

/-- An octet that continues a character. -/
def Continuation (octet : UInt8) : Prop := 0x80 ≤ octet.toNat ∧ octet.toNat < 0xC0

instance : DecidablePred Continuation := fun octet =>
  inferInstanceAs (Decidable (0x80 ≤ octet.toNat ∧ octet.toNat < 0xC0))

/-- The octets of a character: a small one, or a leading one and the continuation octets. -/
inductive Encoded (n : Nat) : List UInt8 → Prop where
  | one {x : UInt8} : x.toNat = n → n < 0x80 → Encoded n [x]
  | two {x y : UInt8} : x.toNat = n / 64 + 0xC0 → y.toNat = n % 64 + 0x80 →
      0x80 ≤ n → n < 0x800 → Encoded n [x, y]
  | three {x y z : UInt8} : x.toNat = n / 4096 + 0xE0 → y.toNat = n / 64 % 64 + 0x80 →
      z.toNat = n % 64 + 0x80 → 0x800 ≤ n → n < 0x10000 → Encoded n [x, y, z]
  | four {x y z w : UInt8} : x.toNat = n / 262144 + 0xF0 → y.toNat = n / 4096 % 64 + 0x80 →
      z.toNat = n / 64 % 64 + 0x80 → w.toNat = n % 64 + 0x80 → 0x10000 ≤ n → n < 0x110000 →
      Encoded n [x, y, z, w]

theorem scalar : c.toNat < 0xD800 ∨ (0xDFFF < c.toNat ∧ c.toNat < 0x110000) := c.valid

theorem encoded : Encoded c.toNat (String.utf8EncodeChar c) := by
  have hval : c.val.toNat = c.toNat := rfl
  have hscalar := scalar (c := c)
  unfold String.utf8EncodeChar
  rw [hval]
  dsimp only
  split
  · exact .one (by simp; omega) (by omega)
  · split
    · exact .two (by simp; omega) (by simp; omega) (by omega) (by omega)
    · split
      · exact .three (by simp; omega) (by simp; omega) (by simp; omega) (by omega) (by omega)
      · exact .four (by simp; omega) (by simp; omega) (by simp; omega) (by simp; omega) (by omega)
          (by omega)

theorem decodeFrom_inside {read missing low high : Nat} {octet : UInt8}
    (h : low ≤ octet.toNat ∧ octet.toNat ≤ high) (hmissing : 1 < missing) :
    decodeFrom (.inside read missing low high) (octet :: b) =
      decodeFrom (.inside (read * 64 + (octet.toNat - 0x80)) (missing - 1) 0x80 0xBF) b := by
  rw [decodeFrom_cons, step, if_pos h, if_neg (by omega)]
  rfl

theorem decodeFrom_last {read low high : Nat} {octet : UInt8}
    (h : low ≤ octet.toNat ∧ octet.toNat ≤ high) :
    decodeFrom (.inside read 1 low high) (octet :: b) =
      Char.ofNat (read * 64 + (octet.toNat - 0x80)) :: decode b := by
  rw [decodeFrom_cons, step, if_pos h, if_pos (Nat.le_refl 1)]
  rfl

theorem decode_first {octet : UInt8} {next : State} (h : first octet.toNat = ([], next)) :
    decode (octet :: b) = decodeFrom next b := by
  rw [decode, decodeFrom_cons, step, h]
  rfl

theorem first_two : ∀ k < 32, 2 ≤ k → first (k + 0xC0) = ([], .inside k 1 0x80 0xBF) := by
  decide

theorem first_three : ∀ k < 16, first (k + 0xE0) =
    ([], .inside k 2 (if k = 0 then 0xA0 else 0x80) (if k = 0xD then 0x9F else 0xBF)) := by
  decide

theorem first_four : ∀ k < 5, first (k + 0xF0) =
    ([], .inside k 3 (if k = 0 then 0x90 else 0x80) (if k = 4 then 0x8F else 0xBF)) := by
  decide

/-- The octets of a character are decoded to it, whatever follows. -/
theorem decode_encodeChar : decode (String.utf8EncodeChar c ++ b) = c :: decode b := by
  have hc : Char.ofNat c.toNat = c := Char.ofNat_toNat c
  have hscalar := scalar (c := c)
  have hencoded := encoded (c := c)
  generalize String.utf8EncodeChar c = octets at hencoded
  generalize c.toNat = n at *
  subst hc
  cases hencoded with
  | one hx hlt =>
      rw [List.cons_append, decode, decodeFrom_cons, step, first, hx, if_pos hlt]
      rfl
  | two hx hy hlow hhigh =>
      have hfirst := first_two (n / 64) (by omega) (by omega)
      have hn : n / 64 * 64 + (n % 64 + 0x80 - 0x80) = n := by omega
      rw [List.cons_append, List.cons_append, decode_first (hx ▸ hfirst),
        decodeFrom_last (by omega), hy, hn]
      rfl
  | three hx hy hz hlow hhigh =>
      have hfirst := first_three (n / 4096) (by omega)
      have hn : (n / 4096 * 64 + (n / 64 % 64 + 0x80 - 0x80)) * 64 + (n % 64 + 0x80 - 0x80) = n := by
        omega
      rw [List.cons_append, List.cons_append, List.cons_append, decode_first (hx ▸ hfirst),
        decodeFrom_inside (by rw [hy]; split_ifs <;> omega) (by omega),
        decodeFrom_last (by omega), hy, hz, hn]
      rfl
  | four hx hy hz hw hlow hhigh =>
      have hfirst := first_four (n / 262144) (by omega)
      have hn : ((n / 262144 * 64 + (n / 4096 % 64 + 0x80 - 0x80)) * 64 +
          (n / 64 % 64 + 0x80 - 0x80)) * 64 + (n % 64 + 0x80 - 0x80) = n := by omega
      rw [List.cons_append, List.cons_append, List.cons_append, List.cons_append,
        decode_first (hx ▸ hfirst), decodeFrom_inside (by rw [hy]; split_ifs <;> omega) (by omega),
        decodeFrom_inside (by omega) (by omega), decodeFrom_last (by omega), hy, hz, hw, hn]
      rfl

/-- The state expects nothing but continuation octets. -/
def State.Expects : State → Prop
  | .start => True
  | .inside _ _ low high => 0x80 ≤ low ∧ high < 0xC0

theorem expects_first {n : Nat} : (first n).2.Expects := by
  unfold first
  split_ifs <;> simp [State.Expects]

theorem State.Expects.step {n : Nat} (h : state.Expects) : (step state n).2.Expects := by
  cases state with
  | start => exact expects_first
  | inside read missing low high =>
      unfold Utf8.step
      dsimp only
      split_ifs
      · trivial
      · simp [State.Expects]
      · exact expects_first

/-- What no continuation octet starts is decoded on its own. -/
theorem decodeFrom_append_of_head (hstate : state.Expects) (h : ∀ o ∈ b.head?, ¬ Continuation o) :
    decodeFrom state (a ++ b) = decodeFrom state a ++ decode b := by
  induction a generalizing state with
  | nil =>
      cases state with
      | start => rfl
      | inside read missing low high =>
          cases b with
          | nil => rfl
          | cons octet b =>
              have hnot : ¬ (low ≤ octet.toNat ∧ octet.toNat ≤ high) := fun hin =>
                h octet rfl ⟨Nat.le_trans hstate.1 hin.1, Nat.lt_of_le_of_lt hin.2 hstate.2⟩
              rw [List.nil_append, decodeFrom_cons, step, if_neg hnot]
              rfl
  | cons octet a ih =>
      rw [List.cons_append, decodeFrom_cons, decodeFrom_cons, ih hstate.step, List.append_assoc]

theorem decode_append_of_head (h : ∀ o ∈ b.head?, ¬ Continuation o) :
    decode (a ++ b) = decode a ++ decode b :=
  decodeFrom_append_of_head trivial h

theorem decode_encode_append : decode (encode text ++ b) = text ++ decode b := by
  induction text with
  | nil => rfl
  | cons c text ih =>
      rw [encode, List.flatMap_cons, List.append_assoc, decode_encodeChar]
      exact congrArg (c :: ·) ih

/-- A text is read from its octets. -/
theorem decode_encode : decode (encode text) = text := by
  have h : decode (encode text ++ []) = text ++ decode [] := decode_encode_append
  rwa [List.append_nil, show decode [] = [] from rfl, List.append_nil] at h

theorem head_encode : ∀ o ∈ (encode text).head?, ¬ Continuation o := by
  cases text with
  | nil => nofun
  | cons c text =>
      have hencoded := encoded (c := c)
      rw [encode, List.flatMap_cons]
      generalize String.utf8EncodeChar c = octets at hencoded
      intro o ho hcontinuation
      cases hencoded <;>
        · obtain rfl := Option.some.inj ho
          unfold Continuation at hcontinuation
          omega

/-- A text is read from its octets, whatever stands before them. -/
theorem decode_append_encode : decode (a ++ encode text) = decode a ++ text := by
  rw [decode_append_of_head head_encode, decode_encode]

/-- Continuation octets that continue nothing are no characters. -/
theorem decode_continuations (h : ∀ o ∈ a, Continuation o) :
    decode (a ++ b) = List.replicate a.length replacement ++ decode b := by
  induction a with
  | nil => rfl
  | cons octet a ih =>
      obtain ⟨hoctet, ha⟩ := List.forall_mem_cons.mp h
      have hstep : step .start octet.toNat = ([replacement], .start) := by
        unfold Continuation at hoctet
        rw [step, first, if_neg (by omega), if_pos (by omega)]
      rw [List.cons_append, decode, decodeFrom_cons, hstep]
      exact congrArg (replacement :: ·) (ih ha)

/-- Behind the first octet of a character there are continuation octets, three at most. -/
theorem tail_encodeChar : (∀ o ∈ (String.utf8EncodeChar c).tail, Continuation o) ∧
    (String.utf8EncodeChar c).tail.length ≤ 3 := by
  have hencoded := encoded (c := c)
  generalize String.utf8EncodeChar c = octets at hencoded
  cases hencoded <;> simp [Continuation] <;> omega

/-! ## Texts of small characters -/

/-- A text each of whose characters is one octet. -/
def Ascii (text : List Char) : Prop := ∀ c ∈ text, c.toNat < 0x80

instance : DecidablePred Ascii := fun text =>
  decidable_of_iff (text.all fun c => c.toNat < 0x80) (by simp [Ascii])

theorem Ascii.append {more : List Char} (h : Ascii text) (hmore : Ascii more) :
    Ascii (text ++ more) := fun c hc => (List.mem_append.mp hc).elim (h c) (hmore c)

/-- The octet of a character. -/
def octet (c : Char) : UInt8 := c.val.toUInt8

theorem octet_toNat {c : Char} (h : c.toNat < 0x80) : (octet c).toNat = c.toNat := by
  change c.toNat % 2 ^ 8 = c.toNat
  omega

theorem encode_ascii (h : Ascii text) : encode text = text.map octet := by
  induction text with
  | nil => rfl
  | cons c text ih =>
      obtain ⟨hc, htext⟩ := List.forall_mem_cons.mp h
      have hsize : c.utf8Size = 1 := by
        have hval : c.val.toNat < 0x80 := hc
        rw [Char.utf8Size, if_pos]
        exact UInt32.le_iff_toNat_le.mpr (Nat.le_of_lt_succ hval)
      have hsingle := String.utf8EncodeChar_eq_singleton hsize
      rw [encode, List.flatMap_cons, hsingle, List.map_cons, ← ih htext]
      rfl

theorem decode_ascii (h : Ascii text) : decode (text.map octet) = text := by
  induction text with
  | nil => rfl
  | cons c text ih =>
      obtain ⟨hc, htext⟩ := List.forall_mem_cons.mp h
      have hstep : step .start (octet c).toNat = ([c], .start) := by
        rw [octet_toNat hc, step, first, if_pos hc, Char.ofNat_toNat]
      rw [List.map_cons, decode, decodeFrom_cons, hstep]
      exact congrArg (c :: ·) (ih htext)

end Utf8
