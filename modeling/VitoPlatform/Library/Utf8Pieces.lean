import VitoPlatform.Library.Utf8

/-!
# Octets decoded in pieces, and texts cut at their front

Where octets are decoded piece by piece, a character that lies in two pieces is broken into
replacements. Where the octets of a text are cut at the front, what is left is the end of the text,
behind the replacements of the character that has been cut.
-/

namespace Utf8

variable {a b : List UInt8} {s t u r q text : List Char} {pieces : List (List UInt8)} {n : Nat}

/-! ## Pieces -/

/-- The second text is the first one, with some characters broken into replacements. -/
inductive Broken : List Char → List Char → Prop where
  | nil : Broken [] []
  | keep {c : Char} {s t : List Char} : Broken s t → Broken (c :: s) (c :: t)
  | more {c : Char} {s t : List Char} (n : Nat) : Broken s t →
      Broken (c :: s) (List.replicate (n + 1) replacement ++ t)

theorem Broken.refl (s : List Char) : Broken s s := by
  induction s with
  | nil => exact .nil
  | cons c s ih => exact ih.keep

theorem Broken.append {s' t' : List Char} (h : Broken s t) (h' : Broken s' t') :
    Broken (s ++ s') (t ++ t') := by
  induction h with
  | nil => exact h'
  | keep _ ih => exact ih.keep
  | more n _ ih =>
      rw [List.append_assoc]
      exact ih.more n

theorem Broken.reverse (h : Broken s t) : Broken s.reverse t.reverse := by
  induction h with
  | nil => exact .nil
  | @keep c s t _ ih =>
      rw [List.reverse_cons, List.reverse_cons]
      exact ih.append (Broken.nil.keep)
  | @more c s t n _ ih =>
      rw [List.reverse_cons, List.reverse_append, List.reverse_replicate,
        ← List.append_nil (List.replicate (n + 1) replacement)]
      exact ih.append (Broken.nil.more n)

/-- One more replacement at the front of what begins with one. -/
theorem Broken.cons_replacement (h : Broken s (replacement :: t)) :
    Broken s (replacement :: replacement :: t) := by
  generalize hcons : replacement :: t = u at h
  cases h with
  | nil => cases hcons
  | keep h =>
      cases hcons
      exact h.more 1
  | more n h =>
      exact h.more (n + 1)

/-- Where a machine stands inside a character, the rest on its own is broken off. -/
theorem broken_decodeFrom {state : State} (hstate : state.Expects) :
    Broken (decodeFrom state b) (decodeFrom state [] ++ decode b) := by
  induction b generalizing state with
  | nil =>
      rw [show decode [] = [] from rfl, List.append_nil]
      exact .refl _
  | cons octet b ih =>
      cases state with
      | start => exact .refl _
      | inside read missing low high =>
          rw [show decodeFrom (.inside read missing low high) [] = [replacement] from rfl]
          by_cases hin : low ≤ octet.toNat ∧ octet.toNat ≤ high
          · have hcontinuation : ∀ o ∈ [octet], Continuation o := by
              rw [List.forall_mem_singleton]
              exact ⟨Nat.le_trans hstate.1 hin.1, Nat.lt_of_le_of_lt hin.2 hstate.2⟩
            have hrest := decode_continuations (b := b) hcontinuation
            rw [List.singleton_append] at hrest
            rw [hrest, decodeFrom_cons, step, if_pos hin]
            by_cases hmissing : missing ≤ 1
            · rw [if_pos hmissing]
              exact (Broken.refl _).more 1
            · rw [if_neg hmissing]
              have hnext : (State.inside (read * 64 + (octet.toNat - 0x80)) (missing - 1) 0x80
                  0xBF).Expects := by simp [State.Expects]
              exact (ih hnext).cons_replacement
          · rw [decodeFrom_cons, step, if_neg hin]
            exact .refl _

theorem broken_decode_append : Broken (decode (a ++ b)) (decode a ++ decode b) := by
  suffices h : ∀ state : State, state.Expects →
      Broken (decodeFrom state (a ++ b)) (decodeFrom state a ++ decode b) from h .start trivial
  induction a with
  | nil => exact fun state hstate => broken_decodeFrom hstate
  | cons octet a ih =>
      intro state hstate
      rw [List.cons_append, decodeFrom_cons, decodeFrom_cons, List.append_assoc]
      exact (Broken.refl _).append (ih _ hstate.step)

/-- Replacements are broken into no fewer. -/
theorem Broken.replicate_append (h : Broken (List.replicate n replacement ++ t) u) :
    ∃ m u', n ≤ m ∧ u = List.replicate m replacement ++ u' ∧ Broken t u' := by
  induction n generalizing u with
  | zero => exact ⟨0, u, Nat.le_refl 0, rfl, h⟩
  | succ n ih =>
      rw [List.replicate_succ, List.cons_append] at h
      cases h with
      | keep h =>
          obtain ⟨m, u', hle, rfl, hbroken⟩ := ih h
          exact ⟨m + 1, u', Nat.succ_le_succ hle, rfl, hbroken⟩
      | more k h =>
          obtain ⟨m, u', hle, rfl, hbroken⟩ := ih h
          refine ⟨k + 1 + m, u', by omega, ?_, hbroken⟩
          rw [← List.append_assoc, ← List.replicate_add]

theorem Broken.replacement_cons (h : Broken (replacement :: s) t) :
    ∃ i t', t = List.replicate (i + 1) replacement ++ t' ∧ Broken s t' := by
  cases h with
  | keep h => exact ⟨0, _, rfl, h⟩
  | more i h => exact ⟨i, _, rfl, h⟩

theorem Broken.trans (h : Broken s t) (h' : Broken t u) : Broken s u := by
  induction h generalizing u with
  | nil => exact h'
  | keep _ ih =>
      cases h' with
      | keep h' => exact (ih h').keep
      | more n h' => exact (ih h').more n
  | more n _ ih =>
      obtain ⟨m, u', hle, rfl, hbroken⟩ := h'.replicate_append
      obtain ⟨k, rfl⟩ := Nat.exists_eq_add_of_lt (Nat.lt_of_succ_le hle)
      exact (ih hbroken).more (n + k)

/-- What is read in pieces. -/
theorem broken_pieces : Broken (decode pieces.flatten) (pieces.flatMap decode) := by
  induction pieces with
  | nil => exact .nil
  | cons piece pieces ih =>
      rw [List.flatten_cons, List.flatMap_cons]
      exact broken_decode_append.trans ((Broken.refl _).append ih)

theorem Broken.length_le (h : Broken s t) : s.length ≤ t.length := by
  induction h with
  | nil => exact Nat.le_refl 0
  | keep _ ih => exact Nat.succ_le_succ ih
  | more n _ ih =>
      rw [List.length_append, List.length_replicate, List.length_cons]
      omega

/-- What is read octet by octet. -/
def decodeEach (octets : List UInt8) : List Char := octets.flatMap fun o => decode [o]

theorem broken_decodeEach : Broken (decode a) (decodeEach a) := by
  have h : Broken (decode (a.map fun o => [o]).flatten) ((a.map fun o => [o]).flatMap decode) :=
    broken_pieces
  rwa [← List.flatMap_def, List.flatMap_singleton', List.flatMap_map] at h

theorem broken_pieces_decodeEach : Broken (pieces.flatMap decode) (decodeEach pieces.flatten) := by
  induction pieces with
  | nil => exact .nil
  | cons piece pieces ih =>
      rw [List.flatten_cons, List.flatMap_cons, decodeEach, List.flatMap_append]
      exact broken_decodeEach.append ih

/-- A common beginning of a text and of what it is broken into is one of all that lies between. -/
theorem Broken.prefix_between {j k : Nat} (hst : Broken s t) (htu : Broken t u) (hjk : j ≤ k)
    (hs : r <+: s) (hu : r <+: List.replicate k replacement ++ u) :
    r <+: List.replicate j replacement ++ t := by
  induction r generalizing s t u j k with
  | nil => exact List.nil_prefix
  | cons c r ih =>
      cases s with
      | nil => exact absurd hs (by simp)
      | cons d s =>
          obtain ⟨rfl, hs'⟩ := List.cons_prefix_cons.mp hs
          by_cases hc : c = replacement
          · subst hc
            obtain ⟨i, t, rfl, hst'⟩ := hst.replacement_cons
            obtain ⟨m, u, hle, rfl, htu'⟩ := htu.replicate_append
            obtain ⟨l, rfl⟩ := Nat.exists_eq_add_of_lt (Nat.lt_of_succ_le hle)
            have hk : k + (i + l + 1) = k + i + l + 1 := by omega
            rw [← List.append_assoc, ← List.replicate_add, hk, List.replicate_succ, List.cons_append,
              List.cons_prefix_cons] at hu
            rw [← List.append_assoc, ← List.replicate_add, ← Nat.add_assoc, List.replicate_succ,
              List.cons_append, List.cons_prefix_cons]
            exact ⟨rfl, ih hst' htu' (by omega) hs' hu.2⟩
          · have hhead {n : Nat} {v : List Char} :
                ¬ c :: r <+: List.replicate (n + 1) replacement ++ v := by
              rw [List.replicate_succ, List.cons_append, List.cons_prefix_cons]
              exact fun h => hc h.1
            cases k with
            | succ k => exact absurd hu hhead
            | zero =>
                obtain rfl := Nat.le_zero.mp hjk
                cases hst with
                | keep hst =>
                    cases htu with
                    | keep htu =>
                        have hu := (List.cons_prefix_cons.mp hu).2
                        exact List.cons_prefix_cons.mpr
                          ⟨rfl, ih (j := 0) (k := 0) hst htu (Nat.le_refl 0) hs' hu⟩
                    | more n htu => exact absurd hu hhead
                | more n hst =>
                    obtain ⟨m, u, hle, rfl, htu⟩ := htu.replicate_append
                    obtain ⟨l, rfl⟩ := Nat.exists_eq_add_of_lt (Nat.lt_of_succ_le hle)
                    exact absurd hu hhead

/-- A common end of what octets are read as at once, and one by one, is one of what they are read
as in any pieces. -/
theorem suffix_pieces (hs : r <:+ decode pieces.flatten) (hu : r <:+ decodeEach pieces.flatten) :
    r <:+ pieces.flatMap decode := by
  rw [← List.reverse_prefix] at hs hu ⊢
  exact broken_pieces.reverse.prefix_between (j := 0) (k := 0) broken_pieces_decodeEach.reverse
    (Nat.le_refl 0) hs hu

/-! ## Cut at the front -/

/-- The last octets of a stream. -/
def lastOctets (n : Nat) (octets : List UInt8) : List UInt8 := octets.drop (octets.length - n)

/-- What is left of a text that is cut to some octets. -/
def keepLast (n : Nat) (text : List Char) : List Char := decode (lastOctets n (encode text))

theorem lastOctets_of_le (h : a.length ≤ n) : lastOctets n a = a := by
  rw [lastOctets, Nat.sub_eq_zero_of_le h, List.drop_zero]

theorem lastOctets_append (h : b.length ≤ n) : lastOctets n (a ++ b) =
    lastOctets (n - b.length) a ++ b := by
  rw [lastOctets, lastOctets, List.length_append, List.drop_append_of_le_length (by omega)]
  congr 2
  omega

theorem lastOctets_append_of_le (h : n ≤ b.length) : lastOctets n (a ++ b) = lastOctets n b := by
  rw [lastOctets, lastOctets, List.length_append, Nat.add_sub_assoc h, List.drop_length_add_append]

theorem keepLast_of_le (h : (encode text).length ≤ n) : keepLast n text = text := by
  rw [keepLast, lastOctets_of_le h, decode_encode]

/-- The end of a text is left, if it fits. -/
theorem suffix_keepLast (h : q <:+ text) (hle : (encode q).length ≤ n) : q <:+ keepLast n text := by
  obtain ⟨p, rfl⟩ := h
  rw [keepLast, encode_append, lastOctets_append hle, decode_append_encode]
  exact List.suffix_append _ q

theorem length_encode_replicate {j : Nat} :
    (encode (List.replicate j replacement)).length = 3 * j := by
  induction j with
  | zero => rfl
  | succ j ih =>
      have hone : (String.utf8EncodeChar replacement).length = 3 := by decide
      rw [List.replicate_succ, encode, List.flatMap_cons, List.length_append, hone]
      rw [encode] at ih
      omega

/-- Behind the replacements of what has been cut there is the end of the text. -/
theorem keepLast_of_lt (h : n < (encode text).length) : ∃ j q, j ≤ 3 ∧ q <:+ text ∧
    j + (encode q).length = n ∧ keepLast n text = List.replicate j replacement ++ q := by
  induction text with
  | nil => exact absurd h (Nat.not_lt_zero n)
  | cons c text ih =>
      have hcons : encode (c :: text) = String.utf8EncodeChar c ++ encode text := by
        rw [encode, List.flatMap_cons, encode]
      rw [hcons, List.length_append] at h
      by_cases hle : (encode text).length ≤ n
      · have htail := tail_encodeChar (c := c)
        have hlast : lastOctets (n - (encode text).length) (String.utf8EncodeChar c) =
            (String.utf8EncodeChar c).tail.drop
              ((String.utf8EncodeChar c).length - (n - (encode text).length) - 1) := by
          rw [lastOctets, List.drop_tail]
          congr 1
          omega
        have hlength : (lastOctets (n - (encode text).length) (String.utf8EncodeChar c)).length =
            n - (encode text).length := by
          rw [lastOctets, List.length_drop]
          omega
        have hcontinuation : ∀ o ∈ lastOctets (n - (encode text).length)
            (String.utf8EncodeChar c), Continuation o := by
          rw [hlast]
          exact fun o ho => htail.1 o (List.mem_of_mem_drop ho)
        refine ⟨n - (encode text).length, text, ?_, List.suffix_cons c text, by omega, ?_⟩
        · rw [hlast, List.length_drop] at hlength
          omega
        · rw [keepLast, hcons, lastOctets_append hle, decode_continuations hcontinuation, hlength,
            decode_encode]
      · obtain ⟨j, q, hj, hq, hlength, htrim⟩ := ih (Nat.lt_of_not_le hle)
        refine ⟨j, q, hj, hq.trans (List.suffix_cons c text), hlength, ?_⟩
        rw [keepLast, hcons, lastOctets_append_of_le (Nat.le_of_not_le hle), ← keepLast, htrim]

end Utf8
