import VitoPlatform.CloudExecution.Soundness
import VitoPlatform.Library.Utf8Pieces

/-!
# What a capture keeps

A `BoundedOutputCapture` decodes each chunk as it arrives and cuts the octets of the text it holds.
What it holds at the end is the end of what has been written if that is the same however the octets
are decoded, at once or one by one. Where characters of several octets are among the last ones, a
chunk that ends inside a character breaks it, and a cut inside a character leaves replacements,
which are longer than what has been cut.
-/

namespace CloudExecution

open Text Utf8

/-! ## The capture of two streams -/

inductive OutputStream where
  | stdout
  | stderr
  deriving DecidableEq

structure BoundedOutputCapture where
  maxBytes : Nat
  stdout : Str
  stderr : Str

namespace BoundedOutputCapture

def new (maxBytes : Nat) : BoundedOutputCapture := ⟨maxBytes, [], []⟩

def appendStdout (capture : BoundedOutputCapture) (chunk : List UInt8) : BoundedOutputCapture :=
  { capture with stdout := appendBounded capture.stdout chunk capture.maxBytes }

def appendStderr (capture : BoundedOutputCapture) (chunk : List UInt8) : BoundedOutputCapture :=
  { capture with stderr := appendBounded capture.stderr chunk capture.maxBytes }

/-- `getStdout` and `getStderr`. -/
def get (capture : BoundedOutputCapture) : OutputStream → Str
  | .stdout => capture.stdout
  | .stderr => capture.stderr

/-- A call of one of the two appends. -/
structure Append where
  stream : OutputStream
  chunk : List UInt8

def append (capture : BoundedOutputCapture) (call : Append) : BoundedOutputCapture :=
  match call.stream with
  | .stdout => capture.appendStdout call.chunk
  | .stderr => capture.appendStderr call.chunk

def after (maxBytes : Nat) (calls : List Append) : BoundedOutputCapture :=
  calls.foldl append (new maxBytes)

end BoundedOutputCapture

open BoundedOutputCapture

/-- The chunks that are appended to a stream. -/
def chunksOf (stream : OutputStream) (calls : List Append) : List (List UInt8) :=
  (calls.filter fun call => call.stream = stream).map Append.chunk

/-- The octets of a stream. -/
def written (stream : OutputStream) (calls : List Append) : List UInt8 :=
  (chunksOf stream calls).flatten

/-- The text is what the last octets are decoded to. Of a character that the cut has gone through,
the octets may be left out. -/
def IsEndOf (maxBytes : Nat) (octets : List UInt8) (text : Str) : Prop :=
  ∃ cut ≤ 3, (0 < cut → maxBytes < octets.length) ∧
    (∀ o ∈ (lastOctets maxBytes octets).take cut, Continuation o) ∧
    text = decode ((lastOctets maxBytes octets).drop cut)

/-- Whatever the chunks of the octets are, and whatever is appended to the other stream. -/
structure Faithful (maxBytes : Nat) (stream : OutputStream) (octets : List UInt8) : Prop where
  decoded : ∀ calls, written stream calls = octets →
    IsEndOf maxBytes octets ((after maxBytes calls).get stream)
  bounded : ∀ calls, written stream calls = octets →
    (encode ((after maxBytes calls).get stream)).length ≤ maxBytes
  independent : ∀ calls others, written stream calls = octets → written stream others = octets →
    (after maxBytes calls).get stream = (after maxBytes others).get stream

/-- Read at once and octet by octet, the octets are the same text, which fits; or both readings end
in the same text, which fills the capture and is what the last octets are decoded to. -/
def Settled (maxBytes : Nat) (octets : List UInt8) : Prop :=
  (decode octets = decodeEach octets ∧ (encode (decode octets)).length ≤ maxBytes) ∨
    ∃ text, IsEndOf maxBytes octets text ∧ (encode text).length = maxBytes ∧
      text <:+ decode octets ∧ text <:+ decodeEach octets

section Streams

variable {n : Nat} {stream : OutputStream} {calls : List Append} {chunks : List (List UInt8)}
variable {octets : List UInt8} {current text more q : Str}

/-- A stream holds what its own chunks leave. -/
theorem get_after : (after n calls).get stream = capture n (chunksOf stream calls) := by
  suffices h : (after n calls).maxBytes = n ∧
      (after n calls).get stream = capture n (chunksOf stream calls) from h.2
  induction calls using List.reverseRecOn with
  | nil => cases stream <;> exact ⟨rfl, rfl⟩
  | append_singleton calls call ih =>
      obtain ⟨target, chunk⟩ := call
      have hafter : after n (calls ++ [⟨target, chunk⟩]) =
          (after n calls).append ⟨target, chunk⟩ := List.foldl_append
      rw [hafter, chunksOf, List.filter_append, List.map_append, capture, List.foldl_append]
      rw [capture, chunksOf] at ih
      rw [← ih.2]
      cases target <;> cases stream <;>
        exact ⟨ih.1, by simp [append, appendStdout, appendStderr, BoundedOutputCapture.get, ih.1]⟩

theorem chunksOf_map : chunksOf stream (chunks.map fun chunk => ⟨stream, chunk⟩) = chunks := by
  simp [chunksOf, List.filter_map, Function.comp_def]

theorem written_map :
    written stream (chunks.map fun chunk => ⟨stream, chunk⟩) = chunks.flatten := by
  rw [written, chunksOf_map]

/-! ## What a stream holds -/

theorem appendBounded_eq {chunk : List UInt8} :
    appendBounded current chunk n = keepLast n (current ++ decode chunk) := by
  unfold appendBounded
  dsimp only
  split
  · rename_i hle
    rw [keepLast_of_le hle]
  · rfl

theorem capture_append {chunk : List UInt8} :
    capture n (chunks ++ [chunk]) = keepLast n (capture n chunks ++ decode chunk) := by
  rw [capture, List.foldl_append, ← capture]
  exact appendBounded_eq

theorem suffix_append_cases (h : q <:+ text ++ more) :
    q <:+ more ∨ ∃ p, p <:+ text ∧ q = p ++ more := by
  obtain hq | ⟨p, rfl⟩ := List.suffix_or_suffix_of_suffix h (List.suffix_append text more)
  · exact .inl hq
  · exact .inr ⟨p, List.suffix_append_self_iff.mp h, rfl⟩

/-- One more chunk: what ends the text is among what is held and the text of the chunk. -/
theorem suffix_step (h : ∀ q, q <:+ text → (encode q).length ≤ n → q <:+ current)
    (hq : q <:+ text ++ more) (hle : (encode q).length ≤ n) : q <:+ current ++ more := by
  obtain hmore | ⟨p, hp, rfl⟩ := suffix_append_cases hq
  · exact List.suffix_append_of_suffix hmore
  · rw [encode_append, List.length_append] at hle
    exact List.suffix_append_self_iff.mpr (h p hp (by omega))

/-- What the text of the chunks ends in is held, if it fits. -/
theorem suffix_capture : ∀ q, q <:+ chunks.flatMap decode → (encode q).length ≤ n →
    q <:+ capture n chunks := by
  induction chunks using List.reverseRecOn with
  | nil => exact fun q hq _ => hq
  | append_singleton chunks chunk ih =>
      intro q hq hle
      rw [List.flatMap_append, List.flatMap_singleton] at hq
      rw [capture_append]
      exact suffix_keepLast (suffix_step ih hq hle) hle

theorem keepLast_eq_of_suffix (h : q <:+ text) (hlength : (encode q).length = n) :
    keepLast n text = q := by
  obtain ⟨p, rfl⟩ := h
  rw [keepLast, encode_append, lastOctets_append_of_le hlength.ge, lastOctets_of_le hlength.le,
    decode_encode]

/-- What fills the capture, and ends the text of the chunks, is all that is held. -/
theorem capture_of_suffix (h : q <:+ chunks.flatMap decode) (hlength : (encode q).length = n) :
    capture n chunks = q := by
  induction chunks using List.reverseRecOn with
  | nil => exact (List.suffix_nil.mp h).symm
  | append_singleton chunks chunk ih =>
      rw [List.flatMap_append, List.flatMap_singleton] at h
      rw [capture_append]
      exact keepLast_eq_of_suffix (suffix_step suffix_capture h hlength.le) hlength

theorem length_le_encode : text.length ≤ (encode text).length := by
  induction text with
  | nil => exact Nat.le_refl 0
  | cons c text ih =>
      have hpos : 0 < (String.utf8EncodeChar c).length :=
        List.length_pos_iff.mpr String.utf8EncodeChar_ne_nil
      rw [encode, List.flatMap_cons, List.length_append, List.length_cons]
      rw [encode] at ih
      omega

/-- What is held of a text: all of it, or its end behind the replacements of a character. -/
def Held (n : Nat) (text current : Str) : Prop :=
  (current = text ∧ (encode text).length ≤ n) ∨
    ∃ j q, current = List.replicate j replacement ++ q ∧ j ≤ 3 ∧ q <:+ text ∧
      j + (encode q).length = n

theorem held_keepLast : Held n text (keepLast n text) := by
  by_cases hle : (encode text).length ≤ n
  · exact .inl ⟨keepLast_of_le hle, hle⟩
  · obtain ⟨j, q, hj, hq, hlength, htrim⟩ := keepLast_of_lt (Nat.lt_of_not_le hle)
    exact .inr ⟨j, q, htrim, hj, hq, hlength⟩

theorem Held.append (h : Held n text current) (hmore : more ≠ []) :
    Held n (text ++ more) (keepLast n (current ++ more)) := by
  obtain ⟨rfl, -⟩ | ⟨j, q, rfl, hj, hq, hlength⟩ := h
  · exact held_keepLast
  · have hpos : 0 < (encode more).length :=
      (List.length_pos_iff.mpr hmore).trans_le length_le_encode
    have hlt : n < (encode (List.replicate j replacement ++ q ++ more)).length := by
      rw [encode_append, encode_append, List.length_append, List.length_append,
        length_encode_replicate]
      omega
    obtain ⟨i, p, hi, hp, hlength', htrim⟩ := keepLast_of_lt hlt
    refine .inr ⟨i, p, htrim, hi, ?_, hlength'⟩
    rw [List.append_assoc] at hp
    -- the old replacements have been cut off: there are fewer of them than octets have come
    obtain hp | ⟨front, hfront, rfl⟩ := suffix_append_cases hp
    · exact hp.trans (List.suffix_append_self_iff.mpr hq)
    · obtain ⟨k, hk, rfl⟩ : ∃ k ≤ j, front = List.replicate k replacement := by
        have hlengths := hfront.length_le
        rw [List.length_replicate] at hlengths
        exact ⟨front.length, hlengths, List.eq_replicate_iff.mpr
          ⟨rfl, fun c hc => List.eq_of_mem_replicate (hfront.subset hc)⟩⟩
      rw [encode_append, encode_append, List.length_append, List.length_append,
        length_encode_replicate] at hlength'
      obtain rfl : k = 0 := by omega
      exact List.suffix_append_self_iff.mpr hq

theorem held_capture (h : ∀ chunk ∈ chunks, decode chunk ≠ []) :
    Held n (chunks.flatMap decode) (capture n chunks) := by
  induction chunks using List.reverseRecOn with
  | nil => exact .inl ⟨rfl, Nat.zero_le n⟩
  | append_singleton chunks chunk ih =>
      rw [capture_append, List.flatMap_append, List.flatMap_singleton]
      exact (ih fun piece hpiece => h piece (List.mem_append_left _ hpiece)).append
        (h chunk (by simp))

theorem Held.bounded (h : Held n text current) (hle : (encode current).length ≤ n) :
    (current = text ∧ (encode text).length ≤ n) ∨
      (current <:+ text ∧ (encode current).length = n) := by
  obtain hall | ⟨j, q, rfl, hj, hq, hlength⟩ := h
  · exact .inl hall
  · rw [encode_append, List.length_append, length_encode_replicate] at hle
    obtain rfl : j = 0 := by omega
    exact .inr ⟨hq, by simpa using hlength⟩

theorem length_decode_singleton {o : UInt8} : (decode [o]).length = 1 := by
  rw [decode, decodeFrom_cons, step, first]
  split_ifs <;> rfl

theorem length_decodeEach : (decodeEach octets).length = octets.length := by
  simp [decodeEach, List.length_flatMap, length_decode_singleton]

/-- Octets that are read one by one fit into no less than their number. -/
theorem lastOctets_of_fits (h : (encode (decodeEach octets)).length ≤ n) :
    lastOctets n octets = octets := by
  refine lastOctets_of_le (le_trans ?_ h)
  rw [← length_decodeEach]
  exact length_le_encode

theorem isEndOf_decode (h : lastOctets n octets = octets) : IsEndOf n octets (decode octets) :=
  ⟨0, Nat.zero_le 3, nofun, by simp, by rw [h, List.drop_zero]⟩

/-- What is held of settled octets, whatever the chunks. -/
theorem Settled.exists_capture (h : Settled n octets) : ∃ text, IsEndOf n octets text ∧
    (encode text).length ≤ n ∧ ∀ chunks, chunks.flatten = octets → capture n chunks = text := by
  obtain ⟨heach, hfits⟩ | ⟨text, hend, hlength, hdecode, heach⟩ := h
  · refine ⟨decode octets, isEndOf_decode (lastOctets_of_fits (heach ▸ hfits)), hfits, ?_⟩
    rintro chunks rfl
    have hpieces : decode chunks.flatten = chunks.flatMap decode := by
      refine (suffix_pieces List.suffix_rfl (heach ▸ List.suffix_rfl)).eq_of_length_le ?_
      rw [heach]
      exact broken_pieces_decodeEach.length_le
    rw [hpieces] at hfits ⊢
    exact appendChunks_eq [] hfits
  · refine ⟨text, hend, hlength.le, ?_⟩
    rintro chunks rfl
    exact capture_of_suffix (suffix_pieces hdecode heach) hlength

theorem Settled.faithful (h : Settled n octets) : Faithful n stream octets := by
  obtain ⟨text, hend, hlength, hcapture⟩ := h.exists_capture
  have hget {calls : List Append} (hcalls : written stream calls = octets) :
      (after n calls).get stream = text := by
    rw [get_after]
    exact hcapture _ hcalls
  exact {
    decoded := fun calls hcalls => (hget hcalls).symm ▸ hend
    bounded := fun calls hcalls => (hget hcalls).symm ▸ hlength
    independent := fun calls others hcalls hothers => (hget hcalls).trans (hget hothers).symm }

theorem Faithful.settled (h : Faithful n stream octets) : Settled n octets := by
  let whole : List Append := [⟨stream, octets⟩]
  let single : List Append := (octets.map fun o => [o]).map fun chunk => ⟨stream, chunk⟩
  have hwhole : written stream whole = octets := by
    rw [show whole = [octets].map fun chunk => ⟨stream, chunk⟩ from rfl, written_map,
      List.flatten_singleton]
  have hsingle : written stream single = octets := by
    rw [written_map, ← List.flatMap_def, List.flatMap_singleton']
  have hall : Held n (decode octets) ((after n whole).get stream) := by
    rw [get_after, show chunksOf stream whole = [octets] by simp [whole, chunksOf]]
    have happend : appendBounded [] octets n = keepLast n ([] ++ decode octets) := appendBounded_eq
    exact (happend ▸ held_keepLast : Held n (decode octets) (appendBounded [] octets n))
  have heach : Held n (decodeEach octets) ((after n whole).get stream) := by
    rw [h.independent whole single hwhole hsingle, get_after, chunksOf_map, decodeEach,
      ← List.flatMap_map (fun o => [o]) decode]
    refine held_capture fun chunk hchunk => ?_
    obtain ⟨o, -, rfl⟩ := List.mem_map.mp hchunk
    exact List.ne_nil_of_length_pos (by rw [length_decode_singleton]; exact Nat.one_pos)
  have hend := h.decoded whole hwhole
  have hbounded := h.bounded whole hwhole
  obtain ⟨hdecode, hfits⟩ | ⟨hdecode, hlength⟩ := hall.bounded hbounded
  · obtain ⟨hsame, -⟩ | ⟨hsuffix, hlength⟩ := heach.bounded hbounded
    · exact .inl ⟨hdecode.symm.trans hsame, hfits⟩
    · exact .inr ⟨_, hend, hlength, hdecode ▸ List.suffix_rfl, hsuffix⟩
  · obtain ⟨hsame, -⟩ | ⟨hsuffix, -⟩ := heach.bounded hbounded
    · exact .inr ⟨_, hend, hlength, hdecode, hsame ▸ List.suffix_rfl⟩
    · exact .inr ⟨_, hend, hlength, hdecode, hsuffix⟩

theorem decodeEach_ascii (h : Ascii text) : decodeEach (text.map octet) = text := by
  induction text with
  | nil => rfl
  | cons c text ih =>
      obtain ⟨hc, htext⟩ := List.forall_mem_cons.mp h
      have hone : decode [octet c] = [c] := decode_ascii (List.forall_mem_singleton.mpr hc)
      have hrest := ih htext
      rw [decodeEach] at hrest ⊢
      rw [List.map_cons, List.flatMap_cons, hone, hrest]
      rfl

/-- Where the last octets are small characters, all is settled. -/
theorem Settled.of_ascii (h : lastOctets n octets = text.map octet) (hascii : Ascii text) :
    Settled n octets := by
  have hencode := encode_ascii hascii
  have hdecode := decode_ascii hascii
  have heach := decodeEach_ascii hascii
  by_cases hle : octets.length ≤ n
  · rw [lastOctets_of_le hle] at h
    subst h
    exact .inl ⟨hdecode.trans heach.symm, by rwa [hdecode, hencode]⟩
  · have hsplit : octets.take (octets.length - n) ++ text.map octet = octets := by
      rw [← h]
      exact List.take_append_drop _ _
    have hlength : (encode text).length = n := by
      rw [hencode, ← h, lastOctets, List.length_drop]
      omega
    refine .inr ⟨text, ⟨0, Nat.zero_le 3, fun h => absurd h (Nat.lt_irrefl 0), by simp, ?_⟩,
      hlength, ?_, ?_⟩
    · rw [h, List.drop_zero, hdecode]
    · rw [← hsplit, ← hencode, decode_append_encode]
      exact List.suffix_append _ _
    · rw [← hsplit, decodeEach, List.flatMap_append, ← decodeEach, ← decodeEach, heach]
      exact List.suffix_append _ _

end Streams

/-- A capture is the end of its stream, however that is cut, if and only if the octets settle it. -/
theorem faithful_iff_settled (maxBytes : Nat) (stream : OutputStream) (octets : List UInt8) :
    Faithful maxBytes stream octets ↔ Settled maxBytes octets :=
  ⟨Faithful.settled, Settled.faithful⟩

/-- The last two octets of a chunk, the first of them inside a character. -/
theorem not_faithful : ¬ ∀ maxBytes stream octets, Faithful maxBytes stream octets := fun h =>
  absurd ((h 2 .stdout [0xC3, 0xA9, 0x61]).bounded [⟨.stdout, [0xC3, 0xA9, 0x61]⟩] rfl)
    (by decide)

end CloudExecution
