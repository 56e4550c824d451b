import VitoPlatform.Library.InsertionMap
import VitoPlatform.Library.Text
import VitoPlatform.Library.Utf8
import Mathlib.Algebra.Order.BigOperators.Group.List
import Mathlib.Algebra.Order.Group.Nat
import Mathlib.Data.List.Perm.Subperm

/-!
# Archives

`readOpenXmlZipEntries` reads the directory at the end of an archive, `unzipOpenXmlEntry` the
content of one entry. All offsets and sizes come from the archive itself, so each is compared with
the size of the buffer before it is used (`readOpenXmlZipEntries_ends`, `unzipOpenXmlEntry_ends`),
and the declared sizes of all entries are limited together. The content of an entry is compared with
its declared size only when it has been decompressed, and not at all if this is zero.
-/

namespace SourceVault

open Text

abbrev Octets := List UInt8

def MAX_ZIP_ENTRIES : Nat := 2048
def MAX_ENTRY_BYTES : Nat := 8 * 1024 * 1024
def MAX_TOTAL_UNCOMPRESSED_BYTES : Nat := 32 * 1024 * 1024

structure OpenXmlZipEntry where
  name : Str
  method : Nat
  compressedSize : Nat
  uncompressedSize : Nat
  localHeaderOffset : Nat
  deriving DecidableEq

/-- The exceptions: the two that are declared, and that of a read outside the buffer. -/
inductive Failure where
  | badRequest (message : Str)
  | payloadTooLarge (message : Str)
  | outOfRange
  deriving DecidableEq

abbrev Checked := Except Failure

def badRequest {α : Type} (message : String) : Checked α := .error (.badRequest message.toList)

def payloadTooLarge {α : Type} (message : String) : Checked α :=
  .error (.payloadTooLarge message.toList)

/-! ## Reading -/

/-- The number whose digits are some octets, the lowest first. -/
def littleEndian (octets : Octets) : Nat :=
  octets.foldr (fun octet number => octet.toNat + 256 * number) 0

def readUInt (width : Nat) (buffer : Octets) (offset : Nat) : Checked Nat :=
  if offset + width ≤ buffer.length then .ok (littleEndian ((buffer.drop offset).take width))
  else .error .outOfRange

def readUInt16LE : Octets → Nat → Checked Nat := readUInt 2
def readUInt32LE : Octets → Nat → Checked Nat := readUInt 4

def subarray (buffer : Octets) (start stop : Nat) : Octets := (buffer.take stop).drop start

/-- The offsets from `min + left - 1` down to `min`. -/
def findEocd.loop (buffer : Octets) (min : Nat) : Nat → Checked Nat
  | 0 => badRequest "Invalid OpenXML archive: end-of-central-directory not found."
  | left + 1 => do
      if (← readUInt32LE buffer (min + left)) = 0x06054b50 then pure (min + left)
      else findEocd.loop buffer min left

def findEocd (buffer : Octets) : Checked Nat :=
  if buffer.length < 22 then badRequest "Invalid OpenXML archive."
  else
    let min := buffer.length - 65557
    findEocd.loop buffer min (buffer.length - 22 + 1 - min)

/-- Where an entry is read: the entries so far, the place of the next one, and the sum of the
declared sizes. -/
structure Directory where
  entries : InsertionMap Str OpenXmlZipEntry
  cursor : Nat
  totalUncompressedBytes : Nat

/-- The body of the loop over the directory. -/
def readEntry (buffer : Octets) (directory : Directory) : Checked Directory := do
  let cursor := directory.cursor
  if cursor + 46 > buffer.length then
    badRequest "Invalid OpenXML archive: corrupt central-directory entry."
  else if (← readUInt32LE buffer cursor) ≠ 0x02014b50 then
    badRequest "Invalid OpenXML archive: corrupt central-directory entry."
  else
    let method ← readUInt16LE buffer (cursor + 10)
    let compressedSize ← readUInt32LE buffer (cursor + 20)
    let uncompressedSize ← readUInt32LE buffer (cursor + 24)
    let fileNameLength ← readUInt16LE buffer (cursor + 28)
    let extraLength ← readUInt16LE buffer (cursor + 30)
    let commentLength ← readUInt16LE buffer (cursor + 32)
    let localHeaderOffset ← readUInt32LE buffer (cursor + 42)
    let stop := cursor + 46 + fileNameLength + extraLength + commentLength
    let totalUncompressedBytes := directory.totalUncompressedBytes + uncompressedSize
    let name := Utf8.decode (subarray buffer (cursor + 46) (cursor + 46 + fileNameLength))
    if stop > buffer.length then
      badRequest "Invalid OpenXML archive: truncated central directory."
    else if uncompressedSize > MAX_ENTRY_BYTES then
      payloadTooLarge "OpenXML entry exceeds 8388608 bytes."
    else if totalUncompressedBytes > MAX_TOTAL_UNCOMPRESSED_BYTES then
      payloadTooLarge "OpenXML archive exceeds 33554432 uncompressed bytes."
    else if name.isEmpty || includes name "..".toList || startsWith name ['/'] ||
        includes name ['\\'] then
      badRequest "Invalid OpenXML archive entry path."
    else
      pure {
        entries := directory.entries.set name
          { name, method, compressedSize, uncompressedSize, localHeaderOffset }
        cursor := stop
        totalUncompressedBytes }

def readEntries (buffer : Octets) : Nat → Directory → Checked Directory
  | 0, directory => pure directory
  | left + 1, directory => do readEntries buffer left (← readEntry buffer directory)

def readOpenXmlZipEntries (buffer : Octets) : Checked (InsertionMap Str OpenXmlZipEntry) := do
  let eocd ← findEocd buffer
  let totalEntries ← readUInt16LE buffer (eocd + 10)
  let centralOffset ← readUInt32LE buffer (eocd + 16)
  if totalEntries > MAX_ZIP_ENTRIES then
    payloadTooLarge "OpenXML archive exceeds 2048 entries."
  else if centralOffset ≥ buffer.length then
    badRequest "Invalid OpenXML archive: central directory offset is out of bounds."
  else
    return (← readEntries buffer totalEntries ⟨.empty, centralOffset, 0⟩).entries

/-! ## Decompression -/

/-- What `inflateRawSync` ends with. -/
inductive Inflated where
  | done (octets : Octets)
  | tooLarge
  | failed

/-- A decompression that has given a result, and its size. -/
structure Decompression where
  entry : OpenXmlZipEntry
  bytes : Nat

/-- A computation that decompresses entries: how it ends, and what it has decompressed. -/
structure Unzipping (α : Type) where
  result : Checked α
  done : List Decompression

namespace Unzipping

variable {α β : Type}

def andThen (m : Unzipping α) (f : α → Unzipping β) : Unzipping β :=
  match m.result with
  | .ok a => ⟨(f a).result, m.done ++ (f a).done⟩
  | .error failure => ⟨.error failure, m.done⟩

instance : Monad Unzipping where
  pure a := ⟨.ok a, []⟩
  bind := andThen

instance : MonadLift Checked Unzipping := ⟨fun result => ⟨result, []⟩⟩

end Unzipping

def produced (done : List Decompression) : Nat := (done.map (·.bytes)).sum

section Unzip

variable (inflateRawSync : Octets → Nat → Inflated) (buffer : Octets) (entry : OpenXmlZipEntry)

/-- The content by the method of the entry. -/
def decompress (compressed : Octets) : Unzipping Octets :=
  if entry.method = 0 then pure compressed
  else if entry.method = 8 then
    match inflateRawSync compressed MAX_ENTRY_BYTES with
    | .done octets => ⟨.ok octets, [⟨entry, octets.length⟩]⟩
    | .tooLarge => liftM (m := Checked) <| .error <| .payloadTooLarge <|
        "OpenXML entry ".toList ++ entry.name ++ " exceeds the extraction limit.".toList
    | .failed => liftM (m := Checked) <| .error <| .badRequest <|
        "OpenXML entry ".toList ++ entry.name ++ " could not be decompressed.".toList
  else
    liftM (m := Checked) <| .error <| .badRequest <|
      "Unsupported OpenXML ZIP compression method ".toList ++ Nat.toDigits 10 entry.method ++
        " in ".toList ++ entry.name ++ ['.']

/-- Where the compressed content stands. -/
def compressedOf : Checked Octets := do
  let offset := entry.localHeaderOffset
  if offset + 30 > buffer.length then
    .error (.badRequest ("Invalid local header for OpenXML entry ".toList ++ entry.name ++ ['.']))
  else if (← readUInt32LE buffer offset) ≠ 0x04034b50 then
    .error (.badRequest ("Invalid local header for OpenXML entry ".toList ++ entry.name ++ ['.']))
  else
    let fileNameLength ← readUInt16LE buffer (offset + 26)
    let extraLength ← readUInt16LE buffer (offset + 28)
    let dataStart := offset + 30 + fileNameLength + extraLength
    let dataEnd := dataStart + entry.compressedSize
    if dataEnd > buffer.length then
      .error (.badRequest ("OpenXML entry ".toList ++ entry.name ++ " is truncated.".toList))
    else
      pure (subarray buffer dataStart dataEnd)

def unzipOpenXmlEntry : Unzipping Octets := do
  let compressed ← compressedOf buffer entry
  let result ← decompress inflateRawSync entry compressed
  if result.length > MAX_ENTRY_BYTES ||
      (entry.uncompressedSize ≠ 0 && result.length ≠ entry.uncompressedSize) then
    liftM (m := Checked) <| .error <| .badRequest <|
      "OpenXML entry ".toList ++ entry.name ++ " has inconsistent size metadata.".toList
  else
    pure result

def openXmlTextEntry (entries : InsertionMap Str OpenXmlZipEntry) (path : Str) :
    Unzipping Str :=
  match entries.get path with
  | none => liftM (m := Checked) <| .error <| .badRequest <|
      "OpenXML structure is incomplete: ".toList ++ path ++ " is missing.".toList
  | some entry => do return Utf8.decode (← unzipOpenXmlEntry inflateRawSync buffer entry)

end Unzip

/-! ## How a computation ends -/

/-- With a result of which `P` holds, or with one of the declared exceptions. -/
structure Ends {α : Type} (P : α → Prop) (outcome : Checked α) : Prop where
  result : ∀ a, outcome = .ok a → P a
  declared : outcome ≠ .error .outOfRange

variable {α β : Type} {P : α → Prop} {Q : β → Prop} {buffer : Octets}

theorem ends_ok {a : α} (h : P a) : Ends P (.ok a) :=
  ⟨fun _ heq => (Except.ok.inj heq) ▸ h, nofun⟩

theorem ends_error {failure : Failure} (h : failure ≠ .outOfRange) :
    Ends P (.error failure : Checked α) :=
  ⟨nofun, fun heq => h (Except.error.inj heq)⟩

theorem Ends.bind {x : Checked α} {f : α → Checked β} (h : Ends P x)
    (hf : ∀ a, P a → Ends Q (f a)) : Ends Q (x >>= f) := by
  cases x with
  | ok a => exact hf a (h.result a rfl)
  | error failure => exact ends_error fun heq => h.declared (congrArg _ heq)

theorem ends_badRequest (message : String) : Ends P (badRequest message) := ends_error nofun

theorem ends_payloadTooLarge (message : String) : Ends P (payloadTooLarge message) :=
  ends_error nofun

theorem littleEndian_lt (octets : Octets) : littleEndian octets < 256 ^ octets.length := by
  induction octets with
  | nil => exact Nat.one_pos
  | cons octet octets ih =>
      have hoctet : octet.toNat < 256 := octet.toNat_lt
      rw [littleEndian, List.foldr_cons, List.length_cons, Nat.pow_succ]
      change octet.toNat + 256 * littleEndian octets < _
      omega

theorem readUInt_ends {width offset : Nat} (h : offset + width ≤ buffer.length) :
    Ends (fun number => number < 256 ^ width) (readUInt width buffer offset) := by
  rw [readUInt, if_pos h]
  refine ends_ok ?_
  have hlength : ((buffer.drop offset).take width).length = width := by
    rw [List.length_take, List.length_drop]
    omega
  have hlt := littleEndian_lt ((buffer.drop offset).take width)
  rwa [hlength] at hlt

/-! ### The directory -/

theorem findEocd_loop_ends {min : Nat} : ∀ left, min + left ≤ buffer.length - 21 →
    Ends (fun offset => offset + 22 ≤ buffer.length) (findEocd.loop buffer min left)
  | 0, _ => ends_badRequest _
  | left + 1, h => by
      rw [findEocd.loop]
      have hwithin : min + left + 4 ≤ buffer.length := by omega
      refine (readUInt_ends hwithin).bind fun signature _ => ?_
      split_ifs
      · refine ends_ok ?_
        omega
      · exact findEocd_loop_ends left (by omega)

theorem findEocd_ends : Ends (fun offset => offset + 22 ≤ buffer.length) (findEocd buffer) := by
  rw [findEocd]
  split_ifs with hshort
  · exact ends_badRequest _
  · exact findEocd_loop_ends _ (by omega)

/-- While the directory is read, the declared sizes of the entries that are there are within the
sum, and the sum within its limit. -/
structure Directory.Lawful (directory : Directory) : Prop where
  summed : (directory.entries.values.map (·.uncompressedSize)).sum ≤
    directory.totalUncompressedBytes
  limited : directory.totalUncompressedBytes ≤ MAX_TOTAL_UNCOMPRESSED_BYTES

theorem readEntry_ends {directory : Directory} (h : directory.Lawful) :
    Ends Directory.Lawful (readEntry buffer directory) := by
  rw [readEntry]
  dsimp only
  split_ifs with hshort
  · exact ends_badRequest _
  refine (readUInt_ends (by omega)).bind fun signature _ => ?_
  split_ifs
  · exact ends_badRequest _
  refine (readUInt_ends (by omega)).bind fun method _ => ?_
  refine (readUInt_ends (by omega)).bind fun compressedSize _ => ?_
  refine (readUInt_ends (by omega)).bind fun uncompressedSize _ => ?_
  refine (readUInt_ends (by omega)).bind fun fileNameLength _ => ?_
  refine (readUInt_ends (by omega)).bind fun extraLength _ => ?_
  refine (readUInt_ends (by omega)).bind fun commentLength _ => ?_
  refine (readUInt_ends (by omega)).bind fun localHeaderOffset _ => ?_
  split_ifs with _ _ hlimit
  · exact ends_badRequest _
  · exact ends_payloadTooLarge _
  · exact ends_payloadTooLarge _
  · exact ends_badRequest _
  · refine ends_ok ⟨?_, Nat.le_of_not_lt hlimit⟩
    exact (InsertionMap.sum_values_set_le _).trans (Nat.add_le_add_right h.summed _)

theorem readEntries_ends (left : Nat) {directory : Directory} (h : directory.Lawful) :
    Ends Directory.Lawful (readEntries buffer left directory) := by
  induction left generalizing directory with
  | zero => exact ends_ok h
  | succ left ih => exact (readEntry_ends h).bind fun _ hnext => ih hnext

/-- The directory is read within the buffer, and the declared sizes of its entries are limited
together. -/
theorem readOpenXmlZipEntries_ends : Ends
    (fun entries => (entries.values.map (·.uncompressedSize)).sum ≤ MAX_TOTAL_UNCOMPRESSED_BYTES)
    (readOpenXmlZipEntries buffer) := by
  rw [readOpenXmlZipEntries]
  refine findEocd_ends.bind fun eocd heocd => ?_
  refine (readUInt_ends (by omega)).bind fun totalEntries _ => ?_
  refine (readUInt_ends (by omega)).bind fun centralOffset _ => ?_
  split_ifs
  · exact ends_payloadTooLarge _
  · exact ends_badRequest _
  · have hempty : (⟨.empty, centralOffset, 0⟩ : Directory).Lawful := ⟨Nat.le_refl _, Nat.zero_le _⟩
    exact (readEntries_ends totalEntries hempty).bind fun directory hdirectory =>
      ends_ok (hdirectory.summed.trans hdirectory.limited)

/-! ### An entry -/

variable {inflateRawSync : Octets → Nat → Inflated} {entry : OpenXmlZipEntry}

theorem compressedOf_ends : Ends (fun _ => True) (compressedOf buffer entry) := by
  rw [compressedOf]
  dsimp only
  split_ifs with hshort
  · exact ends_error nofun
  refine (readUInt_ends (by omega)).bind fun signature _ => ?_
  split_ifs
  · exact ends_error nofun
  refine (readUInt_ends (by omega)).bind fun fileNameLength _ => ?_
  refine (readUInt_ends (by omega)).bind fun extraLength _ => ?_
  split_ifs
  · exact ends_error nofun
  · exact ends_ok trivial

theorem decompress_ends {compressed : Octets} :
    Ends (fun _ => True) (decompress inflateRawSync entry compressed).result := by
  rw [decompress]
  split_ifs
  · exact ends_ok trivial
  · split
    · exact ends_ok trivial
    · exact ends_error nofun
    · exact ends_error nofun
  · exact ends_error nofun

namespace Unzipping

theorem result_bind {m : Unzipping α} {f : α → Unzipping β} (h : Ends P m.result)
    (hf : ∀ a, P a → Ends Q (f a).result) : Ends Q (m >>= f).result := by
  obtain ⟨result, done⟩ := m
  cases result with
  | ok a => exact hf a (h.result a rfl)
  | error failure => exact ends_error fun heq => h.declared (congrArg _ heq)

/-- Only entries of which `E` holds are decompressed. -/
def Opens (E : OpenXmlZipEntry → Prop) (m : Unzipping α) : Prop := ∀ step ∈ m.done, E step.entry

variable {E : OpenXmlZipEntry → Prop}

theorem opens_pure (a : α) : Opens E (pure a : Unzipping α) := nofun

theorem opens_lift (outcome : Checked α) : Opens E (liftM outcome : Unzipping α) := nofun

theorem Opens.bind {m : Unzipping α} {f : α → Unzipping β} (h : Opens E m)
    (hf : ∀ a, m.result = .ok a → Opens E (f a)) : Opens E (m >>= f) := by
  obtain ⟨result, done⟩ := m
  cases result with
  | ok a =>
      intro step hstep
      obtain hfirst | hrest := List.mem_append.mp hstep
      · exact h step hfirst
      · exact hf a rfl step hrest
  | error failure => exact h

theorem bind_eq_ok {m : Unzipping α} {f : α → Unzipping β} {b : β}
    (h : (m >>= f).result = .ok b) : ∃ a, m.result = .ok a ∧ (f a).result = .ok b := by
  obtain ⟨result, done⟩ := m
  cases result with
  | ok a => exact ⟨a, rfl, h⟩
  | error failure => cases h

end Unzipping

theorem unzipOpenXmlEntry_ends :
    Ends (fun _ => True) (unzipOpenXmlEntry inflateRawSync buffer entry).result := by
  rw [unzipOpenXmlEntry]
  refine Unzipping.result_bind (P := fun _ => True) compressedOf_ends fun compressed _ => ?_
  refine Unzipping.result_bind decompress_ends fun result _ => ?_
  split_ifs
  · exact ends_error nofun
  · exact ends_ok trivial

theorem unzipOpenXmlEntry_opens {E : OpenXmlZipEntry → Prop} (h : E entry) :
    (unzipOpenXmlEntry inflateRawSync buffer entry).Opens E := by
  rw [unzipOpenXmlEntry]
  refine (Unzipping.opens_lift _).bind fun compressed _ => ?_
  refine Unzipping.Opens.bind ?_ fun result _ => ?_
  · rw [decompress]
    split_ifs
    · exact Unzipping.opens_pure _
    · split
      · exact fun step hstep => List.mem_singleton.mp hstep ▸ h
      · exact Unzipping.opens_lift _
      · exact Unzipping.opens_lift _
    · exact Unzipping.opens_lift _
  · split_ifs
    · exact Unzipping.opens_lift _
    · exact Unzipping.opens_pure _

theorem openXmlTextEntry_opens {entries : InsertionMap Str OpenXmlZipEntry} {path : Str} :
    (openXmlTextEntry inflateRawSync buffer entries path).Opens (· ∈ entries.values) := by
  rw [openXmlTextEntry]
  cases hentry : entries.get path with
  | none => exact Unzipping.opens_lift _
  | some entry =>
      have hmem : entry ∈ entries.values :=
        InsertionMap.mem_values.mpr ⟨path, InsertionMap.get_eq_some_iff.mp hentry⟩
      exact (unzipOpenXmlEntry_opens hmem).bind fun _ _ => Unzipping.opens_pure _

/-- Decompressions of different entries, of which each gives no more than is declared, stay within
the limit of the directory. -/
theorem produced_le {entries : InsertionMap Str OpenXmlZipEntry} {done : List Decompression}
    (hentries : (entries.values.map (·.uncompressedSize)).sum ≤ MAX_TOTAL_UNCOMPRESSED_BYTES)
    (hmem : ∀ step ∈ done, step.entry ∈ entries.values) (hnodup : (done.map (·.entry)).Nodup)
    (hdeclared : ∀ step ∈ done, step.bytes ≤ step.entry.uncompressedSize) :
    produced done ≤ MAX_TOTAL_UNCOMPRESSED_BYTES := by
  have hsubset : done.map (·.entry) ⊆ entries.values := fun entry hentry => by
    obtain ⟨step, hstep, rfl⟩ := List.mem_map.mp hentry
    exact hmem step hstep
  calc produced done ≤ (done.map (·.entry.uncompressedSize)).sum := List.sum_le_sum hdeclared
    _ = ((done.map (·.entry)).map (·.uncompressedSize)).sum := by rw [List.map_map]; rfl
    _ ≤ (entries.values.map (·.uncompressedSize)).sum := by
        obtain ⟨chosen, hperm, hsub⟩ := hnodup.subperm hsubset
        rw [← (hperm.map _).sum_eq]
        exact (hsub.map _).sum_le_sum fun _ _ => Nat.zero_le _
    _ ≤ MAX_TOTAL_UNCOMPRESSED_BYTES := hentries

end SourceVault
