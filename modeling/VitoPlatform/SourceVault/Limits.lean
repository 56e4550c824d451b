import VitoPlatform.SourceVault.Knowledge

/-!
# What an extraction decompresses

No read of an archive is outside the buffer. What one extraction decompresses is within the limit of
the directory if no entry is decompressed twice and none gives more than it declares
(`archive_within_bounds`); the directory cannot see either, so a workbook that lists one sheet five
times exceeds the limit (`not_archive_within_bounds`).
-/

namespace SourceVault

open Text Scanning Invocation

variable {ν : Type} {numbers : Numbers ν} {inflateRawSync : Octets → Nat → Inflated}
  {buffer : Octets}

/-- The entry stands in the directory. -/
def Listed (buffer : Octets) (entry : OpenXmlZipEntry) : Prop :=
  ∃ entries, readOpenXmlZipEntries buffer = .ok entries ∧ entry ∈ entries.values

theorem openXmlTextEntry_listed {entries : InsertionMap Str OpenXmlZipEntry} {path : Str}
    (h : readOpenXmlZipEntries buffer = .ok entries) :
    (openXmlTextEntry inflateRawSync buffer entries path).Opens (Listed buffer) :=
  fun step hstep => ⟨entries, h, openXmlTextEntry_opens step hstep⟩

theorem openWorkbook_listed : (openWorkbook inflateRawSync buffer).Opens (Listed buffer) := by
  rw [openWorkbook]
  refine (Unzipping.opens_lift _).bind fun entries hentries => ?_
  refine (openXmlTextEntry_listed hentries).bind fun workbook _ => ?_
  refine (openXmlTextEntry_listed hentries).bind fun relationships _ => ?_
  refine Unzipping.Opens.bind ?_ fun sharedStrings _ => Unzipping.opens_pure _
  rw [readSharedStrings]
  cases hentry : entries.get "xl/sharedStrings.xml".toList with
  | none => exact Unzipping.opens_pure _
  | some entry =>
      have hmem : entry ∈ entries.values :=
        InsertionMap.mem_values.mpr ⟨_, InsertionMap.get_eq_some_iff.mp hentry⟩
      exact (unzipOpenXmlEntry_opens ⟨entries, hentries, hmem⟩).bind fun _ _ =>
        Unzipping.opens_pure _

theorem openWorkbook_entries {opened : Opened}
    (h : (openWorkbook inflateRawSync buffer).result = .ok opened) :
    readOpenXmlZipEntries buffer = .ok opened.entries := by
  rw [openWorkbook] at h
  obtain ⟨entries, hentries, h⟩ := Unzipping.bind_eq_ok h
  obtain ⟨workbook, -, h⟩ := Unzipping.bind_eq_ok h
  obtain ⟨relationships, -, h⟩ := Unzipping.bind_eq_ok h
  obtain ⟨sharedStrings, -, h⟩ := Unzipping.bind_eq_ok h
  obtain rfl := Except.ok.inj h
  exact hentries

theorem readSheets_listed {opened : Opened}
    (h : readOpenXmlZipEntries buffer = .ok opened.entries) (tags : List Str) (sheetCount : Nat)
    (extracted : Extracted ν) :
    (readSheets numbers inflateRawSync buffer opened tags sheetCount extracted).Opens
      (Listed buffer) := by
  induction tags generalizing sheetCount extracted with
  | nil => exact Unzipping.opens_pure _
  | cons tag tags ih =>
      rw [readSheets]
      cases sheetOf opened.relationshipTargets tag with
      | none => exact ih sheetCount extracted
      | some sheet =>
          dsimp only
          split_ifs
          · exact Unzipping.opens_lift _
          · refine (openXmlTextEntry_listed h).bind fun sheetXml _ => ?_
            refine (Unzipping.opens_lift _).bind fun next _ => ?_
            exact ih (sheetCount + 1) next

theorem extractXlsxKnowledgeRows_listed :
    (extractXlsxKnowledgeRows numbers inflateRawSync buffer).Opens (Listed buffer) := by
  rw [extractXlsxKnowledgeRows]
  refine openWorkbook_listed.bind fun opened hopened => ?_
  refine (readSheets_listed (openWorkbook_entries hopened) _ _ _).bind fun sheets _ => ?_
  obtain ⟨sheetCount, extracted⟩ := sheets
  dsimp only
  split_ifs
  · exact Unzipping.opens_lift _
  · exact Unzipping.opens_pure _

/-- A decompression that the directory has accounted for: the first one of its entry, which gives no
more than is declared. -/
structure Accounted (before : List Decompression) (step : Decompression) : Prop where
  first : ∀ earlier ∈ before, earlier.entry ≠ step.entry
  declared : step.bytes ≤ step.entry.uncompressedSize

/-- All steps of a run are accounted for. -/
def EachAccounted (done : List Decompression) : Prop :=
  ∀ before step after, done = before ++ step :: after → Accounted before step

/-- Nothing is read outside the buffer, there are only the declared exceptions, and in every state
of an extraction the decompressed octets are within the limit. -/
structure WithinBounds (numbers : Numbers ν) (inflateRawSync : Octets → Nat → Inflated)
    (buffer : Octets) : Prop where
  directory : readOpenXmlZipEntries buffer ≠ .error .outOfRange
  entry : ∀ entry, Listed buffer entry →
    (unzipOpenXmlEntry inflateRawSync buffer entry).result ≠ .error .outOfRange
  total : ∀ reached, reached <+: (extractXlsxKnowledgeRows numbers inflateRawSync buffer).done →
    produced reached ≤ MAX_TOTAL_UNCOMPRESSED_BYTES

theorem EachAccounted.of_prefix {done reached : List Decompression} (h : EachAccounted done)
    (hreached : reached <+: done) : EachAccounted reached := by
  obtain ⟨rest, rfl⟩ := hreached
  intro before step after heq
  exact h before step (after ++ rest) (by rw [heq, List.append_assoc, List.cons_append])

theorem EachAccounted.declared {done : List Decompression} (h : EachAccounted done) :
    ∀ step ∈ done, step.bytes ≤ step.entry.uncompressedSize := by
  intro step hstep
  obtain ⟨before, after, heq⟩ := List.append_of_mem hstep
  exact (h before step after heq).declared

theorem EachAccounted.nodup {done : List Decompression} (h : EachAccounted done) :
    (done.map (·.entry)).Nodup := by
  induction done using List.reverseRecOn with
  | nil => exact List.nodup_nil
  | append_singleton before step ih =>
      have hbefore : EachAccounted before := h.of_prefix (List.prefix_append before [step])
      rw [List.map_append, List.nodup_append]
      refine ⟨ih hbefore, List.nodup_singleton _, fun entry hentry other hother => ?_⟩
      obtain ⟨earlier, hearlier, rfl⟩ := List.mem_map.mp hentry
      rw [List.mem_singleton.mp hother]
      exact (h before step [] rfl).first earlier hearlier

/-- In a run whose steps are all accounted for, every state is within the bounds; the reads always
are. -/
theorem archive_within_bounds (numbers : Numbers ν) (inflateRawSync : Octets → Nat → Inflated)
    (buffer : Octets)
    (haccounted :
      EachAccounted (extractXlsxKnowledgeRows numbers inflateRawSync buffer).done) :
    WithinBounds numbers inflateRawSync buffer := by
  refine ⟨readOpenXmlZipEntries_ends.declared, fun entry _ => unzipOpenXmlEntry_ends.declared,
    fun reached hreached => ?_⟩
  have haccounted' : EachAccounted reached := haccounted.of_prefix hreached
  have hlisted : ∀ step ∈ reached, Listed buffer step.entry := fun step hstep =>
    extractXlsxKnowledgeRows_listed step (hreached.subset hstep)
  cases hentries : readOpenXmlZipEntries buffer with
  | error failure =>
      have hnone : reached = [] := List.eq_nil_iff_forall_not_mem.mpr fun step hstep => by
        obtain ⟨entries, heq, -⟩ := hlisted step hstep
        rw [hentries] at heq
        cases heq
      rw [hnone]
      exact Nat.zero_le _
  | ok entries =>
      refine produced_le (readOpenXmlZipEntries_ends.result entries hentries) (fun step hstep => ?_)
        haccounted'.nodup haccounted'.declared
      obtain ⟨entries', heq, hmem⟩ := hlisted step hstep
      obtain rfl := Except.ok.inj (hentries.symm.trans heq)
      exact hmem

/-! ## An archive that exceeds the limit -/

theorem ok_bind {α β : Type} (a : α) (f : α → Checked β) : ((.ok a : Checked α) >>= f) = f a := rfl

variable {front back : Octets}

/-- Reads in front of an archive do not depend on what follows. -/
theorem readUInt_append {width offset : Nat} (h : offset + width ≤ front.length) :
    readUInt width (front ++ back) offset = readUInt width front offset := by
  rw [readUInt, readUInt, if_pos h, if_pos (by rw [List.length_append]; omega),
    List.drop_append_of_le_length (by omega), List.take_append_of_le_length (by
      rw [List.length_drop]
      omega)]

theorem readUInt_right {width offset : Nat} :
    readUInt width (front ++ back) (front.length + offset) = readUInt width back offset := by
  rw [readUInt, readUInt, List.length_append, List.drop_length_add_append]
  by_cases h : offset + width ≤ back.length
  · rw [if_pos h, if_pos (by omega)]
  · rw [if_neg h, if_neg (by omega)]

theorem subarray_append {start stop : Nat} (h : stop ≤ front.length) :
    subarray (front ++ back) start stop = subarray front start stop := by
  rw [subarray, subarray, List.take_append_of_le_length h]

/-- A computation that succeeds with the same result when its reads give the same. -/
theorem bind_same {α β : Type} {x x' : Checked α} {f f' : α → Checked β} {b : β} (hx : x' = x)
    (hf : ∀ a, f a = .ok b → f' a = .ok b) (h : (x >>= f) = .ok b) : (x' >>= f') = .ok b := by
  subst hx
  cases x' with
  | ok a => exact hf a h
  | error failure => cases h

theorem readEntry_append {directory next : Directory} (h : readEntry front directory = .ok next) :
    readEntry (front ++ back) directory = .ok next := by
  rw [readEntry] at h ⊢
  dsimp only at h ⊢
  have hlength : (front ++ back).length = front.length + back.length := List.length_append
  split_ifs at h with hshort
  · cases h
  rw [if_neg (by omega)]
  refine bind_same (readUInt_append (by omega)) (fun signature h => ?_) h
  split_ifs at h ⊢ with hsignature
  · cases h
  refine bind_same (readUInt_append (by omega)) (fun method h => ?_) h
  refine bind_same (readUInt_append (by omega)) (fun compressedSize h => ?_) h
  refine bind_same (readUInt_append (by omega)) (fun uncompressedSize h => ?_) h
  refine bind_same (readUInt_append (by omega)) (fun fileNameLength h => ?_) h
  refine bind_same (readUInt_append (by omega)) (fun extraLength h => ?_) h
  refine bind_same (readUInt_append (by omega)) (fun commentLength h => ?_) h
  refine bind_same (readUInt_append (by omega)) (fun localHeaderOffset h => ?_) h
  have hstop : ¬ directory.cursor + 46 + fileNameLength + extraLength + commentLength >
      front.length := fun hlong => by
    rw [if_pos hlong] at h
    cases h
  rw [if_neg hstop] at h
  rw [if_neg (by omega), subarray_append (by omega)]
  exact h

theorem readEntries_append (left : Nat) {directory last : Directory}
    (h : readEntries front left directory = .ok last) :
    readEntries (front ++ back) left directory = .ok last := by
  induction left generalizing directory with
  | zero => exact h
  | succ left ih =>
      rw [readEntries] at h ⊢
      cases hentry : readEntry front directory with
      | error failure =>
          rw [hentry] at h
          cases h
      | ok next =>
          rw [hentry] at h
          rw [readEntry_append hentry]
          exact ih h

theorem compressedOf_append {entry : OpenXmlZipEntry} {compressed : Octets}
    (h : compressedOf front entry = .ok compressed) :
    compressedOf (front ++ back) entry = .ok compressed := by
  rw [compressedOf] at h ⊢
  dsimp only at h ⊢
  have hlength : (front ++ back).length = front.length + back.length := List.length_append
  split_ifs at h with hshort
  rw [if_neg (by omega)]
  refine bind_same (readUInt_append (by omega)) (fun signature h => ?_) h
  split_ifs at h ⊢ with hsignature
  refine bind_same (readUInt_append (by omega)) (fun fileNameLength h => ?_) h
  refine bind_same (readUInt_append (by omega)) (fun extraLength h => ?_) h
  have hstop : ¬ entry.localHeaderOffset + 30 + fileNameLength + extraLength +
      entry.compressedSize > front.length := fun hlong => by
    rw [if_pos hlong] at h
    cases h
  rw [if_neg hstop] at h
  rw [if_neg (by omega), subarray_append (by omega)]
  exact h

theorem findEocd_append (hback : back.length = 22)
    (hsignature : readUInt32LE back 0 = .ok 0x06054b50) :
    findEocd (front ++ back) = .ok front.length := by
  have hfrom (window : Nat) (hwindow : 22 ≤ window) :
      findEocd.loop (front ++ back) ((front ++ back).length - window)
        ((front ++ back).length - 22 + 1 - ((front ++ back).length - window)) =
          .ok front.length := by
    have hlength : (front ++ back).length = front.length + 22 := by
      rw [List.length_append, hback]
    obtain ⟨left, hleft⟩ : ∃ left, (front ++ back).length - 22 + 1 -
        ((front ++ back).length - window) = left + 1 := ⟨_, (Nat.succ_pred (by omega)).symm⟩
    have hoffset : (front ++ back).length - window + left = front.length := by omega
    have hright : readUInt32LE (front ++ back) (front.length + 0) = readUInt32LE back 0 :=
      readUInt_right
    have hread : readUInt32LE (front ++ back) front.length = .ok 0x06054b50 :=
      hright.trans hsignature
    rw [hleft, findEocd.loop, hoffset, hread]
    rfl
  rw [findEocd, if_neg (by rw [List.length_append]; omega)]
  exact hfrom 65557 (by omega)

/-- A number in so many octets. -/
def octetsOf (width number : Nat) : Octets :=
  (List.range width).map fun i => UInt8.ofNat (number / 256 ^ i)

def localHeader (name : Octets) : Octets :=
  octetsOf 4 0x04034b50 ++ List.replicate 22 0 ++ octetsOf 2 name.length ++ octetsOf 2 0 ++ name

def directoryEntry (name : Octets) (entry : OpenXmlZipEntry) : Octets :=
  octetsOf 4 0x02014b50 ++ List.replicate 6 0 ++ octetsOf 2 entry.method ++ List.replicate 8 0 ++
    octetsOf 4 entry.compressedSize ++ octetsOf 4 entry.uncompressedSize ++
    octetsOf 2 name.length ++ List.replicate 12 0 ++ octetsOf 4 entry.localHeaderOffset ++ name

def endOfDirectory (count : Nat) : Octets :=
  octetsOf 4 0x06054b50 ++ List.replicate 6 0 ++ octetsOf 2 count ++ List.replicate 10 0

/-- A content of eight megabytes of blanks, as `deflate` shortens it. -/
def shortened : Octets :=
  [0xed, 0xc1, 0x81, 0, 0, 0, 0, 0xc3, 0x20, 0x95, 0xf9, 0x53, 0x1e, 0xe4, 0x55, 0x01] ++
    List.replicate 8127 0 ++ [0xf0, 0x6c]

def blanks (n : Nat) : Octets := List.replicate n 32

def inflateSample (compressed : Octets) (maxOutputLength : Nat) : Inflated :=
  if compressed = shortened then
    if 8388608 ≤ maxOutputLength then .done (blanks 8388608) else .tooLarge
  else .failed

/-- A workbook that lists its sheet so many times. -/
def workbookXml (sheets : Nat) : Str :=
  (List.replicate sheets "<sheet name=\"S\" r:id=\"r\"/>".toList).flatten

def relationshipsXml : Str := "<Relationship Id=\"r\" Target=\"s\"/>".toList

def workbookEntry (sheets : Nat) : OpenXmlZipEntry where
  name := "xl/workbook.xml".toList
  method := 0
  compressedSize := (workbookXml sheets).length
  uncompressedSize := (workbookXml sheets).length
  localHeaderOffset := 183

def relationshipsEntry (sheets : Nat) : OpenXmlZipEntry where
  name := "xl/_rels/workbook.xml.rels".toList
  method := 0
  compressedSize := relationshipsXml.length
  uncompressedSize := relationshipsXml.length
  localHeaderOffset := 183 + 45 + (workbookXml sheets).length

def sheetEntry (sheets : Nat) : OpenXmlZipEntry where
  name := "xl/s".toList
  method := 8
  compressedSize := 8145
  uncompressedSize := 8388608
  localHeaderOffset := 183 + 45 + (workbookXml sheets).length + 56 + relationshipsXml.length

/-- The archive up to the content of the sheet. -/
def archiveFront (sheets : Nat) : Octets :=
  ([workbookEntry sheets, relationshipsEntry sheets, sheetEntry sheets].flatMap fun entry =>
    directoryEntry (Utf8.encode entry.name) entry) ++
    localHeader (Utf8.encode (workbookEntry sheets).name) ++ Utf8.encode (workbookXml sheets) ++
    localHeader (Utf8.encode (relationshipsEntry sheets).name) ++ Utf8.encode relationshipsXml ++
    localHeader (Utf8.encode (sheetEntry sheets).name)

def archive (sheets : Nat) : Octets := archiveFront sheets ++ shortened ++ endOfDirectory 3

def entriesOf (sheets : Nat) : InsertionMap Str OpenXmlZipEntry :=
  .ofEntries ([workbookEntry sheets, relationshipsEntry sheets, sheetEntry sheets].map fun entry =>
    (entry.name, entry))

theorem entries_read : ∀ sheets ∈ [1, 5],
    ((readEntries (archiveFront sheets) 3 ⟨.empty, 0, 0⟩).toOption.map (·.entries.entries)) =
      some ([workbookEntry sheets, relationshipsEntry sheets, sheetEntry sheets].map fun entry =>
        (entry.name, entry)) := by
  decide +kernel

theorem length_shortened : shortened.length = 8145 := by
  rw [shortened, List.length_append, List.length_append, List.length_replicate]
  rfl

/-- Where the archives are read. -/
theorem front_read : ∀ sheets ∈ [1, 5],
    compressedOf (archiveFront sheets) (workbookEntry sheets) =
        .ok (Utf8.encode (workbookXml sheets)) ∧
      compressedOf (archiveFront sheets) (relationshipsEntry sheets) =
        .ok (Utf8.encode relationshipsXml) ∧
      readUInt32LE (archiveFront sheets) (sheetEntry sheets).localHeaderOffset = .ok 0x04034b50 ∧
      readUInt16LE (archiveFront sheets) ((sheetEntry sheets).localHeaderOffset + 26) = .ok 4 ∧
      readUInt16LE (archiveFront sheets) ((sheetEntry sheets).localHeaderOffset + 28) = .ok 0 ∧
      (archiveFront sheets).length = (sheetEntry sheets).localHeaderOffset + 34 := by
  decide +kernel

variable {sheets : Nat}

theorem archive_eq : archive sheets = archiveFront sheets ++ (shortened ++ endOfDirectory 3) :=
  List.append_assoc _ _ _

theorem readOpenXmlZipEntries_archive (hsheets : sheets ∈ [1, 5]) :
    readOpenXmlZipEntries (archive sheets) = .ok (entriesOf sheets) := by
  have hfind : findEocd (archive sheets) = .ok (archiveFront sheets ++ shortened).length :=
    findEocd_append (by decide) (by decide)
  have hcount : readUInt16LE (archive sheets) ((archiveFront sheets ++ shortened).length + 10) =
      .ok 3 := readUInt_right.trans (by decide)
  have hoffset : readUInt32LE (archive sheets) ((archiveFront sheets ++ shortened).length + 16) =
      .ok 0 := readUInt_right.trans (by decide)
  have hlength : ¬ 0 ≥ (archive sheets).length := by
    rw [archive, List.length_append, List.length_append, length_shortened]
    omega
  obtain ⟨directory, hdirectory, hentries⟩ : ∃ directory,
      readEntries (archiveFront sheets) 3 ⟨.empty, 0, 0⟩ = .ok directory ∧
        directory.entries.entries = (entriesOf sheets).entries := by
    have hread := entries_read sheets hsheets
    cases hresult : readEntries (archiveFront sheets) 3 ⟨.empty, 0, 0⟩ with
    | error failure =>
        rw [hresult] at hread
        cases hread
    | ok directory =>
        rw [hresult] at hread
        refine ⟨directory, rfl, (Option.some.inj hread).trans ?_⟩
        rw [entriesOf, InsertionMap.entries_ofEntries]
        obtain rfl | rfl : sheets = 1 ∨ sheets = 5 := by simpa using hsheets
        · decide
        · decide
  rw [readOpenXmlZipEntries, hfind, ok_bind, hcount, ok_bind, hoffset, ok_bind, if_neg (by decide),
    if_neg hlength, archive_eq, readEntries_append 3 hdirectory, ok_bind,
    InsertionMap.eq_of_entries hentries]
  rfl

variable {entry : OpenXmlZipEntry} {compressed content : Octets}

theorem unzipping_ok_bind {α β : Type} (a : α) (done : List Decompression)
    (f : α → Unzipping β) :
    ((⟨.ok a, done⟩ : Unzipping α) >>= f) = ⟨(f a).result, done ++ (f a).done⟩ := rfl

theorem unzip_of_decompress {done : List Decompression}
    (hcompressed : compressedOf buffer entry = .ok compressed)
    (hdecompress : decompress inflateRawSync entry compressed = ⟨.ok content, done⟩)
    (hsize : content.length = entry.uncompressedSize) (hmax : content.length ≤ MAX_ENTRY_BYTES) :
    unzipOpenXmlEntry inflateRawSync buffer entry = ⟨.ok content, done⟩ := by
  have hchecked : (decide (content.length > MAX_ENTRY_BYTES) ||
      (decide (entry.uncompressedSize ≠ 0) &&
        decide (content.length ≠ entry.uncompressedSize))) = false := by
    rw [decide_eq_false (Nat.not_lt.mpr hmax), decide_eq_false (not_not_intro hsize),
      Bool.and_false, Bool.or_false]
  have hlift : (liftM (.ok compressed : Checked Octets) : Unzipping Octets) =
      ⟨.ok compressed, []⟩ := rfl
  rw [unzipOpenXmlEntry, hcompressed, hlift, unzipping_ok_bind, hdecompress, unzipping_ok_bind,
    if_neg (by rw [hchecked]; exact Bool.false_ne_true), List.nil_append]
  exact congrArg (Unzipping.mk _) (List.append_nil done)

theorem unzip_stored (hcompressed : compressedOf buffer entry = .ok content)
    (hmethod : entry.method = 0) (hsize : content.length = entry.uncompressedSize)
    (hmax : content.length ≤ MAX_ENTRY_BYTES) :
    unzipOpenXmlEntry inflateRawSync buffer entry = ⟨.ok content, []⟩ :=
  unzip_of_decompress hcompressed (if_pos hmethod) hsize hmax

theorem unzip_deflated (hcompressed : compressedOf buffer entry = .ok compressed)
    (hmethod : entry.method = 8)
    (hinflate : inflateRawSync compressed MAX_ENTRY_BYTES = .done content)
    (hsize : content.length = entry.uncompressedSize) (hmax : content.length ≤ MAX_ENTRY_BYTES) :
    unzipOpenXmlEntry inflateRawSync buffer entry =
      ⟨.ok content, [⟨entry, content.length⟩]⟩ := by
  refine unzip_of_decompress hcompressed ?_ hsize hmax
  rw [decompress, if_neg (by rw [hmethod]; decide), if_pos hmethod, hinflate]

theorem length_blanks (n : Nat) : (blanks n).length = n := List.length_replicate

/-- The sheet is decompressed to its content. -/
theorem unzip_sheet (hsheets : sheets ∈ [1, 5]) :
    unzipOpenXmlEntry inflateSample (archive sheets) (sheetEntry sheets) =
      ⟨.ok (blanks 8388608), [⟨sheetEntry sheets, 8388608⟩]⟩ := by
  obtain ⟨-, -, hsignature, hname, hextra, hfront⟩ := front_read sheets hsheets
  have hread {width offset : Nat} (h : offset + width ≤ (archiveFront sheets).length) :
      readUInt width (archive sheets) offset = readUInt width (archiveFront sheets) offset := by
    rw [archive_eq]
    exact readUInt_append h
  have hlength : (archive sheets).length = (archiveFront sheets).length + 8145 + 22 := by
    rw [archive, List.length_append, List.length_append, length_shortened]
    rfl
  have hcompressed : compressedOf (archive sheets) (sheetEntry sheets) = .ok shortened := by
    have hsignature' : readUInt32LE (archive sheets) (sheetEntry sheets).localHeaderOffset =
        .ok 0x04034b50 := (hread (by omega)).trans hsignature
    have hname' : readUInt16LE (archive sheets) ((sheetEntry sheets).localHeaderOffset + 26) =
        .ok 4 := (hread (by omega)).trans hname
    have hextra' : readUInt16LE (archive sheets) ((sheetEntry sheets).localHeaderOffset + 28) =
        .ok 0 := (hread (by omega)).trans hextra
    have hstart : (sheetEntry sheets).localHeaderOffset + 30 + 4 + 0 =
        (archiveFront sheets).length := by omega
    have hsize : (sheetEntry sheets).compressedSize = shortened.length := length_shortened.symm
    rw [compressedOf]
    dsimp only
    rw [if_neg (by omega), hsignature', ok_bind, if_neg (not_not_intro rfl), hname', ok_bind,
      hextra', ok_bind, hstart, hsize, if_neg (by rw [hlength, length_shortened]; omega),
      archive_eq, subarray, List.take_length_add_append, List.drop_left, List.take_left]
    rfl
  have hinflate : inflateSample shortened MAX_ENTRY_BYTES = .done (blanks 8388608) := by
    rw [inflateSample, if_pos rfl, if_pos (by decide)]
  have hdone := unzip_deflated hcompressed rfl hinflate (length_blanks _)
    (Nat.le_of_eq (length_blanks _))
  rwa [length_blanks] at hdone

/-- The texts of the archive. -/
theorem parts_read : ∀ sheets ∈ [1, 5],
    (entriesOf sheets).get "xl/workbook.xml".toList = some (workbookEntry sheets) ∧
      (entriesOf sheets).get "xl/_rels/workbook.xml.rels".toList =
        some (relationshipsEntry sheets) ∧
      (entriesOf sheets).get "xl/s".toList = some (sheetEntry sheets) ∧
      (entriesOf sheets).get "xl/sharedStrings.xml".toList = none ∧
      (Utf8.encode (workbookXml sheets)).length = (workbookEntry sheets).uncompressedSize ∧
      tags "sheet".toList (workbookXml sheets) =
        List.replicate sheets "<sheet name=\"S\" r:id=\"r\"/>".toList := by
  decide +kernel

theorem text_of_unzip {entries : InsertionMap Str OpenXmlZipEntry} {path : Str}
    {done : List Decompression} (hentry : entries.get path = some entry)
    (hunzip : unzipOpenXmlEntry inflateRawSync buffer entry = ⟨.ok content, done⟩) :
    openXmlTextEntry inflateRawSync buffer entries path = ⟨.ok (Utf8.decode content), done⟩ := by
  rw [openXmlTextEntry, hentry]
  dsimp only
  rw [hunzip, unzipping_ok_bind]
  exact congrArg (Unzipping.mk _) (List.append_nil done)

def openedSample (sheets : Nat) : Opened where
  entries := entriesOf sheets
  workbook := workbookXml sheets
  relationshipTargets := readRelationshipTargets relationshipsXml
  sharedStrings := []

theorem openWorkbook_archive (hsheets : sheets ∈ [1, 5]) :
    openWorkbook inflateSample (archive sheets) = ⟨.ok (openedSample sheets), []⟩ := by
  obtain ⟨hworkbook, hrelationships, -, hstrings, hsize, -⟩ := parts_read sheets hsheets
  obtain ⟨hstored, hstored', -⟩ := front_read sheets hsheets
  have hmax : (Utf8.encode (workbookXml sheets)).length ≤ MAX_ENTRY_BYTES := by
    obtain rfl | rfl : sheets = 1 ∨ sheets = 5 := by simpa using hsheets
    · decide
    · decide
  have htext : openXmlTextEntry inflateSample (archive sheets) (entriesOf sheets)
      "xl/workbook.xml".toList = ⟨.ok (workbookXml sheets), []⟩ := by
    rw [text_of_unzip hworkbook (unzip_stored (archive_eq ▸ compressedOf_append hstored) rfl hsize
      hmax), Utf8.decode_encode]
  have htext' : openXmlTextEntry inflateSample (archive sheets) (entriesOf sheets)
      "xl/_rels/workbook.xml.rels".toList = ⟨.ok relationshipsXml, []⟩ := by
    rw [text_of_unzip hrelationships (unzip_stored (archive_eq ▸ compressedOf_append hstored') rfl
      (show (Utf8.encode relationshipsXml).length = relationshipsXml.length by decide)
      (by decide)), Utf8.decode_encode]
  have hshared : readSharedStrings inflateSample (archive sheets) (entriesOf sheets) =
      ⟨.ok [], []⟩ := by
    rw [readSharedStrings, hstrings]
    rfl
  have hlift : (liftM (.ok (entriesOf sheets) : Checked _) : Unzipping _) =
      ⟨.ok (entriesOf sheets), []⟩ := rfl
  rw [openWorkbook, readOpenXmlZipEntries_archive hsheets, hlift, unzipping_ok_bind, htext,
    unzipping_ok_bind, htext', unzipping_ok_bind, hshared, unzipping_ok_bind]
  rfl

theorem elements_blanks (name : Str) (n : Nat) :
    elements name (Utf8.decode (blanks n)) = [] := by
  have hascii : Utf8.Ascii (List.replicate n ' ') := fun c hc => by
    rw [List.eq_of_mem_replicate hc]
    decide
  have hdecode : Utf8.decode (blanks n) = List.replicate n ' ' := by
    rw [← Utf8.decode_ascii hascii, List.map_replicate]
    rfl
  rw [hdecode]
  exact elements_of_not_mem fun hmem => absurd (List.eq_of_mem_replicate hmem) (by decide)

/-- A sheet that is listed several times is decompressed as often. -/
theorem readSheets_replicate {opened : Opened} {tag sheetName path xml : Str}
    {step : Decompression}
    (hsheet : sheetOf opened.relationshipTargets tag = some (sheetName, path))
    (htext : openXmlTextEntry inflateRawSync buffer opened.entries path = ⟨.ok xml, [step]⟩)
    (hrows : elements "row".toList xml = []) (n sheetCount : Nat)
    (hcount : sheetCount + n ≤ MAX_SHEETS) (extracted : Extracted ν) :
    readSheets numbers inflateRawSync buffer opened (List.replicate n tag) sheetCount extracted =
      ⟨.ok (sheetCount + n, extracted), List.replicate n step⟩ := by
  induction n generalizing sheetCount with
  | zero => rfl
  | succ n ih =>
      have hlift : (liftM (.ok extracted : Checked (Extracted ν)) : Unzipping (Extracted ν)) =
          ⟨.ok extracted, []⟩ := rfl
      rw [List.replicate_succ, readSheets, hsheet]
      dsimp only
      rw [if_neg (by omega), htext, unzipping_ok_bind, hrows, readRows, hlift, unzipping_ok_bind,
        ih (sheetCount + 1) (by omega)]
      have hsum : sheetCount + 1 + n = sheetCount + (n + 1) := by omega
      rw [hsum]
      rfl

theorem done_archive (hsheets : sheets ∈ [1, 5]) :
    (extractXlsxKnowledgeRows numbers inflateSample (archive sheets)).done =
      List.replicate sheets ⟨sheetEntry sheets, 8388608⟩ := by
  have hsheet : sheetOf (openedSample sheets).relationshipTargets
      "<sheet name=\"S\" r:id=\"r\"/>".toList = some (['S'], "xl/s".toList) := by
    change sheetOf (readRelationshipTargets relationshipsXml) _ = _
    decide +kernel
  obtain ⟨-, -, hentry, -, -, htags⟩ := parts_read sheets hsheets
  have hcount : 0 + sheets ≤ MAX_SHEETS := by
    obtain rfl | rfl : sheets = 1 ∨ sheets = 5 := by simpa using hsheets
    · decide
    · decide
  have hread : readSheets numbers inflateSample (archive sheets) (openedSample sheets)
      (tags "sheet".toList (openedSample sheets).workbook) 0 ⟨[], 0, 0⟩ =
        ⟨.ok (0 + sheets, ⟨[], 0, 0⟩), List.replicate sheets ⟨sheetEntry sheets, 8388608⟩⟩ := by
    have hworkbook : (openedSample sheets).workbook = workbookXml sheets := rfl
    rw [hworkbook, htags]
    exact readSheets_replicate hsheet (text_of_unzip hentry (unzip_sheet hsheets))
      (elements_blanks _ _) sheets 0 hcount ⟨[], 0, 0⟩
  rw [extractXlsxKnowledgeRows, openWorkbook_archive hsheets, unzipping_ok_bind, hread,
    unzipping_ok_bind]
  dsimp only
  rw [if_pos rfl, List.nil_append]
  exact List.append_nil _

/-- The numbers of the samples. -/
def sampleNumbers : Numbers Nat where
  parse := fun text => Nat.ofDigitChars 10 text 0
  count := id
  text := fun number => units (Nat.toDigits 10 number)

theorem archive_within_bounds_sample :
    WithinBounds sampleNumbers inflateSample (archive 1) := by
  refine archive_within_bounds sampleNumbers inflateSample (archive 1) ?_
  rw [done_archive (by decide)]
  intro before step after heq
  obtain ⟨rfl, rfl, rfl⟩ : before = [] ∧ step = ⟨sheetEntry 1, 8388608⟩ ∧ after = [] := by
    cases before with
    | nil =>
        obtain ⟨hstep, hafter⟩ := List.cons.inj heq
        exact ⟨rfl, hstep.symm, hafter.symm⟩
    | cons first before =>
        have hlength := congrArg List.length heq
        simp at hlength
  exact ⟨nofun, Nat.le_refl _⟩

/-- Eight megabytes that are listed as five sheets. -/
theorem not_archive_within_bounds : ¬ WithinBounds sampleNumbers inflateSample (archive 5) := by
  intro h
  have htotal := h.total _ (List.prefix_refl _)
  rw [done_archive (by decide), produced, List.map_replicate, List.sum_replicate] at htotal
  exact absurd htotal (by decide)

end SourceVault
