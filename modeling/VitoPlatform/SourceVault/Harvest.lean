import VitoPlatform.SourceVault.Locators

/-!
# Harvested units

`persistUnits` writes the units of a source. A unit is known by its organization, its source and the
digest of its content, so another harvest of the same source changes no more than locators and
metadata (`persistUnits_again`). What is kept of the text is decided by the cuts
(`harvest_lossless_iff`).
-/

namespace SourceVault

open Text Invocation

namespace KnowledgeHarvester

inductive SourceFormat where
  | TEXT
  | DOCX
  | XLSX
  | PPTX
  | PDF
  deriving DecidableEq

structure HarvestMetadata where
  harvester : Str
  version : Str
  sourceFormat : SourceFormat

/-- A row of `knowledge_units`, apart from its key. -/
structure KnowledgeUnit where
  content : Octets
  locatorType : KnowledgeLocatorType
  locatorValue : Str
  metadata : HarvestMetadata

/-- The organization and the identifier of a source. -/
structure SourceKey where
  organizationId : Str
  sourceId : Str
  deriving DecidableEq

structure UnitKey where
  source : SourceKey
  contentSha256 : Str
  deriving DecidableEq

abbrev KnowledgeUnits := InsertionMap UnitKey KnowledgeUnit

/-- The input of `persistUnits`. -/
structure Harvest where
  source : SourceKey
  units : List HarvestedTextUnit
  metadata : HarvestMetadata

/-- `INSERT … ON CONFLICT … DO UPDATE`. -/
def upsert (harvest : Harvest) (table : KnowledgeUnits) (unit : HarvestedTextUnit) :
    KnowledgeUnits :=
  let key := ⟨harvest.source, unit.contentSha256⟩
  table.set key <|
    match table.get key with
    | some row =>
        { row with
          locatorType := unit.locatorType
          locatorValue := unit.locatorValue
          metadata := harvest.metadata }
    | none => ⟨utf8 unit.content, unit.locatorType, unit.locatorValue, harvest.metadata⟩

/-- The digests of the units of a source. -/
def hashesOf (table : KnowledgeUnits) (source : SourceKey) : List Str :=
  (table.keys.filter (·.source = source)).map (·.contentSha256)

/-- The table behind the harvest, and the number of units of the source. -/
def persistUnits (harvest : Harvest) (table : KnowledgeUnits) : KnowledgeUnits × Nat :=
  let table := harvest.units.foldl (upsert harvest) table
  (table, (hashesOf table harvest.source).length)

/-! ## Harvesting again -/

variable {harvest : Harvest} {table : KnowledgeUnits} {source : SourceKey}

theorem upsert_keys (harvest : Harvest) (table : KnowledgeUnits) (unit : HarvestedTextUnit) :
    (upsert harvest table unit).keys =
      if ⟨harvest.source, unit.contentSha256⟩ ∈ table.keys then table.keys
      else table.keys ++ [⟨harvest.source, unit.contentSha256⟩] := by
  rw [upsert]
  split_ifs with hmem
  · exact InsertionMap.keys_set_of_mem hmem
  · exact InsertionMap.keys_set_of_not_mem hmem

/-- Units whose digests are there already leave the keys as they are. -/
theorem foldl_keys_of_mem {units : List HarvestedTextUnit}
    (h : ∀ unit ∈ units, ⟨harvest.source, unit.contentSha256⟩ ∈ table.keys) :
    (units.foldl (upsert harvest) table).keys = table.keys := by
  induction units generalizing table with
  | nil => rfl
  | cons unit units ih =>
      have hkeys : (upsert harvest table unit).keys = table.keys := by
        rw [upsert_keys, if_pos (h unit List.mem_cons_self)]
      rw [List.foldl_cons, ih, hkeys]
      exact fun other hother => hkeys ▸ h other (List.mem_cons_of_mem unit hother)

/-- Keys stay, and those of the units are added. -/
theorem mem_foldl_keys {units : List HarvestedTextUnit} {key : UnitKey} :
    key ∈ (units.foldl (upsert harvest) table).keys ↔
      key ∈ table.keys ∨ ∃ unit ∈ units, key = ⟨harvest.source, unit.contentSha256⟩ := by
  induction units generalizing table with
  | nil => simp
  | cons unit units ih =>
      have hstep : key ∈ (upsert harvest table unit).keys ↔
          key ∈ table.keys ∨ key = ⟨harvest.source, unit.contentSha256⟩ := by
        rw [upsert_keys]
        split_ifs with hmem
        · refine ⟨.inl, ?_⟩
          rintro (hold | rfl)
          · exact hold
          · exact hmem
        · rw [List.mem_append, List.mem_singleton]
      rw [List.foldl_cons, ih, hstep, List.exists_mem_cons_iff, or_assoc]

/-- The harvest of one source leaves the units of others as they are. -/
theorem hashesOf_persistUnits_of_ne (h : harvest.source ≠ source) :
    hashesOf (persistUnits harvest table).1 source = hashesOf table source := by
  rw [persistUnits]
  dsimp only
  induction harvest.units generalizing table with
  | nil => rfl
  | cons unit units ih =>
      rw [List.foldl_cons, ih, hashesOf, hashesOf, upsert_keys]
      split_ifs
      · rfl
      · rw [List.filter_append, List.filter_singleton, decide_eq_false h, cond_false,
          List.append_nil]

theorem mem_hashesOf {hash : Str} :
    hash ∈ hashesOf table source ↔ (⟨source, hash⟩ : UnitKey) ∈ table.keys := by
  rw [hashesOf, List.mem_map]
  constructor
  · rintro ⟨key, hkey, rfl⟩
    obtain ⟨hmem, hsource⟩ := List.mem_filter.mp hkey
    obtain rfl : key.source = source := by simpa using hsource
    exact hmem
  · exact fun hmem => ⟨⟨source, hash⟩, List.mem_filter.mpr ⟨hmem, by simp⟩, rfl⟩

/-- Another harvest of the same source, after any harvests of others, leaves its digests and
reports their number again. -/
theorem persistUnits_again {again : Harvest} (hsource : again.source = harvest.source)
    (hunits : again.units = harvest.units) {between : List Harvest}
    (hbetween : ∀ other ∈ between, other.source ≠ harvest.source) :
    let first := persistUnits harvest table
    let later := between.foldl (fun table other => (persistUnits other table).1) first.1
    let second := persistUnits again later
    hashesOf second.1 harvest.source = hashesOf first.1 harvest.source ∧
      second.2 = first.2 := by
  intro first later second
  have hlater : hashesOf later harvest.source = hashesOf first.1 harvest.source := by
    change hashesOf (between.foldl _ first.1) _ = _
    generalize first.1 = start
    induction between generalizing start with
    | nil => rfl
    | cons other between ih =>
        rw [List.foldl_cons, ih fun o ho => hbetween o (List.mem_cons_of_mem other ho)]
        exact hashesOf_persistUnits_of_ne (hbetween other List.mem_cons_self)
  have hmem : ∀ unit ∈ again.units,
      (⟨again.source, unit.contentSha256⟩ : UnitKey) ∈ later.keys := by
    intro unit hunit
    rw [hunits] at hunit
    rw [hsource, ← mem_hashesOf, hlater, mem_hashesOf]
    exact mem_foldl_keys.mpr (.inr ⟨unit, hunit, rfl⟩)
  have hkeys : second.1.keys = later.keys := foldl_keys_of_mem hmem
  have hsecond : hashesOf second.1 harvest.source = hashesOf first.1 harvest.source := by
    rw [hashesOf, hkeys]
    exact hlater
  refine ⟨hsecond, ?_⟩
  change (hashesOf second.1 again.source).length = _
  rw [hsource, hsecond]
  rfl

/-! ## Inputs -/

/-- What one of the segmenters is given. -/
inductive HarvestInput (ν : Type) where
  | text (text : Units)
  | docx (paragraphs : List DocxParagraph)
  | xlsx (rows : List (XlsxKnowledgeRow ν))
  | pptx (slides : List PptxKnowledgeSlide)
  | pdf (pages : List PdfKnowledgePage)

namespace HarvestInput

variable {ν : Type} (sha256 : Octets → Str)

def segment : HarvestInput ν → Checked (List HarvestedTextUnit)
  | text input => segmentHarvestText sha256 input
  | docx paragraphs => segmentDocxParagraphs sha256 paragraphs
  | xlsx rows => segmentXlsxRows sha256 rows
  | pptx slides => segmentPptxSlides sha256 slides
  | pdf pages => segmentPdfPages sha256 pages

/-- The parts with their locators: the blocks of a text, or what is listed. -/
def items : HarvestInput ν → List Located
  | text input => sectionItems 0 (blocksOf (trimUnits (normalizeBreaks input)))
  | docx paragraphs => paragraphs.map fun paragraph => ⟨paragraph.text, paragraph.locatorValue⟩
  | xlsx rows => rows.map fun row => ⟨row.text, row.cellRange⟩
  | pptx slides => slides.map fun slide => ⟨slide.text, slide.locatorValue⟩
  | pdf pages => pages.map fun page => ⟨page.text, page.locatorValue⟩

/-- The texts that are given. -/
def texts : HarvestInput ν → List Units
  | text input => [input]
  | docx paragraphs => paragraphs.map (·.text)
  | xlsx rows => rows.map (·.text)
  | pptx slides => slides.map (·.text)
  | pdf pages => pages.map (·.text)

def locatorType : HarvestInput ν → KnowledgeLocatorType
  | text _ | docx _ => .SECTION
  | xlsx _ => .CELL_RANGE
  | pptx _ => .SLIDE
  | pdf _ => .PAGE

/-- What is listed has different locators. -/
def DistinctLocators : HarvestInput ν → Prop
  | text _ => True
  | input => (input.items.map (·.locator)).Nodup

end HarvestInput

/-- The octets without those of white space, as characters. -/
def visibleOctets (octets : Octets) : List Char :=
  (Utf8.decode octets).filter fun c => !isSpace c

section Claim

variable {ν : Type} {sha256 : Octets → Str} {input : HarvestInput ν}
  {units : List HarvestedTextUnit}

/-- The units are those of the parts. -/
theorem segment_ok (h : input.segment sha256 = .ok units) :
    units = input.items.flatMap (chunkUnits sha256 input.locatorType) ∧
      units.length ≤ MAX_UNITS := by
  have hlisted {locatorType : KnowledgeLocatorType} {items : List Located}
      (hsegment : segmentLocated sha256 locatorType items 0 [] = .ok units) :
      units = items.flatMap (chunkUnits sha256 locatorType) ∧ units.length ≤ MAX_UNITS := by
    obtain ⟨hunits, hlength⟩ := segmentLocated_ok hsegment
    exact ⟨hunits, hlength (Nat.zero_le _)⟩
  cases input with
  | text input =>
      change segmentHarvestText sha256 input = .ok units at h
      rw [segmentHarvestText] at h
      by_cases hempty : trimUnits (normalizeBreaks input) = []
      · rw [if_pos hempty] at h
        obtain rfl : [] = units := Except.ok.inj h
        refine ⟨?_, Nat.zero_le _⟩
        rw [HarvestInput.items, hempty]
        rfl
      · rw [if_neg hempty] at h
        by_cases hlong : (trimUnits (normalizeBreaks input)).length > MAX_TOTAL_CHARS
        · rw [if_pos hlong] at h
          cases h
        · rw [if_neg hlong] at h
          obtain ⟨hunits, hlength⟩ := appendBlocks_ok h
          exact ⟨hunits, hlength (Nat.zero_le _)⟩
  | docx paragraphs => exact hlisted h
  | xlsx rows => exact hlisted h
  | pptx slides => exact hlisted h
  | pdf pages => exact hlisted h

theorem visibleOctets_flatMap {α : Type} (text : α → Units) (items : List α) :
    visibleOctets (items.flatMap fun item => utf8 (text item)) =
      items.flatMap fun item => visible (text item) := by
  have hencode : (items.flatMap fun item => utf8 (text item)) =
      Utf8.encode (items.flatMap fun item => Utf16.characters (text item)) :=
    List.flatMap_assoc.symm
  rw [visibleOctets, hencode, Utf8.decode_encode, List.filter_flatMap]
  rfl

/-- The parts of an input have its characters. -/
theorem visible_items (input : HarvestInput ν) :
    (input.items.flatMap fun item => visible item.text) = input.texts.flatMap visible := by
  have hsections (count : Nat) (blocks : List Units) :
      ((sectionItems count blocks).flatMap fun item => visible item.text) =
        blocks.flatMap visible := by
    induction blocks generalizing count with
    | nil => rfl
    | cons block blocks ih => rw [sectionItems, List.flatMap_cons, List.flatMap_cons, ih]
  cases input with
  | text input =>
      change (List.flatMap _ (sectionItems 0 _)) = visible input ++ []
      rw [hsections, visible_blocksOf, visible_trim, visible_normalizeBreaks, List.append_nil]
  | docx paragraphs =>
      change (List.flatMap _ (paragraphs.map _)) = List.flatMap _ (paragraphs.map _)
      rw [List.flatMap_map, List.flatMap_map]
  | xlsx rows =>
      change (List.flatMap _ (rows.map _)) = List.flatMap _ (rows.map _)
      rw [List.flatMap_map, List.flatMap_map]
  | pptx slides =>
      change (List.flatMap _ (slides.map _)) = List.flatMap _ (slides.map _)
      rw [List.flatMap_map, List.flatMap_map]
  | pdf pages =>
      change (List.flatMap _ (pages.map _)) = List.flatMap _ (pages.map _)
      rw [List.flatMap_map, List.flatMap_map]

theorem visible_chunkUnits (locatorType : KnowledgeLocatorType) (item : Located) :
    (chunkUnits sha256 locatorType item).flatMap (fun unit => visible unit.content) =
      (contents (trimUnits item.text)).flatMap visible := by
  have hcontents : (chunkUnits sha256 locatorType item).map (·.content) =
      contents (trimUnits item.text) := by
    rw [chunkUnits, unitsFrom, List.map_map]
    exact List.zipIdx_map_fst _ _
  rw [← hcontents, List.flatMap_map]

/-- The characters of the units are those of the input exactly if no cut is within a pair of
surrogates. -/
theorem harvest_lossless_iff (h : input.segment sha256 = .ok units) :
    visibleOctets (units.flatMap fun unit => utf8 unit.content) =
        visibleOctets (input.texts.flatMap utf8) ↔
      ∀ item ∈ input.items, CutsWhole (trimUnits item.text) := by
  have hinput : visibleOctets (input.texts.flatMap utf8) = input.texts.flatMap visible :=
    visibleOctets_flatMap id input.texts
  rw [visibleOctets_flatMap, hinput, ← visible_items, (segment_ok h).1, List.flatMap_assoc]
  have hle : ∀ item ∈ input.items, (visible item.text).length ≤
      ((chunkUnits sha256 input.locatorType item).flatMap fun unit =>
        visible unit.content).length := fun item _ => by
    rw [visible_chunkUnits, ← visible_trim item.text]
    exact (contents_visible _).1
  rw [Selections.flatMap_eq_iff hle]
  refine forall₂_congr fun item _ => ?_
  rw [visible_chunkUnits, ← visible_trim item.text]
  exact (contents_visible _).2

theorem mem_units (h : input.segment sha256 = .ok units) {unit : HarvestedTextUnit}
    (hunit : unit ∈ units) : unit.contentSha256 = sha256 (utf8 unit.content) ∧
      ¬ Trimming.Blank isSpaceUnit unit.content ∧ unit.content.length ≤ MAX_UNIT_CHARS := by
  rw [(segment_ok h).1] at hunit
  obtain ⟨item, -, hchunk⟩ := List.mem_flatMap.mp hunit
  obtain ⟨content, hcontent, rfl⟩ := List.mem_map.mp hchunk
  obtain ⟨-, hblank, hlength⟩ := mem_contents (List.fst_mem_of_mem_zipIdx hcontent)
  exact ⟨rfl, hblank, hlength⟩

theorem items_nodup (h : input.DistinctLocators) : (input.items.map (·.locator)).Nodup := by
  cases input with
  | text input =>
      refine sections_nodup fun block hblock => ?_
      obtain ⟨hmem, hne⟩ := List.mem_filter.mp hblock
      obtain ⟨piece, -, rfl⟩ := List.mem_map.mp hmem
      have hpiece : trimUnits piece ≠ [] := by simpa using hne
      rwa [trimUnits, trimUnits, Trimming.trim_trim]
  | docx paragraphs => exact h
  | xlsx rows => exact h
  | pptx slides => exact h
  | pdf pages => exact h

theorem harvest_locators_iff (hdistinct : input.DistinctLocators)
    (h : input.segment sha256 = .ok units) :
    (units.map (·.locatorValue)).Nodup ↔ LocatorsApart input.items := by
  rw [(segment_ok h).1, List.map_flatMap, ← locators_nodup_iff (items_nodup hdistinct)]
  have hlocators : (fun item => (chunkUnits sha256 input.locatorType item).map (·.locatorValue)) =
      Located.locators := funext fun item => chunkUnits_locators item
  rw [hlocators]

/-- Nothing is lost of an input: its units are bounded and distinguished, their contents have its
characters but for white space, and another harvest of the source leaves them and their number. -/
structure FaithfulHarvest (sha256 : Octets → Str) (input : HarvestInput ν)
    (units : List HarvestedTextUnit) : Prop where
  bounded : units.length ≤ MAX_UNITS
  contents : ∀ unit ∈ units,
    ¬ Trimming.Blank isSpaceUnit unit.content ∧ unit.content.length ≤ MAX_UNIT_CHARS
  hashes : ∀ unit ∈ units, unit.contentSha256 = sha256 (utf8 unit.content)
  locators : (units.map (·.locatorValue)).Nodup
  lossless : visibleOctets (units.flatMap fun unit => utf8 unit.content) =
    visibleOctets (input.texts.flatMap utf8)
  stored : ∀ (harvest : Harvest) (table : KnowledgeUnits), harvest.units = units →
    ∀ unit ∈ units, unit.contentSha256 ∈
      hashesOf (persistUnits harvest table).1 harvest.source
  again : ∀ (harvest again : Harvest) (table : KnowledgeUnits) (between : List Harvest),
    harvest.units = units → again.units = units → again.source = harvest.source →
    (∀ other ∈ between, other.source ≠ harvest.source) →
      let first := persistUnits harvest table
      let later := between.foldl (fun table other => (persistUnits other table).1) first.1
      let second := persistUnits again later
      hashesOf second.1 harvest.source = hashesOf first.1 harvest.source ∧
        second.2 = first.2

/-- Nothing is lost exactly if no cut is within a pair of surrogates, and the locator of no input
is that of a part of another one. -/
theorem harvest_faithful_iff (sha256 : Octets → Str) (input : HarvestInput ν)
    (units : List HarvestedTextUnit) (hdistinct : input.DistinctLocators)
    (haccepted : input.segment sha256 = .ok units) :
    FaithfulHarvest sha256 input units ↔
      (∀ item ∈ input.items, CutsWhole (trimUnits item.text)) ∧ LocatorsApart input.items := by
  constructor
  · intro h
    exact ⟨(harvest_lossless_iff haccepted).mp h.lossless,
      (harvest_locators_iff hdistinct haccepted).mp h.locators⟩
  · rintro ⟨hcuts, hapart⟩
    exact {
      bounded := (segment_ok haccepted).2
      contents := fun unit hunit => (mem_units haccepted hunit).2
      hashes := fun unit hunit => (mem_units haccepted hunit).1
      locators := (harvest_locators_iff hdistinct haccepted).mpr hapart
      lossless := (harvest_lossless_iff haccepted).mpr hcuts
      stored := fun harvest table hunits unit hunit =>
        mem_hashesOf.mpr (mem_foldl_keys.mpr (.inr ⟨unit, hunits ▸ hunit, rfl⟩))
      again := fun harvest again table between hunits hunits' hsource hbetween =>
        persistUnits_again hsource (hunits'.trans hunits.symm) hbetween }

end Claim

/-- Two blocks. -/
def sampleInput : HarvestInput Nat := .text (lit "Alpha.\r\n \r\n\r\nBeta.")

/-- A digest for the samples. -/
def sampleSha256 (octets : Octets) : Str := Nat.toDigits 16 octets.length

def sampleUnits : List HarvestedTextUnit :=
  [⟨lit "Alpha.", ['6'], .SECTION, "section:1".toList⟩,
    ⟨lit "Beta.", ['5'], .SECTION, "section:2".toList⟩]

theorem harvest_faithful_sample : FaithfulHarvest sampleSha256 sampleInput sampleUnits := by
  have haccepted : sampleInput.segment sampleSha256 = .ok sampleUnits := by decide +kernel
  refine (harvest_faithful_iff sampleSha256 sampleInput sampleUnits trivial haccepted).mpr ⟨?_, ?_⟩
  · decide +kernel
  · exact sections_apart 0 _

/-- A pair of surrogates behind 2999 letters. -/
def dividedText : Units := List.replicate 2999 97 ++ [0xD83D, 0xDE00]

def dividedInput : HarvestInput Nat := .text dividedText

theorem length_dividedText : dividedText.length = 3001 := by
  rw [dividedText, List.length_append, List.length_replicate]
  rfl

theorem solid_dividedText : Solid dividedText := by
  intro u hu
  obtain hletter | hpair := List.mem_append.mp hu
  · rw [List.eq_of_mem_replicate hletter]
    decide
  · have hboth : ∀ v ∈ [(0xD83D : UInt16), 0xDE00], isSpaceUnit v = false :=
      forall_mem_of_all (by decide)
    exact hboth u hpair

theorem dividedText_ne_nil : dividedText ≠ [] := List.append_ne_nil_of_right_ne_nil _ nofun

theorem dividedInput_items : dividedInput.items = [⟨dividedText, sectionLocator 1⟩] := by
  change sectionItems 0 (blocksOf (trimUnits (normalizeBreaks dividedText))) = _
  rw [solid_dividedText.normalizeBreaks, solid_dividedText.trim,
    solid_dividedText.blocksOf dividedText_ne_nil]
  rfl

theorem dividedInput_accepted : ∃ units, dividedInput.segment sampleSha256 = .ok units := by
  have hcount : (offsets dividedText.length).length ≤ MAX_UNITS := by
    rw [length_dividedText]
    decide
  have happend : appendBoundedUnitChunks sampleSha256 [] dividedText .SECTION (sectionLocator 1) =
      appendBoundedUnitChunks.loop sampleSha256 .SECTION (sectionLocator 1) dividedText
        (offsets dividedText.length) 0 [] := by
    rw [appendBoundedUnitChunks, solid_dividedText.trim]
    exact if_neg dividedText_ne_nil
  have hloop : ∃ units, appendBoundedUnitChunks.loop sampleSha256 .SECTION (sectionLocator 1)
      dividedText (offsets dividedText.length) 0 [] = .ok units :=
    loop_accepts (by rw [List.length_nil, Nat.zero_add]; exact hcount)
  obtain ⟨units, hunits⟩ := hloop
  refine ⟨units, ?_⟩
  change segmentHarvestText sampleSha256 dividedText = _
  rw [segmentHarvestText, solid_dividedText.normalizeBreaks, solid_dividedText.trim,
    if_neg dividedText_ne_nil, if_neg (by rw [length_dividedText]; decide),
    solid_dividedText.blocksOf dividedText_ne_nil, appendBlocks]
  change (appendBoundedUnitChunks sampleSha256 [] dividedText .SECTION (sectionLocator 1) >>= _) = _
  rw [happend, hunits]
  rfl

theorem not_cutsWhole_dividedText : ¬ CutsWhole dividedText := by
  intro h
  have hoffset : 3000 ∈ offsets dividedText.length := by
    rw [length_dividedText]
    decide
  have hfront : (List.replicate 2999 97 ++ [(0xD83D : UInt16)]).length = 3000 := by
    rw [List.length_append, List.length_replicate]
    rfl
  have hsplit : dividedText = (List.replicate 2999 97 ++ [0xD83D]) ++ [0xDE00] := by
    rw [dividedText, List.append_assoc]
    rfl
  have htake : dividedText.take 3000 = List.replicate 2999 97 ++ [0xD83D] := by
    rw [hsplit, List.take_left' hfront]
  have hdrop : dividedText.drop 3000 = [0xDE00] := by
    rw [hsplit, List.drop_left' hfront]
  refine h 3000 hoffset ⟨0xD83D, ?_, 0xDE00, ?_, by decide, by decide⟩
  · rw [htake, List.getLast?_concat]
    rfl
  · rw [hdrop]
    rfl

/-- The pair is cut, and two replacement characters are stored instead. -/
theorem not_harvest_faithful : ∃ units, dividedInput.segment sampleSha256 = .ok units ∧
    ¬ FaithfulHarvest sampleSha256 dividedInput units := by
  obtain ⟨units, haccepted⟩ := dividedInput_accepted
  refine ⟨units, haccepted, fun h => ?_⟩
  have hcuts := (harvest_lossless_iff haccepted).mp h.lossless
  rw [dividedInput_items] at hcuts
  have hcut := hcuts _ List.mem_cons_self
  rw [solid_dividedText.trim] at hcut
  exact not_cutsWhole_dividedText hcut

end KnowledgeHarvester

end SourceVault
