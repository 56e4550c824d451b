import VitoPlatform.Library.Trimming
import VitoPlatform.Library.Utf16Characters
import VitoPlatform.SourceVault.Knowledge

/-!
# Segments of a source

A text is divided at its blank lines, the other sources into paragraphs, rows, slides or pages. What
is longer than the limit of a unit is cut there, in UTF-16 code units, and each part is trimmed. The
parts of one input are numbered in their locators.
-/

namespace SourceVault

open Text Invocation

namespace KnowledgeHarvester

def MAX_TOTAL_CHARS : Nat := 524288
def MAX_UNIT_CHARS : Nat := 3000
def MAX_UNITS : Nat := 256

inductive KnowledgeLocatorType where
  | SECTION
  | CELL_RANGE
  | SLIDE
  | PAGE
  deriving DecidableEq

structure HarvestedTextUnit where
  content : Units
  contentSha256 : Str
  locatorType : KnowledgeLocatorType
  locatorValue : Str
  deriving DecidableEq

structure DocxParagraph where
  index : Nat
  locatorValue : Str
  text : Units

structure PptxKnowledgeSlide where
  slideNumber : Nat
  locatorValue : Str
  text : Units

structure PdfKnowledgePage where
  pageNumber : Nat
  locatorValue : Str
  text : Units

/-- The octets of a text in UTF-8. -/
def utf8 (text : Units) : Octets := Utf8.encode (Utf16.characters text)

def trimUnits (text : Units) : Units := Trimming.trim isSpaceUnit text

def sectionLocator (number : Nat) : Str := "section:".toList ++ Nat.toDigits 10 number

def partLocator (locator : Str) (part : Nat) : Str :=
  locator ++ ":part:".toList ++ Nat.toDigits 10 part

/-- The offsets of the loop over a text of this length. -/
def offsets (length : Nat) : List Nat :=
  List.range' 0 ((length + MAX_UNIT_CHARS - 1) / MAX_UNIT_CHARS) MAX_UNIT_CHARS

def slice (value : Units) (offset : Nat) : Units := (value.drop offset).take MAX_UNIT_CHARS

section Segments

variable (sha256 : Octets → Str)

/-- A part of a text. -/
def unitOf (locatorType : KnowledgeLocatorType) (locator : Str) (value content : Units)
    (part : Nat) : HarvestedTextUnit where
  content := content
  contentSha256 := sha256 (utf8 content)
  locatorType := locatorType
  locatorValue :=
    if part = 1 ∧ value.length ≤ MAX_UNIT_CHARS then locator else partLocator locator part

def appendBoundedUnitChunks.loop (locatorType : KnowledgeLocatorType) (locator : Str)
    (value : Units) : List Nat → Nat → List HarvestedTextUnit → Checked (List HarvestedTextUnit)
  | [], _, units => .ok units
  | offset :: rest, part, units =>
      let content := trimUnits (slice value offset)
      if content = [] then appendBoundedUnitChunks.loop locatorType locator value rest part units
      else if units.length ≥ MAX_UNITS then
        payloadTooLarge "Harvest exceeds 256 knowledge units."
      else
        appendBoundedUnitChunks.loop locatorType locator value rest (part + 1)
          (units ++ [unitOf sha256 locatorType locator value content (part + 1)])

def appendBoundedUnitChunks (units : List HarvestedTextUnit) (input : Units)
    (locatorType : KnowledgeLocatorType) (locator : Str) : Checked (List HarvestedTextUnit) :=
  let value := trimUnits input
  if value = [] then .ok units
  else
    appendBoundedUnitChunks.loop sha256 locatorType locator value (offsets value.length) 0 units

/-! ## Text -/

/-- `replace(/\r\n?/g, '\n')` -/
def normalizeBreaks : Units → Units
  | [] => []
  | [u] => [if u = 13 then 10 else u]
  | u :: v :: rest =>
      if u = 13 ∧ v = 10 then 10 :: normalizeBreaks rest
      else (if u = 13 then 10 else u) :: normalizeBreaks (v :: rest)

/-- The text since the last separator, and the line breaks behind it. -/
def splitBlankLines.loop : Units → Nat → Units → List Units
  | piece, breaks, [] =>
      if breaks ≥ 2 then [piece, []] else [piece ++ List.replicate breaks 10]
  | piece, breaks, u :: rest =>
      if u = 10 then splitBlankLines.loop piece (breaks + 1) rest
      else if breaks ≥ 2 then piece :: splitBlankLines.loop [u] 0 rest
      else splitBlankLines.loop (piece ++ List.replicate breaks 10 ++ [u]) 0 rest

/-- `split(/\n{2,}/)` -/
def splitBlankLines (text : Units) : List Units := splitBlankLines.loop [] 0 text

/-- The blocks of a text. -/
def blocksOf (normalized : Units) : List Units :=
  ((splitBlankLines normalized).map trimUnits).filter (· ≠ [])

def appendBlocks : List Units → List HarvestedTextUnit → Checked (List HarvestedTextUnit)
  | [], units => .ok units
  | block :: blocks, units => do
      appendBlocks blocks (← appendBoundedUnitChunks sha256 units block .SECTION
        (sectionLocator (units.length + 1)))

def segmentHarvestText (input : Units) : Checked (List HarvestedTextUnit) :=
  let normalized := trimUnits (normalizeBreaks input)
  if normalized = [] then .ok []
  else if normalized.length > MAX_TOTAL_CHARS then
    payloadTooLarge "Harvest text exceeds 524288 characters."
  else appendBlocks sha256 (blocksOf normalized) []

/-! ## Paragraphs, rows, slides and pages -/

/-- A text and its locator. -/
structure Located where
  text : Units
  locator : Str

/-- The loop of the other segmenters. -/
def segmentLocated (locatorType : KnowledgeLocatorType) :
    List Located → Nat → List HarvestedTextUnit → Checked (List HarvestedTextUnit)
  | [], _, units => .ok units
  | item :: items, chars, units =>
      let totalChars := chars + item.text.length
      if totalChars > MAX_TOTAL_CHARS then
        payloadTooLarge "Harvest text exceeds 524288 characters."
      else do
        segmentLocated locatorType items totalChars
          (← appendBoundedUnitChunks sha256 units item.text locatorType item.locator)

def segmentDocxParagraphs (paragraphs : List DocxParagraph) : Checked (List HarvestedTextUnit) :=
  segmentLocated sha256 .SECTION
    (paragraphs.map fun paragraph => ⟨paragraph.text, paragraph.locatorValue⟩) 0 []

def segmentXlsxRows {ν : Type} (rows : List (XlsxKnowledgeRow ν)) :
    Checked (List HarvestedTextUnit) :=
  segmentLocated sha256 .CELL_RANGE (rows.map fun row => ⟨row.text, row.cellRange⟩) 0 []

def segmentPptxSlides (slides : List PptxKnowledgeSlide) : Checked (List HarvestedTextUnit) :=
  segmentLocated sha256 .SLIDE (slides.map fun slide => ⟨slide.text, slide.locatorValue⟩) 0 []

def segmentPdfPages (pages : List PdfKnowledgePage) : Checked (List HarvestedTextUnit) :=
  segmentLocated sha256 .PAGE (pages.map fun page => ⟨page.text, page.locatorValue⟩) 0 []

end Segments

/-! ## The units of an input -/

def slices (value : Units) : List Units := (offsets value.length).map (slice value)

/-- The contents of the units of a text. -/
def contents (value : Units) : List Units := ((slices value).map trimUnits).filter (· ≠ [])

section Chunks

variable {sha256 : Octets → Str} {locatorType : KnowledgeLocatorType} {locator : Str}
  {value input : Units} {units result : List HarvestedTextUnit}

/-- The units of contents that are numbered from a part on. -/
def unitsFrom (sha256 : Octets → Str) (locatorType : KnowledgeLocatorType) (locator : Str)
    (value : Units) (part : Nat) (contents : List Units) : List HarvestedTextUnit :=
  (contents.zipIdx (part + 1)).map fun content =>
    unitOf sha256 locatorType locator value content.1 content.2

/-- The units of an input. -/
def chunkUnits (sha256 : Octets → Str) (locatorType : KnowledgeLocatorType) (item : Located) :
    List HarvestedTextUnit :=
  unitsFrom sha256 locatorType item.locator (trimUnits item.text) 0 (contents (trimUnits item.text))

theorem loop_ok {offs : List Nat} {part : Nat}
    (h : appendBoundedUnitChunks.loop sha256 locatorType locator value offs part units =
      .ok result) :
    result = units ++ unitsFrom sha256 locatorType locator value part
        (((offs.map (slice value)).map trimUnits).filter (· ≠ [])) ∧
      (units.length ≤ MAX_UNITS → result.length ≤ MAX_UNITS) := by
  induction offs generalizing part units with
  | nil =>
      obtain rfl : units = result := Except.ok.inj h
      exact ⟨(List.append_nil _).symm, id⟩
  | cons offset offs ih =>
      rw [appendBoundedUnitChunks.loop] at h
      rw [List.map_cons, List.map_cons]
      by_cases hempty : trimUnits (slice value offset) = []
      · rw [if_pos hempty] at h
        rw [List.filter_cons_of_neg (by simpa using hempty)]
        exact ih h
      · rw [if_neg hempty] at h
        rw [List.filter_cons_of_pos (by simpa using hempty)]
        by_cases hfull : units.length ≥ MAX_UNITS
        · rw [if_pos hfull] at h
          cases h
        · rw [if_neg hfull] at h
          obtain ⟨hresult, hlength⟩ := ih h
          refine ⟨?_, fun _ => hlength ?_⟩
          · rw [hresult, List.append_assoc]
            rfl
          · rw [List.length_append, List.length_singleton]
            omega

/-- Few cuts are accepted. -/
theorem loop_accepts {offs : List Nat} {part : Nat} (h : units.length + offs.length ≤ MAX_UNITS) :
    ∃ result, appendBoundedUnitChunks.loop sha256 locatorType locator value offs part units =
      .ok result := by
  induction offs generalizing part units with
  | nil => exact ⟨units, rfl⟩
  | cons offset offs ih =>
      rw [List.length_cons] at h
      rw [appendBoundedUnitChunks.loop]
      by_cases hempty : trimUnits (slice value offset) = []
      · rw [if_pos hempty]
        exact ih (by omega)
      · rw [if_neg hempty, if_neg (by omega)]
        refine ih ?_
        rw [List.length_append, List.length_singleton]
        omega

theorem contents_nil : contents [] = [] := rfl

/-- What is appended for an input. -/
theorem appendBoundedUnitChunks_ok
    (h : appendBoundedUnitChunks sha256 units input locatorType locator = .ok result) :
    result = units ++ chunkUnits sha256 locatorType ⟨input, locator⟩ ∧
      (units.length ≤ MAX_UNITS → result.length ≤ MAX_UNITS) := by
  rw [appendBoundedUnitChunks] at h
  by_cases hempty : trimUnits input = []
  · rw [if_pos hempty] at h
    obtain rfl : units = result := Except.ok.inj h
    refine ⟨?_, id⟩
    rw [chunkUnits, hempty, contents_nil]
    exact (List.append_nil _).symm
  · rw [if_neg hempty] at h
    exact loop_ok h

theorem segmentLocated_ok {items : List Located} {chars : Nat}
    (h : segmentLocated sha256 locatorType items chars units = .ok result) :
    result = units ++ items.flatMap (chunkUnits sha256 locatorType) ∧
      (units.length ≤ MAX_UNITS → result.length ≤ MAX_UNITS) := by
  induction items generalizing chars units with
  | nil =>
      obtain rfl : units = result := Except.ok.inj h
      exact ⟨(List.append_nil _).symm, id⟩
  | cons item items ih =>
      rw [segmentLocated] at h
      by_cases hlong : chars + item.text.length > MAX_TOTAL_CHARS
      · rw [if_pos hlong] at h
        cases h
      rw [if_neg hlong] at h
      cases happend : appendBoundedUnitChunks sha256 units item.text locatorType item.locator with
      | error failure =>
          rw [happend] at h
          cases h
      | ok next =>
          rw [happend] at h
          obtain ⟨hnext, hlength⟩ := appendBoundedUnitChunks_ok happend
          obtain ⟨hresult, hlength'⟩ := ih h
          refine ⟨?_, fun hunits => hlength' (hlength hunits)⟩
          rw [hresult, hnext, List.flatMap_cons, List.append_assoc]

/-- The blocks with their locators, behind a number of units. -/
def sectionItems : Nat → List Units → List Located
  | _, [] => []
  | count, block :: blocks => ⟨block, sectionLocator (count + 1)⟩ ::
      sectionItems (count + (contents (trimUnits block)).length) blocks

theorem length_chunkUnits (item : Located) :
    (chunkUnits sha256 locatorType item).length = (contents (trimUnits item.text)).length := by
  rw [chunkUnits, unitsFrom, List.length_map, List.length_zipIdx]

theorem appendBlocks_ok {blocks : List Units} (h : appendBlocks sha256 blocks units = .ok result) :
    result = units ++ (sectionItems units.length blocks).flatMap (chunkUnits sha256 .SECTION) ∧
      (units.length ≤ MAX_UNITS → result.length ≤ MAX_UNITS) := by
  induction blocks generalizing units with
  | nil =>
      obtain rfl : units = result := Except.ok.inj h
      exact ⟨(List.append_nil _).symm, id⟩
  | cons block blocks ih =>
      rw [appendBlocks] at h
      cases happend : appendBoundedUnitChunks sha256 units block .SECTION
          (sectionLocator (units.length + 1)) with
      | error failure =>
          rw [happend] at h
          cases h
      | ok next =>
          rw [happend] at h
          obtain ⟨hnext, hlength⟩ := appendBoundedUnitChunks_ok happend
          obtain ⟨hresult, hlength'⟩ := ih h
          refine ⟨?_, fun hunits => hlength' (hlength hunits)⟩
          rw [hresult, hnext, sectionItems, List.flatMap_cons, List.append_assoc,
            List.length_append, length_chunkUnits]

end Chunks

end KnowledgeHarvester

end SourceVault
