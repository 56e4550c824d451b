import VitoPlatform.SourceVault.Counting
import VitoPlatform.SourceVault.Limits

/-!
# The sheets of a workbook

What is extracted from an archive that holds some sheets: their rows, one sheet after another, or
nothing if a limit is passed.
-/

namespace SourceVault

open Text Scanning Invocation

section Adding

variable {ν : Type} {rows more : List (XlsxKnowledgeRow ν × Nat)} {extracted after : Extracted ν}

/-- The rows are within the limits, behind what has been extracted. -/
structure Fits (rows : List (XlsxKnowledgeRow ν × Nat)) (extracted : Extracted ν) : Prop where
  count : extracted.rows.length + rows.length ≤ MAX_ROWS
  cells : extracted.cellCount + (rows.map Prod.snd).sum ≤ MAX_CELLS
  text : ∀ row ∈ rows, row.1.text.length ≤ MAX_ROW_CHARS
  total : extracted.characterCount + (rows.map (·.1.text.length)).sum ≤ MAX_TOTAL_CHARS

end Adding

/-! ## Sheet by sheet -/

section Sheets

variable {ν : Type} {numbers : Numbers ν} {inflateRawSync : Octets → Nat → Inflated}
  {buffer : Octets} {opened : Opened} {strings : List Str}

theorem Unzipping.bind_ok {α β : Type} {m : Unzipping α} {f : α → Unzipping β} {a : α}
    (h : m.result = .ok a) : (m >>= f).result = (f a).result := by
  show (Unzipping.andThen m f).result = _
  rw [Unzipping.andThen, h]

theorem Unzipping.bind_error {α β : Type} {m : Unzipping α} {f : α → Unzipping β}
    {failure : Failure} (h : m.result = .error failure) : (m >>= f).result = .error failure := by
  show (Unzipping.andThen m f).result = _
  rw [Unzipping.andThen, h]

/-- A sheet that is found is one of these, under its name and in its entry. -/
def SheetAt (inflateRawSync : Octets → Nat → Inflated) (buffer : Octets) (opened : Opened)
    (found : Str × Str) (sheet : Str × Worksheet) : Prop :=
  found.1 = sheet.1 ∧
    (openXmlTextEntry inflateRawSync buffer opened.entries found.2).result = .ok sheet.2.written

/-- The archive can be opened, and holds these shared strings and these sheets, each under a name of
its own. -/
structure Holds (inflateRawSync : Octets → Nat → Inflated) (buffer : Octets) (strings : List Str)
    (sheets : List (Str × Worksheet)) : Prop where
  opens : ∃ opened, (openWorkbook inflateRawSync buffer).result = .ok opened ∧
    opened.sharedStrings = strings.map units ∧
    List.Forall₂ (SheetAt inflateRawSync buffer opened)
      ((tags "sheet".toList opened.workbook).filterMap (sheetOf opened.relationshipTargets)) sheets
  names : (sheets.map Prod.fst).Nodup

/-- The rows that should be extracted. -/
def expectedSheetRows (numbers : Numbers ν) (strings : List Str)
    (sheets : List (Str × Worksheet)) : List (XlsxKnowledgeRow ν) :=
  sheets.flatMap fun sheet => sheet.2.expectedRows numbers strings sheet.1

/-- The rows are those that should be extracted, unless there are none, and each sheet has the
counts of its cells. -/
structure Faithful (numbers : Numbers ν) (inflateRawSync : Octets → Nat → Inflated)
    (buffer : Octets) (strings : List Str) (sheets : List (Str × Worksheet)) : Prop where
  rows : (extractXlsxKnowledgeRows numbers inflateRawSync buffer).result.map (·.rows) =
    if expectedSheetRows numbers strings sheets = [] then
      badRequest "XLSX contains no harvestable cell values."
    else .ok (expectedSheetRows numbers strings sheets)
  counts : ∀ sheet ∈ sheets, ∀ sharedStrings,
    (scanCells sheet.2.written sharedStrings).cellCount = sheet.2.cells.countP (·.body.isSome) ∧
      (scanCells sheet.2.written sharedStrings).nativeFormulaCount =
        sheet.2.cells.countP (·.hasFormula)

variable {sheets : List (Str × Worksheet)}

end Sheets

/-! ## A sheet with two cells -/

end SourceVault
