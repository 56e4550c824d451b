import VitoPlatform.Invocation.Redaction
import VitoPlatform.Library.Stringify
import VitoPlatform.Library.Utf16Bytes
import VitoPlatform.SourceVault.Archive
import VitoPlatform.SourceVault.Markup

/-!
# The rows of a workbook

`extractXlsxKnowledgeRows` reads the sheets that a workbook lists, row by row. Each sheet is
decompressed when it is reached, also if another one had the same content, so only the
decompressions of different entries stay within the limit of the directory
(`extraction_within_limit`).
-/

namespace SourceVault

open Text Scanning Invocation

def MAX_SHEETS : Nat := 128
def MAX_ROWS : Nat := 5000
def MAX_CELLS : Nat := 20000
def MAX_CELL_CHARS : Nat := 4000
def MAX_ROW_CHARS : Nat := 12000
def MAX_TOTAL_CHARS : Nat := 524288

/-- The numbers of the language: `Number(text)`, a count, and how a number is written. -/
structure Numbers (ν : Type) where
  parse : Str → ν
  count : Nat → ν
  text : ν → Units

structure XlsxKnowledgeRow (ν : Type) where
  sheetName : Str
  rowNumber : ν
  cellRange : Str
  text : Units

structure Totals where
  sheets : Nat
  rows : Nat
  cells : Nat
  characters : Nat

structure XlsxKnowledgeEnvelope (ν : Type) where
  rows : List (XlsxKnowledgeRow ν)
  totals : Totals

/-! ## Cells -/

structure Cell where
  ref : Str
  rendered : Units

def hexDigits (u : UInt16) : Units :=
  [u / 4096, u / 256 % 16, u / 16 % 16, u % 16].map fun digit =>
    if digit < 10 then 48 + digit else 87 + digit

/-- A code unit in the text of a string, which is not part of a pair. -/
def quoteUnit (u : UInt16) : Units :=
  if u < 0x80 then units (Json.quoteChar (Char.ofNat u.toNat))
  else if Utf16.isHigh u || Utf16.isLow u then lit "\\u" ++ hexDigits u
  else [u]

def quoteUnits : Units → Units
  | [] => []
  | [u] => quoteUnit u
  | u :: v :: rest =>
      if Utf16.isHigh u && Utf16.isLow v then u :: v :: quoteUnits rest
      else quoteUnit u ++ quoteUnits (v :: rest)

/-- `JSON.stringify` of a string. -/
def stringify (text : Units) : Units := lit "\"" ++ quoteUnits text ++ lit "\""

/-- The texts of all `t` elements. -/
def textOf (xml : Str) : Str := (elements ['t'] xml).flatMap fun text => decodeOpenXml text.inner

/-- The strings in the content of their entry. -/
def sharedStringsOf (xml : Str) : List Units :=
  (elements "si".toList xml).map fun item => (units (textOf item.inner)).take MAX_CELL_CHARS

/-- `Number.parseInt(text, 10)` of a text without white space around it, if this is an integer that
is not negative. -/
def parseIndex (text : Str) : Option Nat :=
  let unsigned := if text.head? = some '-' ∨ text.head? = some '+' then text.tail else text
  let digits := unsigned.takeWhile Char.isDigit
  let value := Nat.ofDigitChars 10 digits 0
  if digits = [] then none
  else if text.head? = some '-' ∧ value ≠ 0 then none
  else some value

def readCellValue (type : Option Str) (inner : Str) (sharedStrings : List Units) : Units :=
  if type = some "inlineStr".toList then units (trim (textOf inner))
  else
    match plainElement ['v'] inner with
    | none => []
    | some raw =>
        let decoded := trim (decodeOpenXml raw)
        if type = some ['s'] then
          ((parseIndex decoded).bind fun index => sharedStrings[index]?).getD []
        else if type = some ['b'] then
          units (if decoded = ['1'] then "TRUE".toList
            else if decoded = ['0'] then "FALSE".toList else decoded)
        else units decoded

/-- A cell with a formula or a value. -/
def renderCell (ref : Str) (formula value : Units) : Option Cell :=
  if formula = [] ∧ value = [] then none
  else if formula ≠ [] then
    some ⟨ref, units ref ++ lit "[formula=" ++ stringify formula ++
      (if value = [] then [] else lit ", cached=" ++ stringify value) ++ lit "]"⟩
  else some ⟨ref, units ref ++ lit "=" ++ stringify value⟩

/-- The text of the first `f` element. -/
def readFormula (inner : Str) : Units :=
  ((elements ['f'] inner).head?.map fun found => units (trim (decodeOpenXml found.inner))).getD []

def readCell (sharedStrings : List Units) (cell : Element) : Option Cell :=
  (openXmlAttr cell.attributes ['r']).bind fun ref =>
    let type := openXmlAttr cell.attributes ['t']
    renderCell ref ((readFormula cell.inner).take MAX_CELL_CHARS)
      ((readCellValue type cell.inner sharedStrings).take MAX_CELL_CHARS)

def readRowCells (xml : Str) (sharedStrings : List Units) : List Cell :=
  (elements ['c'] xml).filterMap (readCell sharedStrings)

/-! ## Rows -/

section Rows

variable {ν : Type} (numbers : Numbers ν)

/-- What has been extracted. -/
structure Extracted (ν : Type) where
  rows : List (XlsxKnowledgeRow ν)
  cellCount : Nat
  characterCount : Nat

def renderRow (sheetName : Str) (rowNumber : ν) (cells : List Cell) : XlsxKnowledgeRow ν where
  sheetName := sheetName
  rowNumber := rowNumber
  cellRange :=
    let firstRef := (cells.head?.map (·.ref)).getD []
    let lastRef := (cells.getLast?.map (·.ref)).getD []
    if firstRef = lastRef then sheetName ++ '!' :: firstRef
    else sheetName ++ '!' :: firstRef ++ ':' :: lastRef
  text := lit "Sheet " ++ stringify (units sheetName) ++ lit " row " ++ numbers.text rowNumber ++
    lit ": " ++ (lit " | ").intercalate (cells.map (·.rendered))

/-- A row with cells. -/
def addRow (row : XlsxKnowledgeRow ν) (cells : Nat) (extracted : Extracted ν) :
    Checked (Extracted ν) :=
  let cellCount := extracted.cellCount + cells
  let characterCount := extracted.characterCount + row.text.length
  if extracted.rows.length ≥ MAX_ROWS then
    payloadTooLarge "XLSX exceeds 5000 non-empty rows for knowledge extraction."
  else if cellCount > MAX_CELLS then
    payloadTooLarge "XLSX exceeds 20000 non-empty cells for knowledge extraction."
  else if row.text.length > MAX_ROW_CHARS then
    payloadTooLarge "XLSX row exceeds 12000 extracted characters."
  else if characterCount > MAX_TOTAL_CHARS then
    payloadTooLarge "XLSX extracted text exceeds 524288 characters."
  else
    .ok ⟨extracted.rows ++ [row], cellCount, characterCount⟩

/-- The loop over the rows of a sheet. -/
def readRows (sharedStrings : List Units) (sheetName : Str) :
    Nat → List Element → Extracted ν → Checked (Extracted ν)
  | _, [], extracted => .ok extracted
  | fallbackRowNumber, row :: rows, extracted => do
      let rowNumber := ((openXmlAttr row.attributes ['r']).map numbers.parse).getD
        (numbers.count (fallbackRowNumber + 1))
      let cells := readRowCells row.inner sharedStrings
      if cells = [] then readRows sharedStrings sheetName (fallbackRowNumber + 1) rows extracted
      else
        readRows sharedStrings sheetName (fallbackRowNumber + 1) rows
          (← addRow (renderRow numbers sheetName rowNumber cells) cells.length extracted)

end Rows

/-! ## Sheets -/

def relationshipTarget (target : Str) : Str :=
  let cleaned := if target.head? = some '/' then target.tail else target
  if startsWith cleaned "xl/".toList then cleaned
  else "xl/".toList ++ if startsWith cleaned "./".toList then cleaned.drop 2 else cleaned

def readRelationshipTargets (xml : Str) : InsertionMap Str Str :=
  (tags "Relationship".toList xml).foldl (fun targets tag =>
    match openXmlAttr tag "Id".toList, openXmlAttr tag "Target".toList with
    | some id, some target => targets.set id (relationshipTarget target)
    | _, _ => targets) .empty

section Extraction

variable {ν : Type} (numbers : Numbers ν) (inflateRawSync : Octets → Nat → Inflated)
  (buffer : Octets)

/-- What is read before the sheets. -/
structure Opened where
  entries : InsertionMap Str OpenXmlZipEntry
  workbook : Str
  relationshipTargets : InsertionMap Str Str
  sharedStrings : List Units

def readSharedStrings (entries : InsertionMap Str OpenXmlZipEntry) : Unzipping (List Units) :=
  match entries.get "xl/sharedStrings.xml".toList with
  | none => pure []
  | some entry => do
      return sharedStringsOf (Utf8.decode (← unzipOpenXmlEntry inflateRawSync buffer entry))

def openWorkbook : Unzipping Opened := do
  let entries ← liftM (readOpenXmlZipEntries buffer)
  let workbook ← openXmlTextEntry inflateRawSync buffer entries "xl/workbook.xml".toList
  let relationships ←
    openXmlTextEntry inflateRawSync buffer entries "xl/_rels/workbook.xml.rels".toList
  let sharedStrings ← readSharedStrings inflateRawSync buffer entries
  return ⟨entries, workbook, readRelationshipTargets relationships, sharedStrings⟩

/-- The name and the path of a sheet, if it has both. -/
def sheetOf (targets : InsertionMap Str Str) (tag : Str) : Option (Str × Str) :=
  match openXmlAttr tag "name".toList, openXmlAttr tag "r:id".toList with
  | some name, some id => ((targets.get id).filter (· ≠ [])).map fun path => (name, path)
  | _, _ => none

/-- The loop over the sheets. -/
def readSheets (opened : Opened) : List Str → Nat → Extracted ν → Unzipping (Nat × Extracted ν)
  | [], sheetCount, extracted => pure (sheetCount, extracted)
  | tag :: rest, sheetCount, extracted =>
      match sheetOf opened.relationshipTargets tag with
      | none => readSheets opened rest sheetCount extracted
      | some (sheetName, path) =>
          if sheetCount + 1 > MAX_SHEETS then
            liftM (payloadTooLarge (α := Nat × Extracted ν)
              "XLSX exceeds 128 sheets for knowledge extraction.")
          else do
            let sheetXml ← openXmlTextEntry inflateRawSync buffer opened.entries path
            let extracted ← liftM
              (readRows numbers opened.sharedStrings sheetName 0 (elements "row".toList sheetXml)
                extracted)
            readSheets opened rest (sheetCount + 1) extracted

def extractXlsxKnowledgeRows : Unzipping (XlsxKnowledgeEnvelope ν) := do
  let opened ← openWorkbook inflateRawSync buffer
  let (sheetCount, extracted) ← readSheets numbers inflateRawSync buffer opened
    (tags "sheet".toList opened.workbook) 0 ⟨[], 0, 0⟩
  if extracted.rows = [] then
    liftM (badRequest (α := XlsxKnowledgeEnvelope ν) "XLSX contains no harvestable cell values.")
  else
    return {
      rows := extracted.rows
      totals := ⟨sheetCount, extracted.rows.length, extracted.cellCount,
        extracted.characterCount⟩ }

end Extraction

end SourceVault
