import VitoPlatform.SourceVault.CellScan
import VitoPlatform.SourceVault.Entities
import VitoPlatform.SourceVault.Knowledge
import VitoPlatform.SourceVault.Nodes

/-!
# Worksheets

A worksheet as a document: rows and cells in both spellings, with any attributes, and inline,
shared, boolean, other and formula cells. How it is written, and which rows should be extracted from
it.
-/

namespace SourceVault

open Text Scanning Invocation

def isBlank (c : Char) : Bool := c = ' ' || c = '\t' || c = '\n' || c = '\r'

/-- An attribute, with the white space before it and its quotation marks. -/
structure Attribute where
  lead : Str
  name : Str
  quote : Char
  value : Characters
  lead_blank : lead ≠ [] ∧ ∀ c ∈ lead, isBlank c = true
  name_plain : ∀ c ∈ name, isBlank c = false ∧ c ∉ ['<', '>', '&', '=', '/', '"', '\'']
  quote_quotes : quote = '"' ∨ quote = '\''
  value_ends : ∀ c, .char c ∈ value.pieces → c ≠ quote

def Attribute.written (attr : Attribute) : Str :=
  attr.lead ++ attr.name ++ '=' :: attr.quote ::
    (attr.value.written ++ [attr.quote])

/-- The attributes of a tag, and the white space behind them. -/
structure Tag where
  attributes : List Attribute
  trail : Str
  trail_blank : ∀ c ∈ trail, isBlank c = true
  names_nodup : (attributes.map (·.name)).Nodup

namespace Tag

def written (tag : Tag) : Str := tag.attributes.flatMap Attribute.written ++ tag.trail

/-- The value of an attribute. -/
def own (tag : Tag) (name : Str) : Option Str :=
  (tag.attributes.find? (·.name = name)).map (·.value.read)

end Tag

/-! ## Cells -/

/-- A formula, which need not have a text. -/
structure Formula where
  tag : Tag
  text : Option Characters

def Formula.written (formula : Formula) : Str :=
  '<' :: 'f' :: formula.tag.written ++
    match formula.text with
    | none => "/>".toList
    | some text => '>' :: text.written ++ "</f>".toList

/-- A value: texts that stand in the cell, the place of a shared string, a boolean, or a number or
another text. -/
inductive Value where
  | inline (texts : List (Tag × Characters))
  | shared (index : Nat)
  | boolean (value : Bool)
  | other (text : Characters)

namespace Value

/-- The content of the `v` element. -/
def raw : Value → Str
  | inline _ => []
  | shared index => Nat.toDigits 10 index
  | boolean value => if value then ['1'] else ['0']
  | other text => text.written

def written : Value → Str
  | inline texts => "<is>".toList ++ (texts.flatMap fun text =>
      '<' :: 't' :: text.1.written ++ '>' :: text.2.written ++ "</t>".toList) ++ "</is>".toList
  | value => "<v>".toList ++ value.raw ++ "</v>".toList

/-- The type of a cell says what its value is. -/
def Typed (type : Option Str) : Value → Prop
  | inline _ => type = some "inlineStr".toList
  | shared _ => type = some ['s']
  | boolean _ => type = some ['b']
  | other _ => type ≠ some "inlineStr".toList ∧ type ≠ some ['s'] ∧ type ≠ some ['b']

/-- The value of a cell. -/
def own (strings : List Str) : Value → Str
  | inline texts => trim (texts.flatMap (·.2.read))
  | shared index => trim (strings[index]?.getD [])
  | boolean value => if value then "TRUE".toList else "FALSE".toList
  | other text => trim text.read

end Value

structure Body where
  formula : Option Formula
  value : Option Value

namespace Body

def written (body : Body) : Str :=
  (body.formula.map (·.written)).getD [] ++ (body.value.map (·.written)).getD []

def ownFormula (body : Body) : Str :=
  ((body.formula.bind (·.text)).map fun text => trim text.read).getD []

def ownValue (strings : List Str) (body : Body) : Str :=
  (body.value.map (·.own strings)).getD []

end Body

/-- A cell, with a body or as an empty tag. -/
structure WorksheetCell where
  before : Str
  tag : Tag
  ref : Str
  body : Option Body
  before_blank : ∀ c ∈ before, isBlank c = true
  ref_own : tag.own ['r'] = some ref
  ref_word : ref ≠ [] ∧ ∀ c ∈ ref, c.isAlphanum = true
  typed : ∀ value, body.bind (·.value) = some value → value.Typed (tag.own ['t'])

namespace WorksheetCell

def node (cell : WorksheetCell) : Node where
  before := cell.before
  attributes := cell.tag.written
  content := cell.body.map (·.written)

def written (cell : WorksheetCell) : Str := cell.node.written ['c']

/-- What should be extracted of a cell. -/
def expected (strings : List Str) (cell : WorksheetCell) : Option Cell :=
  cell.body.bind fun body =>
    renderCell cell.ref (units body.ownFormula) (units (body.ownValue strings))

end WorksheetCell

/-! ## Rows and sheets -/

/-- The content of a row, and the white space behind its cells. -/
structure RowBody where
  cells : List WorksheetCell
  trail : Str
  trail_blank : ∀ c ∈ trail, isBlank c = true

def RowBody.written (body : RowBody) : Str := body.cells.flatMap (·.written) ++ body.trail

structure WorksheetRow where
  before : Str
  tag : Tag
  body : Option RowBody
  before_blank : ∀ c ∈ before, isBlank c = true

namespace WorksheetRow

def node (row : WorksheetRow) : Node where
  before := row.before
  attributes := row.tag.written
  content := row.body.map (·.written)

def written (row : WorksheetRow) : Str := row.node.written "row".toList

def cells (row : WorksheetRow) : List WorksheetCell := (row.body.map (·.cells)).getD []

def expected (strings : List Str) (row : WorksheetRow) : List Cell :=
  row.cells.filterMap (·.expected strings)

end WorksheetRow

/-- The marks outside of the rows. -/
def Outside (_ : Bool) (name : Str) : Prop := name ≠ "row".toList ∧ name ≠ ['c']

/-- A sheet: what stands before the rows, these, and what stands behind them. A reference is that of
one cell. -/
structure Worksheet where
  prologue : Str
  rows : List WorksheetRow
  epilogue : Str
  prologue_outside : Marks Outside prologue
  epilogue_outside : Marks Outside epilogue
  refs_nodup : ((rows.flatMap (·.cells)).map (·.ref)).Nodup

namespace Worksheet

def written (sheet : Worksheet) : Str :=
  sheet.prologue ++ (sheet.rows.flatMap (·.written) ++ sheet.epilogue)

def cells (sheet : Worksheet) : List WorksheetCell := sheet.rows.flatMap (·.cells)

variable {ν : Type} (numbers : Numbers ν)

/-- The number of a row: its own, or its place. -/
def rowNumber (row : WorksheetRow × Nat) : ν :=
  ((row.1.tag.own ['r']).map numbers.parse).getD (numbers.count (row.2 + 1))

/-- The rows that should be extracted. -/
def expectedRows (strings : List Str) (sheetName : Str) (sheet : Worksheet) :
    List (XlsxKnowledgeRow ν) :=
  sheet.rows.zipIdx.filterMap fun row =>
    if row.1.expected strings = [] then none
    else some (renderRow numbers sheetName (rowNumber numbers row) (row.1.expected strings))

end Worksheet

end SourceVault
