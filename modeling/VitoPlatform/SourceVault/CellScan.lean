import VitoPlatform.SourceVault.Markup

/-!
# Counting the cells of a sheet

`scanCells` of the other extractor goes through a sheet on its own: it looks for `<c ` and passes
over a tag that closes itself.
-/

namespace SourceVault

open Text Scanning

structure CellScan where
  cellCount : Nat
  nativeFormulaCount : Nat
  formulaLikeStringCount : Nat
  formulaCells : List Str

/-- `<v>(\d+)<\/v>` at this place. -/
def digitsAt (text : Str) : Option (Str × Str) :=
  if startsWith text "<v>".toList then
    let digits := (text.drop 3).takeWhile Char.isDigit
    let behind := (text.drop 3).drop digits.length
    if digits ≠ [] ∧ startsWith behind "</v>".toList then some (digits, behind.drop 4) else none
  else none

def isFormulaLike (sharedStrings : List Str) (inner : Str) : Bool :=
  match (matchAll digitsAt inner).head? with
  | none => false
  | some digits =>
      sharedStrings[Nat.ofDigitChars 10 digits 0]?.any fun value =>
        startsWith (value.dropWhile isSpace) ['=']

/-- A cell with a body. -/
def scanCell (sharedStrings : List Str) (startTag inner : Str) (scan : CellScan) : CellScan :=
  match openXmlAttr startTag ['r'] with
  | none => scan
  | some ref =>
      let counted := { scan with cellCount := scan.cellCount + 1 }
      if includes inner "<f".toList then
        { counted with
          nativeFormulaCount := scan.nativeFormulaCount + 1
          formulaCells := scan.formulaCells ++ [ref] }
      else if openXmlAttr startTag ['t'] = some ['s'] ∧ isFormulaLike sharedStrings inner then
        { counted with
          formulaLikeStringCount := scan.formulaLikeStringCount + 1
          formulaCells := scan.formulaCells ++ [ref] }
      else counted

/-- The loop, with a bound on its rounds. -/
def scanCells.loop (sharedStrings : List Str) : Nat → Str → CellScan → CellScan
  | 0, _, scan => scan
  | rounds + 1, xml, scan =>
      match cutAt "<c ".toList xml with
      | none => scan
      | some (_, behind) =>
          match cutAt ['>'] behind with
          | none => scan
          | some (tag, behind) =>
              if (' ' :: tag).getLast? = some '/' then
                scanCells.loop sharedStrings rounds behind scan
              else
                match cutAt "</c>".toList behind with
                | none => scan
                | some (inner, behind) =>
                    scanCells.loop sharedStrings rounds behind
                      (scanCell sharedStrings (' ' :: tag) inner scan)

/-- Each round passes over a tag, so there are fewer rounds than characters. -/
def scanCells (xml : Str) (sharedStrings : List Str) : CellScan :=
  scanCells.loop sharedStrings (xml.length + 1) xml ⟨0, 0, 0, []⟩

end SourceVault
