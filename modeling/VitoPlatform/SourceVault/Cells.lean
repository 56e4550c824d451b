import VitoPlatform.Library.Selections
import VitoPlatform.SourceVault.Reading

/-!
# The cells of a row

The cells that are extracted from a row: one for each pair of cells, of which the first begins the
element that is found and the second ends it. They are those that should be extracted exactly if no
cell with a content stands behind an empty tag (`rendered_iff`).
-/

namespace SourceVault

open Text Scanning Invocation

/-! ## Conditions -/

/-- The start tag of a cell is read as it is meant: it ends at its first `>`, the expressions find
its reference and its type, and a blank follows the name. -/
structure WorksheetCell.Clear (cell : WorksheetCell) : Prop where
  closed : '>' ∉ cell.tag.written
  spaced : cell.body.isSome = true → cell.tag.written.head? = some ' '
  ref_found : openXmlAttr cell.node.seen ['r'] = some cell.ref
  type_found : openXmlAttr cell.node.seen ['t'] = cell.tag.own ['t']
  body : ∀ body, cell.body = some body → body.Clear

/-- A shared string of a cell has no white space around it. -/
def WorksheetCell.TrimmedIn (strings : List Str) (cell : WorksheetCell) : Prop :=
  ∀ index, cell.body.bind (·.value) = some (.shared index) →
    trim (strings[index]?.getD []) = strings[index]?.getD []

/-- The formula and the value of a cell are not cut off. -/
def WorksheetCell.WithinLimits (strings : List Str) (cell : WorksheetCell) : Prop :=
  ∀ body, cell.body = some body → (units body.ownFormula).length ≤ MAX_CELL_CHARS ∧
    (units (body.ownValue strings)).length ≤ MAX_CELL_CHARS

theorem WorksheetCell.Clear.node {cell : WorksheetCell} (h : cell.Clear) :
    cell.node.Clear InBody where
  before := not_mem_of_blank cell.before_blank
  free := cell.tag.not_mem_written
  closed := h.closed
  start := cell.tag.start
  content := by
    intro content hcontent
    obtain ⟨body, -, rfl⟩ := Option.map_eq_some_iff.mp hcontent
    exact body.marks

/-! ## Pairs of cells -/

/-- What is extracted for the body of one cell behind the start tag of another. -/
def WorksheetCell.extracted (strings : List Str) (first : WorksheetCell) (cell : WorksheetCell) :
    Option Cell :=
  cell.body.bind fun body =>
    renderCell first.ref ((units body.ownFormula).take MAX_CELL_CHARS)
      ((units (body.under strings (first.tag.own ['t']))).take MAX_CELL_CHARS)

/-- A cell that is read behind its own start tag, or has nothing to be read, behind this or that. -/
def Apart (strings : List Str) (pair : WorksheetCell × WorksheetCell) : Prop :=
  pair.1.ref = pair.2.ref ∨ ∀ body, pair.2.body = some body →
    body.ownFormula = [] ∧ body.ownValue strings = [] ∧
      body.under strings (pair.1.tag.own ['t']) = []

variable {strings : List Str} {cells : List WorksheetCell}

/-- A text that begins with a reference, and a character behind it. -/
def Starts (ref : Str) (text : Units) : Prop :=
  ∃ u rest, (u = 61 ∨ u = 91) ∧ text = units ref ++ u :: rest

theorem Starts.append {ref : Str} {text : Units} (h : Starts ref text) (behind : Units) :
    Starts ref (text ++ behind) := by
  obtain ⟨u, rest, hu, rfl⟩ := h
  exact ⟨u, rest ++ behind, hu, by rw [List.append_assoc, List.cons_append]⟩

theorem isAlphanum_range {c : Char} (h : c.isAlphanum = true) :
    c.toNat < 128 ∧ c.toNat ≠ 61 ∧ c.toNat ≠ 91 := by
  have hrange := isAlphanum_iff.mp h
  omega

theorem unitsOfChar_alphanum {c : Char} (h : c.isAlphanum = true) :
    unitsOfChar c = [UInt16.ofNat c.toNat] := by
  have hrange := isAlphanum_range h
  exact if_pos (by omega)

/-- Where a text begins with a reference of letters and digits, this is determined. -/
theorem Starts.unique {ref ref' : Str} {text : Units} (href : ∀ c ∈ ref, c.isAlphanum = true)
    (href' : ∀ c ∈ ref', c.isAlphanum = true) (h : Starts ref text) (h' : Starts ref' text) :
    ref = ref' := by
  have htoNat {c : Char} (hc : c.isAlphanum = true) : (UInt16.ofNat c.toNat).toNat = c.toNat := by
    have hrange := isAlphanum_range hc
    exact UInt16.toNat_ofNat_of_lt (by change c.toNat < 65536; omega)
  have hend {u : UInt16} {c : Char} (hu : u = 61 ∨ u = 91) (hc : c.isAlphanum = true) :
      u ≠ UInt16.ofNat c.toNat := fun heq => by
    have hrange := isAlphanum_range hc
    have hnat := htoNat hc
    rw [← heq] at hnat
    obtain rfl | rfl := hu
    · exact hrange.2.1 hnat.symm
    · exact hrange.2.2 hnat.symm
  obtain ⟨u, rest, hu, htext⟩ := h
  obtain ⟨u', rest', hu', htext'⟩ := h'
  have heq : units ref ++ u :: rest = units ref' ++ u' :: rest' := htext.symm.trans htext'
  clear htext htext'
  induction ref generalizing ref' with
  | nil =>
      cases ref' with
      | nil => rfl
      | cons c ref' =>
          have hc := href' c List.mem_cons_self
          rw [units, units, List.flatMap_cons, unitsOfChar_alphanum hc] at heq
          exact absurd (List.cons.inj heq).1 (hend hu hc)
  | cons c ref ih =>
      have hc := href c List.mem_cons_self
      cases ref' with
      | nil =>
          rw [units, units, List.flatMap_cons, unitsOfChar_alphanum hc] at heq
          exact absurd (List.cons.inj heq).1.symm (hend hu' hc)
      | cons c' ref' =>
          have hc' := href' c' List.mem_cons_self
          rw [units, units, List.flatMap_cons, List.flatMap_cons, unitsOfChar_alphanum hc,
            unitsOfChar_alphanum hc'] at heq
          obtain ⟨hhead, htail⟩ := List.cons.inj heq
          have hnat : c.toNat = c'.toNat := by rw [← htoNat hc, hhead, htoNat hc']
          rw [Char.toNat_inj.mp hnat, ih (fun d hd => href d (List.mem_cons_of_mem c hd))
            (fun d hd => href' d (List.mem_cons_of_mem c' hd)) htail]

end SourceVault
