import VitoPlatform.SourceVault.Rows
import Mathlib.Data.List.Infix

/-!
# The cells that are counted

The other extractor passes over a tag that closes itself, so where every start tag is read as it is
meant, its counts are those of the cells with a body and of the formulas (`scanCells_written`).
-/

namespace SourceVault

open Text Scanning Invocation

namespace WorksheetCell

def hasFormula (cell : WorksheetCell) : Bool := (cell.body.bind (·.formula)).isSome

/-- What a cell adds to the counts. -/
def counted (sharedStrings : List Str) (scan : CellScan) (cell : WorksheetCell) : CellScan :=
  match cell.body with
  | none => scan
  | some body => scanCell sharedStrings cell.tag.written body.written scan

end WorksheetCell

variable {sharedStrings : List Str} {scan : CellScan} {front behind : Str} {rounds : Nat}
  {cell : WorksheetCell} {cells : List WorksheetCell} {P : Bool → Str → Prop}

/-- The scan passes over what has no `<c `. -/
theorem scanCells_loop_skip (h : ∀ c rest, (c :: rest) <:+ front →
      "<c ".toList.isPrefixOf (c :: rest ++ behind) = false) :
    scanCells.loop sharedStrings rounds (front ++ behind) scan =
      scanCells.loop sharedStrings rounds behind scan := by
  cases rounds with
  | zero => rfl
  | succ rounds =>
      rw [scanCells.loop, scanCells.loop, cutAt_append h]
      cases cutAt "<c ".toList behind with
      | none => rfl
      | some parts => rfl

theorem scanCells_loop_append (h : Marks P front) (hP : ¬ P false ['c']) :
    scanCells.loop sharedStrings rounds (front ++ behind) scan =
      scanCells.loop sharedStrings rounds behind scan :=
  scanCells_loop_skip
    (h.tagWord_not_prefix (d := ' ') hP word_c.1 word_c.2 (by decide) behind)

theorem cutAt_char {c : Char} {text : Str} (h : c ∉ text) :
    cutAt [c] (text ++ c :: behind) = some (text, behind) :=
  cutAt_word (List.cons_ne_nil _ _) fun _ _ hsuffix =>
    Bool.and_eq_false_iff.mpr (.inl (beq_eq_false_iff_ne.mpr fun heq =>
      h (hsuffix.subset (heq ▸ List.mem_cons_self))))

/-- A tag that closes itself is passed over. -/
theorem scanCells_loop_empty {tag : Str} (hclosed : '>' ∉ tag) :
    scanCells.loop sharedStrings (rounds + 1) ("<c ".toList ++ (tag ++ '/' :: '>' :: behind)) scan =
      scanCells.loop sharedStrings rounds behind scan := by
  have hcut : cutAt ['>'] (tag ++ '/' :: '>' :: behind) = some (tag ++ ['/'], behind) := by
    have hslash : '>' ∉ tag ++ ['/'] := by
      rw [List.mem_append, not_or]
      exact ⟨hclosed, by decide⟩
    rw [List.append_cons]
    exact cutAt_char hslash
  have hlast : (' ' :: (tag ++ ['/'])).getLast? = some '/' := by
    rw [← List.cons_append, List.getLast?_concat]
  rw [scanCells.loop, cutAt_self (by decide : "<c ".toList ≠ [])]
  dsimp only
  rw [hcut]
  dsimp only
  rw [if_pos hlast]

/-- A cell with a body is counted. -/
theorem scanCells_loop_body {tag inner : Str} (hclosed : '>' ∉ tag)
    (hlast : (' ' :: tag).getLast? ≠ some '/') (hinner : Marks P inner) (hP : ¬ P true ['c']) :
    scanCells.loop sharedStrings (rounds + 1)
        ("<c ".toList ++ (tag ++ '>' :: (inner ++ ("</c>".toList ++ behind)))) scan =
      scanCells.loop sharedStrings rounds behind
        (scanCell sharedStrings (' ' :: tag) inner scan) := by
  have hend : cutAt "</c>".toList (inner ++ ("</c>".toList ++ behind)) = some (inner, behind) :=
    cutAt_tag (d := '>') hinner hP word_c.1 word_c.2 (by decide)
  rw [scanCells.loop, cutAt_self (by decide : "<c ".toList ≠ [])]
  dsimp only
  rw [cutAt_char hclosed]
  dsimp only
  rw [if_neg hlast, hend]

/-! ## One cell after another -/

theorem Attribute.getLast?_written (attr : Attribute) :
    attr.written.getLast? = some attr.quote := by
  rw [Attribute.written, ← List.cons_append, ← List.cons_append, ← List.append_assoc,
    List.getLast?_concat]

/-- A tag ends with a quotation mark or a blank. -/
theorem Tag.getLast?_written (tag : Tag) : tag.written.getLast? ≠ some '/' := by
  rw [Tag.written]
  by_cases htrail : tag.trail = []
  · rw [htrail, List.append_nil]
    by_cases hattributes : tag.attributes = []
    · rw [hattributes]
      intro h
      cases h
    · obtain ⟨attributes, attr, heq⟩ :=
        (List.eq_nil_or_concat tag.attributes).resolve_left hattributes
      rw [heq, List.concat_eq_append, List.flatMap_append, List.flatMap_singleton]
      have hlast := attr.getLast?_written
      have hne : attr.written ≠ [] := fun hnil => by
        rw [hnil] at hlast
        cases hlast
      rw [List.getLast?_append_of_ne_nil _ hne, hlast]
      obtain hquote | hquote := attr.quote_quotes
      · rw [hquote]
        decide
      · rw [hquote]
        decide
  · rw [List.getLast?_append_of_ne_nil _ htrail]
    intro hlast
    exact absurd (tag.trail_blank '/' (List.mem_of_getLast? hlast)) (by decide)

/-- A tag without a blank behind the name is none that the scan looks for. -/
theorem Tag.not_blank_prefix (tag : Tag) (h : tag.written.head? ≠ some ' ') (behind : Str) :
    ∀ c rest, (c :: rest) <:+ '<' :: 'c' :: (tag.written ++ "/>".toList) →
      "<c ".toList.isPrefixOf (c :: rest ++ behind) = false := by
  intro c rest hsuffix
  rw [Bool.eq_false_iff]
  intro hstarts
  obtain ⟨tail, htail⟩ := List.isPrefixOf_iff_prefix.mp hstarts
  obtain ⟨rfl, hrest⟩ := List.cons.inj htail
  obtain heq | hbelow := List.suffix_cons_iff.mp hsuffix
  · obtain rfl := (List.cons.inj heq).2
    have htag : ' ' :: tail = tag.written ++ "/>".toList ++ behind := (List.cons.inj hrest).2
    cases hwritten : tag.written with
    | nil =>
        rw [hwritten] at htag
        exact absurd (List.cons.inj htag).1 (by decide)
    | cons d attributes =>
        rw [hwritten] at htag h
        exact h (congrArg some (List.cons.inj htag).1.symm)
  · have hmem : '<' ∈ 'c' :: (tag.written ++ "/>".toList) := hbelow.subset List.mem_cons_self
    rw [List.mem_cons, List.mem_append] at hmem
    obtain hc | hwritten | hend := hmem
    · exact absurd hc (by decide)
    · exact tag.not_mem_written hwritten
    · exact absurd hend (by decide)

/-- The scan of a text counts these cells, with at most one round for each. -/
def Scans (sharedStrings : List Str) (text : Str) (cells : List WorksheetCell) : Prop :=
  ∀ rounds behind scan, ∃ left, rounds ≤ left ∧
    scanCells.loop sharedStrings (rounds + cells.length) (text ++ behind) scan =
      scanCells.loop sharedStrings left behind
        (cells.foldl (WorksheetCell.counted sharedStrings) scan)

theorem Scans.append {text text' : Str} {cells cells' : List WorksheetCell}
    (h : Scans sharedStrings text cells) (h' : Scans sharedStrings text' cells') :
    Scans sharedStrings (text ++ text') (cells ++ cells') := by
  intro rounds behind scan
  obtain ⟨left, hleft, hfirst⟩ := h (rounds + cells'.length) (text' ++ behind) scan
  obtain ⟨more, rfl⟩ := Nat.exists_eq_add_of_le hleft
  obtain ⟨rest, hrest, hsecond⟩ := h' (rounds + more) behind
    (cells.foldl (WorksheetCell.counted sharedStrings) scan)
  refine ⟨rest, Nat.le_trans (Nat.le_add_right rounds more) hrest, ?_⟩
  rw [List.foldl_append, ← hsecond, List.append_assoc, List.length_append,
    Nat.add_comm cells.length, ← Nat.add_assoc, hfirst, Nat.add_right_comm]

theorem scans_of_marks (h : Marks P front) (hP : ¬ P false ['c']) : Scans sharedStrings front [] :=
  fun rounds _ _ => ⟨rounds, Nat.le_refl rounds, scanCells_loop_append h hP⟩

theorem Scans.nil : Scans sharedStrings [] [] := fun rounds _ _ => ⟨rounds, Nat.le_refl rounds, rfl⟩

theorem WorksheetCell.Clear.scans (h : cell.Clear) : Scans sharedStrings cell.written [cell] := by
  intro rounds behind scan
  have hbefore : Marks (fun _ _ => False) cell.before :=
    marks_of_not_mem (not_mem_of_blank cell.before_blank)
  show ∃ left, rounds ≤ left ∧
    scanCells.loop sharedStrings (rounds + 1) (cell.written ++ behind) scan =
      scanCells.loop sharedStrings left behind (cell.counted sharedStrings scan)
  cases hbody : cell.body with
  | none =>
      have hwritten : cell.written ++ behind =
          cell.before ++ ('<' :: 'c' :: (cell.tag.written ++ '/' :: '>' :: behind)) := by
        simp [WorksheetCell.written, Node.written, WorksheetCell.node, Node.seen, hbody]
      have hcounted : cell.counted sharedStrings scan = scan := by
        rw [WorksheetCell.counted, hbody]
      rw [hwritten, hcounted, scanCells_loop_append hbefore not_false]
      by_cases hspaced : cell.tag.written.head? = some ' '
      · obtain ⟨attributes, hattributes⟩ := List.head?_eq_some_iff.mp hspaced
        have hclosed : '>' ∉ attributes := fun hmem =>
          h.closed (hattributes ▸ List.mem_cons_of_mem ' ' hmem)
        refine ⟨rounds, Nat.le_refl rounds, ?_⟩
        rw [hattributes]
        exact scanCells_loop_empty hclosed
      · have hsplit : '<' :: 'c' :: (cell.tag.written ++ '/' :: '>' :: behind) =
            ('<' :: 'c' :: (cell.tag.written ++ "/>".toList)) ++ behind := by
          simp
        refine ⟨rounds + 1, Nat.le_succ rounds, ?_⟩
        rw [hsplit, scanCells_loop_skip (cell.tag.not_blank_prefix hspaced behind)]
  | some body =>
      obtain ⟨attributes, hattributes⟩ :=
        List.head?_eq_some_iff.mp (h.spaced (by rw [hbody]; rfl))
      have hwritten : cell.written ++ behind = cell.before ++ ("<c ".toList ++
          (attributes ++ '>' :: (body.written ++ ("</c>".toList ++ behind)))) := by
        simp [WorksheetCell.written, Node.written, WorksheetCell.node, Node.seen, hbody,
          hattributes, tagWord, slashOf]
      have hcounted : cell.counted sharedStrings scan =
          scanCell sharedStrings (' ' :: attributes) body.written scan := by
        rw [WorksheetCell.counted, hbody, ← hattributes]
      have hclosed : '>' ∉ attributes := fun hmem =>
        h.closed (hattributes ▸ List.mem_cons_of_mem ' ' hmem)
      refine ⟨rounds, Nat.le_refl rounds, ?_⟩
      rw [hwritten, hcounted, scanCells_loop_append hbefore not_false,
        scanCells_loop_body hclosed (hattributes ▸ cell.tag.getLast?_written) body.marks
          (by simp [InBody, InFormula, InValue])]

theorem scans_cells (h : ∀ cell ∈ cells, cell.Clear) :
    Scans sharedStrings (cells.flatMap (·.written)) cells := by
  induction cells with
  | nil => exact .nil
  | cons cell cells ih =>
      obtain ⟨hcell, hcells⟩ := List.forall_mem_cons.mp h
      rw [List.flatMap_cons]
      exact hcell.scans.append (ih hcells)

theorem WorksheetRow.Clear.scans {row : WorksheetRow} (h : row.Clear) :
    Scans sharedStrings row.written row.cells := by
  have hopening : Scans sharedStrings (row.node.opening "row".toList) [] :=
    scans_of_marks (h.node.marks_opening word_row.1 word_row.2) (by simp [onlyOpening])
  cases hbody : row.body with
  | none =>
      have hwritten : row.written = row.node.opening "row".toList := by
        simp [WorksheetRow.written, Node.written, Node.opening, WorksheetRow.node, hbody]
      have hcells : row.cells = [] := by
        rw [WorksheetRow.cells, hbody]
        rfl
      rwa [hwritten, hcells]
  | some body =>
      have hcells : row.cells = body.cells := by
        rw [WorksheetRow.cells, hbody]
        rfl
      have hwritten : row.written = row.node.opening "row".toList ++
          (body.cells.flatMap (·.written) ++ (body.trail ++ tagWord true "row".toList '>')) := by
        simp [WorksheetRow.written, Node.written, Node.opening, WorksheetRow.node, hbody,
          RowBody.written]
      have hend : Marks (fun closing _ => closing = true)
          (body.trail ++ (tagWord true "row".toList '>' ++ [])) :=
        (marks_of_not_mem (not_mem_of_blank body.trail_blank)).append
          (marks_endTag word_row.1 word_row.2 rfl (marks_of_not_mem List.not_mem_nil))
      rw [List.append_nil] at hend
      have hall := hopening.append
        ((scans_cells (hcells ▸ h.cells)).append (scans_of_marks hend (by simp)))
      rw [List.nil_append, List.append_nil] at hall
      rwa [hwritten, hcells]

end SourceVault
