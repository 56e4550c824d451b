import VitoPlatform.SourceVault.Worksheet

/-!
# Reading a cell

What the expressions find in the body of a cell, also behind the start tags of other cells.
-/

namespace SourceVault

open Text Scanning Invocation

/-! ## Tags as they are written -/

theorem isBlank_ne {c : Char} (h : isBlank c = true) :
    c ≠ '<' ∧ c ≠ '>' ∧ isWordChar c = false := by
  have hcases : c = ' ' ∨ c = '\t' ∨ c = '\n' ∨ c = '\r' := by
    simpa [isBlank, or_assoc] using h
  obtain rfl | rfl | rfl | rfl := hcases <;> decide

theorem not_mem_of_blank {text : Str} (h : ∀ c ∈ text, isBlank c = true) : '<' ∉ text :=
  fun hmem => (isBlank_ne (h _ hmem)).1 rfl

theorem Attribute.not_mem_written (attr : Attribute) : '<' ∉ attr.written := by
  intro hmem
  rw [Attribute.written, List.mem_append, List.mem_append, List.mem_cons, List.mem_cons,
    List.mem_append, List.mem_singleton] at hmem
  obtain (hlead | hname) | heq | hquote | hvalue | hquote := hmem
  · exact (isBlank_ne (attr.lead_blank.2 _ hlead)).1 rfl
  · exact (attr.name_plain _ hname).2 (by decide)
  · exact absurd heq (by decide)
  · obtain hdouble | hsingle := attr.quote_quotes
    · exact absurd (hquote.trans hdouble) (by decide)
    · exact absurd (hquote.trans hsingle) (by decide)
  · exact attr.value.not_mem_written hvalue
  · obtain hdouble | hsingle := attr.quote_quotes
    · exact absurd (hquote.trans hdouble) (by decide)
    · exact absurd (hquote.trans hsingle) (by decide)

theorem Tag.not_mem_written (tag : Tag) : '<' ∉ tag.written := by
  rw [Tag.written, List.mem_append, not_or]
  refine ⟨fun hmem => ?_, not_mem_of_blank tag.trail_blank⟩
  obtain ⟨attr, -, hattr⟩ := List.mem_flatMap.mp hmem
  exact attr.not_mem_written hattr

/-- The attributes do not go on with the name of the tag. -/
theorem Tag.start (tag : Tag) : ∀ c ∈ tag.written.head?, isWordChar c = false := by
  intro c hc
  rw [Tag.written] at hc
  cases hattributes : tag.attributes with
  | nil =>
      rw [hattributes, List.flatMap_nil, List.nil_append] at hc
      exact (isBlank_ne (tag.trail_blank c (List.mem_of_mem_head? hc))).2.2
  | cons attr attributes =>
      obtain ⟨d, lead, hlead⟩ := List.exists_cons_of_ne_nil attr.lead_blank.1
      have hd : isBlank d = true := attr.lead_blank.2 d (hlead ▸ List.mem_cons_self)
      rw [hattributes, List.flatMap_cons, Attribute.written, hlead] at hc
      rw [← Option.some.inj (show some d = some c from hc)]
      exact (isBlank_ne hd).2.2

/-! ## Conditions -/

/-- A text is read as it is meant. -/
structure Formula.Clear (formula : Formula) : Prop where
  closed : '>' ∉ formula.tag.written
  named : ∀ text, formula.text = some text → text.Named

def Value.Clear : Value → Prop
  | .inline texts => ∀ text ∈ texts, '>' ∉ text.1.written ∧ text.2.Named
  | .other text => text.Named
  | _ => True

structure Body.Clear (body : Body) : Prop where
  formula : ∀ formula, body.formula = some formula → formula.Clear
  value : ∀ value, body.value = some value → value.Clear

/-! ## Marks of a body -/

/-- The marks of a value. -/
def InValue (_ : Bool) (name : Str) : Prop := name = "is".toList ∨ name = ['t'] ∨ name = ['v']

instance (closing : Bool) (name : Str) : Decidable (InValue closing name) :=
  inferInstanceAs (Decidable (_ ∨ _ ∨ _))

def InFormula (_ : Bool) (name : Str) : Prop := name = ['f']

theorem word_f : (∀ c ∈ ['f'], isWordChar c = true) ∧ ['f'] ≠ [] :=
  ⟨forall_mem_of_all (by decide), by decide⟩

theorem word_t : (∀ c ∈ ['t'], isWordChar c = true) ∧ ['t'] ≠ [] :=
  ⟨forall_mem_of_all (by decide), by decide⟩

theorem word_v : (∀ c ∈ ['v'], isWordChar c = true) ∧ ['v'] ≠ [] :=
  ⟨forall_mem_of_all (by decide), by decide⟩

theorem word_c : (∀ c ∈ ['c'], isWordChar c = true) ∧ ['c'] ≠ [] :=
  ⟨forall_mem_of_all (by decide), by decide⟩

theorem word_is : (∀ c ∈ "is".toList, isWordChar c = true) ∧ "is".toList ≠ [] :=
  ⟨forall_mem_of_all (by decide), by decide⟩

/-- The texts of an inline value. -/
def textsWritten (texts : List (Tag × Characters)) : Str :=
  texts.flatMap fun text =>
    '<' :: 't' :: text.1.written ++ '>' :: text.2.written ++ "</t>".toList

theorem textsWritten_cons (text : Tag × Characters) (texts : List (Tag × Characters))
    (behind : Str) : textsWritten (text :: texts) ++ behind =
      '<' :: (['t'] ++ (text.1.written ++ '>' ::
        (text.2.written ++ (tagWord true ['t'] '>' ++ (textsWritten texts ++ behind))))) := by
  have hstep : textsWritten (text :: texts) =
      '<' :: 't' :: text.1.written ++ '>' :: text.2.written ++ "</t>".toList ++
        textsWritten texts := rfl
  rw [hstep]
  simp only [List.append_assoc, List.cons_append, List.nil_append]
  rfl

theorem marks_texts {P : Bool → Str → Prop} (hP : ∀ closing, P closing ['t'])
    (texts : List (Tag × Characters)) {behind : Str} (hbehind : Marks P behind) :
    Marks P (textsWritten texts ++ behind) := by
  induction texts with
  | nil => exact hbehind
  | cons text texts ih =>
      rw [textsWritten_cons]
      refine marks_startTag word_t.1 word_t.2 text.1.not_mem_written text.1.start (hP false) ?_
      refine (marks_of_not_mem text.2.not_mem_written).append ?_
      exact marks_endTag word_t.1 word_t.2 (hP true) ih

theorem Value.inline_written (texts : List (Tag × Characters)) :
    (Value.inline texts).written = '<' :: ("is".toList ++ ([] ++ '>' ::
      (textsWritten texts ++ (tagWord true "is".toList '>' ++ [])))) := by
  change "<is>".toList ++ textsWritten texts ++ "</is>".toList = _
  rw [List.append_assoc]
  rfl

theorem Value.raw_free (value : Value) : '<' ∉ value.raw := by
  cases value with
  | inline texts => exact List.not_mem_nil
  | shared index =>
      exact fun hmem => absurd (Nat.isDigit_of_mem_toDigits (by decide) (by decide) hmem)
        (by decide)
  | boolean value => cases value <;> decide
  | other text => exact text.not_mem_written

/-- A value that is not inline. -/
theorem Value.v_written {value : Value} (h : ∀ texts, value ≠ .inline texts) :
    value.written =
      '<' :: (['v'] ++ ([] ++ '>' :: (value.raw ++ (tagWord true ['v'] '>' ++ [])))) := by
  have hv : value.written = "<v>".toList ++ value.raw ++ "</v>".toList := by
    cases value with
    | inline texts => exact absurd rfl (h texts)
    | _ => rfl
  rw [hv, List.append_assoc]
  rfl

theorem Value.marks_inline {P : Bool → Str → Prop} (his : ∀ closing, P closing "is".toList)
    (ht : ∀ closing, P closing ['t']) (texts : List (Tag × Characters)) :
    Marks P (Value.inline texts).written := by
  rw [Value.inline_written]
  refine marks_startTag word_is.1 word_is.2 List.not_mem_nil nofun (his false) ?_
  exact marks_texts ht texts
    (marks_endTag word_is.1 word_is.2 (his true) (marks_of_not_mem List.not_mem_nil))

theorem Value.marks_v {P : Bool → Str → Prop} (hv : ∀ closing, P closing ['v']) {value : Value}
    (h : ∀ texts, value ≠ .inline texts) : Marks P value.written := by
  rw [Value.v_written h]
  refine marks_startTag word_v.1 word_v.2 List.not_mem_nil nofun (hv false) ?_
  refine (marks_of_not_mem value.raw_free).append ?_
  exact marks_endTag word_v.1 word_v.2 (hv true) (marks_of_not_mem List.not_mem_nil)

theorem Value.marks (value : Value) : Marks InValue value.written := by
  by_cases hinline : ∃ texts, value = .inline texts
  · obtain ⟨texts, rfl⟩ := hinline
    exact Value.marks_inline (fun _ => .inl rfl) (fun _ => .inr (.inl rfl)) texts
  · exact Value.marks_v (fun _ => .inr (.inr rfl)) fun texts heq => hinline ⟨texts, heq⟩

theorem Formula.written_empty {formula : Formula} (h : formula.text = none) (behind : Str) :
    formula.written ++ behind =
      '<' :: (['f'] ++ ((formula.tag.written ++ ['/']) ++ '>' :: behind)) := by
  rw [Formula.written, h]
  simp only [List.append_assoc, List.cons_append, List.nil_append]
  rfl

theorem Formula.written_text {formula : Formula} {text : Characters}
    (h : formula.text = some text) (behind : Str) :
    formula.written ++ behind = '<' :: (['f'] ++ (formula.tag.written ++ '>' ::
      (text.written ++ (tagWord true ['f'] '>' ++ behind)))) := by
  rw [Formula.written, h]
  simp only [List.append_assoc, List.cons_append, List.nil_append]
  rfl

theorem Tag.start_closed (tag : Tag) :
    ∀ c ∈ (tag.written ++ ['/']).head?, isWordChar c = false := by
  have hstart := tag.start
  cases hwritten : tag.written with
  | nil =>
      rintro c hc
      rw [← Option.some.inj hc]
      decide
  | cons c rest =>
      rw [hwritten] at hstart
      exact hstart

theorem Formula.marks (formula : Formula) {behind : Str} {P : Bool → Str → Prop}
    (hP : ∀ closing, P closing ['f']) (hbehind : Marks P behind) :
    Marks P (formula.written ++ behind) := by
  cases htext : formula.text with
  | none =>
      rw [Formula.written_empty htext]
      refine marks_startTag word_f.1 word_f.2 ?_ formula.tag.start_closed (hP false) hbehind
      rw [List.mem_append, not_or]
      exact ⟨formula.tag.not_mem_written, by decide⟩
  | some text =>
      rw [Formula.written_text htext]
      refine marks_startTag word_f.1 word_f.2 formula.tag.not_mem_written formula.tag.start
        (hP false) ?_
      refine (marks_of_not_mem text.not_mem_written).append ?_
      exact marks_endTag word_f.1 word_f.2 (hP true) hbehind

/-- The marks of a body. -/
def InBody (closing : Bool) (name : Str) : Prop := InFormula closing name ∨ InValue closing name

theorem Body.marks (body : Body) : Marks InBody body.written := by
  have hvalue : Marks InBody ((body.value.map (·.written)).getD []) := by
    cases body.value with
    | none => exact marks_of_not_mem List.not_mem_nil
    | some value => exact value.marks.mono fun _ _ => .inr
  rw [Body.written]
  cases body.formula with
  | none => exact hvalue
  | some formula => exact formula.marks (fun _ => .inl rfl) hvalue

/-! ## What is read -/

variable {skipped : Str} {body : Body}

/-- The content of a `v` element as it is meant. -/
def Value.readRaw : Value → Str
  | .other text => text.read
  | value => value.raw

/-- What the content of a `v` element means under a type. -/
def meant (strings : List Str) (type : Option Str) (decoded : Str) : Str :=
  if type = some ['s'] then ((parseIndex decoded).bind fun index => strings[index]?).getD []
  else if type = some ['b'] then
    if decoded = ['1'] then "TRUE".toList
    else if decoded = ['0'] then "FALSE".toList else decoded
  else decoded

/-- The texts of an inline value. -/
def Value.inlineText : Value → Str
  | .inline texts => texts.flatMap (·.2.read)
  | _ => []

/-- The content of the `v` element, if there is one. -/
def Value.content : Value → Option Str
  | .inline _ => none
  | value => some value.readRaw

/-- The value that is read from a body under a type, which need not be its own. -/
def Value.under (strings : List Str) (type : Option Str) (value : Value) : Str :=
  if type = some "inlineStr".toList then trim value.inlineText
  else (value.content.map fun raw => meant strings type (trim raw)).getD []

def Body.under (strings : List Str) (type : Option Str) (body : Body) : Str :=
  (body.value.map (·.under strings type)).getD []

end SourceVault
