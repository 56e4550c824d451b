import VitoPlatform.Library.Scanning
import VitoPlatform.Library.Text

/-!
# Reading markup with expressions

The parts of an archive are read with regular expressions: a start tag ends at the first `>`
behind its name, an element at the first end tag of this name, an attribute is a name behind
something else than a word with a value between quotation marks. What these expressions find is
written down here as functions on texts.
-/

namespace SourceVault

open Text Scanning

/-- A character of a word, `\w`. -/
def isWordChar (c : Char) : Bool := c.isAlphanum || c = '_'

/-! ## Tags and elements -/

/-- `<name\b([^>]*)>`: the attributes, and what stands behind the tag. -/
def tagAt (name text : Str) : Option (Str × Str) :=
  if startsWith text ('<' :: name) then
    let body := text.drop (name.length + 1)
    if body.head?.any isWordChar then none else cutAt ['>'] body
  else none

/-- The tags of this name, from `<` to `>`: `<name\b[^>]*\/?\s*>`. -/
def tags (name xml : Str) : List Str :=
  matchAll (fun text => (tagAt name text).map fun (attributes, behind) =>
    ('<' :: name ++ attributes ++ ['>'], behind)) xml

/-- An element that has been found: what stands in its start tag, and between its tags. -/
structure Element where
  attributes : Str
  inner : Str

/-- `<name\b([^>]*)>(.*?)<\/name>` -/
def elementAt (name text : Str) : Option (Element × Str) :=
  (tagAt name text).bind fun (attributes, behind) =>
    (cutAt ("</".toList ++ name ++ ['>']) behind).map fun (inner, behind) =>
      (⟨attributes, inner⟩, behind)

def elements (name xml : Str) : List Element := matchAll (elementAt name) xml

/-- `<name>(.*?)<\/name>`, the first match. -/
def plainElement (name xml : Str) : Option Str :=
  (cutAt ('<' :: name ++ ['>']) xml).bind fun (_, behind) =>
    (cutAt ("</".toList ++ name ++ ['>']) behind).map (·.1)

variable {name front behind text : Str} {c : Char}

theorem elementAt_of_ne (h : c ≠ '<') : elementAt name (c :: text) = none := by
  have hstarts : startsWith (c :: text) ('<' :: name) = false :=
    Bool.and_eq_false_iff.mpr (.inl (beq_eq_false_iff_ne.mpr h.symm))
  rw [elementAt, tagAt, hstarts, if_neg Bool.false_ne_true]
  rfl

/-- No element begins in a text without `<`. -/
theorem elements_append (h : '<' ∉ front) : elements name (front ++ behind) =
    elements name behind :=
  matchAll_append fun _ _ hsuffix => elementAt_of_ne fun heq =>
    h (hsuffix.subset (heq ▸ List.mem_cons_self))

theorem elements_of_not_mem (h : '<' ∉ text) : elements name text = [] := by
  have hempty := (elements_append h : elements name (text ++ []) = elements name [])
  rwa [List.append_nil] at hempty

/-! ## Marks -/

def slashOf (closing : Bool) : Str := if closing then ['/'] else []

/-- What stands behind a `<`: a name, behind a slash or not, which ends here. -/
def MarkAt (closing : Bool) (name rest : Str) : Prop :=
  (∀ c ∈ name, isWordChar c = true) ∧ ∃ d behind, isWordChar d = false ∧ (name = [] → d ≠ '/') ∧
    rest = slashOf closing ++ (name ++ d :: behind)

/-- The marks of a text, opening and closing ones, are among these. -/
def Marks (P : Bool → Str → Prop) (text : Str) : Prop :=
  ∀ rest, ('<' :: rest) <:+ text → ∃ closing name, MarkAt closing name rest ∧ P closing name

variable {P Q : Bool → Str → Prop} {text front behind name name' rest : Str}
  {closing closing' : Bool} {c : Char}

theorem MarkAt.append (h : MarkAt closing name rest) (behind : Str) :
    MarkAt closing name (rest ++ behind) := by
  obtain ⟨hword, d, tail, hd, hne, rfl⟩ := h
  exact ⟨hword, d, tail ++ behind, hd, hne, by simp only [List.append_assoc, List.cons_append]⟩

/-- The name behind a `<` is determined. -/
theorem MarkAt.name_eq {tail tail' : Str} {d d' : Char} (hname : ∀ c ∈ name, isWordChar c = true)
    (hname' : ∀ c ∈ name', isWordChar c = true) (hd : isWordChar d = false)
    (hd' : isWordChar d' = false) (h : name ++ d :: tail = name' ++ d' :: tail') :
    name = name' := by
  have htake {word tail : Str} {e : Char} (hword : ∀ c ∈ word, isWordChar c = true)
      (he : isWordChar e = false) : (word ++ e :: tail).takeWhile isWordChar = word := by
    rw [List.takeWhile_append_of_pos hword, List.takeWhile_cons_of_neg (by rw [he]; decide),
      List.append_nil]
  rw [← htake hname hd, h, htake hname' hd']

theorem MarkAt.unique (h : MarkAt closing name rest) (h' : MarkAt closing' name' rest) :
    closing = closing' ∧ name = name' := by
  obtain ⟨hword, d, tail, hd, hne, rfl⟩ := h
  obtain ⟨hword', d', tail', hd', hne', heq⟩ := h'
  have hslash {word tail rest : Str} {e : Char} (hword : ∀ c ∈ word, isWordChar c = true)
      (he : word = [] → e ≠ '/') : word ++ e :: tail ≠ '/' :: rest := by
    cases word with
    | nil => exact fun heq => he rfl (List.cons.inj heq).1
    | cons c word =>
        exact fun heq => absurd (hword c List.mem_cons_self)
          ((List.cons.inj heq).1 ▸ (by decide : ¬ isWordChar '/' = true))
  cases closing <;> cases closing'
  · exact ⟨rfl, MarkAt.name_eq hword hword' hd hd' heq⟩
  · exact absurd heq (hslash hword hne)
  · exact absurd heq.symm (hslash hword' hne')
  · exact ⟨rfl, MarkAt.name_eq hword hword' hd hd' (List.cons.inj heq).2⟩

theorem marks_of_not_mem (h : '<' ∉ text) : Marks P text :=
  fun _ hsuffix => absurd (hsuffix.subset List.mem_cons_self) h

theorem Marks.mono (h : Marks P text) (hPQ : ∀ closing name, P closing name → Q closing name) :
    Marks Q text := fun rest hsuffix => by
  obtain ⟨closing, name, hmark, hP⟩ := h rest hsuffix
  exact ⟨closing, name, hmark, hPQ closing name hP⟩

theorem Marks.append (h : Marks P front) (hbehind : Marks P behind) :
    Marks P (front ++ behind) := by
  rintro rest ⟨before, hbefore⟩
  obtain ⟨middle, rfl, hmiddle⟩ | ⟨middle, -, hmiddle⟩ := List.append_eq_append_iff.mp hbefore
  · cases middle with
    | nil => exact hbehind rest ⟨[], hmiddle⟩
    | cons d middle =>
        obtain ⟨rfl, rfl⟩ := List.cons.inj hmiddle
        obtain ⟨closing, name, hmark, hP⟩ := h middle ⟨before, rfl⟩
        exact ⟨closing, name, hmark.append behind, hP⟩
  · exact hbehind rest ⟨middle, hmiddle.symm⟩

/-- A mark in front of a text. -/
theorem marks_cons (hmark : MarkAt closing name text) (hP : P closing name) (h : Marks P text) :
    Marks P ('<' :: text) := by
  intro rest hsuffix
  obtain heq | htail := List.suffix_cons_iff.mp hsuffix
  · obtain rfl := (List.cons.inj heq).2
    exact ⟨closing, name, hmark, hP⟩
  · exact h rest htail

/-- Where no mark has this name, none is found before the end of the text. -/
theorem Marks.not_markAt (h : Marks P front) (hP : ¬ P closing name)
    (hsuffix : ('<' :: rest) <:+ front) : ¬ MarkAt closing name (rest ++ behind) := by
  intro hmark
  obtain ⟨closing', name', hmark', hP'⟩ := h rest hsuffix
  obtain ⟨rfl, rfl⟩ := hmark.unique (hmark'.append behind)
  exact hP hP'

/-! ### What is found between marks -/

/-- A tag, an opening one or a closing one, up to the character behind its name. -/
def tagWord (closing : Bool) (name : Str) (d : Char) : Str :=
  '<' :: (slashOf closing ++ (name ++ [d]))

theorem markAt_of_tagWord {d : Char} (hname : ∀ c ∈ name, isWordChar c = true) (hne : name ≠ [])
    (hd : isWordChar d = false) (h : (tagWord closing name d).isPrefixOf ('<' :: rest) = true) :
    MarkAt closing name rest := by
  obtain ⟨tail, htail⟩ := List.isPrefixOf_iff_prefix.mp h
  refine ⟨hname, d, tail, hd, fun hnil => absurd hnil hne, ?_⟩
  have heq : slashOf closing ++ (name ++ [d]) ++ tail = rest := (List.cons.inj htail).2
  rw [← heq]
  simp only [List.append_assoc, List.cons_append, List.nil_append]

/-- No such tag begins in a text without such marks. -/
theorem Marks.tagWord_not_prefix {d : Char} (h : Marks P front) (hP : ¬ P closing name)
    (hname : ∀ c ∈ name, isWordChar c = true) (hne : name ≠ []) (hd : isWordChar d = false)
    (behind : Str) : ∀ c rest, (c :: rest) <:+ front →
      (tagWord closing name d).isPrefixOf (c :: rest ++ behind) = false := by
  intro c rest hsuffix
  by_contra hprefix
  rw [Bool.not_eq_false] at hprefix
  have hc : '<' = c := eq_of_beq (Bool.and_eq_true_iff.mp
    (show ('<' == c && (slashOf closing ++ (name ++ [d])).isPrefixOf (rest ++ behind)) = true from
      hprefix)).1
  subst hc
  exact h.not_markAt hP hsuffix (markAt_of_tagWord hname hne hd hprefix)

theorem cutAt_tag {d : Char} (h : Marks P front) (hP : ¬ P closing name)
    (hname : ∀ c ∈ name, isWordChar c = true) (hne : name ≠ []) (hd : isWordChar d = false) :
    cutAt (tagWord closing name d) (front ++ (tagWord closing name d ++ behind)) =
      some (front, behind) :=
  cutAt_word (List.cons_ne_nil _ _) (h.tagWord_not_prefix hP hname hne hd _)

/-- A start tag is a mark of its name. -/
theorem marks_startTag {attributes : Str} (hname : ∀ c ∈ name, isWordChar c = true)
    (hne : name ≠ []) (hfree : '<' ∉ attributes)
    (hstart : ∀ c ∈ attributes.head?, isWordChar c = false) (hP : P false name)
    (hbehind : Marks P behind) :
    Marks P ('<' :: (name ++ (attributes ++ '>' :: behind))) := by
  have hmark : MarkAt false name (name ++ (attributes ++ '>' :: behind)) := by
    refine ⟨hname, ?_⟩
    cases attributes with
    | nil => exact ⟨'>', behind, by decide, fun hnil => absurd hnil hne, rfl⟩
    | cons d attributes =>
        exact ⟨d, attributes ++ '>' :: behind, hstart d rfl, fun hnil => absurd hnil hne, rfl⟩
  have hnot : '<' ∉ name ++ (attributes ++ ['>']) := by
    rw [List.mem_append, List.mem_append, not_or, not_or]
    exact ⟨fun hmem => absurd (hname _ hmem) (by decide), hfree, by decide⟩
  have hsplit : name ++ (attributes ++ '>' :: behind) =
      (name ++ (attributes ++ ['>'])) ++ behind := by
    simp only [List.append_assoc, List.cons_append, List.nil_append]
  refine marks_cons hmark hP ?_
  rw [hsplit]
  exact (marks_of_not_mem hnot).append hbehind

/-- So is an end tag. -/
theorem marks_endTag (hname : ∀ c ∈ name, isWordChar c = true) (hne : name ≠ [])
    (hP : P true name) (hbehind : Marks P behind) :
    Marks P (tagWord true name '>' ++ behind) := by
  have hmark : MarkAt true name ('/' :: (name ++ '>' :: behind)) :=
    ⟨hname, '>', behind, by decide, fun hnil => absurd hnil hne, rfl⟩
  have hnot : '<' ∉ '/' :: (name ++ ['>']) := by
    rw [List.mem_cons, List.mem_append, not_or, not_or]
    exact ⟨by decide, fun hmem => absurd (hname _ hmem) (by decide), by decide⟩
  have hsplit : '/' :: (name ++ '>' :: behind) = '/' :: (name ++ ['>']) ++ behind := by
    simp only [List.append_assoc, List.cons_append, List.nil_append]
  have htext : tagWord true name '>' ++ behind = '<' :: ('/' :: (name ++ '>' :: behind)) := by
    rw [hsplit]
    rfl
  rw [htext]
  refine marks_cons hmark hP ?_
  rw [hsplit]
  exact (marks_of_not_mem hnot).append hbehind

/-- `replace(/word/g, replacement)`. -/
def replaceAll (word replacement text : Str) : Str :=
  replaceAll.loop word replacement 0 text
where
  loop (word replacement : Str) : Nat → Str → Str
    | _, [] => []
    | skip + 1, _ :: rest => loop word replacement skip rest
    | 0, c :: rest =>
        if startsWith (c :: rest) word then
          replacement ++ loop word replacement (word.length - 1) rest
        else c :: loop word replacement 0 rest

def decodeOpenXml (value : Str) : Str :=
  replaceAll "&amp;".toList ['&'] <| replaceAll "&gt;".toList ['>'] <|
    replaceAll "&lt;".toList ['<'] <| replaceAll "&apos;".toList ['\''] <|
      replaceAll "&quot;".toList ['"'] value

/-- `name="([^"]+)"` at this place. -/
def attributeAt (name text : Str) : Option Str :=
  if startsWith text (name ++ "=\"".toList) then
    (cutAt ['"'] (text.drop (name.length + 2))).bind fun (value, _) =>
      if value = [] then none else some value
  else none

/-- The first match of `\bname="([^"]+)"`, behind a character of a word or not. -/
def findAttribute (name : Str) : Bool → Str → Option Str
  | _, [] => none
  | afterWord, c :: rest =>
      (if afterWord then none else attributeAt name (c :: rest)).or
        (findAttribute name (isWordChar c) rest)

def openXmlAttr (tag name : Str) : Option Str := (findAttribute name false tag).map decodeOpenXml

end SourceVault
