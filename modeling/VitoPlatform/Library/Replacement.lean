import Mathlib.Data.List.Infix

/-!
# Replacing parts of a text by a marker

Texts over any alphabet. `split` cuts a text at the occurrences of a word, from left to
right, and `replaceMatches` puts a marker in place of every match of a backtracking pattern.
Both leave pieces of the text with markers between them.

The question is whether a word that no piece contains can occur in the result. It can only
where it touches a marker: inside it, around it, or across one of its ends.
-/

namespace Replacement

variable {α : Type}

/-! ## Words and markers -/

/-- The word can share a position with an occurrence of the marker: it lies inside the
marker or around it, or a suffix or prefix of it is a prefix or suffix of the marker. -/
def Touches (word marker : List α) : Prop :=
  word.IsInfix marker ∨ marker.IsInfix word ∨
    (∃ v ≠ [], v.IsSuffix word ∧ v.IsPrefix marker) ∨
    (∃ v ≠ [], v.IsPrefix word ∧ v.IsSuffix marker)

/-- The test for `Touches`. -/
def touches [DecidableEq α] (word marker : List α) : Bool :=
  marker.tails.any (word.isPrefixOf ·) || word.tails.any (marker.isPrefixOf ·) ||
    word.tails.any (fun v => !v.isEmpty && v.isPrefixOf marker) ||
    word.inits.any (fun v => !v.isEmpty && v.isSuffixOf marker)

theorem any_tails_iff [DecidableEq α] {word text : List α} :
    text.tails.any (word.isPrefixOf ·) = true ↔ word.IsInfix text := by
  rw [List.any_eq_true]
  constructor
  · rintro ⟨u, hu, hw⟩
    exact (List.isPrefixOf_iff_prefix.mp hw).isInfix.trans
      ((List.mem_tails u text).mp hu).isInfix
  · rintro ⟨a, b, h⟩
    refine ⟨word ++ b, (List.mem_tails _ _).mpr ⟨a, by rw [← h, List.append_assoc]⟩, ?_⟩
    exact List.isPrefixOf_iff_prefix.mpr ⟨b, rfl⟩

theorem touches_iff [DecidableEq α] {word marker : List α} :
    touches word marker = true ↔ Touches word marker := by
  have hsuffix : word.tails.any (fun v => !v.isEmpty && v.isPrefixOf marker) = true ↔
      ∃ v ≠ [], v.IsSuffix word ∧ v.IsPrefix marker := by
    simp only [List.any_eq_true, List.mem_tails, Bool.and_eq_true, Bool.not_eq_true',
      List.isEmpty_eq_false_iff, List.isPrefixOf_iff_prefix]
    constructor
    · rintro ⟨v, hw, hne, hm⟩
      exact ⟨v, hne, hw, hm⟩
    · rintro ⟨v, hne, hw, hm⟩
      exact ⟨v, hw, hne, hm⟩
  have hprefix : word.inits.any (fun v => !v.isEmpty && v.isSuffixOf marker) = true ↔
      ∃ v ≠ [], v.IsPrefix word ∧ v.IsSuffix marker := by
    simp only [List.any_eq_true, List.mem_inits, Bool.and_eq_true, Bool.not_eq_true',
      List.isEmpty_eq_false_iff, List.isSuffixOf_iff_suffix]
    constructor
    · rintro ⟨v, hw, hne, hm⟩
      exact ⟨v, hne, hw, hm⟩
    · rintro ⟨v, hne, hw, hm⟩
      exact ⟨v, hw, hne, hm⟩
  rw [touches, Bool.or_eq_true, Bool.or_eq_true, Bool.or_eq_true, any_tails_iff, any_tails_iff,
    hsuffix, hprefix, Touches, or_assoc, or_assoc]

instance [DecidableEq α] (word marker : List α) : Decidable (Touches word marker) :=
  decidable_of_iff _ touches_iff

/-- An occurrence around a marker that does not touch it lies on one side. -/
theorem infix_append_marker {word marker a b : List α} (hfree : ¬ Touches word marker)
    (h : word.IsInfix (a ++ (marker ++ b))) : word.IsInfix a ∨ word.IsInfix b := by
  simp only [Touches, not_or, not_exists, not_and] at hfree
  obtain ⟨hinside, haround, hleft, hright⟩ := hfree
  obtain ⟨x, y, h⟩ := h
  rw [List.append_assoc] at h
  -- Where the occurrence begins, relative to the end of `a`.
  obtain ⟨d, rfl, hword⟩ | ⟨d, rfl, hmarker⟩ := List.append_eq_append_iff.mp h
  · -- It begins inside `a`, with `d` still to come of `a`.
    obtain ⟨e, rfl, -⟩ | ⟨e, rfl, hmarker⟩ := List.append_eq_append_iff.mp hword
    · exact .inl ⟨x, e, by rw [List.append_assoc]⟩
    · -- It leaves `a` with `e`, a suffix of the word.
      obtain ⟨f, rfl, -⟩ | ⟨f, rfl, -⟩ := List.append_eq_append_iff.mp hmarker
      · exact absurd ⟨d, f, by rw [List.append_assoc]⟩ haround
      · by_cases he : e = []
        · exact .inl ⟨x, [], by rw [he, List.append_nil, List.append_nil]⟩
        · exact absurd ⟨f, rfl⟩ (hleft e he ⟨d, rfl⟩)
  · -- It begins in the marker or behind it.
    obtain ⟨e, rfl, rfl⟩ | ⟨e, rfl, hword⟩ := List.append_eq_append_iff.mp hmarker
    · exact .inr ⟨e, y, by rw [List.append_assoc]⟩
    · -- It begins in the marker, with `e` still to come of it.
      obtain ⟨f, rfl, -⟩ | ⟨f, rfl, rfl⟩ := List.append_eq_append_iff.mp hword
      · exact absurd ⟨d, f, by rw [List.append_assoc]⟩ hinside
      · by_cases he : e = []
        · exact .inr ⟨[], y, by rw [he]; rfl⟩
        · exact absurd ⟨d, rfl⟩ (hright e he ⟨f, rfl⟩)

/-- A word that no piece contains and that does not touch the marker is not in the pieces
joined by the marker. -/
theorem not_infix_join {word marker : List α} (hne : word ≠ [])
    (hfree : ¬ Touches word marker) {pieces : List (List α)}
    (hpieces : ∀ piece ∈ pieces, ¬ word.IsInfix piece) :
    ¬ word.IsInfix (marker.intercalate pieces) := by
  induction pieces with
  | nil =>
      intro h
      exact hne (List.infix_nil.mp h)
  | cons piece pieces ih =>
      have hfirst := hpieces piece List.mem_cons_self
      have hrest := ih fun q hq => hpieces q (List.mem_cons_of_mem _ hq)
      cases pieces with
      | nil =>
          rw [List.intercalate_singleton]
          exact hfirst
      | cons next pieces =>
          rw [List.intercalate_cons_cons, List.append_assoc]
          intro h
          exact (infix_append_marker hfree h).elim hfirst hrest

/-! ## Cutting at the occurrences of a word -/

section Split

variable [DecidableEq α]

/-- A character in front of the first piece. -/
def extendFirst (c : α) : List (List α) → List (List α)
  | [] => [[c]]
  | piece :: pieces => (c :: piece) :: pieces

/-- The pieces of a text of which the first `skip` characters belong to an occurrence. -/
def split.loop (word : List α) : Nat → List α → List (List α)
  | _, [] => [[]]
  | skip + 1, _ :: rest => loop word skip rest
  | 0, c :: rest =>
      if word.isPrefixOf (c :: rest) then [] :: loop word (word.length - 1) rest
      else extendFirst c (loop word 0 rest)

/-- The pieces between the occurrences of a non-empty word, from left to right. -/
def split (word text : List α) : List (List α) := split.loop word 0 text

theorem split_loop_pieces {word : List α} (hne : word ≠ []) (text : List α) : ∀ skip,
    (∀ piece ∈ split.loop word skip text, ¬ word.IsInfix piece) ∧
      (skip = 0 → ∃ first rest, split.loop word skip text = first :: rest ∧
        first.IsPrefix text) := by
  have hempty : ¬ word.IsInfix [] := fun h => hne (List.infix_nil.mp h)
  induction text with
  | nil =>
      intro skip
      rw [split.loop]
      exact ⟨by simpa using hempty, fun _ => ⟨[], [], rfl, List.prefix_refl _⟩⟩
  | cons c text ih =>
      intro skip
      cases skip with
      | succ skip =>
          rw [split.loop]
          exact ⟨(ih skip).1, nofun⟩
      | zero =>
          rw [split.loop]
          split
          · constructor
            · intro piece hpiece
              obtain rfl | hpiece := List.mem_cons.mp hpiece
              · exact hempty
              · exact (ih _).1 piece hpiece
            · exact fun _ => ⟨[], _, rfl, List.nil_prefix⟩
          · rename_i hno
            obtain ⟨hfree, hprefix⟩ := ih 0
            obtain ⟨first, rest, heq, hfirst⟩ := hprefix rfl
            rw [heq] at hfree ⊢
            have hcons : (c :: first).IsPrefix (c :: text) := List.cons_prefix_cons.mpr ⟨rfl, hfirst⟩
            constructor
            · intro piece hpiece
              obtain rfl | hpiece := List.mem_cons.mp hpiece
              · -- The word would have been found where the piece begins.
                intro h
                obtain h | h := List.infix_cons_iff.mp h
                · exact hno (List.isPrefixOf_iff_prefix.mpr (h.trans hcons))
                · exact hfree first List.mem_cons_self h
              · exact hfree piece (List.mem_cons_of_mem _ hpiece)
            · exact fun _ => ⟨_, _, rfl, hcons⟩

/-- No proper part at the front of the word is also at its end. -/
def Unbordered (word : List α) : Prop :=
  ∀ v ≠ [], v ≠ word → v.IsPrefix word → ¬ v.IsSuffix word

omit [DecidableEq α] in
/-- An occurrence of a word without a border begins where the word does, when what stands
before the word is shorter than it. -/
theorem Unbordered.not_prefix {word a b : List α} (hword : Unbordered word) (hne : a ≠ [])
    (ha : a.length < word.length) : ¬ word.IsPrefix (a ++ (word ++ b)) := by
  intro h
  obtain ⟨v, rfl⟩ : a.IsPrefix word :=
    List.prefix_of_prefix_length_le (List.prefix_append a _) h (Nat.le_of_lt ha)
  have hshift : v.IsPrefix (a ++ v ++ b) := (List.prefix_append_right_inj a).mp h
  have hborder : v.IsPrefix (a ++ v) := by
    apply List.prefix_of_prefix_length_le hshift (List.prefix_append _ _)
    simp
  refine hword v ?_ ?_ hborder (List.suffix_append a v)
  · rintro rfl
    simp at ha
  · intro heq
    have hlength := congrArg List.length heq
    have hpos := List.length_pos_iff.mpr hne
    rw [List.length_append] at hlength
    omega

theorem split_loop_skip {word w b : List α} :
    split.loop word w.length (w ++ b) = split.loop word 0 b := by
  induction w with
  | nil => rfl
  | cons c w ih => exact ih

theorem split_loop_short {word b : List α} (hb : b.length < word.length) :
    split.loop word 0 b = [b] := by
  induction b with
  | nil => rfl
  | cons c b ih =>
      rw [split.loop, if_neg, ih, extendFirst]
      · exact Nat.lt_of_succ_lt hb
      · intro h
        have := (List.isPrefixOf_iff_prefix.mp h).length_le
        omega

/-- A single occurrence is cut out. -/
theorem split_append {word : List α} (hword : Unbordered word) (hne : word ≠ [])
    {a b : List α} (ha : a.length < word.length) (hb : b.length < word.length) :
    split word (a ++ (word ++ b)) = [a, b] := by
  induction a with
  | nil =>
      obtain ⟨c, w, rfl⟩ := List.exists_cons_of_ne_nil hne
      rw [List.nil_append, split, List.cons_append, split.loop, if_pos]
      · rw [List.length_cons, Nat.add_sub_cancel, split_loop_skip, split_loop_short hb]
      · exact List.isPrefixOf_iff_prefix.mpr ⟨b, rfl⟩
  | cons c a ih =>
      have step := ih (Nat.lt_of_succ_lt ha)
      rw [split] at step ⊢
      rw [List.cons_append, split.loop, if_neg, step, extendFirst]
      intro h
      exact hword.not_prefix (List.cons_ne_nil c a) ha (List.isPrefixOf_iff_prefix.mp h)

/-- A word without a border that touches the marker comes back where the marker replaces
it. -/
theorem exists_infix_of_touches {word marker : List α} (hword : Unbordered word)
    (hne : word ≠ []) (hmarker : marker ≠ []) (h : Touches word marker) :
    ∃ a b, split word (a ++ (word ++ b)) = [a, b] ∧ word.IsInfix (a ++ (marker ++ b)) := by
  have hpos := List.length_pos_iff.mpr hne
  obtain hinside | ⟨a, b, hab⟩ | ⟨v, hv, ⟨a, rfl⟩, c, rfl⟩ | ⟨v, hv, ⟨b, rfl⟩, c, rfl⟩ := h
  · exact ⟨[], [], split_append hword hne hpos hpos, hinside.trans ⟨[], [], by simp⟩⟩
  · have hlength := congrArg List.length hab
    have hmarkerPos := List.length_pos_iff.mpr hmarker
    simp only [List.length_append] at hlength
    refine ⟨a, b, split_append hword hne (by omega) (by omega), [], [], ?_⟩
    rw [← hab]
    simp
  · have hvPos := List.length_pos_iff.mpr hv
    refine ⟨a, [], split_append hword hne ?_ hpos, [], c, by simp⟩
    rw [List.length_append]
    omega
  · have hvPos := List.length_pos_iff.mpr hv
    refine ⟨[], b, split_append hword hne hpos ?_, c, [], by simp⟩
    rw [List.length_append]
    omega

theorem not_infix_of_mem_split {word text piece : List α} (hne : word ≠ [])
    (h : piece ∈ split word text) : ¬ word.IsInfix piece :=
  (split_loop_pieces hne text 0).1 piece h

theorem split_loop_ne_nil {word : List α} (text : List α) : ∀ skip,
    split.loop word skip text ≠ [] := by
  induction text with
  | nil =>
      intro skip
      rw [split.loop]
      exact List.cons_ne_nil _ _
  | cons c text ih =>
      rintro (_ | skip)
      · rw [split.loop]
        split
        · exact List.cons_ne_nil _ _
        · obtain ⟨piece, pieces, hpieces⟩ := List.exists_cons_of_ne_nil (ih 0)
          rw [hpieces, extendFirst]
          exact List.cons_ne_nil _ _
      · exact ih skip

/-- A text with an occurrence of the word is cut. -/
theorem split_of_infix {word text : List α} (hne : word ≠ []) (h : word.IsInfix text) :
    ∃ first second rest, split word text = first :: second :: rest := by
  induction text with
  | nil => exact absurd (List.infix_nil.mp h) hne
  | cons c text ih =>
      rw [split, split.loop]
      split
      · have hcut : split.loop word (word.length - 1) text ≠ [] := split_loop_ne_nil text _
        obtain ⟨second, rest, hrest⟩ := List.exists_cons_of_ne_nil hcut
        exact ⟨[], second, rest, by rw [hrest]⟩
      · rename_i hno
        have hinner : word.IsInfix text := by
          obtain h | h := List.infix_cons_iff.mp h
          · exact absurd (List.isPrefixOf_iff_prefix.mpr h) hno
          · exact h
        obtain ⟨first, second, rest, heq⟩ := ih hinner
        rw [split] at heq
        exact ⟨c :: first, second, rest, by rw [heq, extendFirst]⟩

/-- Replacing a word that occurs puts the marker in. -/
theorem marker_infix_join {word marker text : List α} (hne : word ≠ [])
    (h : word.IsInfix text) : marker.IsInfix (marker.intercalate (split word text)) := by
  obtain ⟨first, second, rest, heq⟩ := split_of_infix hne h
  rw [heq]
  refine ⟨first, marker.intercalate (second :: rest), ?_⟩
  simp [List.intercalate, List.intersperse]

end Split

/-! ## Backtracking patterns -/

/-- Regular expressions over the characters `α`, matched by backtracking. -/
inductive Pattern (α : Type) where
  | char (test : α → Bool)
  | seq (first second : Pattern α)
  | alt (first second : Pattern α)
  | opt (body : Pattern α)
  /-- At least `min` characters that pass the test, as many as possible. -/
  | many (min : Nat) (test : α → Bool)
  /-- Characters that pass the test, as few as possible. -/
  | few (test : α → Bool)
  /-- Between a character that passes the test and one that does not, or an end. -/
  | boundary (test : α → Bool)
  | start
  | finish

namespace Pattern

/-- What follows a part of a pattern: from the character read last and the text that is
left, the text left behind a match. -/
abbrev Continuation (α : Type) := Option α → List α → Option (List α)

def runMany (test : α → Bool) (next : Continuation α) :
    Nat → Option α → List α → Option (List α)
  | min, before, [] => if min = 0 then next before [] else none
  | min, before, c :: rest =>
      (if test c then runMany test next (min - 1) (some c) rest else none).orElse fun _ =>
        if min = 0 then next before (c :: rest) else none

def runFew (test : α → Bool) (next : Continuation α) : Option α → List α → Option (List α)
  | before, [] => next before []
  | before, c :: rest =>
      (next before (c :: rest)).orElse fun _ =>
        if test c then runFew test next (some c) rest else none

/-- The first match in the order of backtracking, and what `next` makes of it. -/
def run : Pattern α → Continuation α → Continuation α
  | .char test, next, _, c :: rest => if test c then next (some c) rest else none
  | .char _, _, _, [] => none
  | .seq first second, next, before, text => first.run (second.run next) before text
  | .alt first second, next, before, text =>
      (first.run next before text).orElse fun _ => second.run next before text
  | .opt body, next, before, text =>
      (body.run next before text).orElse fun _ => next before text
  | .many min test, next, before, text => runMany test next min before text
  | .few test, next, before, text => runFew test next before text
  | .boundary test, next, before, text =>
      if (before.any test) != (text.head?.any test) then next before text else none
  | .start, next, before, text => if before.isNone then next before text else none
  | .finish, next, before, text => if text.isEmpty then next before text else none

/-- The length of the match at the beginning of the text, after the character `before`. -/
def matchLength (pattern : Pattern α) (before : Option α) (text : List α) : Option Nat :=
  (pattern.run (fun _ rest => some rest) before text).map (text.length - ·.length)

def test.loop (pattern : Pattern α) : Option α → List α → Bool
  | before, [] => (pattern.matchLength before []).isSome
  | before, c :: rest =>
      (pattern.matchLength before (c :: rest)).isSome || loop pattern (some c) rest

/-- `pattern.test(text)`. -/
def test (pattern : Pattern α) (text : List α) : Bool := test.loop pattern none text

def literal [DecidableEq α] : List α → Pattern α
  | [] => .few fun _ => false
  | [c] => .char (· == c)
  | c :: text => .seq (.char (· == c)) (literal text)

/-- The sequence of several patterns. -/
def concat : List (Pattern α) → Pattern α
  | [] => .few fun _ => false
  | [pattern] => pattern
  | pattern :: patterns => .seq pattern (concat patterns)

end Pattern

/-- The text of which the first `skip` characters belong to a match. -/
def replaceMatches.loop (pattern : Pattern α) (marker : List α) :
    Nat → Option α → List α → List α
  | _, _, [] => []
  | skip + 1, _, c :: rest => loop pattern marker skip (some c) rest
  | 0, before, c :: rest =>
      match pattern.matchLength before (c :: rest) with
      | some (length + 1) => marker ++ loop pattern marker length (some c) rest
      | _ => c :: loop pattern marker 0 (some c) rest

/-- The text with the marker in place of every match that is not empty. -/
def replaceMatches (pattern : Pattern α) (marker text : List α) : List α :=
  replaceMatches.loop pattern marker 0 none text

/-- The result consists of parts of the text, joined by markers. -/
theorem replaceMatches_loop_pieces {pattern : Pattern α} {marker : List α} (text : List α) :
    ∀ skip before, ∃ first rest,
      replaceMatches.loop pattern marker skip before text =
        marker.intercalate (first :: rest) ∧
      (skip = 0 → first.IsPrefix text) ∧ ∀ piece ∈ first :: rest, piece.IsInfix text := by
  induction text with
  | nil =>
      intro skip before
      refine ⟨[], [], by rw [replaceMatches.loop]; rfl, fun _ => List.prefix_refl _, ?_⟩
      simp
  | cons c text ih =>
      intro skip before
      have behind : ∀ pieces : List (List α), (∀ piece ∈ pieces, piece.IsInfix text) →
          ∀ piece ∈ pieces, piece.IsInfix (c :: text) := fun pieces h piece hp =>
        (h piece hp).trans (List.suffix_cons c text).isInfix
      cases skip with
      | succ skip =>
          obtain ⟨first, rest, heq, -, hpieces⟩ := ih skip (some c)
          rw [replaceMatches.loop]
          exact ⟨first, rest, heq, nofun, behind _ hpieces⟩
      | zero =>
          rw [replaceMatches.loop]
          split
          · rename_i length _
            obtain ⟨first, rest, heq, -, hpieces⟩ := ih length (some c)
            refine ⟨[], first :: rest, ?_, fun _ => List.nil_prefix, ?_⟩
            · rw [heq, List.intercalate_cons_cons, List.nil_append]
            · intro piece hpiece
              obtain rfl | hpiece := List.mem_cons.mp hpiece
              · exact List.nil_infix
              · exact behind _ hpieces piece hpiece
          · obtain ⟨first, rest, heq, hfirst, hpieces⟩ := ih 0 (some c)
            have hcons : (c :: first).IsPrefix (c :: text) :=
              List.cons_prefix_cons.mpr ⟨rfl, hfirst rfl⟩
            refine ⟨c :: first, rest, ?_, fun _ => hcons, ?_⟩
            · rw [heq, List.intercalate_cons_cons_left]
            · intro piece hpiece
              obtain rfl | hpiece := List.mem_cons.mp hpiece
              · exact hcons.isInfix
              · exact behind _ hpieces piece (List.mem_cons_of_mem _ hpiece)

/-- Replacing matches by a marker does not make a word appear that does not touch it. -/
theorem not_infix_replaceMatches {pattern : Pattern α} {word marker text : List α}
    (hne : word ≠ []) (hfree : ¬ Touches word marker) (h : ¬ word.IsInfix text) :
    ¬ word.IsInfix (replaceMatches pattern marker text) := by
  obtain ⟨first, rest, heq, -, hpieces⟩ : ∃ first rest,
      replaceMatches.loop pattern marker 0 none text = marker.intercalate (first :: rest) ∧
      (0 = 0 → first.IsPrefix text) ∧ ∀ piece ∈ first :: rest, piece.IsInfix text :=
    replaceMatches_loop_pieces text 0 none
  rw [replaceMatches, heq]
  exact not_infix_join hne hfree fun piece hpiece hword =>
    h (hword.trans (hpieces piece hpiece))

end Replacement
