import Mathlib.Algebra.GroupWithZero.Nat
import Mathlib.Data.List.Basic
import Mathlib.Data.List.DropRight
import Mathlib.Data.List.Infix
import Mathlib.Data.List.TakeWhile

/-!
# Script text as lists of characters

The string operations a script language offers, over `List Char`: white space as
`\s` and `trim` see it, prefixes, occurrences and joins. Everything is executable, so a
concrete command or path can be evaluated in a proof.

Trimming is developed through the one fact later proofs need: a text and its trimmed form
differ by white space at the two ends only.
-/

namespace Text

abbrev Str := List Char

instance : LawfulBEq Str := inferInstanceAs (LawfulBEq (List Char))

/-- White space and line terminators, the class of `\s` and of `trim`. -/
def isSpace (c : Char) : Bool :=
  let n := c.toNat
  (9 ≤ n && n ≤ 13) || n == 32 || n == 0xA0 || n == 0x1680 || (0x2000 ≤ n && n ≤ 0x200A) ||
    n == 0x2028 || n == 0x2029 || n == 0x202F || n == 0x205F || n == 0x3000 || n == 0xFEFF

/-- `s.trimEnd()`. -/
def trimEnd (s : Str) : Str := s.rdropWhile isSpace

/-- `s.trim()`. -/
def trim (s : Str) : Str := trimEnd (s.dropWhile isSpace)

/-- `s.startsWith(t)`. -/
def startsWith (s t : Str) : Bool := t.isPrefixOf s

/-- `s.endsWith(t)`. -/
def endsWith (s t : Str) : Bool := t.isSuffixOf s

/-- `s.includes(t)`. -/
def includes (s t : Str) : Bool := s.tails.any (t.isPrefixOf ·)

/-- `parts.join(separator)`. -/
def join (separator : Str) (parts : List Str) : Str := List.intercalate separator parts

/-- A text is blank when `trim` leaves nothing of it. -/
def Blank (s : Str) : Prop := ∀ c ∈ s, isSpace c = true

instance : DecidablePred Blank := fun s => decidable_of_iff (s.all isSpace = true) List.all_eq_true

/-- What holds of each element of a list that is written out. -/
theorem forall_mem_of_all {α : Type} {p : α → Prop} [DecidablePred p] {l : List α}
    (h : (l.all fun a => decide (p a)) = true) : ∀ a ∈ l, p a := fun a ha =>
  of_decide_eq_true (List.all_eq_true.mp h a ha)

/-- Letters and digits by their numbers. -/
theorem isAlphanum_iff {c : Char} : c.isAlphanum = true ↔
    (65 ≤ c.toNat ∧ c.toNat ≤ 90 ∨ 97 ≤ c.toNat ∧ c.toNat ≤ 122) ∨
      48 ≤ c.toNat ∧ c.toNat ≤ 57 := by
  have hunfold : c.isAlphanum = ((decide (65 ≤ c.val ∧ c.val ≤ 90) ||
      decide (97 ≤ c.val) && decide (c.val ≤ 122)) ||
        decide (48 ≤ c.val) && decide (c.val ≤ 57)) := rfl
  rw [hunfold]
  simp only [Bool.or_eq_true, Bool.and_eq_true, decide_eq_true_eq, UInt32.le_iff_toNat_le]
  rfl

theorem trimEnd_append_blank {s t : Str} (ht : Blank t) : trimEnd (s ++ t) = trimEnd s := by
  induction t using List.reverseRecOn with
  | nil => rw [List.append_nil]
  | append_singleton t c ih =>
      have hc : isSpace c = true := ht c (by simp)
      rw [← List.append_assoc, trimEnd, List.rdropWhile_concat_pos _ _ _ hc]
      exact ih (fun d hd => ht d (List.mem_append_left _ hd))

/-- The text before the trailing white space, and that white space. -/
theorem exists_trimEnd (s : Str) : ∃ t, Blank t ∧ s = trimEnd s ++ t := by
  induction s using List.reverseRecOn with
  | nil => exact ⟨[], by simp [Blank], rfl⟩
  | append_singleton s c ih =>
      by_cases hc : isSpace c = true
      · obtain ⟨t, ht, hs⟩ := ih
        refine ⟨t ++ [c], ?_, ?_⟩
        · intro d hd
          rcases List.mem_append.mp hd with hd | hd
          · exact ht d hd
          · rw [List.mem_singleton.mp hd]
            exact hc
        · rw [trimEnd_append_blank (by simpa [Blank] using hc), ← List.append_assoc, ← hs]
      · exact ⟨[], by simp [Blank], by
          rw [trimEnd, List.rdropWhile_concat_neg _ _ _ hc, List.append_nil]⟩

theorem dropWhile_blank_append {s t : Str} (hs : Blank s) :
    (s ++ t).dropWhile isSpace = t.dropWhile isSpace := by
  induction s with
  | nil => rfl
  | cons c s ih =>
      have hc : isSpace c = true := hs c (by simp)
      rw [List.cons_append, List.dropWhile_cons_of_pos hc]
      exact ih (fun d hd => hs d (List.mem_cons_of_mem _ hd))

/-- `trim` ignores white space added at either end. -/
theorem trim_blank_append {s t : Str} (hs : Blank s) : trim (s ++ t) = trim t := by
  rw [trim, dropWhile_blank_append hs, trim]

theorem trim_append_blank {s t : Str} (ht : Blank t) : trim (s ++ t) = trim s := by
  rw [trim, trim, List.dropWhile_append]
  split
  · rename_i h
    have hd : s.dropWhile isSpace = [] := by simpa using h
    rw [hd, show t = t ++ [] from (List.append_nil t).symm, dropWhile_blank_append ht]
    rfl
  · exact trimEnd_append_blank ht

/-- A text is its trimmed form between two blanks. -/
theorem exists_trim (s : Str) : ∃ a b, Blank a ∧ Blank b ∧ s = a ++ trim s ++ b := by
  obtain ⟨b, hb, h⟩ := exists_trimEnd (s.dropWhile isSpace)
  refine ⟨s.takeWhile isSpace, b, fun c hc => List.mem_takeWhile_imp hc, hb, ?_⟩
  rw [List.append_assoc, trim, ← h, List.takeWhile_append_dropWhile]

@[simp] theorem trim_trim (s : Str) : trim (trim s) = trim s := by
  obtain ⟨a, b, ha, hb, h⟩ := exists_trim s
  conv_rhs => rw [h, trim_append_blank hb, trim_blank_append ha]

theorem trim_eq_nil_iff {s : Str} : trim s = [] ↔ Blank s := by
  constructor
  · intro h
    obtain ⟨a, b, ha, hb, hs⟩ := exists_trim s
    rw [h, List.append_nil] at hs
    intro c hc
    rw [hs] at hc
    exact (List.mem_append.mp hc).elim (ha c) (hb c)
  · intro h
    rw [← List.append_nil s, trim_blank_append h]
    rfl

/-- Trimming only removes characters at the ends. -/
theorem trim_sublist (s : Str) : (trim s).Sublist s :=
  (List.rdropWhile_prefix _ _).sublist.trans (List.dropWhile_suffix _).sublist

theorem mem_of_mem_trim {s : Str} {c : Char} (h : c ∈ trim s) : c ∈ s :=
  (trim_sublist s).subset h

theorem includes_iff {s t : Str} : includes s t = true ↔ t.IsInfix s := by
  rw [includes, List.any_eq_true]
  constructor
  · rintro ⟨u, hu, ht⟩
    exact (List.isPrefixOf_iff_prefix.mp ht).isInfix.trans
      ((List.mem_tails u s).mp hu).isInfix
  · rintro ⟨a, b, h⟩
    refine ⟨t ++ b, (List.mem_tails _ _).mpr ⟨a, by rw [← h, List.append_assoc]⟩, ?_⟩
    exact List.isPrefixOf_iff_prefix.mpr ⟨b, rfl⟩

/-! ## Separators -/

/-- The parts of a text up to the first separator and after it are determined. -/
theorem separated_injective {c : Char} {a b s t : Str} (ha : c ∉ a) (hb : c ∉ b)
    (h : a ++ c :: s = b ++ c :: t) : a = b ∧ s = t := by
  induction a generalizing b with
  | nil =>
      cases b with
      | nil => exact ⟨rfl, (List.cons.inj h).2⟩
      | cons d b =>
          obtain ⟨rfl, -⟩ := List.cons.inj h
          exact absurd List.mem_cons_self hb
  | cons d a ih =>
      cases b with
      | nil =>
          obtain ⟨rfl, -⟩ := List.cons.inj h
          exact absurd List.mem_cons_self ha
      | cons e b =>
          obtain ⟨rfl, htail⟩ := List.cons.inj h
          obtain ⟨rfl, hrest⟩ := ih (fun hc => ha (List.mem_cons_of_mem _ hc))
            (fun hc => hb (List.mem_cons_of_mem _ hc)) htail
          exact ⟨rfl, hrest⟩

/-- A part of a split text is free of the separator. -/
theorem not_mem_of_mem_splitOn {c : Char} {p s : Str} (h : s ∈ p.splitOn c) : c ∉ s := by
  induction p generalizing s with
  | nil =>
      rw [List.splitOn_nil, List.mem_singleton] at h
      rw [h]
      exact List.not_mem_nil
  | cons d p ih =>
      rw [List.splitOn_cons_eq_if_modifyHead] at h
      split at h
      · obtain rfl | h := List.mem_cons.mp h
        · exact List.not_mem_nil
        · exact ih h
      · rename_i hd
        cases hp : p.splitOn c with
        | nil => exact absurd hp (List.splitOn_ne_nil _ _)
        | cons t ts =>
            rw [hp] at h ih
            simp only [List.modifyHead_cons] at h
            obtain rfl | h := List.mem_cons.mp h
            · rw [List.mem_cons, not_or]
              exact ⟨fun he => hd (by rw [← he, beq_self_eq_true]), ih (by simp)⟩
            · exact ih (List.mem_cons_of_mem _ h)

/-- Each part after the first stands behind a separator. -/
theorem join_append {separator : Str} {parts more : List Str} (hparts : parts ≠ []) :
    join separator (parts ++ more) = join separator parts ++ more.flatMap (separator ++ ·) := by
  obtain ⟨first, parts, rfl⟩ := List.exists_cons_of_ne_nil hparts
  have hflat : ∀ (first : Str) (parts : List Str),
      join separator (first :: parts) = first ++ parts.flatMap (separator ++ ·) := by
    intro first parts
    induction parts generalizing first with
    | nil => simp [join, List.intercalate]
    | cons part parts ih =>
        have hstep : join separator (first :: part :: parts) =
            first ++ separator ++ join separator (part :: parts) := by
          simp [join, List.intercalate, List.intersperse]
        rw [hstep, ih, List.flatMap_cons]
        simp
  rw [List.cons_append, hflat, hflat, List.flatMap_append, List.append_assoc]

end Text
