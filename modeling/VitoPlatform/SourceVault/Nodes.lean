import VitoPlatform.SourceVault.Markup
import Mathlib.Data.List.Forall2

/-!
# Elements in both spellings

An element without content can be written as one tag. An expression that looks for an end tag does
not know this spelling: it goes on to the end tag of the next element that has a content
(`elements_nodes`). What it finds begins with the attributes of the one and ends with the content of
the other.
-/

namespace SourceVault

open Text Scanning

/-- An element as it is written: the text before it, its attributes, and its content unless it is
empty and closes itself. -/
structure Node where
  before : Str
  attributes : Str
  content : Option Str

namespace Node

/-- What stands between the name and the next `>`. -/
def seen (node : Node) : Str := node.attributes ++ if node.content.isNone then ['/'] else []

def written (name : Str) (node : Node) : Str :=
  node.before ++ '<' :: (name ++ (node.seen ++ '>' ::
    match node.content with
    | none => []
    | some content => content ++ tagWord true name '>'))

/-- The text in which a node is found: no mark before it or in its attributes, which do not go on
with the name, no `>` in these, and only certain marks in its content. -/
structure Clear (P : Bool → Str → Prop) (node : Node) : Prop where
  before : '<' ∉ node.before
  free : '<' ∉ node.attributes
  closed : '>' ∉ node.attributes
  start : ∀ c ∈ node.attributes.head?, isWordChar c = false
  content : ∀ content, node.content = some content → Marks P content

end Node

def onlyOpening (name : Str) (closing : Bool) (other : Str) : Prop :=
  closing = false ∧ other = name

section Joined

variable {α β : Type} {ends : α → Bool} {pending : Option α} {items : List α}

end Joined

/-! ## What is found -/

section Nodes

variable {P : Bool → Str → Prop} {name tail : Str}

theorem Node.Clear.seen_free {node : Node} (h : node.Clear P) :
    '<' ∉ node.seen ∧ '>' ∉ node.seen ∧ ∀ c ∈ node.seen.head?, isWordChar c = false := by
  rw [Node.seen]
  refine ⟨?_, ?_, ?_⟩
  · rw [List.mem_append, not_or]
    refine ⟨h.free, ?_⟩
    split_ifs <;> decide
  · rw [List.mem_append, not_or]
    refine ⟨h.closed, ?_⟩
    split_ifs <;> decide
  · have hstart := h.start
    cases hattributes : node.attributes with
    | nil =>
        rw [List.nil_append]
        split_ifs
        · intro c hc
          rw [← Option.some.inj hc]
          decide
        · nofun
    | cons c attributes =>
        rw [hattributes] at hstart
        exact hstart

/-- The start tag of a node is a mark of its name. -/
theorem Node.Clear.marks_start {node : Node} (h : node.Clear P)
    (hname : ∀ c ∈ name, isWordChar c = true) (hne : name ≠ []) {Q : Bool → Str → Prop}
    (hQ : Q false name) {rest : Str} (hrest : Marks Q rest) :
    Marks Q ('<' :: (name ++ (node.seen ++ '>' :: rest))) := by
  obtain ⟨hfree, -, hstart⟩ := h.seen_free
  exact marks_startTag hname hne hfree hstart hQ hrest

/-- The marks of a node: its tags, and those of its content. -/
theorem Node.Clear.marks_written {node : Node} (h : node.Clear P)
    (hname : ∀ c ∈ name, isWordChar c = true) (hne : name ≠ []) {Q : Bool → Str → Prop}
    (hQ : ∀ closing, Q closing name) (hPQ : ∀ closing other, P closing other → Q closing other) :
    Marks Q (node.written name) := by
  refine (marks_of_not_mem h.before).append (h.marks_start hname hne (hQ false) ?_)
  cases hcontent : node.content with
  | none => exact marks_of_not_mem List.not_mem_nil
  | some content =>
      have hend : Marks Q (tagWord true name '>' ++ []) :=
        marks_endTag hname hne (hQ true) (marks_of_not_mem List.not_mem_nil)
      rw [List.append_nil] at hend
      exact ((h.content content hcontent).mono hPQ).append hend

/-- A node up to its content. -/
def Node.opening (name : Str) (node : Node) : Str :=
  node.before ++ '<' :: (name ++ (node.seen ++ ['>']))

theorem Node.Clear.marks_opening {node : Node} (h : node.Clear P)
    (hname : ∀ c ∈ name, isWordChar c = true) (hne : name ≠ []) :
    Marks (onlyOpening name) (node.opening name) :=
  (marks_of_not_mem h.before).append
    (h.marks_start hname hne ⟨rfl, rfl⟩ (marks_of_not_mem List.not_mem_nil))

variable {T : Bool → Str → Prop}

end Nodes

end SourceVault
