import VitoPlatform.Library.Selections
import VitoPlatform.SourceVault.Visible
import Mathlib.Data.List.Pairwise

/-!
# Locators of units

The part of an input that is cut has its number behind the locator of the input. Parts of different
inputs have different locators unless that of one input is already a part of another one
(`locators_nodup_iff`); the sections of a text never collide (`sections_apart`).
-/

namespace SourceVault

open Text Invocation

namespace KnowledgeHarvester

variable {sha256 : Octets → Str} {locatorType : KnowledgeLocatorType}

/-- An input that is cut. -/
def Located.Long (item : Located) : Prop := MAX_UNIT_CHARS < (trimUnits item.text).length

instance (item : Located) : Decidable item.Long := inferInstanceAs (Decidable (_ < _))

def Located.locators (item : Located) : List Str :=
  let parts := (contents (trimUnits item.text)).length
  if item.Long then (List.range' 1 parts).map (partLocator item.locator)
  else if trimUnits item.text = [] then [] else [item.locator]

/-- The locator of no input is that of a part of another one. -/
def LocatorsApart (items : List Located) : Prop :=
  ∀ long ∈ items, long.Long → ∀ short ∈ items, ¬ short.Long → trimUnits short.text ≠ [] →
    ∀ part ∈ List.range' 1 (contents (trimUnits long.text)).length,
      short.locator ≠ partLocator long.locator part

theorem colon_not_mem_digits (n : Nat) : ':' ∉ Nat.toDigits 10 n := fun hmem =>
  absurd (Nat.isDigit_of_mem_toDigits (by decide) (by decide) hmem) (by decide)

/-- What stands behind the last colon is determined. -/
theorem last_colon {a b : Str} {m n : Nat}
    (h : a ++ ':' :: Nat.toDigits 10 m = b ++ ':' :: Nat.toDigits 10 n) : a = b ∧ m = n := by
  have hreverse := congrArg List.reverse h
  simp only [List.reverse_append, List.reverse_cons, List.append_assoc, List.singleton_append]
    at hreverse
  have hcolon (n : Nat) : ':' ∉ (Nat.toDigits 10 n).reverse := fun hmem =>
    colon_not_mem_digits n (List.mem_reverse.mp hmem)
  obtain ⟨hdigits, hfront⟩ := separated_injective (hcolon m) (hcolon n) hreverse
  have hnumber := congrArg (Nat.ofDigitChars 10 · 0) (List.reverse_injective hdigits)
  rw [Nat.ofDigitChars_ten_toDigits, Nat.ofDigitChars_ten_toDigits] at hnumber
  exact ⟨List.reverse_injective hfront, hnumber⟩

theorem partLocator_eq (locator : Str) (part : Nat) :
    partLocator locator part = (locator ++ ":part".toList) ++ ':' :: Nat.toDigits 10 part := by
  rw [partLocator, List.append_assoc, List.append_assoc]
  rfl

theorem partLocator_injective {a b : Str} {m n : Nat} (h : partLocator a m = partLocator b n) :
    a = b ∧ m = n := by
  rw [partLocator_eq, partLocator_eq] at h
  obtain ⟨hfront, hpart⟩ := last_colon h
  exact ⟨List.append_cancel_right hfront, hpart⟩

/-- An input that is not cut has one unit at most. -/
theorem length_contents_le {value : Units} (h : value.length ≤ MAX_UNIT_CHARS) :
    (contents value).length ≤ 1 := by
  have hslices : (slices value).length ≤ 1 := by
    rw [slices, offsets, List.length_map, List.length_range']
    rw [MAX_UNIT_CHARS] at h ⊢
    omega
  refine (List.length_filter_le _ _).trans ?_
  rwa [List.length_map]

/-- The locators of the units of an input. -/
theorem chunkUnits_locators (item : Located) :
    (chunkUnits sha256 locatorType item).map (·.locatorValue) = item.locators := by
  have hparts : (chunkUnits sha256 locatorType item).map (·.locatorValue) =
      (List.range' 1 (contents (trimUnits item.text)).length).map fun part =>
        if part = 1 ∧ (trimUnits item.text).length ≤ MAX_UNIT_CHARS then item.locator
        else partLocator item.locator part := by
    rw [← List.zipIdx_map_snd 1 (contents (trimUnits item.text)), List.map_map, chunkUnits,
      unitsFrom, List.map_map]
    rfl
  rw [hparts, Located.locators]
  by_cases hlong : item.Long
  · rw [if_pos hlong]
    refine List.map_congr_left fun part _ => if_neg fun h => ?_
    exact absurd h.2 (Nat.not_le_of_lt hlong)
  · have hle : (trimUnits item.text).length ≤ MAX_UNIT_CHARS := Nat.le_of_not_lt hlong
    have hone := length_contents_le hle
    rw [if_neg hlong]
    by_cases hempty : trimUnits item.text = []
    · rw [if_pos hempty, hempty]
      rfl
    · have hne := contents_ne_nil hempty
      have hlength : (contents (trimUnits item.text)).length = 1 :=
        Nat.le_antisymm hone (List.length_pos_iff.mpr hne)
      rw [if_neg hempty, hlength]
      exact congrArg (fun locator => [locator]) (if_pos ⟨rfl, hle⟩)

theorem Located.locators_nodup (item : Located) : item.locators.Nodup := by
  rw [Located.locators]
  split_ifs
  · exact List.Nodup.map (fun m n h => (partLocator_injective h).2) (List.nodup_range' _)
  · exact List.nodup_nil
  · exact List.nodup_singleton _

theorem Located.mem_locators {item : Located} {locator : Str} (h : locator ∈ item.locators) :
    (item.Long ∧ ∃ part ∈ List.range' 1 (contents (trimUnits item.text)).length,
      partLocator item.locator part = locator) ∨
    (¬ item.Long ∧ trimUnits item.text ≠ [] ∧ item.locator = locator) := by
  rw [Located.locators] at h
  by_cases hlong : item.Long
  · rw [if_pos hlong] at h
    exact .inl ⟨hlong, List.mem_map.mp h⟩
  · rw [if_neg hlong] at h
    by_cases hempty : trimUnits item.text = []
    · rw [if_pos hempty] at h
      cases h
    · rw [if_neg hempty] at h
      exact .inr ⟨hlong, hempty, (List.mem_singleton.mp h).symm⟩

/-- Inputs with different locators have different parts, but for a locator that is a part. -/
theorem disjoint_locators {a b : Located} (hne : a.locator ≠ b.locator)
    (hab : a.Long → ¬ b.Long → trimUnits b.text ≠ [] →
      ∀ part ∈ List.range' 1 (contents (trimUnits a.text)).length,
        b.locator ≠ partLocator a.locator part)
    (hba : b.Long → ¬ a.Long → trimUnits a.text ≠ [] →
      ∀ part ∈ List.range' 1 (contents (trimUnits b.text)).length,
        a.locator ≠ partLocator b.locator part) : List.Disjoint a.locators b.locators := by
  intro locator ha hb
  obtain ⟨halong, m, hm, rfl⟩ | ⟨hashort, haempty, rfl⟩ := Located.mem_locators ha
  · obtain ⟨-, n, -, heq⟩ | ⟨hbshort, hbempty, heq⟩ := Located.mem_locators hb
    · exact hne (partLocator_injective heq).1.symm
    · exact hab halong hbshort hbempty m hm heq
  · obtain ⟨hblong, n, hn, heq⟩ | ⟨-, -, heq⟩ := Located.mem_locators hb
    · exact hba hblong hashort haempty n hn heq.symm
    · exact hne heq.symm

/-- The units of inputs with different locators have different ones exactly if the locator of no
input is that of a part of another one. -/
theorem locators_nodup_iff {items : List Located} (hnodup : (items.map (·.locator)).Nodup) :
    (items.flatMap Located.locators).Nodup ↔ LocatorsApart items := by
  rw [List.nodup_flatMap]
  constructor
  · rintro ⟨-, hpairwise⟩ long hlong hcut short hshort hnot hne part hpart heq
    have hdifferent : long ≠ short := fun h => hnot (h ▸ hcut)
    have hsymm : Std.Symm (Function.onFun List.Disjoint Located.locators) :=
      ⟨fun _ _ h _ hright hleft => h hleft hright⟩
    have hdisjoint := hpairwise.forall hlong hshort hdifferent
    refine hdisjoint (a := short.locator) ?_ ?_
    · rw [Located.locators]
      rw [if_pos hcut, heq]
      exact List.mem_map_of_mem hpart
    · rw [Located.locators]
      rw [if_neg hnot, if_neg hne]
      exact List.mem_singleton_self _
  · intro hapart
    refine ⟨fun item _ => item.locators_nodup, ?_⟩
    refine (List.pairwise_map.mp hnodup).imp_of_mem fun {a b} ha hb hne => ?_
    exact disjoint_locators hne (fun halong hbshort => hapart a ha halong b hb hbshort)
      fun hblong hashort => hapart b hb hblong a ha hashort

/-! ## Sections of a text -/

theorem sectionLocator_eq (number : Nat) :
    sectionLocator number = "section".toList ++ ':' :: Nat.toDigits 10 number := rfl

theorem sectionLocator_ne_part (m n part : Nat) :
    sectionLocator m ≠ partLocator (sectionLocator n) part := by
  intro h
  rw [sectionLocator_eq m, partLocator_eq] at h
  have hlength := congrArg List.length (last_colon h).1
  rw [List.length_append, sectionLocator_eq, List.length_append, List.length_cons] at hlength
  change 7 = 7 + _ + 5 at hlength
  omega

theorem mem_sectionItems {count : Nat} {blocks : List Units} {item : Located}
    (h : item ∈ sectionItems count blocks) :
    item.text ∈ blocks ∧ ∃ number, count < number ∧ item.locator = sectionLocator number := by
  induction blocks generalizing count with
  | nil => cases h
  | cons block blocks ih =>
      rw [sectionItems] at h
      obtain rfl | hrest := List.mem_cons.mp h
      · exact ⟨List.mem_cons_self, count + 1, Nat.lt_succ_self count, rfl⟩
      · obtain ⟨htext, number, hnumber, hlocator⟩ := ih hrest
        exact ⟨List.mem_cons_of_mem block htext, number, by omega, hlocator⟩

/-- Each section has a number of its own, since it has a unit. -/
theorem sections_nodup {count : Nat} {blocks : List Units}
    (hblocks : ∀ block ∈ blocks, trimUnits block ≠ []) :
    ((sectionItems count blocks).map (·.locator)).Nodup := by
  induction blocks generalizing count with
  | nil => exact List.nodup_nil
  | cons block blocks ih =>
      rw [sectionItems, List.map_cons, List.nodup_cons]
      refine ⟨fun hmem => ?_, ih fun other hother => hblocks other (List.mem_cons_of_mem _ hother)⟩
      obtain ⟨item, hitem, heq⟩ := List.mem_map.mp hmem
      obtain ⟨-, number, hnumber, hlocator⟩ := mem_sectionItems hitem
      have hpositive : 0 < (contents (trimUnits block)).length :=
        List.length_pos_iff.mpr (contents_ne_nil (hblocks block List.mem_cons_self))
      rw [hlocator, sectionLocator_eq, sectionLocator_eq] at heq
      have hsame := (last_colon heq).2
      omega

theorem sections_apart (count : Nat) (blocks : List Units) :
    LocatorsApart (sectionItems count blocks) := by
  intro long hlong _ short hshort _ _ part _
  obtain ⟨-, m, -, hlong⟩ := mem_sectionItems hlong
  obtain ⟨-, n, -, hshort⟩ := mem_sectionItems hshort
  rw [hlong, hshort]
  exact sectionLocator_ne_part n m part

end KnowledgeHarvester

end SourceVault
