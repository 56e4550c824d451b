import VitoPlatform.SourceVault.Segments

/-!
# What segmentation keeps of a text

The characters of a text that are not white space. Trimming, other line breaks and the division at
blank lines keep them; the cuts of a long text do if none is within a pair of surrogates
(`contents_visible`).
-/

namespace SourceVault

open Text Invocation

namespace KnowledgeHarvester

/-- The characters that are not white space. -/
def visible (text : Units) : List Char := Utf16.filtered (fun c => !isSpace c) text

variable {u v : UInt16} {s t value : Units}

/-! ## White space -/

theorem isSpaceUnit_eq (hsurrogate : (Utf16.isHigh u || Utf16.isLow u) = false) :
    isSpace (Utf16.character u) = isSpaceUnit u := by
  rw [Utf16.character, hsurrogate, if_neg Bool.false_ne_true, isSpaceUnit]

/-- A surrogate is not white space. -/
theorem not_surrogate_of_isSpaceUnit (h : isSpaceUnit u = true) :
    Utf16.isHigh u = false ∧ Utf16.isLow u = false := by
  rw [← Bool.or_eq_false_iff]
  by_contra hsurrogate
  rw [Bool.not_eq_false, Utf16.isHigh, Utf16.isLow, Bool.or_eq_true, Bool.and_eq_true,
    Bool.and_eq_true, decide_eq_true_eq, decide_eq_true_eq, decide_eq_true_eq,
    decide_eq_true_eq] at hsurrogate
  have hrange : 0xD800 ≤ u.toNat ∧ u.toNat < 0xE000 := by
    obtain ⟨hlow, hhigh⟩ | ⟨hlow, hhigh⟩ := hsurrogate
    · have hlow' : 0xD800 ≤ u.toNat := hlow
      have hhigh' : u.toNat < 0xDC00 := hhigh
      omega
    · have hlow' : 0xDC00 ≤ u.toNat := hlow
      have hhigh' : u.toNat < 0xE000 := hhigh
      omega
  have hinvalid : ¬ u.toNat.isValidChar := by
    rintro (hsmall | hlarge)
    · omega
    · omega
  rw [isSpaceUnit, Char.ofNat, dif_neg hinvalid] at h
  exact absurd h (by decide)

theorem not_divides_of_blank_right (h : Trimming.Blank isSpaceUnit t) : ¬ Utf16.Divides s t := by
  rintro ⟨-, -, v, hv, -, hlow⟩
  rw [(not_surrogate_of_isSpaceUnit (h v (List.mem_of_mem_head? hv))).2] at hlow
  cases hlow

theorem not_divides_of_blank_left (h : Trimming.Blank isSpaceUnit s) : ¬ Utf16.Divides s t := by
  rintro ⟨u, hu, -, -, hhigh, -⟩
  rw [(not_surrogate_of_isSpaceUnit (h u (List.mem_of_mem_getLast? hu))).1] at hhigh
  cases hhigh

theorem visible_append (h : ¬ Utf16.Divides s t) : visible (s ++ t) = visible s ++ visible t :=
  Utf16.filtered_append h

theorem visible_of_blank (h : Trimming.Blank isSpaceUnit s) : visible s = [] := by
  induction s with
  | nil => rfl
  | cons u s ih =>
      have hu := h u List.mem_cons_self
      have hrest : Trimming.Blank isSpaceUnit s := fun v hv => h v (List.mem_cons_of_mem u hv)
      obtain ⟨hhigh, hlow⟩ := not_surrogate_of_isSpaceUnit hu
      have hspace : isSpace (Utf16.character u) = true := by
        rw [isSpaceUnit_eq (by rw [hhigh, hlow]; rfl), hu]
      have hone : visible [u] = [] := by
        rw [visible, Utf16.filtered, Utf16.characters, List.filter_singleton, hspace]
        rfl
      have happend : visible ([u] ++ s) = visible [u] ++ visible s :=
        visible_append (not_divides_of_blank_right hrest)
      rw [← List.singleton_append, happend, hone, ih hrest]
      rfl

theorem visible_blank_append (h : Trimming.Blank isSpaceUnit s) : visible (s ++ t) = visible t := by
  rw [visible_append (not_divides_of_blank_left h), visible_of_blank h, List.nil_append]

theorem visible_append_blank (h : Trimming.Blank isSpaceUnit t) : visible (s ++ t) = visible s := by
  rw [visible_append (not_divides_of_blank_right h), visible_of_blank h, List.append_nil]

/-- White space between two texts divides nothing. -/
theorem visible_between {blank : Units} (hblank : Trimming.Blank isSpaceUnit blank)
    (hne : blank ≠ []) : visible (s ++ (blank ++ t)) = visible s ++ visible t := by
  have hnot : ¬ Utf16.Divides s (blank ++ t) := by
    rintro ⟨-, -, v, hv, -, hlow⟩
    obtain ⟨w, blank, rfl⟩ := List.exists_cons_of_ne_nil hne
    obtain rfl : w = v := Option.some.inj hv
    rw [(not_surrogate_of_isSpaceUnit (hblank w List.mem_cons_self)).2] at hlow
    cases hlow
  rw [visible_append hnot, visible_blank_append hblank]

theorem visible_trim (text : Units) : visible (trimUnits text) = visible text := by
  obtain ⟨a, b, ha, hb, h⟩ := Trimming.exists_trim isSpaceUnit text
  have hall : visible text = visible (a ++ (trimUnits text ++ b)) := congrArg visible h
  rw [hall, visible_blank_append ha, visible_append_blank hb]

/-- Pieces that are trimmed, without those that are blank. -/
theorem visible_contents (pieces : List Units) :
    ((pieces.map trimUnits).filter (· ≠ [])).flatMap visible = pieces.flatMap visible := by
  induction pieces with
  | nil => rfl
  | cons piece pieces ih =>
      rw [List.map_cons, List.filter_cons, List.flatMap_cons, ← ih, ← visible_trim piece]
      split_ifs with hne
      · rw [List.flatMap_cons]
      · have hempty : trimUnits piece = [] := by simpa using hne
        rw [hempty]
        rfl

/-! ## Line breaks -/

theorem blank_breaks (n : Nat) : Trimming.Blank isSpaceUnit (List.replicate n 10) := fun u hu => by
  rw [List.eq_of_mem_replicate hu]
  decide

theorem head_normalizeBreaks (v : UInt16) (rest : Units) :
    (normalizeBreaks (v :: rest)).head? = some (if v = 13 then 10 else v) := by
  cases rest with
  | nil => rfl
  | cons w rest =>
      rw [normalizeBreaks]
      split_ifs with hbreak hv
      · rfl
      · exact absurd hbreak.1 hv
      · rfl
      · rfl

/-- A break that is written in another way is still one. -/
theorem visible_normalizeBreaks (text : Units) : visible (normalizeBreaks text) = visible text := by
  have hcr : Trimming.Blank isSpaceUnit [13] := by decide
  have hlf : Trimming.Blank isSpaceUnit [10] := by decide
  fun_induction normalizeBreaks text with
  | case1 => rfl
  | case2 u =>
      split_ifs with hu
      · rw [hu, visible_of_blank hlf, visible_of_blank hcr]
      · rfl
  | case3 u v rest hbreak ih =>
      have hboth : Trimming.Blank isSpaceUnit [13, 10] := by decide
      rw [hbreak.1, hbreak.2]
      change visible ([10] ++ normalizeBreaks rest) = visible ([13, 10] ++ rest)
      rw [visible_blank_append hlf, visible_blank_append hboth, ih]
  | case4 u v rest hbreak ih =>
      by_cases hu : u = 13
      · rw [if_pos hu, hu]
        change visible ([10] ++ normalizeBreaks (v :: rest)) = visible ([13] ++ v :: rest)
        rw [visible_blank_append hlf, visible_blank_append hcr, ih]
      · rw [if_neg hu]
        have hhead := head_normalizeBreaks v rest
        change visible ([u] ++ normalizeBreaks (v :: rest)) = visible ([u] ++ v :: rest)
        by_cases hdivides : Utf16.Divides [u] (v :: rest)
        · obtain ⟨w, hw, x, hx, hhigh, hlow⟩ := hdivides
          obtain rfl : u = w := Option.some.inj hw
          obtain rfl : v = x := Option.some.inj hx
          have hv : v ≠ 13 := by
            rintro rfl
            exact absurd hlow (by decide)
          have hnot (t : Units) : ¬ Utf16.Divides [v] t := by
            rintro ⟨w, hw, -, -, hhigh', -⟩
            obtain rfl : v = w := Option.some.inj hw
            rw [Utf16.not_isHigh_of_isLow hlow] at hhigh'
            cases hhigh'
          have htail : normalizeBreaks (v :: rest) = v :: normalizeBreaks rest := by
            cases rest with
            | nil => exact congrArg (fun w => [w]) (if_neg hv)
            | cons w rest => rw [normalizeBreaks, if_neg fun h => hv h.1, if_neg hv]
          have hrest : visible (normalizeBreaks rest) = visible rest := by
            rw [htail] at ih
            change visible ([v] ++ normalizeBreaks rest) = visible ([v] ++ rest) at ih
            rw [visible_append (hnot _), visible_append (hnot _)] at ih
            exact List.append_cancel_left ih
          rw [htail]
          change (Utf16.characters (u :: v :: normalizeBreaks rest)).filter _ =
            (Utf16.characters (u :: v :: rest)).filter _
          rw [Utf16.characters_pair hhigh hlow, Utf16.characters_pair hhigh hlow,
            List.filter_cons, List.filter_cons]
          change (if _ then _ :: visible (normalizeBreaks rest)
            else visible (normalizeBreaks rest)) = if _ then _ :: visible rest else visible rest
          rw [hrest]
        · have hnot : ¬ Utf16.Divides [u] (normalizeBreaks (v :: rest)) := by
            rintro ⟨w, hw, x, hx, hhigh, hlow⟩
            rw [hhead] at hx
            obtain rfl := Option.some.inj hx
            by_cases hv : v = 13
            · rw [if_pos hv] at hlow
              exact absurd hlow (by decide)
            · rw [if_neg hv] at hlow
              exact hdivides ⟨w, hw, v, rfl, hhigh, hlow⟩
          rw [visible_append hnot, visible_append hdivides, ih]

theorem splitBlankLines_loop_visible (piece : Units) (breaks : Nat) (text : Units) :
    (splitBlankLines.loop piece breaks text).flatMap visible =
      visible (piece ++ (List.replicate breaks 10 ++ text)) := by
  fun_induction splitBlankLines.loop piece breaks text with
  | case1 piece breaks hbreaks =>
      rw [List.append_nil, visible_append_blank (blank_breaks breaks)]
      exact congrArg (visible piece ++ ·) (List.append_nil _) |>.trans (List.append_nil _)
  | case2 piece breaks hbreaks =>
      rw [List.append_nil]
      exact List.append_nil _
  | case3 piece breaks rest ih =>
      rw [ih, List.replicate_succ', List.append_assoc, List.singleton_append]
  | case4 piece breaks u rest hu hbreaks ih =>
      have hne : List.replicate breaks (10 : UInt16) ≠ [] := by
        rw [ne_eq, List.replicate_eq_nil_iff]
        omega
      rw [List.flatMap_cons, ih, visible_between (blank_breaks breaks) hne]
      rfl
  | case5 piece breaks u rest hu hbreaks ih =>
      rw [ih]
      simp only [List.replicate_zero, List.nil_append, List.append_assoc, List.singleton_append]

/-- The blocks have the characters of the text. -/
theorem visible_blocksOf (normalized : Units) :
    (blocksOf normalized).flatMap visible = visible normalized := by
  rw [blocksOf, visible_contents, splitBlankLines, splitBlankLines_loop_visible]
  rfl

/-- A text without white space. -/
def Solid (text : Units) : Prop := ∀ u ∈ text, isSpaceUnit u = false

theorem Solid.ne {text : Units} (h : Solid text) {n : UInt16} (hn : isSpaceUnit n = true) :
    ∀ u ∈ text, u ≠ n := by
  rintro u hu rfl
  rw [h u hu] at hn
  cases hn

theorem Solid.trim {text : Units} (h : Solid text) : trimUnits text = text := by
  have hnot : ∀ u ∈ text, ¬ isSpaceUnit u = true := fun u hu => by
    rw [h u hu]
    exact Bool.false_ne_true
  rw [trimUnits, Trimming.trim,
    List.dropWhile_eq_self_iff.mpr fun _ => hnot _ (List.getElem_mem _),
    List.rdropWhile_eq_self_iff.mpr fun hne => hnot _ (List.getLast_mem hne)]

theorem Solid.normalizeBreaks {text : Units} (h : Solid text) : normalizeBreaks text = text := by
  have hcr := h.ne (n := 13) (by decide)
  clear h
  fun_induction KnowledgeHarvester.normalizeBreaks text with
  | case1 => rfl
  | case2 u => rw [if_neg (hcr u List.mem_cons_self)]
  | case3 u v rest hbreaks ih => exact absurd hbreaks.1 (hcr u List.mem_cons_self)
  | case4 u v rest hbreaks ih =>
      rw [if_neg (hcr u List.mem_cons_self), ih fun w hw => hcr w (List.mem_cons_of_mem u hw)]

/-- It is one block. -/
theorem Solid.blocksOf {text : Units} (h : Solid text) (hne : text ≠ []) :
    blocksOf text = [text] := by
  have hsplit : ∀ piece rest : Units, (∀ u ∈ rest, u ≠ 10) →
      splitBlankLines.loop piece 0 rest = [piece ++ rest] := by
    intro piece rest hrest
    induction rest generalizing piece with
    | nil => rfl
    | cons u rest ih =>
        rw [splitBlankLines.loop, if_neg (hrest u List.mem_cons_self), if_neg (by decide),
          ih _ fun w hw => hrest w (List.mem_cons_of_mem u hw)]
        simp only [List.replicate_zero, List.append_nil, List.append_assoc, List.singleton_append]
  rw [KnowledgeHarvester.blocksOf, splitBlankLines, hsplit [] text (h.ne (by decide)),
    List.nil_append, List.map_singleton, h.trim]
  exact List.filter_cons_of_pos (by simpa using hne)

/-! ## Cuts -/

/-- No cut of a text is within a pair of surrogates. -/
def CutsWhole (value : Units) : Prop :=
  ∀ offset ∈ offsets value.length, ¬ Utf16.Divides (value.take offset) (value.drop offset)

instance (value : Units) : Decidable (CutsWhole value) :=
  inferInstanceAs (Decidable (∀ offset ∈ _, _))

theorem mem_offsets {offset : Nat} (h : offset ∈ offsets value.length) :
    offset < value.length := by
  obtain ⟨i, hi, rfl⟩ := List.mem_range'.mp h
  rw [MAX_UNIT_CHARS] at hi ⊢
  omega

theorem flatten_slices (start n : Nat) :
    ((List.range' start n MAX_UNIT_CHARS).map (slice value)).flatten =
      (value.drop start).take (n * MAX_UNIT_CHARS) := by
  induction n generalizing start with
  | zero => rw [Nat.zero_mul]; rfl
  | succ n ih =>
      rw [List.range'_succ, List.map_cons, List.flatten_cons, ih, slice, ← List.drop_drop,
        Nat.succ_mul, Nat.add_comm (n * MAX_UNIT_CHARS), List.take_add]

theorem slices_flatten (value : Units) : (slices value).flatten = value := by
  rw [slices, offsets, flatten_slices, List.drop_zero]
  refine List.take_of_length_le ?_
  rw [MAX_UNIT_CHARS]
  omega

theorem slice_ne_nil {offset : Nat} (h : offset < value.length) : slice value offset ≠ [] := by
  intro hnil
  have hlength := congrArg List.length hnil
  rw [slice, List.length_take, List.length_drop, List.length_nil, MAX_UNIT_CHARS] at hlength
  omega

theorem mem_slices {piece : Units} (h : piece ∈ slices value) :
    piece ≠ [] ∧ piece.length ≤ MAX_UNIT_CHARS := by
  obtain ⟨offset, hoffset, rfl⟩ := List.mem_map.mp h
  refine ⟨slice_ne_nil (mem_offsets hoffset), ?_⟩
  rw [slice, List.length_take]
  omega

/-- Neighbouring slices divide a pair if the cut between them does. -/
theorem divides_slices {start : Nat} (h : start + MAX_UNIT_CHARS < value.length) :
    Utf16.Divides (slice value start) (slice value (start + MAX_UNIT_CHARS)) ↔
      Utf16.Divides (value.take (start + MAX_UNIT_CHARS))
        (value.drop (start + MAX_UNIT_CHARS)) := by
  have hlast : (value.take (start + MAX_UNIT_CHARS)).getLast? = (slice value start).getLast? := by
    have hne : slice value start ≠ [] := slice_ne_nil (by omega)
    rw [List.take_add, ← slice, List.getLast?_append_of_ne_nil _ hne]
  have hhead : (slice value (start + MAX_UNIT_CHARS)).head? =
      (value.drop (start + MAX_UNIT_CHARS)).head? := by
    rw [slice, List.head?_take, if_neg (by decide)]
  rw [Utf16.Divides, Utf16.Divides, hlast, hhead]

theorem whole_slices (start n : Nat) (h : ∀ offset ∈ List.range' start n MAX_UNIT_CHARS,
    offset < value.length) :
    Utf16.Whole ((List.range' start n MAX_UNIT_CHARS).map (slice value)) ↔
      ∀ offset ∈ (List.range' start n MAX_UNIT_CHARS).tail,
        ¬ Utf16.Divides (value.take offset) (value.drop offset) := by
  induction n generalizing start with
  | zero => exact ⟨fun _ => nofun, fun _ => .nil⟩
  | succ n ih =>
      cases n with
      | zero => exact ⟨fun _ => nofun, fun _ => .singleton _⟩
      | succ n =>
          have htail : ∀ offset ∈ List.range' (start + MAX_UNIT_CHARS) (n + 1) MAX_UNIT_CHARS,
              offset < value.length := fun offset hoffset =>
            h offset (by rw [List.range'_succ]; exact List.mem_cons_of_mem _ hoffset)
          have hnext := htail (start + MAX_UNIT_CHARS) (by
            rw [List.range'_succ]
            exact List.mem_cons_self)
          have ih := ih (start + MAX_UNIT_CHARS) htail
          have hcons : Utf16.Whole ((List.range' start (n + 1 + 1) MAX_UNIT_CHARS).map
              (slice value)) ↔
                ¬ Utf16.Divides (slice value start) (slice value (start + MAX_UNIT_CHARS)) ∧
                  Utf16.Whole ((List.range' (start + MAX_UNIT_CHARS) (n + 1) MAX_UNIT_CHARS).map
                    (slice value)) := by
            rw [List.range'_succ, List.range'_succ]
            exact List.isChain_cons_cons
          rw [hcons, ih, divides_slices hnext, List.range'_succ, List.tail_cons, List.range'_succ,
            List.tail_cons, List.range'_succ, List.forall_mem_cons]

theorem cutsWhole_iff : CutsWhole value ↔ Utf16.Whole (slices value) := by
  have hnot : ¬ Utf16.Divides (value.take 0) (value.drop 0) := by
    rintro ⟨u, hu, -⟩
    cases hu
  rw [slices, offsets, whole_slices 0 _ fun offset hoffset => mem_offsets hoffset, CutsWhole,
    offsets]
  cases (value.length + MAX_UNIT_CHARS - 1) / MAX_UNIT_CHARS with
  | zero => exact ⟨fun _ => nofun, fun _ => nofun⟩
  | succ n =>
      rw [List.range'_succ, List.tail_cons, List.forall_mem_cons]
      exact and_iff_right hnot

/-- The contents of a text have at least its characters, and these only if no cut is within a
pair. -/
theorem contents_visible (value : Units) :
    (visible value).length ≤ ((contents value).flatMap visible).length ∧
      ((contents value).flatMap visible = visible value ↔ CutsWhole value) := by
  have hne : ∀ piece ∈ slices value, piece ≠ [] := fun piece hpiece => (mem_slices hpiece).1
  have hall := Utf16.filtered_flatten (p := fun c => !isSpace c) (by decide) hne
  rw [slices_flatten, ← cutsWhole_iff] at hall
  rw [contents, visible_contents]
  exact hall

theorem mem_contents {content : Units} (h : content ∈ contents value) :
    content ≠ [] ∧ ¬ Trimming.Blank isSpaceUnit content ∧ content.length ≤ MAX_UNIT_CHARS := by
  rw [contents, List.mem_filter] at h
  obtain ⟨hmem, hne⟩ := h
  have hne : content ≠ [] := by simpa using hne
  obtain ⟨piece, hpiece, rfl⟩ := List.mem_map.mp hmem
  refine ⟨hne, Trimming.not_blank_trim hne, ?_⟩
  exact (Trimming.length_trim_le _ _).trans (mem_slices hpiece).2

/-- A text that is not blank has a unit. -/
theorem contents_ne_nil {input : Units} (h : trimUnits input ≠ []) :
    contents (trimUnits input) ≠ [] := by
  obtain ⟨u, rest, hcons⟩ := List.exists_cons_of_ne_nil h
  have hu : isSpaceUnit u = false := Trimming.not_head_trim hcons
  have hfirst : slice (u :: rest) 0 ∈ slices (u :: rest) := by
    refine List.mem_map_of_mem (List.mem_range'.mpr ⟨0, ?_, rfl⟩)
    rw [List.length_cons, MAX_UNIT_CHARS]
    omega
  have hne : trimUnits (slice (u :: rest) 0) ≠ [] := fun hnil => by
    have hblank := Trimming.trim_eq_nil_iff.mp hnil u List.mem_cons_self
    rw [hu] at hblank
    cases hblank
  have hmem : trimUnits (slice (u :: rest) 0) ∈ contents (u :: rest) := by
    rw [contents, List.mem_filter]
    exact ⟨List.mem_map_of_mem hfirst, by simpa using hne⟩
  rw [hcons]
  exact List.ne_nil_of_mem hmem

end KnowledgeHarvester

end SourceVault
