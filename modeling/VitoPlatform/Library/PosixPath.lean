import VitoPlatform.Library.Text

/-!
# POSIX path strings

The purely textual part of path handling: splitting at the separator, resolving against a
working directory, and the relative path between two resolved ones. A resolved path is
written back by `render`, and everything about it is a statement about the list of its
names: `segments_render` reads the names back, and `startsWith_render` says that the usual
test for lying below a directory is the prefix order on names.
-/

namespace PosixPath

open Text

/-- The parts between separators that are not empty. -/
def segments (p : Str) : List Str := (p.splitOn '/').filter (· ≠ [])

def isAbsolute (p : Str) : Bool := p.head? == some '/'

def dot : Str := ['.']

def dotDot : Str := ['.', '.']

/-- A component that names an entry of a directory. -/
def IsName (n : Str) : Prop := n ≠ [] ∧ '/' ∉ n ∧ n ≠ dot ∧ n ≠ dotDot

instance : DecidablePred IsName := fun _ => inferInstanceAs (Decidable (_ ∧ _ ∧ _ ∧ _))

/-- One segment of the normalization of an absolute path. -/
def pushSegment (names : List Str) (segment : Str) : List Str :=
  if segment = dot then names
  else if segment = dotDot then names.dropLast
  else names ++ [segment]

/-- The names of an absolute path, with `.` and `..` worked out. -/
def normalize (parts : List Str) : List Str := parts.foldl pushSegment []

/-- The absolute path with these names. -/
def render (names : List Str) : Str := '/' :: join ['/'] names

/-- One argument of `path.resolve`: an absolute one starts afresh. -/
def appendPart (parts : List Str) (part : Str) : List Str :=
  if isAbsolute part then segments part else parts ++ segments part

/-- The segments that `path.resolve` normalizes. -/
def resolveSegments (cwd : Str) (parts : List Str) : List Str :=
  parts.foldl appendPart (segments cwd)

/-- The names of `path.resolve(...parts)` in the working directory `cwd`. -/
def resolveNames (cwd : Str) (parts : List Str) : List Str :=
  normalize (resolveSegments cwd parts)

/-- `path.resolve(...parts)`. -/
def resolve (cwd : Str) (parts : List Str) : Str := render (resolveNames cwd parts)

/-- One segment of the normalization of a relative path, in which `..` may remain. -/
def pushRelative (names : List Str) (segment : Str) : List Str :=
  if segment = dot then names
  else if segment = dotDot then
    match names.getLast? with
    | none => [dotDot]
    | some last => if last = dotDot then names ++ [dotDot] else names.dropLast
  else names ++ [segment]

/-- `path.normalize(p)`: a trailing separator is kept. -/
def normalizePathText (p : Str) : Str :=
  let text :=
    if isAbsolute p then render (normalize (segments p))
    else join ['/'] ((segments p).foldl pushRelative [])
  if p = [] then dot
  else if text = [] then (if endsWith p ['/'] then dot ++ ['/'] else dot)
  else if endsWith p ['/'] && text ≠ ['/'] then text ++ ['/']
  else text

/-- `path.join(...parts)`. -/
def joinPaths (parts : List Str) : Str := normalizePathText (join ['/'] (parts.filter (· ≠ [])))

/-- `path.dirname(p)` of a resolved path. -/
def dirname (p : Str) : Str := render (segments p).dropLast

/-- Leave the common names, climb from what is left of `source`, descend to `target`. -/
def relativeNames : List Str → List Str → List Str
  | a :: source, b :: target =>
      if a = b then relativeNames source target
      else (a :: source).map (fun _ => dotDot) ++ b :: target
  | source, target => source.map (fun _ => dotDot) ++ target

/-- `path.relative(source, target)`. -/
def relative (cwd source target : Str) : Str :=
  join ['/'] (relativeNames (resolveNames cwd [source]) (resolveNames cwd [target]))

example : resolve "/srv".toList ["work".toList, "a/./b/../c".toList] = "/srv/work/a/c".toList := by
  decide

example : joinPaths ["/srv/".toList, "orgs".toList, "../a".toList] = "/srv/a".toList ∧
    joinPaths ["a/..".toList, "../b/".toList] = "../b/".toList := by
  decide

/-! ## Names and their rendering -/

theorem mem_segments {p s : Str} (h : s ∈ segments p) : s ≠ [] ∧ '/' ∉ s := by
  rw [segments, List.mem_filter] at h
  exact ⟨by simpa using h.2, not_mem_of_mem_splitOn h.1⟩

theorem isName_pushSegment {names : List Str} {segment : Str} (hn : ∀ n ∈ names, IsName n)
    (hs : segment ≠ [] ∧ '/' ∉ segment) : ∀ n ∈ pushSegment names segment, IsName n := by
  intro n h
  rw [pushSegment] at h
  split at h
  · exact hn n h
  split at h
  · exact hn n (List.dropLast_subset _ h)
  · rename_i hdot hdotDot
    rcases List.mem_append.mp h with h | h
    · exact hn n h
    · rw [List.mem_singleton.mp h]
      exact ⟨hs.1, hs.2, hdot, hdotDot⟩

theorem isName_foldl_pushSegment {parts : List Str} :
    ∀ {names : List Str}, (∀ n ∈ names, IsName n) → (∀ s ∈ parts, s ≠ [] ∧ '/' ∉ s) →
      ∀ n ∈ parts.foldl pushSegment names, IsName n := by
  induction parts with
  | nil => exact fun hn _ => hn
  | cons s parts ih =>
      intro names hn hs
      exact ih (isName_pushSegment hn (hs s (by simp))) fun t ht =>
        hs t (List.mem_cons_of_mem _ ht)

theorem mem_resolveSegments {cwd : Str} {parts : List Str} :
    ∀ s ∈ resolveSegments cwd parts, s ≠ [] ∧ '/' ∉ s := by
  rw [resolveSegments]
  have start : ∀ s ∈ segments cwd, s ≠ [] ∧ '/' ∉ s := fun s h => mem_segments h
  generalize segments cwd = acc at start
  induction parts generalizing acc with
  | nil => exact start
  | cons part parts ih =>
      refine ih _ ?_
      intro s h
      rw [appendPart] at h
      split at h
      · exact mem_segments h
      · rcases List.mem_append.mp h with h | h
        · exact start s h
        · exact mem_segments h

/-- A resolved path consists of names. -/
theorem isName_resolveNames {cwd : Str} {parts : List Str} :
    ∀ n ∈ resolveNames cwd parts, IsName n :=
  isName_foldl_pushSegment (by simp) mem_resolveSegments

/-- Names stay as they are under normalization. -/
theorem foldl_pushSegment_names {parts : List Str} :
    ∀ {names : List Str}, (∀ n ∈ parts, IsName n) →
      parts.foldl pushSegment names = names ++ parts := by
  induction parts with
  | nil => simp
  | cons s parts ih =>
      intro names h
      obtain ⟨_, _, hdot, hdotDot⟩ := h s (by simp)
      rw [List.foldl_cons, pushSegment, if_neg hdot, if_neg hdotDot,
        ih fun n hn => h n (List.mem_cons_of_mem _ hn), List.append_assoc, List.singleton_append]

theorem normalize_names {names : List Str} (h : ∀ n ∈ names, IsName n) :
    normalize names = names := by
  rw [normalize, foldl_pushSegment_names h, List.nil_append]

@[simp] theorem segments_nil : segments [] = [] := rfl

theorem segments_append_slash (p q : Str) :
    segments (p ++ '/' :: q) = segments p ++ segments q := by
  rw [segments, List.splitOn_append_cons_self, List.filter_append, segments, segments]

theorem segments_slash (p : Str) : segments ('/' :: p) = segments p :=
  segments_append_slash [] p

theorem segments_name {n : Str} (h : IsName n) : segments n = [n] := by
  rw [segments, List.splitOn_eq_singleton h.2.1]
  simp [h.1]

theorem join_cons_cons (a b : Str) (names : List Str) :
    join ['/'] (a :: b :: names) = a ++ '/' :: join ['/'] (b :: names) := by
  simp [join, List.intercalate, List.intersperse]

@[simp] theorem join_singleton (a : Str) : join ['/'] [a] = a := by
  simp [join, List.intercalate]

@[simp] theorem join_nil : join ['/'] [] = [] := by
  simp [join, List.intercalate]

theorem segments_join {names : List Str} (h : ∀ n ∈ names, IsName n) :
    segments (join ['/'] names) = names := by
  induction names with
  | nil => simp
  | cons a names ih =>
      have ha := h a (by simp)
      cases names with
      | nil => rw [join_singleton, segments_name ha]
      | cons b names =>
          rw [join_cons_cons, segments_append_slash, segments_name ha,
            ih fun n hn => h n (List.mem_cons_of_mem _ hn), List.singleton_append]

/-- The names of a path are read back from its rendering. -/
theorem segments_render {names : List Str} (h : ∀ n ∈ names, IsName n) :
    segments (render names) = names := by
  rw [render, segments_slash, segments_join h]

theorem render_injective {a b : List Str} (ha : ∀ n ∈ a, IsName n) (hb : ∀ n ∈ b, IsName n)
    (h : render a = render b) : a = b := by
  rw [← segments_render ha, ← segments_render hb, h]

@[simp] theorem isAbsolute_render (names : List Str) : isAbsolute (render names) = true := by
  simp [isAbsolute, render]

theorem join_append {a b : List Str} (ha : a ≠ []) (hb : b ≠ []) :
    join ['/'] (a ++ b) = join ['/'] a ++ '/' :: join ['/'] b := by
  induction a with
  | nil => exact absurd rfl ha
  | cons x a ih =>
      cases a with
      | nil =>
          obtain ⟨y, b, rfl⟩ := List.exists_cons_of_ne_nil hb
          rw [List.singleton_append, join_cons_cons, join_singleton]
      | cons y a =>
          rw [List.cons_append, List.cons_append, join_cons_cons, join_cons_cons,
            List.append_assoc, ← List.cons_append, ih (by simp), List.cons_append]

theorem render_append {a b : List Str} (ha : a ≠ []) (hb : b ≠ []) :
    render (a ++ b) = render a ++ '/' :: join ['/'] b := by
  rw [render, join_append ha hb, render, List.cons_append]

theorem render_snoc (a : List Str) (n : Str) :
    render (a ++ [n]) = (if a = [] then ['/'] else render a ++ ['/']) ++ n := by
  split
  · rename_i h
    subst h
    simp [render]
  · rename_i h
    rw [render_append h (by simp), join_singleton, List.append_assoc, List.singleton_append]

/-- The usual containment test compares names: below `a` is the strict prefix order. -/
theorem startsWith_render {a b : List Str} (ha : ∀ n ∈ a, IsName n) (hb : ∀ n ∈ b, IsName n) :
    startsWith (render b) (render a ++ ['/']) = true ↔ a ≠ [] ∧ ∃ c, c ≠ [] ∧ b = a ++ c := by
  rw [startsWith, List.isPrefixOf_iff_prefix]
  constructor
  · rintro ⟨t, ht⟩
    have hsplit := congrArg segments ht
    rw [List.append_assoc, List.singleton_append, segments_append_slash, segments_render ha,
      segments_render hb] at hsplit
    have hne : a ≠ [] := by
      rintro rfl
      cases b with
      | nil => simp [render] at ht
      | cons n b =>
          -- Two separators in a row would make the first name empty.
          obtain ⟨hn, hslash, _⟩ := hb n (by simp)
          obtain ⟨c, n, rfl⟩ := List.exists_cons_of_ne_nil hn
          have hc : '/' = c := by
            cases b with
            | nil =>
                simp only [render, join_nil, join_singleton, List.cons_append, List.nil_append,
                  List.cons.injEq, true_and] at ht
                exact ht.1
            | cons m b =>
                simp only [render, join_nil, join_cons_cons, List.cons_append, List.nil_append,
                  List.cons.injEq, true_and] at ht
                exact ht.1
          exact hslash (hc ▸ List.mem_cons_self)
    refine ⟨hne, segments t, ?_, hsplit.symm⟩
    intro hnil
    rw [hnil, List.append_nil] at hsplit
    have hlen := congrArg List.length ht
    rw [hsplit] at hlen
    simp at hlen
  · rintro ⟨hne, c, hc, rfl⟩
    exact ⟨join ['/'] c, by rw [render_append hne hc, List.append_assoc, List.singleton_append]⟩

/-! ## Joined paths -/

theorem endsWith_slash_append_name {p n : Str} (hn : IsName n) :
    endsWith (p ++ n) ['/'] = false := by
  obtain ⟨hne, hslash, -⟩ := hn
  rw [← Bool.not_eq_true, endsWith, List.isSuffixOf_iff_suffix]
  rintro ⟨q, hq⟩
  have hlast := congrArg List.getLast? hq
  rw [List.getLast?_append, List.getLast?_append_of_ne_nil _ hne] at hlast
  exact hslash (List.mem_of_getLast? hlast.symm)

theorem endsWith_render {names : List Str} (hne : names ≠ []) (h : ∀ n ∈ names, IsName n) :
    endsWith (render names) ['/'] = false := by
  obtain ⟨init, n, rfl⟩ := (List.eq_nil_or_concat names).resolve_left hne
  rw [List.concat_eq_append] at h ⊢
  rw [render_snoc]
  exact endsWith_slash_append_name (h n (by simp))

/-! ## Relative paths of names -/

theorem foldl_pushRelative_names {parts : List Str} :
    ∀ {names : List Str}, (∀ n ∈ parts, IsName n) →
      parts.foldl pushRelative names = names ++ parts := by
  induction parts with
  | nil => simp
  | cons s parts ih =>
      intro names h
      obtain ⟨_, _, hdot, hdotDot⟩ := h s (by simp)
      rw [List.foldl_cons, pushRelative, if_neg hdot, if_neg hdotDot,
        ih fun n hn => h n (List.mem_cons_of_mem _ hn), List.append_assoc, List.singleton_append]

theorem join_snoc (names : List Str) (n : Str) :
    join ['/'] (names ++ [n]) = (if names = [] then [] else join ['/'] names ++ ['/']) ++ n := by
  split
  · rename_i h
    subst h
    rw [List.nil_append, join_singleton, List.nil_append]
  · rename_i h
    rw [join_append h (by simp), join_singleton, List.append_assoc, List.singleton_append]

theorem isAbsolute_join {names : List Str} (h : ∀ n ∈ names, IsName n) :
    isAbsolute (join ['/'] names) = false := by
  cases names with
  | nil => rfl
  | cons n names =>
      obtain ⟨hn, hslash, -⟩ := h n List.mem_cons_self
      obtain ⟨c, n, rfl⟩ := List.exists_cons_of_ne_nil hn
      have hc : c ≠ '/' := fun heq => hslash (heq ▸ List.mem_cons_self)
      cases names with
      | nil => simpa [isAbsolute] using hc
      | cons m names => simpa [isAbsolute, join_cons_cons] using hc

/-- A path of names is normal. -/
theorem normalizePathText_join {names : List Str} (hne : names ≠ []) (h : ∀ n ∈ names, IsName n) :
    normalizePathText (join ['/'] names) = join ['/'] names := by
  have hend : endsWith (join ['/'] names) ['/'] = false := by
    obtain ⟨init, n, rfl⟩ := (List.eq_nil_or_concat names).resolve_left hne
    rw [List.concat_eq_append] at h ⊢
    rw [join_snoc]
    exact endsWith_slash_append_name (h n (by simp))
  have htext : join ['/'] names ≠ [] := fun hnil => by
    have hsegments := segments_join h
    rw [hnil, segments_nil] at hsegments
    exact hne hsegments.symm
  simp only [normalizePathText, isAbsolute_join h, Bool.false_eq_true, if_false, segments_join h,
    foldl_pushRelative_names h, List.nil_append, if_neg htext, hend, Bool.false_and]

theorem joinPaths_names {names : List Str} (hne : names ≠ []) (h : ∀ n ∈ names, IsName n) :
    joinPaths names = join ['/'] names := by
  have hfilter : names.filter (· ≠ []) = names :=
    List.filter_eq_self.mpr fun n hn => by simpa using (h n hn).1
  rw [joinPaths, hfilter, normalizePathText_join hne h]

/-- A path of names is resolved against a rendered one by appending them. -/
theorem resolveNames_join {cwd : Str} {root names : List Str} (hroot : ∀ n ∈ root, IsName n)
    (h : ∀ n ∈ names, IsName n) :
    resolveNames cwd [render root, join ['/'] names] = root ++ names := by
  have hall : ∀ n ∈ root ++ names, IsName n := fun n hn =>
    (List.mem_append.mp hn).elim (hroot n) (h n)
  have happend : resolveSegments cwd [render root, join ['/'] names] = root ++ names := by
    simp only [resolveSegments, List.foldl_cons, List.foldl_nil, appendPart, isAbsolute_render,
      if_true, isAbsolute_join h, Bool.false_eq_true, if_false, segments_render hroot,
      segments_join h]
  rw [resolveNames, happend, normalize_names hall]

theorem dirname_render {names : List Str} {n : Str} (h : ∀ m ∈ names ++ [n], IsName m) :
    dirname (render (names ++ [n])) = render names := by
  rw [dirname, segments_render h, List.dropLast_concat]

/-! ## The characters of a resolved path -/

theorem mem_join {c : Char} {names : List Str} (h : c ∈ join ['/'] names) :
    c = '/' ∨ ∃ n ∈ names, c ∈ n := by
  induction names with
  | nil =>
      rw [join_nil] at h
      cases h
  | cons a names ih =>
      cases names with
      | nil => exact .inr ⟨a, List.mem_cons_self, by rwa [join_singleton] at h⟩
      | cons b names =>
          rw [join_cons_cons, List.mem_append, List.mem_cons] at h
          obtain h | h | h := h
          · exact .inr ⟨a, List.mem_cons_self, h⟩
          · exact .inl h
          · exact (ih h).imp_right fun ⟨n, hn, hc⟩ => ⟨n, List.mem_cons_of_mem a hn, hc⟩

theorem subset_join {n : Str} {names : List Str} (h : n ∈ names) : n ⊆ join ['/'] names := by
  induction names with
  | nil => cases h
  | cons a names ih =>
      cases names with
      | nil =>
          rw [List.mem_singleton.mp h, join_singleton]
          exact List.Subset.refl a
      | cons b names =>
          rw [join_cons_cons]
          obtain rfl | h := List.mem_cons.mp h
          · exact List.subset_append_left n _
          · exact fun c hc => List.mem_append_right a (List.mem_cons_of_mem _ (ih h hc))

theorem subset_of_mem_segments {p n : Str} (h : n ∈ segments p) : n ⊆ p := by
  have hjoin : join ['/'] (p.splitOn '/') = p := List.intercalate_splitOn '/'
  have hsubset := subset_join (List.mem_of_mem_filter h)
  rwa [hjoin] at hsubset

theorem foldl_pushSegment_subset (parts names : List Str) :
    parts.foldl pushSegment names ⊆ names ++ parts := by
  induction parts generalizing names with
  | nil =>
      rw [List.foldl_nil, List.append_nil]
      exact List.Subset.refl names
  | cons part parts ih =>
      have hpush : pushSegment names part ⊆ names ++ [part] := by
        rw [pushSegment]
        split
        · exact List.subset_append_left names _
        · split
          · exact fun n hn => List.mem_append_left _ (List.dropLast_subset names hn)
          · exact List.Subset.refl _
      intro n hn
      rw [List.append_cons]
      obtain h | h := List.mem_append.mp (ih (pushSegment names part) hn)
      · exact List.mem_append_left _ (hpush h)
      · exact List.mem_append_right _ h

/-- The characters of a resolved path are those of its parts. -/
theorem mem_resolve {cwd : Str} {parts : List Str} {c : Char} (h : c ∈ resolve cwd parts) :
    c = '/' ∨ c ∈ cwd ∨ ∃ part ∈ parts, c ∈ part := by
  have hsegments : ∀ n ∈ resolveSegments cwd parts, c ∈ n → c ∈ cwd ∨ ∃ part ∈ parts, c ∈ part := by
    clear h
    induction parts using List.reverseRecOn with
    | nil => exact fun n hn hc => .inl (subset_of_mem_segments hn hc)
    | append_singleton parts part ih =>
        intro n hn hc
        rw [resolveSegments, List.foldl_append, List.foldl_cons, List.foldl_nil, appendPart] at hn
        have hpart (hn : n ∈ segments part) : c ∈ cwd ∨ ∃ other ∈ parts ++ [part], c ∈ other :=
          .inr ⟨part, List.mem_append_right _ List.mem_cons_self, subset_of_mem_segments hn hc⟩
        split at hn
        · exact hpart hn
        · obtain hn | hn := List.mem_append.mp hn
          · exact (ih n hn hc).imp_right fun ⟨other, hother, hc⟩ =>
              ⟨other, List.mem_append_left _ hother, hc⟩
          · exact hpart hn
  rw [resolve, render, List.mem_cons] at h
  obtain h | h := h
  · exact .inl h
  · obtain h | ⟨n, hn, hc⟩ := mem_join h
    · exact .inl h
    · refine .inr (hsegments n ?_ hc)
      exact foldl_pushSegment_subset (resolveSegments cwd parts) [] hn

end PosixPath
