import VitoPlatform.Library.PosixPath

/-!
# A file tree with symbolic links

A file tree says what lies at each location, a location being the list of names from the
root. The structure keeps its own shape: the root is a directory, an entry lies in a
directory, and what an entry is called is a name.

`walk` is the path resolution of the operating system: it follows every symbolic link it
meets, up to a bound on their number, and says whether it arrives at an object, at a free
place in an existing directory, or nowhere. The queries a program makes (`exists`,
`realpath`, opening or creating) are readings of it.
-/

open Text PosixPath

inductive Entry where
  | file
  | directory
  | link (target : Str)
  deriving DecidableEq

structure FileTree where
  entry : List Str → Option Entry
  /-- How many symbolic links one resolution may follow. -/
  linkLimit : Nat
  root : entry [] = some .directory
  parent : ∀ p n, entry (p ++ [n]) ≠ none → entry p = some .directory
  named : ∀ p n, entry (p ++ [n]) ≠ none → IsName n

/-- Where a path leads. -/
inductive Lookup where
  /-- An object that is not a symbolic link. -/
  | found (location : List Str)
  /-- A free name in an existing directory: it can be created. -/
  | missing (location : List Str)
  | unresolvable
  deriving DecidableEq

/-- The object that opening or creating reaches. -/
def Lookup.opened : Lookup → Option (List Str)
  | .found p => some p
  | .missing p => some p
  | .unresolvable => none

/-- The components of a path; a trailing separator asks for a directory. -/
def components (p : Str) : List Str :=
  segments p ++ if endsWith p ['/'] then [dot] else []

namespace FileTree

/-- Resolve components one by one. `follow` resolves what a symbolic link stands for. -/
def step (tree : FileTree) (follow : List Str → List Str → Lookup) (here : List Str) :
    List Str → Lookup
  | [] => .found here
  | c :: rest =>
      if c = dot then step tree follow here rest
      else if c = dotDot then step tree follow here.dropLast rest
      else
        match tree.entry (here ++ [c]) with
        | none => if rest = [] then .missing (here ++ [c]) else .unresolvable
        | some .file => if rest = [] then .found (here ++ [c]) else .unresolvable
        | some .directory => step tree follow (here ++ [c]) rest
        | some (.link target) =>
            if target = [] then .unresolvable
            else follow (if isAbsolute target then [] else here) (components target ++ rest)

/-- Path resolution that follows at most `limit` symbolic links. -/
def walk (tree : FileTree) : Nat → List Str → List Str → Lookup
  | 0 => tree.step fun _ _ => .unresolvable
  | limit + 1 => tree.step (walk tree limit)

/-- What the operating system does with a path. -/
def lookup (tree : FileTree) (cwd p : Str) : Lookup :=
  if p = [] then .unresolvable
  else tree.walk tree.linkLimit (if isAbsolute p then [] else segments cwd) (components p)

/-- `fs.existsSync(p)`, false for a dangling link. -/
def existsSync (tree : FileTree) (cwd p : Str) : Bool :=
  match tree.lookup cwd p with
  | .found _ => true
  | _ => false

/-- `fs.realpathSync(p)`; `none` is a thrown error. -/
def realpathSync (tree : FileTree) (cwd p : Str) : Option Str :=
  match tree.lookup cwd p with
  | .found location => some (render location)
  | _ => none

variable {tree : FileTree}

/-- Everything above an entry is a directory. -/
theorem entry_prefix {p : List Str} {n : Str} {q : List Str}
    (h : tree.entry (p ++ n :: q) ≠ none) : tree.entry p = some .directory := by
  induction q using List.reverseRecOn generalizing n with
  | nil => exact tree.parent p n h
  | append_singleton q m ih =>
      apply ih (n := n)
      have := tree.parent (p ++ n :: q) m (by simpa using h)
      simp [this]

theorem isName_of_entry {p : List Str} (h : tree.entry p ≠ none) : ∀ n ∈ p, IsName n := by
  induction p using List.reverseRecOn with
  | nil => exact fun n hn => absurd hn List.not_mem_nil
  | append_singleton p m ih =>
      intro n hn
      rcases List.mem_append.mp hn with hn | hn
      · exact ih (by simp [tree.parent p m h]) n hn
      · rw [List.mem_singleton.mp hn]
        exact tree.named p m h

theorem entry_dropLast {p : List Str} (h : tree.entry p = some .directory) :
    tree.entry p.dropLast = some .directory := by
  cases p using List.reverseRecOn with
  | nil => exact tree.root
  | append_singleton p n =>
      rw [List.dropLast_concat]
      exact tree.parent p n (by simp [h])

/-- A location with an object that is not a symbolic link. -/
def IsObject (tree : FileTree) (p : List Str) : Prop :=
  tree.entry p = some .file ∨ tree.entry p = some .directory

theorem IsObject.isName {p : List Str} (h : tree.IsObject p) : ∀ n ∈ p, IsName n := by
  have hne : tree.entry p ≠ none := by
    rcases h with h | h
    · simp [h]
    · simp [h]
  exact isName_of_entry hne

section Step

variable {follow : List Str → List Str → Lookup}

/-- A name is looked up in the directory reached so far. -/
theorem step_name {here rest : List Str} {n : Str} (hn : IsName n) :
    tree.step follow here (n :: rest) =
      match tree.entry (here ++ [n]) with
      | none => if rest = [] then .missing (here ++ [n]) else .unresolvable
      | some .file => if rest = [] then .found (here ++ [n]) else .unresolvable
      | some .directory => tree.step follow (here ++ [n]) rest
      | some (.link target) =>
          if target = [] then .unresolvable
          else follow (if isAbsolute target then [] else here) (components target ++ rest) := by
  rw [step, if_neg hn.2.2.1, if_neg hn.2.2.2]

/-- Names that lead through directories are walked without following anything. -/
theorem step_directories {names : List Str} : ∀ {here rest : List Str},
    tree.entry (here ++ names) = some .directory →
      tree.step follow here (names ++ rest) = tree.step follow (here ++ names) rest := by
  induction names with
  | nil => simp
  | cons n names ih =>
      intro here rest h
      have hne : tree.entry (here ++ n :: names) ≠ none := by simp [h]
      have hn : IsName n := isName_of_entry hne n (by simp)
      have hdir : tree.entry (here ++ [n]) = some .directory := by
        cases names with
        | nil => exact h
        | cons m names => exact entry_prefix (n := m) (q := names) (by simpa using hne)
      rw [List.cons_append, step_name hn, hdir]
      change tree.step follow (here ++ [n]) (names ++ rest) = _
      rw [ih (by simpa using h), List.append_assoc, List.singleton_append]

end Step

/-- The walk from a directory down its own names. -/
theorem walk_directories {limit : Nat} {here names rest : List Str}
    (h : tree.entry (here ++ names) = some .directory) :
    tree.walk limit here (names ++ rest) = tree.walk limit (here ++ names) rest := by
  cases limit with
  | zero => exact step_directories h
  | succ limit => exact step_directories h

theorem walk_nil {limit : Nat} {here : List Str} : tree.walk limit here [] = .found here := by
  cases limit with
  | zero => rfl
  | succ limit => rfl

/-- The last name of a walk decides where it leads. -/
theorem walk_name {limit : Nat} {here : List Str} {n : Str} (hn : IsName n)
    (h : ∀ target, tree.entry (here ++ [n]) ≠ some (.link target)) :
    tree.walk limit here [n] =
      if tree.entry (here ++ [n]) = none then .missing (here ++ [n]) else .found (here ++ [n]) := by
  have hstep : ∀ follow, tree.step follow here [n] =
      if tree.entry (here ++ [n]) = none then .missing (here ++ [n]) else .found (here ++ [n]) := by
    intro follow
    rw [step_name hn]
    cases he : tree.entry (here ++ [n]) with
    | none => rfl
    | some e =>
        cases e with
        | file => rfl
        | directory => rfl
        | link target => exact absurd he (h target)
  cases limit with
  | zero => exact hstep _
  | succ limit => exact hstep _

/-- A walk that finds an object finds one that is no link. -/
theorem walk_found {limit : Nat} : ∀ {here comps q : List Str},
    tree.entry here = some .directory → tree.walk limit here comps = .found q →
      tree.IsObject q := by
  have hstep : ∀ follow : List Str → List Str → Lookup,
      (∀ here comps q, tree.entry here = some .directory → follow here comps = .found q →
        tree.IsObject q) →
      ∀ comps here q, tree.entry here = some .directory → tree.step follow here comps = .found q →
        tree.IsObject q := by
    intro follow hfollow comps
    induction comps with
    | nil =>
        intro here q hat h
        cases h
        exact .inr hat
    | cons c rest ih =>
        intro here q hat h
        rw [step] at h
        split at h
        · exact ih here q hat h
        split at h
        · exact ih here.dropLast q (entry_dropLast hat) h
        cases he : tree.entry (here ++ [c]) with
        | none =>
            rw [he] at h
            simp only at h
            split at h <;> cases h
        | some e =>
            rw [he] at h
            cases e with
            | file =>
                simp only at h
                split at h
                · cases h
                  exact .inl he
                · cases h
            | directory => exact ih _ q he h
            | link target =>
                simp only at h
                split at h
                · cases h
                · refine hfollow _ _ q ?_ h
                  split
                  · exact tree.root
                  · exact hat
  induction limit with
  | zero => exact fun hat h => hstep _ (fun _ _ _ _ h => by cases h) _ _ _ hat h
  | succ limit ih => exact fun hat h => hstep _ (fun _ _ _ hat h => ih hat h) _ _ _ hat h

/-- One more link allowed does not change what is found. -/
theorem walk_succ {limit : Nat} : ∀ {here comps q : List Str},
    tree.walk limit here comps = .found q → tree.walk (limit + 1) here comps = .found q := by
  have hstep : ∀ follow follow' : List Str → List Str → Lookup,
      (∀ here comps q, follow here comps = .found q → follow' here comps = .found q) →
      ∀ comps here q, tree.step follow here comps = .found q →
        tree.step follow' here comps = .found q := by
    intro follow follow' hfollow comps
    induction comps with
    | nil => exact fun here q h => h
    | cons c rest ih =>
        intro here q h
        rw [step] at h ⊢
        split at h
        · rename_i hdot
          rw [if_pos hdot]
          exact ih _ _ h
        rename_i hdot
        rw [if_neg hdot]
        split at h
        · rename_i hdotDot
          rw [if_pos hdotDot]
          exact ih _ _ h
        rename_i hdotDot
        rw [if_neg hdotDot]
        cases he : tree.entry (here ++ [c]) with
        | none =>
            rw [he] at h
            exact h
        | some e =>
            rw [he] at h
            cases e with
            | file => exact h
            | directory => exact ih _ _ h
            | link target =>
                simp only at h ⊢
                split at h
                · cases h
                · rename_i ht
                  rw [if_neg ht]
                  exact hfollow _ _ _ h
  induction limit with
  | zero => exact fun h => hstep _ _ (fun _ _ _ h => by cases h) _ _ _ h
  | succ limit ih => exact fun h => hstep _ _ (fun _ _ _ h => ih h) _ _ _ h

/-- A walk that finds something passes through what its first part finds. -/
theorem walk_append {limit : Nat} : ∀ {here a b q : List Str},
    tree.entry here = some .directory → tree.walk limit here (a ++ b) = .found q →
      ∃ p, tree.walk limit here a = .found p ∧ tree.walk limit p b = .found q ∧
        (b ≠ [] → tree.entry p = some .directory) := by
  have hstep : ∀ (follow : List Str → List Str → Lookup) (limit : Nat),
      (∀ here a b q, tree.entry here = some .directory → follow here (a ++ b) = .found q →
        ∃ p, follow here a = .found p ∧ tree.walk limit p b = .found q ∧
          (b ≠ [] → tree.entry p = some .directory)) →
      (∀ here comps, tree.walk limit here comps = tree.step follow here comps) →
      ∀ a b here q, tree.entry here = some .directory →
        tree.step follow here (a ++ b) = .found q →
          ∃ p, tree.step follow here a = .found p ∧ tree.walk limit p b = .found q ∧
            (b ≠ [] → tree.entry p = some .directory) := by
    intro follow limit hfollow hwalk a b
    induction a with
    | nil =>
        intro here q hat h
        exact ⟨here, rfl, (hwalk here b).trans h, fun _ => hat⟩
    | cons c rest ih =>
        intro here q hat h
        rw [List.cons_append, step] at h
        rw [step]
        split at h
        · rename_i hdot
          rw [if_pos hdot]
          exact ih here q hat h
        rename_i hdot
        rw [if_neg hdot]
        split at h
        · rename_i hdotDot
          rw [if_pos hdotDot]
          exact ih _ q (entry_dropLast hat) h
        rename_i hdotDot
        rw [if_neg hdotDot]
        cases he : tree.entry (here ++ [c]) with
        | none =>
            rw [he] at h
            simp only at h
            split at h <;> cases h
        | some e =>
            rw [he] at h
            cases e with
            | file =>
                simp only at h ⊢
                split at h
                · rename_i hnil
                  obtain ⟨rfl, rfl⟩ := List.append_eq_nil_iff.mp hnil
                  exact ⟨here ++ [c], rfl, walk_nil.trans h, fun hb => absurd rfl hb⟩
                · cases h
            | directory => exact ih _ q he h
            | link target =>
                simp only at h ⊢
                split at h
                · cases h
                · rename_i ht
                  rw [if_neg ht]
                  refine hfollow _ _ _ q ?_ (by rwa [List.append_assoc])
                  split
                  · exact tree.root
                  · exact hat
  induction limit with
  | zero =>
      exact fun hat h => hstep _ 0 (fun _ _ _ _ _ h => by cases h) (fun _ _ => rfl) _ _ _ _ hat h
  | succ limit ih =>
      intro here a b q hat h
      refine hstep _ (limit + 1) ?_ (fun _ _ => rfl) _ _ _ _ hat h
      intro here a b q hat h
      obtain ⟨p, hp, hq, hdir⟩ := ih hat h
      exact ⟨p, hp, walk_succ hq, hdir⟩

/-- Nothing can be reached below a path that leads to no object. -/
theorem walk_append_unresolvable {limit : Nat} : ∀ {here a b : List Str}, b ≠ [] →
    (∀ q, tree.walk limit here a ≠ .found q) → tree.walk limit here (a ++ b) = .unresolvable := by
  have hstep : ∀ follow : List Str → List Str → Lookup,
      (∀ here a b, b ≠ [] → (∀ q, follow here a ≠ .found q) →
        follow here (a ++ b) = .unresolvable) →
      ∀ a b here, b ≠ [] → (∀ q, tree.step follow here a ≠ .found q) →
        tree.step follow here (a ++ b) = .unresolvable := by
    intro follow hfollow a b
    induction a with
    | nil => exact fun here _ h => absurd rfl (h here)
    | cons c rest ih =>
        intro here hb h
        rw [step] at h
        rw [List.cons_append, step]
        split at h
        · rename_i hdot
          rw [if_pos hdot]
          exact ih _ hb h
        rename_i hdot
        rw [if_neg hdot]
        split at h
        · rename_i hdotDot
          rw [if_pos hdotDot]
          exact ih _ hb h
        rename_i hdotDot
        rw [if_neg hdotDot]
        have hne : rest ++ b ≠ [] := fun hnil => hb (List.append_eq_nil_iff.mp hnil).2
        cases he : tree.entry (here ++ [c]) with
        | none => simp only [if_neg hne]
        | some e =>
            rw [he] at h
            cases e with
            | file => simp only [if_neg hne]
            | directory => exact ih _ hb h
            | link target =>
                simp only at h ⊢
                split at h
                · rename_i ht
                  rw [if_pos ht]
                · rename_i ht
                  rw [if_neg ht, ← List.append_assoc]
                  exact hfollow _ _ _ hb h
  induction limit with
  | zero => exact fun hb h => hstep _ (fun _ _ _ _ _ => rfl) _ _ _ hb h
  | succ limit ih => exact fun hb h => hstep _ (fun _ _ _ hb h => ih hb h) _ _ _ hb h

/-! ## Rendered paths -/

theorem components_render {names : List Str} (hne : names ≠ []) (h : ∀ n ∈ names, IsName n) :
    components (render names) = names := by
  rw [components, endsWith_render hne h, segments_render h]
  simp

/-- A rendered path is walked from the root along its names. -/
theorem lookup_render {cwd : Str} {names : List Str} (h : ∀ n ∈ names, IsName n) :
    tree.lookup cwd (render names) = tree.walk tree.linkLimit [] names := by
  rw [lookup, if_neg (by simp [render]), isAbsolute_render, if_pos rfl]
  cases names with
  | nil =>
      have hdot : components (render []) = [dot] := by decide
      have hstep : ∀ follow, tree.step follow [] [dot] = .found [] := by
        intro follow
        rw [step, if_pos rfl, step]
      rw [hdot, walk_nil]
      cases tree.linkLimit with
      | zero => exact hstep _
      | succ limit => exact hstep _
  | cons n names => rw [components_render (by simp) h]

/-- An object that is no link is found at its own path. -/
theorem walk_self {limit : Nat} {p : List Str}
    (h : tree.IsObject p) :
    tree.walk limit [] p = .found p := by
  rcases h with h | h
  · obtain ⟨d, n, rfl⟩ : ∃ d n, p = d ++ [n] := by
      rcases List.eq_nil_or_concat p with rfl | ⟨d, n, rfl⟩
      · rw [tree.root] at h
        cases h
      · exact ⟨d, n, List.concat_eq_append⟩
    have hd : tree.entry ([] ++ d) = some .directory := tree.parent d n (by simp [h])
    have hn : IsName n := tree.named d n (by simp [h])
    rw [walk_directories hd, List.nil_append, walk_name hn (by simp [h]), if_neg (by simp [h])]
  · have hdir : tree.entry ([] ++ p) = some .directory := h
    have := @walk_directories tree limit [] p [] hdir
    rw [List.append_nil, walk_nil] at this
    exact this

/-- Below a file there is nothing. -/
theorem walk_below_file {limit : Nat} {p b : List Str} (h : tree.entry p = some .file)
    (hb : b ≠ []) : tree.walk limit [] (p ++ b) = .unresolvable := by
  obtain ⟨d, n, rfl⟩ : ∃ d n, p = d ++ [n] := by
    rcases List.eq_nil_or_concat p with rfl | ⟨d, n, rfl⟩
    · rw [tree.root] at h
      cases h
    · exact ⟨d, n, List.concat_eq_append⟩
  have hd : tree.entry ([] ++ d) = some .directory := tree.parent d n (by simp [h])
  have hn : IsName n := tree.named d n (by simp [h])
  have hstep : ∀ follow, tree.step follow d (n :: b) = .unresolvable := by
    intro follow
    rw [step_name hn, h]
    simp only [if_neg hb]
  rw [List.append_assoc, walk_directories hd, List.nil_append, List.singleton_append]
  cases limit with
  | zero => exact hstep _
  | succ limit => exact hstep _

/-! ## A tree given by its listing -/

/-- What a finite listing says about a location. -/
def entryIn (listing : List (List Str × Entry)) (p : List Str) : Option Entry :=
  if p = [] then some .directory else listing.lookup p

/-- Every listed entry is named and lies in a listed directory. -/
def WellListed (listing : List (List Str × Entry)) : Prop :=
  ∀ e ∈ listing, e.1 ≠ [] ∧ (∀ n ∈ e.1, IsName n) ∧
    entryIn listing e.1.dropLast = some .directory

instance : DecidablePred WellListed := fun _ => inferInstanceAs (Decidable (∀ e ∈ _, _))

theorem mem_of_lookup {listing : List (List Str × Entry)} {p : List Str}
    (h : listing.lookup p ≠ none) : ∃ e, (p, e) ∈ listing := by
  induction listing with
  | nil => exact absurd rfl h
  | cons head listing ih =>
      rw [List.lookup_cons] at h
      by_cases hp : p = head.1
      · exact ⟨head.2, by rw [hp]; exact List.mem_cons_self⟩
      · rw [beq_false_of_ne hp] at h
        obtain ⟨e, he⟩ := ih h
        exact ⟨e, List.mem_cons_of_mem _ he⟩

def ofListing (listing : List (List Str × Entry)) (h : WellListed listing) (linkLimit : Nat) :
    FileTree where
  entry := entryIn listing
  linkLimit := linkLimit
  root := rfl
  parent := by
    intro p n hne
    rw [entryIn, if_neg (by simp)] at hne
    obtain ⟨e, he⟩ := mem_of_lookup hne
    simpa using (h _ he).2.2
  named := by
    intro p n hne
    rw [entryIn, if_neg (by simp)] at hne
    obtain ⟨e, he⟩ := mem_of_lookup hne
    exact (h _ he).2.1 n (by simp)

end FileTree
