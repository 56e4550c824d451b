import VitoPlatform.Library.FileSystem

/-!
# Changing a file tree

Adding an entry to a file tree keeps its shape: the entry lies in a directory, under a free
name. A larger tree resolves every path that the smaller one resolves, to the same object.
Recursive directory creation walks back to the nearest ancestor that exists and creates what
is missing from there.
-/

open Text PosixPath

namespace FileTree

variable {tree tree' : FileTree}

/-- Room for an entry called `n` in the directory `dir`. -/
structure Free (tree : FileTree) (dir : List Str) (n : Str) : Prop where
  directory : tree.entry dir = some .directory
  name : IsName n
  absent : tree.entry (dir ++ [n]) = none

instance (tree : FileTree) (dir : List Str) (n : Str) : Decidable (tree.Free dir n) :=
  decidable_of_iff
    (tree.entry dir = some .directory ∧ IsName n ∧ tree.entry (dir ++ [n]) = none)
    ⟨fun h => ⟨h.1, h.2.1, h.2.2⟩, fun h => ⟨h.directory, h.name, h.absent⟩⟩

/-- The tree with one more entry. -/
def add (tree : FileTree) (dir : List Str) (n : Str) (e : Entry) (h : tree.Free dir n) :
    FileTree where
  entry p := if p = dir ++ [n] then some e else tree.entry p
  linkLimit := tree.linkLimit
  root := by
    rw [if_neg (by simp)]
    exact tree.root
  parent := by
    intro p m hm
    split at hm
    · rename_i heq
      obtain ⟨rfl, -⟩ := List.append_inj' heq rfl
      rw [if_neg (by simp)]
      exact h.directory
    · have hp := tree.parent p m hm
      split
      · rename_i heq
        rw [heq, h.absent] at hp
        cases hp
      · exact hp
  named := by
    intro p m hm
    split at hm
    · rename_i heq
      obtain ⟨-, hmn⟩ := List.append_inj' heq rfl
      rw [List.singleton_inj.mp hmn]
      exact h.name
    · exact tree.named p m hm

/-- The larger tree has the entries of the smaller one. -/
structure Within (tree tree' : FileTree) : Prop where
  entry : ∀ p, tree.entry p ≠ none → tree'.entry p = tree.entry p
  linkLimit : tree'.linkLimit = tree.linkLimit

theorem Within.refl (tree : FileTree) : Within tree tree := ⟨fun _ _ => rfl, rfl⟩

theorem Within.trans {tree'' : FileTree} (h : Within tree tree') (h' : Within tree' tree'') :
    Within tree tree'' := by
  refine ⟨fun p hp => ?_, h'.linkLimit.trans h.linkLimit⟩
  rw [h'.entry p (by rw [h.entry p hp]; exact hp), h.entry p hp]

/-- What the smaller tree finds, the larger one finds. -/
theorem Within.walk_found (h : Within tree tree') {limit : Nat} : ∀ {here comps q : List Str},
    tree.walk limit here comps = .found q → tree'.walk limit here comps = .found q := by
  have hstep : ∀ follow follow' : List Str → List Str → Lookup,
      (∀ here comps q, follow here comps = .found q → follow' here comps = .found q) →
      ∀ comps here q, tree.step follow here comps = .found q →
        tree'.step follow' here comps = .found q := by
    intro follow follow' hfollow comps
    induction comps with
    | nil => exact fun here q hq => hq
    | cons c rest ih =>
        intro here q hq
        rw [step] at hq ⊢
        split at hq
        · rename_i hdot
          rw [if_pos hdot]
          exact ih _ _ hq
        rename_i hdot
        rw [if_neg hdot]
        split at hq
        · rename_i hdotDot
          rw [if_pos hdotDot]
          exact ih _ _ hq
        rename_i hdotDot
        rw [if_neg hdotDot]
        cases he : tree.entry (here ++ [c]) with
        | none =>
            rw [he] at hq
            simp only at hq
            split at hq <;> cases hq
        | some e =>
            rw [he] at hq
            rw [h.entry _ (by simp [he]), he]
            cases e with
            | file => exact hq
            | directory => exact ih _ _ hq
            | link target =>
                simp only at hq ⊢
                split at hq
                · cases hq
                · rename_i ht
                  rw [if_neg ht]
                  exact hfollow _ _ _ hq
  induction limit with
  | zero => exact fun hq => hstep _ _ (fun _ _ _ hq => by cases hq) _ _ _ hq
  | succ limit ih => exact fun hq => hstep _ _ (fun _ _ _ hq => ih hq) _ _ _ hq

/-- Where the resolved path with these names leads. -/
def resolved (tree : FileTree) (names : List Str) : Lookup := tree.walk tree.linkLimit [] names

/-- `lstat`: the entry at a resolved path, its last component not followed. -/
def lstat (tree : FileTree) (names : List Str) : Option Entry :=
  match names.getLast? with
  | none => some .directory
  | some n =>
      match tree.resolved names.dropLast with
      | .found dir => tree.entry (dir ++ [n])
      | _ => none

/-- `mkdir` of one directory; `none` is an error. -/
def mkdir (tree : FileTree) (parent : List Str) (n : Str) : Option FileTree :=
  match tree.resolved parent with
  | .found dir => if h : tree.Free dir n then some (tree.add dir n .directory h) else none
  | _ => none

/-- `mkdir` with `recursive: true`, on the names of the path from its end: an existing
directory is left as it is, else its parent is created first. -/
def mkdirRecursive (tree : FileTree) : List Str → Option FileTree
  | [] => some tree
  | n :: above =>
      match tree.resolved (above.reverse ++ [n]) with
      | .found p => if tree.entry p = some .directory then some tree else none
      | _ => (mkdirRecursive tree above).bind fun tree' => tree'.mkdir above.reverse n

end FileTree
