import Mathlib.Data.List.Induction
import Mathlib.Logic.Function.Basic

/-!
# Files and their contents

A tree of directories and files without links, at locations that are lists of names. The structure
keeps its own shape: the root is a directory, and a node lies in a directory. The operations are
those of a program that writes every file once: recursive creation of a directory (`mkdirp`),
writing a file that must be new (`writeNew`), reading and unlinking. Each says what it does to the
contents of the files (`content`).
-/

inductive FileStore.Node (B : Type) where
  | directory
  | file (body : B)

/-- The codes of failed calls. -/
inductive FileStore.ErrorCode where
  | ENOENT
  | EEXIST
  | ENOTDIR
  | EISDIR
  | ERR_INVALID_ARG_VALUE
  deriving DecidableEq

structure FileStore (N B : Type) where
  node : List N → Option (FileStore.Node B)
  root : node [] = some .directory
  parent : ∀ p n, node (p ++ [n]) ≠ none → node p = some .directory

namespace FileStore

/-- Only the root. -/
def empty {N B : Type} : FileStore N B where
  node
    | [] => some .directory
    | _ :: _ => none
  root := rfl
  parent p n h := by
    cases p with
    | nil => rfl
    | cons m p => exact absurd rfl h

variable {N B : Type} {tree : FileStore N B} {here path dir rest : List N} {n : N} {body : B}

/-- The content of a file. -/
def content (tree : FileStore N B) (path : List N) : Option B :=
  match tree.node path with
  | some (.file body) => some body
  | _ => none

theorem content_eq_some : tree.content path = some body ↔ tree.node path = some (.file body) := by
  rw [content]
  split
  · rename_i other hnode
    rw [hnode]
    exact ⟨fun h => by rw [Option.some.inj h], fun h => by cases h; rfl⟩
  · rename_i hnode
    exact ⟨nofun, fun h => absurd h (hnode body)⟩

theorem content_congr {other : FileStore N B} (h : tree.node path = other.node path) :
    tree.content path = other.content path := by
  rw [content, content, h]

/-- What lies above a node is a directory. -/
theorem directory_of_append (h : tree.node (path ++ rest) ≠ none) (hrest : rest ≠ []) :
    tree.node path = some .directory := by
  induction rest using List.reverseRecOn with
  | nil => exact absurd rfl hrest
  | append_singleton rest n ih =>
      rw [← List.append_assoc] at h
      have hparent := tree.parent _ n h
      by_cases hnil : rest = []
      · rwa [hnil, List.append_nil] at hparent
      · refine ih (fun hnone => ?_) hnil
        rw [hnone] at hparent
        cases hparent

/-! ## Looking up -/

/-- Go down from a location. -/
def lookup (tree : FileStore N B) (here : List N) : List N → Except ErrorCode (Node B)
  | [] =>
      match tree.node here with
      | none => .error .ENOENT
      | some node => .ok node
  | n :: rest =>
      match tree.node here with
      | none => .error .ENOENT
      | some (.file _) => .error .ENOTDIR
      | some .directory => tree.lookup (here ++ [n]) rest

theorem lookup_eq_ok {node : Node B} :
    tree.lookup here rest = .ok node ↔ tree.node (here ++ rest) = some node := by
  induction rest generalizing here with
  | nil =>
      rw [lookup, List.append_nil]
      cases hnode : tree.node here with
      | none => exact ⟨nofun, nofun⟩
      | some other => exact ⟨fun h => by cases h; rfl, fun h => by cases h; rfl⟩
  | cons n rest ih =>
      rw [List.append_cons, ← ih, lookup]
      cases hnode : tree.node here with
      | none =>
          refine ⟨nofun, fun h => ?_⟩
          have hsome : tree.node (here ++ n :: rest) ≠ none := by
            rw [List.append_cons, ih.mp h]
            exact nofun
          rw [tree.directory_of_append hsome (List.cons_ne_nil n rest)] at hnode
          cases hnode
      | some other =>
          cases other with
          | directory => exact Iff.rfl
          | file body =>
              refine ⟨nofun, fun h => ?_⟩
              have hsome : tree.node (here ++ n :: rest) ≠ none := by
                rw [List.append_cons, ih.mp h]
                exact nofun
              rw [tree.directory_of_append hsome (List.cons_ne_nil n rest)] at hnode
              cases hnode

/-- `access`. -/
def access (tree : FileStore N B) (path : List N) : Except ErrorCode Unit :=
  (tree.lookup [] path).map fun _ => ()

def readFile (tree : FileStore N B) (path : List N) : Except ErrorCode B :=
  match tree.lookup [] path with
  | .error code => .error code
  | .ok .directory => .error .EISDIR
  | .ok (.file body) => .ok body

theorem readFile_of_content (h : tree.content path = some body) :
    tree.readFile path = .ok body := by
  have hlookup : tree.lookup [] path = .ok (.file body) := lookup_eq_ok.mpr (content_eq_some.mp h)
  rw [readFile, hlookup]

/-! ## Changes -/

variable [DecidableEq N]

/-- The tree with one more node, in a directory and under a free name. -/
def add (tree : FileStore N B) (dir : List N) (n : N) (node : Node B)
    (hdir : tree.node dir = some .directory) (hfree : tree.node (dir ++ [n]) = none) :
    FileStore N B where
  node := Function.update tree.node (dir ++ [n]) (some node)
  root := by
    rw [Function.update_of_ne fun h => List.cons_ne_nil n [] (List.append_eq_nil_iff.mp h.symm).2]
    exact tree.root
  parent := by
    intro p m hm
    have hp : tree.node p = some .directory := by
      by_cases hpath : p ++ [m] = dir ++ [n]
      · rw [(List.append_inj' hpath rfl).1, hdir]
      · rw [Function.update_of_ne hpath] at hm
        exact tree.parent p m hm
    rw [Function.update_of_ne ?_]
    · exact hp
    · rintro rfl
      rw [hfree] at hp
      cases hp

def remove (tree : FileStore N B) (path : List N) (body : B)
    (h : tree.node path = some (.file body)) : FileStore N B where
  node := Function.update tree.node path none
  root := by
    rw [Function.update_of_ne ?_]
    · exact tree.root
    · rintro rfl
      rw [tree.root] at h
      cases h
  parent := by
    intro p m hm
    have hp : tree.node p = some .directory := by
      refine tree.parent p m fun hnone => hm ?_
      by_cases hpath : p ++ [m] = path
      · rw [hpath, Function.update_self]
      · rw [Function.update_of_ne hpath, hnone]
    rw [Function.update_of_ne ?_]
    · exact hp
    · rintro rfl
      rw [hp] at h
      cases h

/-- `mkdir` with `recursive`, from a directory on. -/
def mkdirFrom (tree : FileStore N B) (here : List N) (hhere : tree.node here = some .directory) :
    List N → Except ErrorCode Unit × FileStore N B
  | [] => (.ok (), tree)
  | n :: rest =>
      match hnode : tree.node (here ++ [n]) with
      | some .directory => tree.mkdirFrom (here ++ [n]) hnode rest
      | some (.file _) => (.error (if rest = [] then .EEXIST else .ENOTDIR), tree)
      | none =>
          (tree.add here n .directory hhere hnode).mkdirFrom (here ++ [n])
            (Function.update_self _ _ _) rest

def mkdirp (tree : FileStore N B) (path : List N) : Except ErrorCode Unit × FileStore N B :=
  tree.mkdirFrom [] tree.root path

/-- Write a file that must be new, in a directory. -/
def writeNew (tree : FileStore N B) (dir : List N) (n : N) (body : B) :
    Except ErrorCode Unit × FileStore N B :=
  match hdir : tree.lookup [] dir with
  | .error code => (.error code, tree)
  | .ok (.file _) => (.error .ENOTDIR, tree)
  | .ok .directory =>
      match hfree : tree.node (dir ++ [n]) with
      | some _ => (.error .EEXIST, tree)
      | none => (.ok (), tree.add dir n (.file body) (lookup_eq_ok.mp hdir) hfree)

/-- `writeFile` with the flag `wx`. -/
def writeFile (tree : FileStore N B) (path : List N) (body : B) :
    Except ErrorCode Unit × FileStore N B :=
  match path.getLast? with
  | none => (.error .EEXIST, tree)
  | some n => tree.writeNew path.dropLast n body

def unlink (tree : FileStore N B) (path : List N) : Except ErrorCode Unit × FileStore N B :=
  match h : tree.lookup [] path with
  | .error code => (.error code, tree)
  | .ok .directory => (.error .EISDIR, tree)
  | .ok (.file body) => (.ok (), tree.remove path body (lookup_eq_ok.mp h))

/-- The tree after the directories down to a place have been made. -/
structure Made (tree : FileStore N B) (here rest : List N) (after : FileStore N B) : Prop where
  made : ∀ q, q <+: rest → after.node (here ++ q) = some .directory
  others : ∀ p, after.node p = tree.node p ∨
    after.node p = some .directory ∧ ∃ q, q <+: rest ∧ p = here ++ q

theorem Made.cons {middle after : FileStore N B} (h : Made middle (here ++ [n]) rest after)
    (hhere : tree.node here = some .directory)
    (hmiddle : ∀ p, middle.node p = tree.node p ∨
      middle.node p = some .directory ∧ p = here ++ [n]) : Made tree here (n :: rest) after := by
  have hothers : ∀ p, after.node p = tree.node p ∨
      after.node p = some .directory ∧ ∃ q, q <+: n :: rest ∧ p = here ++ q := by
    intro p
    obtain hp | ⟨hp, q, hq, rfl⟩ := h.others p
    · obtain hp' | ⟨hp', rfl⟩ := hmiddle p
      · exact .inl (hp.trans hp')
      · exact .inr ⟨hp.trans hp', [n], ⟨rest, rfl⟩, rfl⟩
    · exact .inr ⟨hp, n :: q, List.cons_prefix_cons.mpr ⟨rfl, hq⟩, (List.append_cons here n q).symm⟩
  refine ⟨fun q hq => ?_, hothers⟩
  cases q with
  | nil =>
      rw [List.append_nil]
      obtain hp | ⟨hp, -⟩ := hothers here
      · rw [hp, hhere]
      · exact hp
  | cons m q =>
      obtain ⟨rfl, hbelow⟩ := List.cons_prefix_cons.mp hq
      rw [List.append_cons]
      exact h.made q hbelow

theorem mkdirFrom_ok (hhere : tree.node here = some .directory)
    (hrest : ∀ q, q <+: rest → ∀ body, tree.node (here ++ q) ≠ some (.file body)) :
    ∃ after, tree.mkdirFrom here hhere rest = (.ok (), after) ∧ Made tree here rest after := by
  induction rest generalizing tree here with
  | nil =>
      refine ⟨tree, rfl, fun q hq => ?_, fun p => .inl rfl⟩
      rw [List.prefix_nil.mp hq, List.append_nil, hhere]
  | cons n rest ih =>
      have hbelow : ∀ q, q <+: rest → ∀ body, tree.node (here ++ [n] ++ q) ≠ some (.file body) := by
        intro q hq
        rw [← List.append_cons]
        exact hrest (n :: q) (List.cons_prefix_cons.mpr ⟨rfl, hq⟩)
      rw [mkdirFrom]
      split
      · rename_i hnode
        obtain ⟨after, hafter, hmade⟩ := ih hnode hbelow
        exact ⟨after, hafter, hmade.cons hhere fun p => .inl rfl⟩
      · rename_i body hnode
        exact absurd hnode (hrest [n] ⟨rest, rfl⟩ body)
      · rename_i hnode
        have hadded : ∀ p, (tree.add here n .directory hhere hnode).node p = tree.node p ∨
            (tree.add here n .directory hhere hnode).node p = some .directory ∧
              p = here ++ [n] := by
          intro p
          by_cases hp : p = here ++ [n]
          · exact .inr ⟨by rw [hp]; exact Function.update_self _ _ _, hp⟩
          · exact .inl (Function.update_of_ne hp _ _)
        have hadds : ∀ q, q <+: rest → ∀ body,
            (tree.add here n .directory hhere hnode).node (here ++ [n] ++ q) ≠
              some (.file body) := by
          intro q hq body
          obtain hsame | ⟨hnew, -⟩ := hadded (here ++ [n] ++ q)
          · rw [hsame]
            exact hbelow q hq body
          · rw [hnew]
            exact nofun
        obtain ⟨after, hafter, hmade⟩ := ih (Function.update_self _ _ _) hadds
        exact ⟨after, hafter, hmade.cons hhere hadded⟩

omit [DecidableEq N] in
theorem Made.content {after : FileStore N B} (h : Made tree here rest after)
    (hrest : ∀ q, q <+: rest → ∀ body, tree.node (here ++ q) ≠ some (.file body)) :
    after.content = tree.content := by
  funext p
  refine Option.ext fun body => ?_
  rw [content_eq_some, content_eq_some]
  obtain hp | ⟨hp, q, hq, rfl⟩ := h.others p
  · rw [hp]
  · rw [hp]
    exact ⟨nofun, fun hfile => absurd hfile (hrest q hq body)⟩

/-- Directories are made where no file is in the way, and no content changes. -/
theorem mkdirp_ok (h : ∀ q, q <+: path → ∀ body, tree.node q ≠ some (.file body)) :
    ∃ after, tree.mkdirp path = (.ok (), after) ∧ Made tree [] path after ∧
      after.content = tree.content := by
  obtain ⟨after, hafter, hmade⟩ := mkdirFrom_ok tree.root h
  exact ⟨after, hafter, hmade, hmade.content h⟩

theorem add_content (hdir : tree.node dir = some .directory)
    (hfree : tree.node (dir ++ [n]) = none) :
    (tree.add dir n (.file body) hdir hfree).content =
      Function.update tree.content (dir ++ [n]) (some body) := by
  funext p
  by_cases hp : p = dir ++ [n]
  · rw [hp, Function.update_self, content_eq_some]
    exact Function.update_self _ _ _
  · rw [Function.update_of_ne hp]
    exact content_congr (Function.update_of_ne hp _ _)

theorem writeNew_ok (hdir : tree.node dir = some .directory)
    (hfree : tree.node (dir ++ [n]) = none) :
    tree.writeNew dir n body = (.ok (), tree.add dir n (.file body) hdir hfree) := by
  have hlookup : tree.lookup [] dir = .ok .directory := lookup_eq_ok.mpr hdir
  rw [writeNew]
  split
  · rename_i code herror
    rw [hlookup] at herror
    cases herror
  · rename_i other hother
    rw [hlookup] at hother
    cases hother
  · split
    · rename_i node hnode
      rw [hfree] at hnode
      cases hnode
    · rfl

theorem writeNew_exists (hdir : tree.node dir = some .directory)
    (hnode : tree.node (dir ++ [n]) ≠ none) :
    tree.writeNew dir n body = (.error .EEXIST, tree) := by
  have hlookup : tree.lookup [] dir = .ok .directory := lookup_eq_ok.mpr hdir
  rw [writeNew]
  split
  · rename_i code herror
    rw [hlookup] at herror
    cases herror
  · rename_i other hother
    rw [hlookup] at hother
    cases hother
  · split
    · rfl
    · rename_i hfree
      exact absurd hfree hnode

theorem remove_content (h : tree.node path = some (.file body)) :
    (tree.remove path body h).content = Function.update tree.content path none := by
  funext p
  by_cases hp : p = path
  · rw [hp, Function.update_self, content]
    show (match Function.update tree.node path none path with
      | some (.file body) => some body
      | _ => none) = none
    rw [Function.update_self]
  · rw [Function.update_of_ne hp]
    exact content_congr (Function.update_of_ne hp _ _)

theorem writeFile_snoc : tree.writeFile (dir ++ [n]) body = tree.writeNew dir n body := by
  rw [writeFile, List.getLast?_concat, List.dropLast_concat]

/-- Unlinking takes away the content of a place, and of no other one. -/
theorem unlink_content :
    (tree.unlink path).2.content = Function.update tree.content path none := by
  have hsame (h : ∀ body, tree.lookup [] path ≠ .ok (.file body)) :
      tree.content = Function.update tree.content path none := by
    refine (Function.update_eq_self_iff.mpr ?_).symm
    cases hcontent : tree.content path with
    | none => rfl
    | some body => exact absurd (lookup_eq_ok.mpr (content_eq_some.mp hcontent)) (h body)
  rw [unlink]
  split
  · rename_i code herror
    exact hsame fun body h => by rw [herror] at h; cases h
  · rename_i hdirectory
    exact hsame fun body h => by rw [hdirectory] at h; cases h
  · rename_i body hfile
    exact remove_content (lookup_eq_ok.mp hfile)

/-- A file that is there is removed. -/
theorem unlink_of_content (h : tree.content path = some body) :
    (tree.unlink path).1 = .ok () := by
  have hlookup : tree.lookup [] path = .ok (.file body) := lookup_eq_ok.mpr (content_eq_some.mp h)
  rw [unlink]
  split
  · rename_i code herror
    rw [hlookup] at herror
    cases herror
  · rename_i hdirectory
    rw [hlookup] at hdirectory
    cases hdirectory
  · rfl

theorem unlink_node (p : List N) :
    (tree.unlink path).2.node p = tree.node p ∨ (tree.unlink path).2.node p = none := by
  rw [unlink]
  split
  · exact .inl rfl
  · exact .inl rfl
  · by_cases hp : p = path
    · subst hp
      exact .inr (Function.update_self _ _ _)
    · exact .inl (Function.update_of_ne hp _ _)

end FileStore
