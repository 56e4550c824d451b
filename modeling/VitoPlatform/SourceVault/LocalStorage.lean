import VitoPlatform.SourceVault.Storage

/-!
# Objects in the file system

`LocalObjectStorageAdapter`: an object is the file at the names of its input below the root of the
vault. While no file lies elsewhere below the root (`Vault`), an ordinary put finds its directory or
makes it, and the adapter keeps the sources apart (`adapts`).
-/

namespace SourceVault

open Text Invocation PosixPath

/-- The working directory and `SOURCE_VAULT_LOCAL_DIR`, which hold no NUL. -/
structure LocalObjectStorageAdapter where
  cwd : Str
  configured : Option Str
  cwd_clear : '\x00' ∉ cwd
  configured_clear : ∀ dir ∈ configured, '\x00' ∉ dir

namespace LocalObjectStorageAdapter

abbrev Tree := FileStore Str Octets

/-- A system call on a path. -/
def systemCall {α : Type} (run : Tree → List Str → Except FileStore.ErrorCode α × Tree)
    (path : Str) (tree : Tree) : Attempt α × Tree :=
  if '\x00' ∈ path then (.error (.code .ERR_INVALID_ARG_VALUE), tree)
  else
    let (result, tree) := run tree (segments path)
    (result.mapError .code, tree)

def mkdir : Str → Tree → Attempt Unit × Tree := systemCall FileStore.mkdirp

def writeFile (body : Octets) : Str → Tree → Attempt Unit × Tree :=
  systemCall fun tree path => tree.writeFile path body

def readFile : Str → Tree → Attempt Octets × Tree :=
  systemCall fun tree path => (tree.readFile path, tree)

def access : Str → Tree → Attempt Unit × Tree :=
  systemCall fun tree path => (tree.access path, tree)

def unlink : Str → Tree → Attempt Unit × Tree := systemCall FileStore.unlink

variable (adapter : LocalObjectStorageAdapter)

def rootDir : Str := resolve adapter.cwd [adapter.configured.getD ".source-vault".toList]

def toRelativePath (input : PutObjectInput) : Str := joinPaths input.names

def uriFor (relativePath : Str) : Str :=
  "local://".toList ++ join ['/'] (relativePath.splitOn '/')

def pathFromUri (storageUri : Str) : Attempt Str :=
  if ¬ startsWith storageUri "local://".toList then
    .error (.error (lit "LocalObjectStorageAdapter kann nur local:// URIs lesen."))
  else
    let relative := normalizePathText (storageUri.drop "local://".length)
    let absolute := resolve adapter.cwd [adapter.rootDir, relative]
    let rootWithSep :=
      if endsWith adapter.rootDir ['/'] then adapter.rootDir else adapter.rootDir ++ ['/']
    if absolute ≠ adapter.rootDir ∧ ¬ startsWith absolute rootWithSep then
      .error (.error (lit
        "Ungültige Storage-URI außerhalb des SOURCE VAULT Root-Verzeichnisses."))
    else .ok absolute

/-- What a put returns. -/
def storedObject (input : PutObjectInput) : StoredObject where
  storageUri := uriFor (toRelativePath input)
  byteSize := input.body.length
  etag := none

def putImmutable (input : PutObjectInput) (tree : Tree) : Attempt StoredObject × Tree :=
  let relativePath := toRelativePath input
  let absolutePath := resolve adapter.cwd [adapter.rootDir, relativePath]
  match mkdir (dirname absolutePath) tree with
  | (.error error, tree) => (.error error, tree)
  | (.ok (), tree) =>
      match writeFile input.body absolutePath tree with
      | (.error error, tree) => (.error error, tree)
      | (.ok (), tree) => (.ok (storedObject input), tree)

def existsAt (storageUri : Str) (tree : Tree) : Attempt Bool × Tree :=
  match adapter.pathFromUri storageUri with
  | .error _ => (.ok false, tree)
  | .ok path =>
      match access path tree with
      | (.ok (), tree) => (.ok true, tree)
      | (.error _, tree) => (.ok false, tree)

def get (storageUri : Str) (tree : Tree) : Attempt Octets × Tree :=
  match adapter.pathFromUri storageUri with
  | .error error => (.error error, tree)
  | .ok path => readFile path tree

def delete (storageUri : Str) (tree : Tree) : Attempt Unit × Tree :=
  match adapter.pathFromUri storageUri with
  | .error error => (.error error, tree)
  | .ok path =>
      match unlink path tree with
      | (.error (.code .ENOENT), tree) => (.ok (), tree)
      | (result, tree) => (result, tree)

def port : ObjectStoragePort where
  State := Tree
  putImmutable := adapter.putImmutable
  existsAt := adapter.existsAt
  get := adapter.get
  delete := adapter.delete

variable {adapter} in
theorem port_putImmutable : adapter.port.putImmutable = adapter.putImmutable := by
  delta port
  dsimp only

/-! ## Where the objects lie -/

def rootNames : List Str := segments adapter.rootDir

def keyOf (storageUri : Str) : Option (List Str) :=
  match adapter.pathFromUri storageUri with
  | .error _ => none
  | .ok path => if '\x00' ∈ path then none else some (segments path)

/-- The files of the file system, and `raw/<organizationId>/<sourceId>/` of the vault root. -/
def view : View adapter.port where
  Key := List Str
  objects := FileStore.content
  keyOf := adapter.keyOf
  place input := adapter.rootNames ++ input.names
  Below organizationId sourceId path := ∃ name rest,
    path = adapter.rootNames ++ "raw".toList :: organizationId :: sourceId :: name :: rest

/-- No file is in the way of the root, and below the root there are the directories of
organizations and sources, and files in those of sources. -/
structure Vault (tree : Tree) : Prop where
  above : ∀ path, path <+: adapter.rootNames → ∀ body, tree.node path ≠ some (.file body)
  files : ∀ path body, tree.node (adapter.rootNames ++ path) = some (.file body) → path.length = 4
  directories : ∀ path, tree.node (adapter.rootNames ++ path) = some .directory → path.length < 4

variable {adapter} {tree : Tree} {input : PutObjectInput} {uri : Str}

theorem isName_rootNames : ∀ n ∈ adapter.rootNames, IsName n := by
  rw [rootNames, rootDir, resolve, segments_render isName_resolveNames]
  exact isName_resolveNames

theorem rootDir_eq : adapter.rootDir = render adapter.rootNames := by
  rw [rootNames, rootDir, resolve, segments_render isName_resolveNames]

theorem rootDir_clear : '\x00' ∉ adapter.rootDir := by
  intro h
  obtain h | h | ⟨dir, hdir, h⟩ := mem_resolve h
  · cases h
  · exact adapter.cwd_clear h
  · rw [List.mem_singleton] at hdir
    subst hdir
    cases hconfigured : adapter.configured with
    | none =>
        rw [hconfigured] at h
        exact absurd h (by decide)
    | some dir =>
        rw [hconfigured] at h
        exact adapter.configured_clear dir hconfigured h

theorem systemCall_render {α : Type} {run : Tree → List Str → Except FileStore.ErrorCode α × Tree}
    {names : List Str} (hclear : '\x00' ∉ render names) (h : ∀ n ∈ names, IsName n) :
    systemCall run (render names) tree =
      ((run tree names).1.mapError .code, (run tree names).2) := by
  rw [systemCall, if_neg hclear, segments_render h]

/-! ## The path and the URI of an input -/

theorem place_eq : adapter.rootNames ++ input.names =
    adapter.rootNames ++ input.directories ++ [sanitizeSegment input.filename] := by
  rw [List.append_assoc]
  rfl

theorem isName_place (hid : input.Identified) (hinput : input.Ordinary) :
    ∀ n ∈ adapter.rootNames ++ input.names, IsName n := fun n hn =>
  (List.mem_append.mp hn).elim (isName_rootNames n) (PutObjectInput.isName_names hid hinput n)

theorem toRelativePath_eq (hid : input.Identified) (hinput : input.Ordinary) :
    toRelativePath input = join ['/'] input.names :=
  joinPaths_names (List.cons_ne_nil _ _) (PutObjectInput.isName_names hid hinput)

theorem absolutePath_eq (hid : input.Identified) (hinput : input.Ordinary) :
    resolve adapter.cwd [adapter.rootDir, join ['/'] input.names] =
      render (adapter.rootNames ++ input.names) := by
  rw [resolve, rootDir_eq,
    resolveNames_join isName_rootNames (PutObjectInput.isName_names hid hinput)]

theorem clear_of_rootNames {names : List Str} (h : ∀ n ∈ names, '\x00' ∉ n) :
    '\x00' ∉ render (adapter.rootNames ++ names) := by
  intro hmem
  rw [render, List.mem_cons] at hmem
  obtain hmem | hmem := hmem
  · cases hmem
  · obtain hmem | ⟨n, hn, hmem⟩ := mem_join hmem
    · cases hmem
    · obtain hn | hn := List.mem_append.mp hn
      · exact rootDir_clear (subset_of_mem_segments hn hmem)
      · exact h n hn hmem

theorem clear_names : ∀ n ∈ input.names, '\x00' ∉ n := by
  intro n hn hmem
  simp only [PutObjectInput.names, List.mem_cons, List.not_mem_nil, or_false] at hn
  obtain rfl | rfl | rfl | rfl := hn
  · exact absurd hmem (by decide)
  · exact absurd (isSafe_sanitizeSegment _ hmem) (by decide)
  · exact absurd (isSafe_sanitizeSegment _ hmem) (by decide)
  · exact absurd (isSafe_sanitizeSegment _ hmem) (by decide)

/-- What lies below the root passes the test of `pathFromUri`. -/
theorem below_rootDir {names : List Str} (hne : names ≠ [])
    (h : ∀ n ∈ adapter.rootNames ++ names, IsName n) :
    startsWith (render (adapter.rootNames ++ names))
      (if endsWith adapter.rootDir ['/'] then adapter.rootDir else adapter.rootDir ++ ['/']) =
        true := by
  by_cases hroot : adapter.rootNames = []
  · have hdir : adapter.rootDir = ['/'] := by
      rw [rootDir_eq, hroot, render, join_nil]
    rw [hdir]
    rfl
  · have hnames : ∀ n ∈ adapter.rootNames, IsName n := isName_rootNames
    have hend := endsWith_render hroot hnames
    rw [← rootDir_eq] at hend
    rw [hend, if_neg (by decide), rootDir_eq]
    exact (startsWith_render isName_rootNames h).mpr ⟨hroot, names, hne, rfl⟩

/-- The URI of an input leads to its place. -/
theorem keyOf_uriFor (hid : input.Identified) (hinput : input.Ordinary) :
    adapter.keyOf (uriFor (toRelativePath input)) = some (adapter.rootNames ++ input.names) := by
  have hnames := PutObjectInput.isName_names hid hinput
  have hne : input.names ≠ [] := List.cons_ne_nil _ _
  have hall : ∀ n ∈ adapter.rootNames ++ input.names, IsName n := isName_place hid hinput
  have huri : uriFor (join ['/'] input.names) = "local://".toList ++ join ['/'] input.names :=
    congrArg _ (List.intercalate_splitOn '/')
  have hpath : adapter.pathFromUri ("local://".toList ++ join ['/'] input.names) =
      .ok (render (adapter.rootNames ++ input.names)) := by
    have hstarts : startsWith ("local://".toList ++ join ['/'] input.names) "local://".toList =
        true := List.isPrefixOf_iff_prefix.mpr (List.prefix_append _ _)
    have hdrop : ("local://".toList ++ join ['/'] input.names).drop "local://".length =
        join ['/'] input.names := List.drop_left
    simp only [pathFromUri, hstarts, not_true_eq_false, if_false, hdrop,
      normalizePathText_join hne hnames, absolutePath_eq hid hinput, below_rootDir hne hall,
      and_false]
  rw [keyOf, toRelativePath_eq hid hinput, huri, hpath]
  show (if '\x00' ∈ render (adapter.rootNames ++ input.names) then none
    else some (segments (render (adapter.rootNames ++ input.names)))) = _
  rw [if_neg (clear_of_rootNames clear_names), segments_render hall]

/-! ## The vault -/

/-- No file is in the way of a directory at most three names below the root. -/
theorem Vault.no_file (h : adapter.Vault tree) {names path : List Str} (hlength : names.length ≤ 3)
    (hpath : path <+: adapter.rootNames ++ names) (body : Octets) :
    tree.node path ≠ some (.file body) := by
  obtain hroot | ⟨below, rfl⟩ :=
    List.prefix_or_prefix_of_prefix hpath (List.prefix_append adapter.rootNames names)
  · exact h.above path hroot body
  · intro hfile
    have hbelow := ((List.prefix_append_right_inj _).mp hpath).length_le
    have hfour := h.files below body hfile
    omega

theorem Vault.made (h : adapter.Vault tree) {names : List Str} {after : Tree}
    (hlength : names.length ≤ 3)
    (hmade : FileStore.Made tree [] (adapter.rootNames ++ names) after) : adapter.Vault after := by
  refine ⟨fun path hpath body hfile => ?_, fun path body hfile => ?_, fun path hdirectory => ?_⟩
  · obtain hsame | ⟨hnew, -⟩ := hmade.others path
    · exact h.above path hpath body (hsame ▸ hfile)
    · rw [hnew] at hfile
      cases hfile
  · obtain hsame | ⟨hnew, -⟩ := hmade.others (adapter.rootNames ++ path)
    · exact h.files path body (hsame ▸ hfile)
    · rw [hnew] at hfile
      cases hfile
  · obtain hsame | ⟨-, q, hq, heq⟩ := hmade.others (adapter.rootNames ++ path)
    · exact h.directories path (hsame ▸ hdirectory)
    · have hle := hq.length_le
      rw [← List.nil_append q, ← heq, List.length_append, List.length_append] at hle
      omega

theorem Vault.add (h : adapter.Vault tree) {names : List Str} {n : Str} {body : Octets}
    (hlength : names.length = 3) (hdir : tree.node (adapter.rootNames ++ names) = some .directory)
    (hfree : tree.node (adapter.rootNames ++ names ++ [n]) = none) :
    adapter.Vault (tree.add (adapter.rootNames ++ names) n (.file body) hdir hfree) := by
  have hother {path : List Str} (hpath : path ≠ adapter.rootNames ++ names ++ [n]) :
      (tree.add (adapter.rootNames ++ names) n (.file body) hdir hfree).node path =
        tree.node path := Function.update_of_ne hpath _ _
  refine ⟨fun path hpath other hfile => ?_, fun path other hfile => ?_,
    fun path hdirectory => ?_⟩
  · have hne : path ≠ adapter.rootNames ++ names ++ [n] := by
      rintro rfl
      have hle := hpath.length_le
      simp only [List.length_append, List.length_singleton] at hle
      omega
    rw [hother hne] at hfile
    exact h.above path hpath other hfile
  · by_cases hpath : adapter.rootNames ++ path = adapter.rootNames ++ names ++ [n]
    · rw [List.append_assoc] at hpath
      rw [List.append_cancel_left hpath, List.length_append, hlength]
      rfl
    · rw [hother hpath] at hfile
      exact h.files path other hfile
  · have hne : adapter.rootNames ++ path ≠ adapter.rootNames ++ names ++ [n] := by
      intro hpath
      have hnew : (tree.add (adapter.rootNames ++ names) n (.file body) hdir hfree).node
          (adapter.rootNames ++ path) = some (.file body) := by
        rw [hpath]
        exact Function.update_self _ _ _
      rw [hnew] at hdirectory
      cases hdirectory
    rw [hother hne] at hdirectory
    exact h.directories path hdirectory

theorem Vault.unlink (h : adapter.Vault tree) (path : List Str) :
    adapter.Vault (tree.unlink path).2 := by
  have hnode {p : List Str} {node : FileStore.Node Octets}
      (hp : (tree.unlink path).2.node p = some node) : tree.node p = some node := by
    obtain hsame | hnone := tree.unlink_node p
    · rwa [hsame] at hp
    · rw [hnone] at hp
      cases hp
  exact ⟨fun p hp body hfile => h.above p hp body (hnode hfile),
    fun p body hfile => h.files p body (hnode hfile),
    fun p hdirectory => h.directories p (hnode hdirectory)⟩

/-! ## What the calls do -/

theorem mkdir_place (h : adapter.Vault tree) (hid : input.Identified) (hinput : input.Ordinary) :
    ∃ made : Tree, adapter.Vault made ∧ made.content = tree.content ∧
      made.node (adapter.rootNames ++ input.directories) = some .directory ∧
      mkdir (dirname (render (adapter.rootNames ++ input.names))) tree = (.ok (), made) := by
  have hlength : input.directories.length ≤ 3 := Nat.le_refl 3
  obtain ⟨made, hmkdirp, hmade, hcontent⟩ :=
    FileStore.mkdirp_ok fun path hpath => h.no_file hlength hpath
  refine ⟨made, h.made hlength hmade, hcontent, hmade.made _ (List.prefix_refl _), ?_⟩
  have hall : ∀ n ∈ adapter.rootNames ++ input.directories ++ [sanitizeSegment input.filename],
      IsName n := by
    rw [← place_eq]
    exact isName_place hid hinput
  have hdirname : dirname (render (adapter.rootNames ++ input.names)) =
      render (adapter.rootNames ++ input.directories) := by
    rw [place_eq, dirname_render hall]
  have hclear : '\x00' ∉ render (adapter.rootNames ++ input.directories) :=
    clear_of_rootNames fun n hn => clear_names n (List.mem_append_left _ hn)
  rw [hdirname, mkdir, systemCall_render hclear fun n hn => hall n (List.mem_append_left _ hn),
    hmkdirp]
  rfl

theorem writeFile_place (hid : input.Identified) (hinput : input.Ordinary) :
    writeFile input.body (render (adapter.rootNames ++ input.names)) tree =
      ((tree.writeNew (adapter.rootNames ++ input.directories) (sanitizeSegment input.filename)
        input.body).1.mapError .code,
       (tree.writeNew (adapter.rootNames ++ input.directories) (sanitizeSegment input.filename)
        input.body).2) := by
  rw [writeFile, systemCall_render (clear_of_rootNames clear_names) (isName_place hid hinput),
    place_eq, FileStore.writeFile_snoc]

/-- An ordinary put stores its object where there is none, or fails and changes no content. -/
theorem putImmutable_cases (h : adapter.Vault tree) (hid : input.Identified)
    (hinput : input.Ordinary) : ∃ after : Tree, adapter.Vault after ∧
      ((∃ object, adapter.keyOf object.storageUri = some (adapter.rootNames ++ input.names) ∧
          adapter.putImmutable input tree = (.ok object, after)) ∧
        tree.content (adapter.rootNames ++ input.names) = none ∧
        after.content = Function.update tree.content (adapter.rootNames ++ input.names)
          (some input.body) ∨
      (tree.content (adapter.rootNames ++ input.names)).isSome = true ∧
        adapter.putImmutable input tree = (.error (.code .EEXIST), after) ∧
        after.content = tree.content) := by
  obtain ⟨made, hmade, hcontent, hdir, hmkdir⟩ := mkdir_place h hid hinput
  have hwrite : writeFile input.body (render (adapter.rootNames ++ input.names)) made = _ :=
    writeFile_place hid hinput
  cases hnode : made.node (adapter.rootNames ++ input.names) with
  | none =>
      rw [place_eq] at hnode
      have hstored : adapter.Vault (made.add _ _ (.file input.body) hdir hnode) :=
        hmade.add rfl hdir hnode
      refine ⟨_, hstored, .inl ⟨⟨storedObject input, keyOf_uriFor hid hinput, ?_⟩, ?_, ?_⟩⟩
      · rw [FileStore.writeNew_ok hdir hnode] at hwrite
        rw [putImmutable, toRelativePath_eq hid hinput, absolutePath_eq hid hinput, hmkdir]
        dsimp only
        rw [hwrite]
        rfl
      · rw [← hcontent, place_eq, FileStore.content, hnode]
      · rw [FileStore.add_content hdir hnode, hcontent, place_eq]
  | some node =>
      refine ⟨made, hmade, .inr ⟨?_, ?_, hcontent⟩⟩
      · cases node with
        | directory =>
            have hlt := hmade.directories input.names hnode
            exact absurd hlt (Nat.lt_irrefl 4)
        | file body => rw [← hcontent, FileStore.content, hnode]; rfl
      · have hsome : made.node (adapter.rootNames ++ input.directories ++
            [sanitizeSegment input.filename]) ≠ none := by
          rw [← place_eq, hnode]
          intro h
          cases h
        rw [FileStore.writeNew_exists hdir hsome] at hwrite
        rw [putImmutable, toRelativePath_eq hid hinput, absolutePath_eq hid hinput, hmkdir]
        dsimp only
        rw [hwrite]
        rfl

theorem keyOf_eq_some {key : List Str} (h : adapter.keyOf uri = some key) :
    ∃ path, adapter.pathFromUri uri = .ok path ∧ '\x00' ∉ path ∧ segments path = key := by
  rw [keyOf] at h
  cases hpath : adapter.pathFromUri uri with
  | error error =>
      rw [hpath] at h
      cases h
  | ok path =>
      rw [hpath] at h
      dsimp only at h
      split at h
      · cases h
      · rename_i hclear
        exact ⟨path, rfl, hclear, Option.some.inj h⟩

theorem systemCall_tree {α : Type} {run : Tree → List Str → Except FileStore.ErrorCode α}
    {path : Str} : (systemCall (fun tree path => (run tree path, tree)) path tree).2 = tree := by
  rw [systemCall]
  split
  · rfl
  · rfl

theorem existsAt_tree : (adapter.existsAt uri tree).2 = tree := by
  rw [existsAt]
  cases adapter.pathFromUri uri with
  | error error => rfl
  | ok path =>
      have htree : (access path tree).2 = tree := systemCall_tree
      dsimp only
      split
      · rename_i heq
        rwa [heq] at htree
      · rename_i heq
        rwa [heq] at htree

theorem get_tree : (adapter.get uri tree).2 = tree := by
  rw [get]
  cases adapter.pathFromUri uri with
  | error error => rfl
  | ok path => exact systemCall_tree

/-- The bytes of a file are read by its URI. -/
theorem get_content {key : List Str} {body : Octets} (hkey : adapter.keyOf uri = some key)
    (hbody : tree.content key = some body) : (adapter.get uri tree).1 = .ok body := by
  obtain ⟨path, hpath, hclear, rfl⟩ := keyOf_eq_some hkey
  rw [get, hpath]
  show (readFile path tree).1 = .ok body
  rw [readFile, systemCall, if_neg hclear, FileStore.readFile_of_content hbody]
  rfl

/-- A delete unlinks the key of its URI. -/
theorem delete_tree : (adapter.delete uri tree).2 = match adapter.keyOf uri with
    | none => tree
    | some key => (tree.unlink key).2 := by
  rw [delete, keyOf]
  cases adapter.pathFromUri uri with
  | error error => rfl
  | ok path =>
      have htree : (unlink path tree).2 = match (if '\x00' ∈ path then none
          else some (segments path)) with
        | none => tree
        | some key => (tree.unlink key).2 := by
        rw [unlink, systemCall]
        split
        · rfl
        · rfl
      rw [← htree]
      dsimp only
      split
      · rename_i heq
        rw [heq]
      · rename_i heq
        rw [heq]

/-- What the adapter promises: identified and ordinary puts, and any other call. -/
def Regular : Call → Prop
  | .putImmutable input => input.Identified ∧ input.Ordinary
  | _ => True

theorem Vault.delete (h : adapter.Vault tree) (uri : Str) :
    adapter.Vault (adapter.delete uri tree).2 := by
  rw [delete_tree]
  cases adapter.keyOf uri with
  | none => exact h
  | some key => exact h.unlink key

theorem delete_content : (adapter.delete uri tree).2.content =
    (adapter.keyOf uri).elim tree.content fun key => Function.update tree.content key none := by
  rw [delete_tree]
  cases adapter.keyOf uri with
  | none => rfl
  | some key => exact FileStore.unlink_content

/-- The adapter keeps the sources apart. -/
theorem adapts : Adapts adapter.port adapter.view adapter.Vault Regular where
  put input tree hinput h := by
    obtain ⟨after, hafter, hcases⟩ := putImmutable_cases h hinput.1 hinput.2
    obtain ⟨⟨object, hkey, hput⟩, hnone, hcontent⟩ | ⟨hsome, hput, hcontent⟩ := hcases
    · rw [port_putImmutable, hput]
      exact ⟨hafter, .inl ⟨object, hkey, hnone, rfl, hcontent⟩⟩
    · rw [port_putImmutable, hput]
      exact ⟨hafter, .inr ⟨hsome, ⟨_, rfl⟩, hcontent⟩⟩
  existsAt uri tree _ h := by
    have hport : (adapter.port.existsAt uri tree).2 = tree := existsAt_tree
    rw [hport]
    exact ⟨h, rfl⟩
  get uri tree _ h := by
    have hport : (adapter.port.get uri tree).2 = tree := get_tree
    rw [hport]
    exact ⟨h, rfl⟩
  reads uri tree key body _ _ hkey hbody := get_content hkey hbody
  delete uri tree _ h := ⟨h.delete uri, delete_content⟩
  below input hinput := by
    show ∃ name rest, adapter.rootNames ++ input.names =
      adapter.rootNames ++ "raw".toList :: input.organizationId :: input.sourceId :: name :: rest
    rw [PutObjectInput.names_eq hinput.1 hinput.2]
    exact ⟨_, _, rfl⟩
  apart input other hinput hother heq :=
    PutObjectInput.apart hinput.1 hinput.2 hother.1 hother.2 (List.append_cancel_left heq)

/-- A vault that nothing has been stored in. -/
structure Fresh (adapter : LocalObjectStorageAdapter) (tree : Tree) : Prop where
  above : ∀ path, path <+: adapter.rootNames → ∀ body, tree.node path ≠ some (.file body)
  empty : ∀ path, path ≠ [] → tree.node (adapter.rootNames ++ path) = none

theorem Fresh.vault (h : adapter.Fresh tree) : adapter.Vault tree := by
  refine ⟨h.above, fun path body hfile => ?_, fun path hdirectory => ?_⟩
  · by_cases hpath : path = []
    · rw [hpath, List.append_nil] at hfile
      exact absurd hfile (h.above _ (List.prefix_refl _) body)
    · rw [h.empty path hpath] at hfile
      cases hfile
  · by_cases hpath : path = []
    · rw [hpath]
      exact Nat.zero_lt_succ 3
    · rw [h.empty path hpath] at hdirectory
      cases hdirectory

theorem Fresh.isolated (h : adapter.Fresh tree) {calls : List Call}
    (hcalls : ∀ call ∈ calls, Regular call) : Isolated adapter.port adapter.view tree calls := by
  refine adapts.isolated h.vault (fun input _ => ?_) hcalls
  show tree.content (adapter.rootNames ++ input.names) = none
  have hnone : tree.node (adapter.rootNames ++ input.names) = none :=
    h.empty input.names (List.cons_ne_nil _ _)
  rw [FileStore.content, hnone]

end LocalObjectStorageAdapter

end SourceVault
