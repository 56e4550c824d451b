import VitoPlatform.Invocation.Keys
import VitoPlatform.Library.FileChanges

/-!
# The workspace file tool

`WorkspaceFileToolAdapter` of `workspace-file.adapter.ts`. A run is given by its result, the
object it has opened and the file tree it leaves. Paths that `path.resolve` has produced are
kept as their names, so `dirname` and `basename` are the names but the last, and the last.
The payload of a request is its `content` field, where that is a string.
-/

namespace Workspace

open Text PosixPath Policy Invocation

/-- What the adapter meets on the machine besides the process of the policy. -/
structure Disk where
  host : Host
  /-- `stat.size` of the file at a location. -/
  size : List Str → Nat
  /-- The system refuses to open the object at a location, whatever the tree says. -/
  refuses : List Str → Bool
  /-- The code or name of a thrown error. -/
  errorDetail : String
  /-- The answers of `isExpired` at the start, in the rounds of the probe, and at the end. -/
  expiredAtStart : Bool
  expiredAtRound : Nat → Bool
  expiredAtEnd : Bool

/-- The error of a result; none is retryable. -/
structure ToolError where
  code : String
  message : String

structure FileToolResult where
  status : AgentExecutionStatus
  error : Option ToolError
  outputReference : Option Str
  artifactReferences : List Str
  filesCreated : List Str
  filesModified : List Str
  bytes : Option Nat

structure FileToolRun where
  result : FileToolResult
  opened : Option (List Str)
  tree : FileTree

def supportedActions : List ExecutionAction := [.readFile, .createFile, .writeFile]

def maxContentBytes : Nat := 1024 * 1024

def maxReadBytes : Nat := 256 * 1024

def isInsidePath (child base : Str) : Bool := child == base || startsWith child (base ++ ['/'])

def toGovReference (relativePath : Str) : Str := "gov://workspace/".toList ++ relativePath

def failed (code message : String) : FileToolResult where
  status := .failed
  error := some ⟨code, message⟩
  outputReference := none
  artifactReferences := []
  filesCreated := []
  filesModified := []
  bytes := none

def timedOut : FileToolResult where
  status := .timedOut
  error := some
    ⟨"ADAPTER_TIMEOUT", "Workspace file tool exceeded its cooperative execution budget"⟩
  outputReference := none
  artifactReferences := []
  filesCreated := []
  filesModified := []
  bytes := none

namespace Disk

/-- A run that ends before it has opened anything. -/
def stopped (disk : Disk) (result : FileToolResult) : FileToolRun := ⟨result, none, disk.host.tree⟩

/-- What the handler of `execute` makes of an error. -/
def thrown (disk : Disk) : FileToolResult :=
  failed "FILE_TOOL_ERROR" ("Workspace file operation failed (" ++ disk.errorDetail ++ ")")

/-- `pathExists`, by `lstat`. -/
def pathExists (disk : Disk) (names : List Str) : Bool := (disk.host.tree.lstat names).isSome

end Disk

/-- `extractContent`: the number of bytes to write. -/
def extractContent (request : GovernedAdapterRequest) : Except ToolError Nat :=
  match request.governedInputPayload with
  | none => .error ⟨"INVALID_CONTENT", "content must be a string payload field"⟩
  | some content =>
      let bytes := (content.map fun c => c.utf8Size).sum
      if bytes > maxContentBytes then
        .error ⟨"CONTENT_TOO_LARGE", "content exceeds the governed size limit"⟩
      else .ok bytes

/-- Where the probe for an existing ancestor ends. -/
inductive Probe where
  | anchor (names : List Str)
  | escape
  | expired

/-- The loop of `execute` from the target up to the first path that exists, on the names from
the last; the root always exists. -/
def probe (disk : Disk) (baseReal : Str) (round : Nat) : List Str → Probe
  | [] => .anchor []
  | n :: above =>
      if disk.pathExists (n :: above).reverse then .anchor (n :: above).reverse
      else if !isInsidePath (render above.reverse) baseReal then .escape
      else if disk.expiredAtRound round then .expired
      else probe disk baseReal (round + 1) above

/-- `resolveExistingInside`: the real location of a target that exists. -/
def resolveExistingInside (disk : Disk) (target : List Str) (baseReal : Str) :
    Except FileToolResult (List Str) :=
  match disk.host.tree.lstat target with
  | none =>
      .error (failed "FILE_NOT_FOUND" "Target file does not exist inside the governed workspace")
  | some (.link _) => .error (failed "SYMLINK_ESCAPE" "Symbolic link targets are not permitted")
  | some _ =>
      match disk.host.tree.resolved target with
      | .found location =>
          if isInsidePath (render location) baseReal then .ok location
          else
            .error (failed "SYMLINK_ESCAPE" "Resolved file escapes the governed workspace")
      | _ => .error disk.thrown

def readFile (disk : Disk) (target : List Str) (baseReal : Str) : FileToolRun :=
  match resolveExistingInside disk target baseReal with
  | .error result => disk.stopped result
  | .ok location =>
      if disk.refuses location then disk.stopped disk.thrown
      else
        let finish (result : FileToolResult) : FileToolRun :=
          ⟨result, some location, disk.host.tree⟩
        if disk.host.tree.entry location ≠ some .file then
          finish (failed "FILE_TOOL_ERROR" "Target is not a regular file")
        else if disk.size location > maxReadBytes then
          finish (failed "READ_LIMIT_EXCEEDED" "File exceeds the governed read limit")
        else if disk.expiredAtEnd then finish timedOut
        else
          finish
            { status := .succeeded
              error := none
              outputReference := some
                (toGovReference (relative disk.host.cwd baseReal (render location)))
              artifactReferences := []
              filesCreated := []
              filesModified := []
              bytes := some (disk.size location) }

/-- The result of a successful creation (`created`) or modification. -/
def written (disk : Disk) (created : Bool) (baseReal : Str) (location : List Str) (bytes : Nat) :
    FileToolResult :=
  let relativePath := relative disk.host.cwd baseReal (render location)
  { status := .succeeded
    error := none
    outputReference := none
    artifactReferences := [toGovReference relativePath]
    filesCreated := if created then [relativePath] else []
    filesModified := if created then [] else [relativePath]
    bytes := some bytes }

/-- `fs.open(path.join(parentReal, path.basename(targetAbs)), 'wx')` and what follows it, in
the tree that `mkdir` has left. -/
def createIn (disk : Disk) (tree : FileTree) (parentReal : List Str) (name : Str)
    (baseReal : Str) (bytes : Nat) : FileToolRun :=
  if !isInsidePath (render parentReal) baseReal then
    ⟨failed "SYMLINK_ESCAPE" "Created parent directory escapes the governed workspace", none,
      tree⟩
  else if free : tree.Free parentReal name then
    if disk.refuses (parentReal ++ [name]) then ⟨disk.thrown, none, tree⟩
    else
      ⟨if disk.expiredAtEnd then timedOut
        else written disk true baseReal (parentReal ++ [name]) bytes,
        some (parentReal ++ [name]), tree.add parentReal name .file free⟩
  else ⟨disk.thrown, none, tree⟩

def createFile (disk : Disk) (request : GovernedAdapterRequest) (target : List Str)
    (baseReal : Str) : FileToolRun :=
  match extractContent request with
  | .error error => disk.stopped (failed error.code error.message)
  | .ok bytes =>
      match disk.host.tree.lstat target with
      | some (.link _) =>
          disk.stopped (failed "SYMLINK_ESCAPE" "Refusing to create through a symbolic link")
      | some _ =>
          disk.stopped (failed "FILE_ALREADY_EXISTS"
            "Exclusive creation requires a non-existing target")
      | none =>
          match target.reverse with
          | [] => disk.stopped disk.thrown
          | name :: above =>
              match disk.host.tree.mkdirRecursive above with
              | none => disk.stopped disk.thrown
              | some tree =>
                  match tree.resolved above.reverse with
                  | .found parentReal => createIn disk tree parentReal name baseReal bytes
                  | _ => ⟨disk.thrown, none, tree⟩

def writeFile (disk : Disk) (request : GovernedAdapterRequest) (target : List Str)
    (baseReal : Str) : FileToolRun :=
  match extractContent request with
  | .error error => disk.stopped (failed error.code error.message)
  | .ok bytes =>
      match resolveExistingInside disk target baseReal with
      | .error result => disk.stopped result
      | .ok location =>
          -- A directory cannot be opened for writing.
          if disk.refuses location || disk.host.tree.entry location ≠ some .file then
            disk.stopped disk.thrown
          else
            ⟨if disk.expiredAtEnd then timedOut else written disk false baseReal location bytes,
              some location, disk.host.tree⟩

/-- The part of `execute` after the probe. -/
def performAction (disk : Disk) (request : GovernedAdapterRequest) (action : ExecutionAction)
    (target : List Str) (baseReal : Str) : FileToolRun :=
  match action with
  | .readFile => readFile disk target baseReal
  | .createFile => createFile disk request target baseReal
  | .writeFile => writeFile disk request target baseReal
  | _ => disk.stopped (failed "UNSUPPORTED_ACTION" "Unhandled file action")

/-- The part of `execute` with the working directory dereferenced. -/
def executeIn (disk : Disk) (request : GovernedAdapterRequest) (action : ExecutionAction)
    (baseReal requestedPath : Str) : FileToolRun :=
  let target := resolveNames disk.host.cwd [baseReal, requestedPath]
  if !isInsidePath (render target) baseReal then
    disk.stopped
      (failed "PATH_ESCAPE" "Requested target resolves outside the governed workspace")
  else
    match probe disk baseReal 0 target.reverse with
    | .escape =>
        disk.stopped
          (failed "PATH_ESCAPE" "Requested parent chain leaves the governed workspace")
    | .expired => disk.stopped timedOut
    | .anchor names =>
        match disk.host.tree.resolved names with
        | .found anchorReal =>
            if isInsidePath (render anchorReal) baseReal then
              performAction disk request action target baseReal
            else
              disk.stopped (failed "SYMLINK_ESCAPE"
                "Existing path component escapes the governed workspace")
        | _ => disk.stopped disk.thrown

/-- `WorkspaceFileToolAdapter.execute`. -/
def WorkspaceFileToolAdapter.execute (disk : Disk) (request : GovernedAdapterRequest)
    (context : GovernedExecutionContext) : FileToolRun :=
  if disk.expiredAtStart then disk.stopped timedOut
  else
    match context.policyDecision.requestedAction.member?.filter supportedActions.contains with
    | none =>
        disk.stopped (failed "UNSUPPORTED_ACTION" ("Workspace file tool does not support " ++
          String.ofList (enumText executionActionText context.policyDecision.requestedAction)))
    | some action =>
        match truthy context.policyDecision.requestedPath with
        | none =>
            disk.stopped (failed "TARGET_PATH_REQUIRED"
              "File actions require an authoritative requestedPath")
        | some requestedPath =>
            match disk.host.tree.realpathSync disk.host.cwd
                context.environment.workingDirectory with
            | none => disk.stopped disk.thrown
            | some baseReal => executeIn disk request action baseReal requestedPath

end Workspace
