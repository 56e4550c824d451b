import Mathlib.Logic.Function.Basic
import VitoPlatform.Library.Machine
import VitoPlatform.Library.PosixPath
import VitoPlatform.Library.Utf8

/-!
# The engineering worker

`tools/engineering-worker/server.mjs`, from the start of a process on: any number of requests to
execute, each at the point it waits at. The environment decides which of them goes on, what the
call it waits for has answered, and whether that has failed. The files are those that are there
when the process starts, and what the requests write; commands are taken to leave the artifacts
alone. A program that cannot be started ends the process, and with it the run.

Times, the limits of output and time, and the texts of internal errors are left out. The hash is a
parameter.
-/

namespace EngineeringWorker

open Text PosixPath

/-- The names of an absolute path. -/
abbrev Path := List Str

abbrev Octets := List UInt8

/-! ## Commands -/

/-- A program with its arguments. The empty command cannot be started. -/
abbrev Command := List Str

/-- The properties that every object of a script has. -/
def inheritedNames : List Str :=
  ["constructor".toList, "__defineGetter__".toList, "__defineSetter__".toList,
    "hasOwnProperty".toList, "__lookupGetter__".toList, "__lookupSetter__".toList,
    "isPrototypeOf".toList, "propertyIsEnumerable".toList, "toString".toList, "valueOf".toList,
    "__proto__".toList, "toLocaleString".toList]

/-- `profiles?.[name]`: an inherited property is found, but it is no command. -/
def lookupProfile (profiles : Option (List (Str × Command))) (name : Str) : Option Command :=
  profiles.bind fun profiles =>
    (profiles.lookup name).or (if name ∈ inheritedNames then some [] else none)

structure RepositoryConfig where
  /-- `path.resolve(config.canonicalPath)`. -/
  canonicalPath : Path
  buildProfiles : Option (List (Str × Command))
  testProfiles : Option (List (Str × Command))

structure Input where
  executionId : Option Str
  repositoryId : Str
  action : Str
  /-- `parameters?.profile`. -/
  profile : Option Str
  workflowRunId : Option Str
  workflowStepRunId : Option Str
  policyVersion : Option Str

def isSafeIdCharacter (c : Char) : Bool :=
  c.isAlphanum || c = '.' || c = '_' || c = ':' || c = '-'

/-- The condition of `assertSafeId`. -/
def isSafeId (value : Str) : Bool :=
  value.all isSafeIdCharacter && 1 ≤ value.length && value.length ≤ 160

def commandFor (action : Str) (profile : Option Str) (config : RepositoryConfig) :
    Except String (List Command) :=
  let name := profile.getD "default".toList
  if action = "GIT_INSPECT".toList then
    .ok [["git".toList, "branch".toList, "--show-current".toList],
      ["git".toList, "status".toList, "--short".toList],
      ["git".toList, "diff".toList, "--stat".toList],
      ["git".toList, "rev-parse".toList, "HEAD".toList]]
  else if action = "RUN_BUILD".toList then
    match lookupProfile config.buildProfiles name with
    | none => .error "BUILD_PROFILE_DENIED"
    | some command => .ok [command]
  else if action = "RUN_TESTS".toList then
    match lookupProfile config.testProfiles name with
    | none => .error "TEST_PROFILE_DENIED"
    | some command => .ok [command]
  else if action = "RUN_PRISMA_GENERATE".toList then
    .ok [["pnpm".toList, "prisma:generate".toList]]
  else .error "ACTION_DENIED"

structure Attempt where
  argv : Command
  /-- No code, if a signal has ended the program. -/
  exitCode : Option Int
  timedOut : Bool
  stdout : Str
  stderr : Str

def Attempt.failed (attempt : Attempt) : Bool := attempt.timedOut || attempt.exitCode ≠ some 0

/-- What is kept of one of the two outputs of all attempts. -/
def combined (output : Attempt → Str) (attempts : List Attempt) : Str :=
  join ['\n'] (attempts.map fun attempt =>
    "$ ".toList ++ join [' '] attempt.argv ++ '\n' :: output attempt)

/-! ## Results -/

structure ArtifactRef where
  path : Path
  sha256 : Str
  size : Nat

inductive ExecutionStatus where
  | running
  | succeeded
  | failed
  deriving DecidableEq

/-- The object that is stored for an execution, and changed while it runs. -/
structure Result where
  executionId : Str
  workflowRunId : Option Str
  workflowStepRunId : Option Str
  repositoryId : Str
  action : Str
  status : ExecutionStatus
  policyVersion : Str
  attempts : List Attempt
  exitCode : Option Int := none
  errorCode : Option String := none
  /-- `producedArtifactRefs`, the output before the errors. -/
  artifacts : List ArtifactRef := []

def artifactDirName : Str := ".vito-artifacts".toList

/-- `path.join(cwd, ARTIFACT_DIR_NAME, executionId)`. -/
def artifactRoot (cwd : Path) (executionId : Str) : Path :=
  pushSegment (cwd ++ [artifactDirName]) executionId

/-- The output that is written next, and its file. -/
inductive Output where
  | stdout
  | stderr
  deriving DecidableEq

def Output.fileName : Output → Str
  | .stdout => "stdout.txt".toList
  | .stderr => "stderr.txt".toList

def Output.of : Output → Attempt → Str
  | .stdout => Attempt.stdout
  | .stderr => Attempt.stderr

/-! ## Requests -/

inductive Response where
  /-- The stored object of a request, as it is when it is sent. -/
  | result (owner : Nat)
  | policyBlocked (code : String)
  | internalError

/-- Where a request waits. -/
inductive Phase where
  | received
  /-- For `realpath`, as execution `executionId`. -/
  | resolving (executionId : Str) (config : RepositoryConfig)
  /-- To go on after `realpath`. -/
  | resolved (executionId : Str) (config : RepositoryConfig) (path : Path)
  /-- For the first of some commands. -/
  | running (cwd : Path) (commands : List Command)
  /-- For the directory of an artifact. -/
  | makingDirectory (cwd : Path) (output : Output) (refs : List ArtifactRef)
  | writing (cwd : Path) (output : Output) (refs : List ArtifactRef)
  | reading (cwd : Path) (output : Output) (refs : List ArtifactRef)
  | answered (response : Response)

structure Session where
  input : Input
  phase : Phase
  /-- The object that the request has stored. -/
  result : Option Result

structure State where
  sessions : List Session
  /-- `executions`: which request's object is stored under an identifier. -/
  executions : Str → Option Nat
  files : Path → Option Octets

inductive Event where
  /-- The request is taken up, with an identifier that is generated if it names none. -/
  | start (generated : Str)
  /-- `realpath` has answered, or failed. -/
  | realpath (path : Option Path)
  | goOn
  /-- The command has ended, or could not be started. -/
  | ran (attempt : Option Attempt)
  /-- The step with a file or directory has been done. -/
  | done
  /-- It has failed, and some octets may have been written. -/
  | failed (written : Nat)

section Worker

variable (registry : List (Str × RepositoryConfig)) (sha256 : Octets → Str)

/-- Everything until the request waits for `realpath`. -/
def begin (executions : Str → Option Nat) (input : Input) (generated : Str) : Phase :=
  let executionId := input.executionId.getD generated
  if !isSafeId executionId then .answered (.policyBlocked "INVALID_EXECUTIONID")
  else if !isSafeId input.repositoryId then .answered (.policyBlocked "INVALID_REPOSITORYID")
  else if !isSafeId input.action then .answered (.policyBlocked "INVALID_ACTION")
  else
    match executions executionId with
    | some owner => .answered (.result owner)
    | none =>
        match registry.lookup input.repositoryId with
        | some config => .resolving executionId config
        | none =>
            -- An inherited property has no path that could be resolved.
            if input.repositoryId ∈ inheritedNames then .answered .internalError
            else .answered (.policyBlocked "UNKNOWN_REPOSITORY")

/-- The object that is stored when an execution begins. -/
def newResult (input : Input) (executionId : Str) : Result where
  executionId := executionId
  workflowRunId := input.workflowRunId
  workflowStepRunId := input.workflowStepRunId
  repositoryId := input.repositoryId
  action := input.action
  status := .running
  policyVersion := input.policyVersion.getD "worker-v0.1".toList
  attempts := []

/-- What follows the commands: the output is written. -/
def afterCommands (cwd : Path) : List Command → Phase
  | [] => .makingDirectory cwd .stdout []
  | commands => .running cwd commands

/-- The result of an execution whose artifacts are written. -/
def Result.settle (result : Result) (refs : List ArtifactRef) : Result :=
  let failed := result.attempts.any (·.failed)
  { result with
    status := if failed then .failed else .succeeded
    exitCode := (result.attempts.getLast?.map (·.exitCode)).getD (some 0)
    errorCode :=
      if result.attempts.any (·.timedOut) then some "TIMEOUT"
      else if failed then some "COMMAND_FAILED"
      else none
    artifacts := refs }

/-- The text of an output of an execution, as it is written. -/
def Result.content (result : Result) (output : Output) : Octets :=
  Utf8.encode (combined output.of result.attempts)

/-- The path of an output of an execution. -/
def Result.artifactPath (result : Result) (cwd : Path) (output : Output) : Path :=
  artifactRoot cwd result.executionId ++ [output.fileName]

def State.set (s : State) (i : Nat) (session : Session) : State :=
  { s with sessions := s.sessions.set i session }

def internalError : Phase := .answered .internalError

/-- Request `i` is at `session`, and goes on as the event says; other events are not for it. -/
def advance (s : State) (i : Nat) (session : Session) : Event → Option State
  | .start generated =>
      match session.phase with
      | .received =>
          some (s.set i
            { session with phase := begin registry s.executions session.input generated })
      | _ => none
  | .realpath path =>
      match session.phase, path with
      | .resolving executionId config, some path =>
          some (s.set i { session with phase := .resolved executionId config path })
      | .resolving _ _, none => some (s.set i { session with phase := internalError })
      | _, _ => none
  | .goOn =>
      match session.phase with
      | .resolved executionId config path =>
          if path ≠ config.canonicalPath then
            some (s.set i { session with
              phase := .answered (.policyBlocked "REPOSITORY_SYMLINK_ALIAS_DENIED") })
          else
            match commandFor session.input.action session.input.profile config with
            | .error code =>
                some (s.set i { session with phase := .answered (.policyBlocked code) })
            | .ok commands =>
                some
                  { sessions := s.sessions.set i
                      { session with
                        phase := afterCommands path commands
                        result := some (newResult session.input executionId) }
                    executions := Function.update s.executions executionId (some i)
                    files := s.files }
      | _ => none
  | .ran attempt =>
      match session.phase, session.result with
      | .running cwd (command :: commands), some result =>
          match attempt with
          | none => some (s.set i { session with phase := internalError })
          | some attempt =>
              if command = [] then some (s.set i { session with phase := internalError })
              else
                some (s.set i { session with
                  phase := afterCommands cwd (if attempt.failed then [] else commands)
                  result := some { result with
                    attempts := result.attempts ++ [{ attempt with argv := command }] } })
      | _, _ => none
  | .done =>
      match session.phase, session.result with
      | .makingDirectory cwd output refs, some _ =>
          some (s.set i { session with phase := .writing cwd output refs })
      | .writing cwd output refs, some result =>
          let path := result.artifactPath cwd output
          let next := { session with phase := .reading cwd output refs }
          -- A file that is there is kept.
          match s.files path with
          | some _ => some (s.set i next)
          | none => some { s.set i next with
              files := Function.update s.files path (some (result.content output)) }
      | .reading cwd output refs, some result =>
          let path := result.artifactPath cwd output
          match s.files path with
          | none => some (s.set i { session with phase := internalError })
          | some octets =>
              let refs := refs ++ [⟨path, sha256 octets, octets.length⟩]
              match output with
              | .stdout =>
                  some (s.set i { session with phase := .makingDirectory cwd .stderr refs })
              | .stderr =>
                  some (s.set i { session with
                    phase := .answered (.result i)
                    result := some (result.settle refs) })
      | _, _ => none
  | .failed written =>
      match session.phase, session.result with
      | .makingDirectory _ _ _, some _ | .reading _ _ _, some _ =>
          some (s.set i { session with phase := internalError })
      | .writing cwd output _, some result =>
          let path := result.artifactPath cwd output
          let failed := s.set i { session with phase := internalError }
          match s.files path with
          | some _ => some failed
          | none => some { failed with
              files := Function.update s.files path
                (if written = 0 then none else some ((result.content output).take written)) }
      | _, _ => none

/-- The request goes on, or the event is not for it. -/
def step (s : State) (input : Nat × Event) : Unit × State :=
  ((), ((s.sessions[input.1]?).bind fun session =>
    advance registry sha256 s input.1 session input.2).getD s)

/-- The process with these requests, and the files that it finds. -/
def initial (inputs : List Input) (files : Path → Option Octets) : State where
  sessions := inputs.map fun input => ⟨input, .received, none⟩
  executions _ := none
  files := files

abbrev Move := Machine.Move State (Nat × Event) Unit

/-- A run of the process. -/
abbrev Run (inputs : List Input) (files : Path → Option Octets) (moves : List Move) (s : State) :
    Prop :=
  Machine.Run (Machine.Follows (step registry sha256)) (initial inputs files) moves s

end Worker

end EngineeringWorker
