import VitoPlatform.Library.Text
import Mathlib.Tactic.Tauto

/-!
# The arguments of a launched agent

`CloudGovernedSandboxExecutor.execute` rebuilds the arguments of an invocation that begins with
`run`, where `buildRunArgs` denies the choice of a model or a provider and sees to the log lines that
the identity is read from. Other arguments are passed on as they are.
-/

namespace CloudExecution

open Text

/-! ## What is asked for -/

structure LaunchError where
  code : Str
  message : Str

/-- The fields of a `SandboxExecutionRequest` that are read before the process is started. -/
structure SandboxExecutionRequest where
  worktreePath : Str
  resolvedPath : Str
  args : List Str
  prompt : Option Str
  timeoutMs : Nat
  env : Option (List (Str × Str))
  /-- `cancellationSignal.aborted` -/
  aborted : Bool
  credentialReference : Option Str

/-- What the executor finds around it: the session that has been created, the credentials, and the
file of the SQLite credential as `isFile` and `size`. -/
structure Surroundings where
  sessionDir : Str
  path : Option Str
  resolve : Str → Option Str
  sqliteCredential : Option (Bool × Nat)

def SANDBOX_SYSTEM_MANAGED_ENV : List Str :=
  ["HOME".toList, "TMPDIR".toList, "XDG_CONFIG_HOME".toList, "XDG_CACHE_HOME".toList,
    "XDG_DATA_HOME".toList]

def SANDBOX_CALLER_PERMITTED_ENV : List Str :=
  ["PATH".toList, "USER".toList, "LANG".toList, "LC_ALL".toList, "EXECUTION_TIMEOUT_MS".toList,
    "EXECUTION_MAX_TOKENS".toList, "EXECUTION_MAX_COST_MINOR_UNITS".toList,
    "CAPABILITY_CODE".toList, "PROVIDER_ID".toList, "ORGANIZATION_ID".toList,
    "WORKFLOW_RUN_ID".toList, "WORKFLOW_STEP_RUN_ID".toList, "CORRELATION_ID".toList,
    "INVOCATION_ID".toList]

def DEFAULT_PATH : Str := "/usr/local/bin:/usr/bin:/bin".toList

def DEFAULT_MAX_DURATION_MS : Nat := 600000

def OPENCODE_SQLITE_CREDENTIAL_MARKER : Str := "opencode-sqlite-v1".toList

@[irreducible] def MAX_OPENCODE_SQLITE_CREDENTIAL_BYTES : Nat := 32 * 1024 * 1024

/-- `env[key] = value` -/
def setEnv (env : List (Str × Str)) (key value : Str) : List (Str × Str) :=
  if env.any (·.1 = key) then env.map fun entry => if entry.1 = key then (key, value) else entry
  else env ++ [(key, value)]

def serverEnv (surroundings : Surroundings) : List (Str × Str) :=
  let sessionDir := surroundings.sessionDir
  [("HOME".toList, sessionDir),
    ("TMPDIR".toList, sessionDir ++ "/tmp".toList),
    ("XDG_CONFIG_HOME".toList, sessionDir ++ "/.config".toList),
    ("XDG_CACHE_HOME".toList, sessionDir ++ "/.cache".toList),
    ("XDG_DATA_HOME".toList, sessionDir ++ "/.local/share".toList),
    ("PATH".toList, surroundings.path.getD DEFAULT_PATH),
    ("OPENCODE_DISABLE_MODELS_FETCH".toList, ['1']),
    ("OPENCODE_DISABLE_AUTOUPDATE".toList, ['1'])]

def buildProcessEnv (surroundings : Surroundings) (callerEnv : Option (List (Str × Str))) :
    Except LaunchError (List (Str × Str)) :=
  (callerEnv.getD []).foldlM (fun env entry =>
    if entry.1 ∈ SANDBOX_SYSTEM_MANAGED_ENV then
      .error ⟨"ENV_OVERRIDE_DENIED".toList, "Environment variable '".toList ++ entry.1 ++
        "' is system-managed and cannot be overridden by callers".toList⟩
    else if entry.1 ∉ SANDBOX_CALLER_PERMITTED_ENV then
      .error ⟨"ENV_NOT_ALLOWED".toList, "Environment variable '".toList ++ entry.1 ++
        "' is not in the caller-permitted sandbox allowlist".toList⟩
    else .ok (setEnv env entry.1 entry.2)) (serverEnv surroundings)

/-- What is written into the session. -/
inductive Credential where
  | none
  | authJson (payload : Str)
  | sqlite

def materializeCredential (surroundings : Surroundings) (credentialReference : Option Str) :
    Except LaunchError Credential :=
  match credentialReference with
  | .none => .ok .none
  | some reference =>
      match surroundings.resolve reference with
      | .none => .error ⟨"CREDENTIAL_RESOLUTION_FAILED".toList,
          "Cloud credential reference could not be resolved (fail closed)".toList⟩
      | some payload =>
          if payload = OPENCODE_SQLITE_CREDENTIAL_MARKER then
            match surroundings.sqliteCredential with
            | .none => .error ⟨"OPENCODE_SQLITE_CREDENTIAL_UNAVAILABLE".toList,
                "OpenCode SQLite credential source is unavailable (fail closed)".toList⟩
            | some (isFile, size) =>
                if !isFile || size = 0 || MAX_OPENCODE_SQLITE_CREDENTIAL_BYTES < size then
                  .error ⟨"OPENCODE_SQLITE_CREDENTIAL_INVALID".toList,
                    "OpenCode SQLite credential source is not a bounded regular file".toList⟩
                else .ok .sqlite
          else .ok (.authJson payload)

/-! ## The arguments -/

/-- `ALLOWED_LOG_LEVELS.has(value.toLowerCase())`. No letter beyond ASCII has one of the letters of
these words as its small letter. -/
def isAllowedLogLevel (value : Str) : Bool :=
  value.map Char.toLower ∈ ["trace".toList, "debug".toList, "info".toList]

def DEFAULT_LOG_LEVEL : Str := "info".toList

def overrideDenied : LaunchError :=
  ⟨"PROVIDER_MODEL_OVERRIDE_DENIED".toList,
    "caller/operator model or provider selection is not allowed in governed cloud execution".toList⟩

def logLevelDenied : LaunchError :=
  ⟨"CLOUD_AGENT_LOG_LEVEL_DENIED".toList,
    "governed cloud identity observability requires an info-compatible log level".toList⟩

def logLevelAmbiguous : LaunchError :=
  ⟨"CLOUD_AGENT_ARGS_INVALID".toList, "cloud agent log level is ambiguous".toList⟩

/-- The arguments that the loop denies. -/
def isDeniedArg (arg : Str) : Bool :=
  arg = "-m".toList || arg = "--model".toList || arg = "--provider".toList ||
    startsWith arg "--model=".toList || startsWith arg "--provider=".toList

def LOG_LEVEL : Str := "--log-level".toList

def LOG_LEVEL_PREFIX : Str := "--log-level=".toList

def PRINT_LOGS : Str := "--print-logs".toList

/-- The loop of `buildRunArgs`. `seen` is the log level, if there has been one. -/
def scanArgs : List Str → Option Str → Except LaunchError (Option Str)
  | [], seen => .ok seen
  | arg :: rest, seen =>
      if isDeniedArg arg then .error overrideDenied
      else if arg = LOG_LEVEL then
        match rest with
        | [] => .error logLevelDenied
        | value :: rest =>
            if value = [] || startsWith value ['-'] || !isAllowedLogLevel value then
              .error logLevelDenied
            else if seen.isSome then .error logLevelAmbiguous
            else scanArgs rest (some value)
      else if startsWith arg LOG_LEVEL_PREFIX then
        if !isAllowedLogLevel (arg.drop LOG_LEVEL_PREFIX.length) then .error logLevelDenied
        else if seen.isSome then .error logLevelAmbiguous
        else scanArgs rest (some (arg.drop LOG_LEVEL_PREFIX.length))
      else scanArgs rest seen

def buildRunArgs (args : List Str) (hasGovernedPrompt : Bool) : Except LaunchError (List Str) :=
  match args with
  | [] => .error ⟨"CLOUD_AGENT_ARGS_INVALID".toList,
      "cloud agent invocation must use the run subcommand".toList⟩
  | command :: rest =>
      if command ≠ "run".toList then
        .error ⟨"CLOUD_AGENT_ARGS_INVALID".toList,
          "cloud agent invocation must use the run subcommand".toList⟩
      else (scanArgs rest none).map fun seen =>
        ["run".toList] ++ (if PRINT_LOGS ∈ rest then [] else [PRINT_LOGS]) ++
          (if seen.isSome then [] else [LOG_LEVEL, DEFAULT_LOG_LEVEL]) ++ rest ++
          (if hasGovernedPrompt && ['-'] ∉ rest then [['-']] else [])

/-- The arguments of `spawnBounded` that come from the request. -/
structure Launch where
  executablePath : Str
  args : List Str
  prompt : Option Str
  cwd : Str
  processEnv : List (Str × Str)
  timeoutMs : Nat
  credential : Credential

inductive Execution where
  | cancelled
  | launched (launch : Launch)

def launchArgs (args : List Str) (hasGovernedPrompt : Bool) : Except LaunchError (List Str) :=
  if args.head? = some "run".toList then buildRunArgs args hasGovernedPrompt else .ok args

/-- What `spawnBounded` is called with. -/
def launchOf (request : SandboxExecutionRequest) (credential : Credential)
    (processEnv : List (Str × Str)) (args : List Str) : Launch where
  executablePath := request.resolvedPath
  args := args
  prompt := request.prompt
  cwd := request.worktreePath
  processEnv := processEnv
  timeoutMs :=
    max 1000 (if request.timeoutMs = 0 then DEFAULT_MAX_DURATION_MS else request.timeoutMs)
  credential := credential

/-- `execute`, up to the start of the process. -/
def execute (surroundings : Surroundings) (request : SandboxExecutionRequest) :
    Except LaunchError Execution :=
  if request.aborted then .ok .cancelled
  else if request.resolvedPath = [] then
    .error ⟨"CLOUD_EXECUTABLE_EMPTY".toList,
      "Cloud execution requires a non-empty resolved executable path".toList⟩
  else do
    let credential ← materializeCredential surroundings request.credentialReference
    let processEnv ← buildProcessEnv surroundings request.env
    let args ← launchArgs request.args request.prompt.isSome
    return .launched (launchOf request credential processEnv args)

/-! ## What the launcher is told -/

/-- The choice of a model or a provider, in any spelling. -/
def IsOverride (arg : Str) : Prop :=
  arg = "--model".toList ∨ arg = "--provider".toList ∨ startsWith arg "--model=".toList = true ∨
    startsWith arg "--provider=".toList = true ∨ startsWith arg "-m".toList = true

instance : DecidablePred IsOverride := fun _ => inferInstanceAs (Decidable (_ ∨ _))

/-- The log levels that are set, one after another; a last one may be without a value. -/
def logLevels : List Str → List (Option Str)
  | [] => []
  | arg :: rest =>
      if arg = LOG_LEVEL then
        match rest with
        | [] => [none]
        | value :: rest => some value :: logLevels rest
      else if startsWith arg LOG_LEVEL_PREFIX then
        some (arg.drop LOG_LEVEL_PREFIX.length) :: logLevels rest
      else logLevels rest

/-- What a launcher may be told for the arguments of a caller. -/
structure SafeArgs (args launched : List Str) : Prop where
  noOverride : ∀ arg ∈ launched, ¬ IsOverride arg
  printLogs : PRINT_LOGS ∈ launched
  logLevel : ∃ level, logLevels launched = [some level] ∧ isAllowedLogLevel level = true
  keeps : args.Sublist launched

/-- A `run` with no attached `-m`, or arguments that are safe as they are. -/
def SafelyRequested (args : List Str) : Prop :=
  if args.head? = some "run".toList then ∀ arg ∈ args, startsWith arg "-m".toList = false
  else SafeArgs args args

section Arguments

variable {args rest launched more : List Str} {seen level : Option Str} {arg : Str}
variable {surroundings : Surroundings} {request : SandboxExecutionRequest} {launch : Launch}
variable {hasPrompt : Bool}

theorem logLevels_name {value : Str} :
    logLevels (LOG_LEVEL :: value :: rest) = some value :: logLevels rest := by
  rw [logLevels, if_pos rfl]

theorem logLevels_inline (hname : arg ≠ LOG_LEVEL) (h : startsWith arg LOG_LEVEL_PREFIX = true) :
    logLevels (arg :: rest) = some (arg.drop LOG_LEVEL_PREFIX.length) :: logLevels rest := by
  rw [logLevels.eq_def]
  exact (if_neg hname).trans (if_pos h)

theorem logLevels_other (hname : arg ≠ LOG_LEVEL) (h : ¬ startsWith arg LOG_LEVEL_PREFIX = true) :
    logLevels (arg :: rest) = logLevels rest := by
  rw [logLevels.eq_def]
  exact (if_neg hname).trans (if_neg h)

/-- What the loop lets pass: at most one log level, an allowed one, and none if there has been one.
Behind the arguments more can follow. -/
theorem scanArgs_ok (h : scanArgs rest seen = .ok level) :
    (∀ more, logLevels (rest ++ more) = logLevels rest ++ logLevels more) ∧
      ((level = seen ∧ logLevels rest = []) ∨
        (seen = none ∧ ∃ value, level = some value ∧ logLevels rest = [some value] ∧
          isAllowedLogLevel value = true)) := by
  fun_induction scanArgs rest seen with
  | case1 seen =>
      obtain rfl := Except.ok.inj h
      exact ⟨fun _ => rfl, .inl ⟨rfl, rfl⟩⟩
  | case2 | case3 | case4 | case5 | case7 | case8 => cases h
  | case6 seen value rest hvalue hseen _ ih =>
      obtain ⟨happend, hlevel⟩ := ih h
      obtain ⟨rfl, hnil⟩ : level = some value ∧ logLevels rest = [] := by simpa using hlevel
      have hallowed : isAllowedLogLevel value = true := by
        simp only [Bool.or_eq_true, Bool.not_eq_true', not_or, Bool.not_eq_false] at hvalue
        exact hvalue.2
      refine ⟨fun more => ?_, .inr ⟨by simpa using hseen, value, rfl, ?_, hallowed⟩⟩
      · rw [List.cons_append, List.cons_append, logLevels_name, logLevels_name, happend,
          List.cons_append]
      · rw [logLevels_name, hnil]
  | case9 arg rest seen _ hname hprefix hvalue hseen ih =>
      obtain ⟨happend, hlevel⟩ := ih h
      obtain ⟨rfl, hnil⟩ : level = some (arg.drop LOG_LEVEL_PREFIX.length) ∧
        logLevels rest = [] := by simpa using hlevel
      refine ⟨fun more => ?_, .inr ⟨by simpa using hseen, _, rfl, ?_, by simpa using hvalue⟩⟩
      · rw [List.cons_append, logLevels_inline hname hprefix, logLevels_inline hname hprefix,
          happend, List.cons_append]
      · rw [logLevels_inline hname hprefix, hnil]
  | case10 arg rest seen _ hname hprefix ih =>
      obtain ⟨happend, hlevel⟩ := ih h
      rw [logLevels_other hname hprefix]
      refine ⟨fun more => ?_, hlevel⟩
      rw [List.cons_append, logLevels_other hname hprefix, happend]

theorem isOverride_of_not_denied (h : ¬ isDeniedArg arg = true) (hoverride : IsOverride arg) :
    startsWith arg "-m".toList = true := by
  simp only [isDeniedArg, Bool.or_eq_true, decide_eq_true_eq, not_or] at h
  obtain hm | hp | hm | hp | hm := hoverride
  · exact absurd hm h.1.1.1.2
  · exact absurd hp h.1.1.2
  · exact absurd hm h.1.2
  · exact absurd hp h.2
  · exact hm

theorem startsWith_trans {a b c : Str} (hab : startsWith a b = true) (hbc : startsWith b c = true) :
    startsWith a c = true :=
  List.isPrefixOf_iff_prefix.mpr
    ((List.isPrefixOf_iff_prefix.mp hbc).trans (List.isPrefixOf_iff_prefix.mp hab))

/-- Every spelling begins with a dash. -/
theorem IsOverride.dash (h : IsOverride arg) : startsWith arg ['-'] = true := by
  obtain rfl | rfl | h | h | h := h
  · decide
  · decide
  · exact startsWith_trans h (by decide)
  · exact startsWith_trans h (by decide)
  · exact startsWith_trans h (by decide)

/-- The only spelling that the loop lets pass is the attached one. -/
theorem scanArgs_noOverride (h : scanArgs rest seen = .ok level) :
    ∀ arg ∈ rest, IsOverride arg → startsWith arg "-m".toList = true := by
  fun_induction scanArgs rest seen with
  | case1 => nofun
  | case2 | case3 | case4 | case5 | case7 | case8 => cases h
  | case6 seen value rest hvalue hseen _ ih =>
      rw [List.forall_mem_cons, List.forall_mem_cons]
      refine ⟨fun hname => absurd hname (by decide), fun hoverride => ?_, ih h⟩
      simp only [Bool.or_eq_true, not_or] at hvalue
      exact absurd hoverride.dash hvalue.1.2
  | case9 arg rest seen hdenied hname hprefix hvalue hseen ih =>
      exact List.forall_mem_cons.mpr ⟨isOverride_of_not_denied hdenied, ih h⟩
  | case10 arg rest seen hdenied hname hprefix ih =>
      exact List.forall_mem_cons.mpr ⟨isOverride_of_not_denied hdenied, ih h⟩

/-- The arguments around those that the loop has let pass. -/
theorem safeArgs_around {front injected tail : List Str} (h : scanArgs rest none = .ok level)
    (hfront : front = [] ∨ front = [PRINT_LOGS]) (hprint : PRINT_LOGS ∈ front ++ rest)
    (hinjected : injected = if level.isSome then [] else [LOG_LEVEL, DEFAULT_LOG_LEVEL])
    (htail : tail = [] ∨ tail = [['-']])
    (hnone : ∀ arg ∈ rest, startsWith arg "-m".toList = false) :
    SafeArgs ("run".toList :: rest) ("run".toList :: (front ++ (injected ++ (rest ++ tail)))) where
  noOverride := by
    have hattached := scanArgs_noOverride h
    rw [List.forall_mem_cons, List.forall_mem_append, List.forall_mem_append,
      List.forall_mem_append]
    refine ⟨by decide, ?_, ?_, fun arg harg hoverride => ?_, ?_⟩
    · obtain rfl | rfl := hfront <;> decide
    · subst hinjected
      split <;> decide
    · exact absurd (hattached arg harg hoverride) (by rw [hnone arg harg]; nofun)
    · obtain rfl | rfl := htail <;> decide
  printLogs := by
    simp only [List.mem_append, List.mem_cons] at hprint ⊢
    tauto
  logLevel := by
    obtain ⟨happend, hlevel⟩ := scanArgs_ok h
    have hstart : logLevels ("run".toList :: (front ++ (injected ++ (rest ++ tail)))) =
        logLevels (injected ++ (rest ++ tail)) := by
      rw [logLevels_other (by decide) (by decide)]
      obtain rfl | rfl := hfront
      · rfl
      · exact logLevels_other (by decide) (by decide)
    have hend : logLevels (rest ++ tail) = logLevels rest := by
      rw [happend]
      obtain rfl | rfl := htail <;> exact List.append_nil _
    rw [hstart]
    obtain ⟨rfl, hnil⟩ | ⟨-, value, rfl, hvalue, hallowed⟩ := hlevel
    · subst hinjected
      refine ⟨DEFAULT_LOG_LEVEL, ?_, by decide⟩
      change logLevels (LOG_LEVEL :: DEFAULT_LOG_LEVEL :: (rest ++ tail)) = _
      rw [logLevels_name, hend, hnil]
    · subst hinjected
      exact ⟨value, hend.trans hvalue, hallowed⟩
  keeps := by
    refine List.Sublist.cons_cons _ ?_
    refine .trans ?_ (List.sublist_append_right _ _)
    refine .trans ?_ (List.sublist_append_right _ _)
    exact List.sublist_append_left _ _

/-- A `run` that is accepted is safe but for attached spellings. -/
theorem safeArgs_of_run (h : buildRunArgs args hasPrompt = .ok launched) :
    SafeArgs args launched ↔ ∀ arg ∈ args, startsWith arg "-m".toList = false := by
  constructor
  · intro hsafe arg harg
    have hnone := hsafe.noOverride arg (hsafe.keeps.subset harg)
    exact Bool.eq_false_iff.mpr fun hm => hnone (.inr (.inr (.inr (.inr hm))))
  · intro hnone
    cases args with
    | nil => cases h
    | cons command rest =>
        rw [buildRunArgs] at h
        split at h
        · cases h
        · rename_i hcommand
          obtain rfl := not_not.mp hcommand
          cases hscan : scanArgs rest none with
          | error error => rw [hscan] at h; cases h
          | ok level =>
              rw [hscan] at h
              obtain rfl := Except.ok.inj h
              simp only [List.append_assoc, List.singleton_append]
              refine safeArgs_around hscan ?_ ?_ rfl ?_ (List.forall_mem_cons.mp hnone).2
              · split <;> simp
              · split <;> simp_all
              · split <;> simp

theorem safeArgs_of_launchArgs (h : launchArgs args hasPrompt = .ok launched) :
    SafeArgs args launched ↔ SafelyRequested args := by
  rw [launchArgs] at h
  rw [SafelyRequested]
  split at h
  · rename_i hrun
    rw [if_pos hrun]
    exact safeArgs_of_run h
  · rename_i hrun
    obtain rfl := Except.ok.inj h
    rw [if_neg hrun]

theorem execute_launched_iff : execute surroundings request = .ok (.launched launch) ↔
    request.aborted = false ∧ request.resolvedPath ≠ [] ∧ ∃ credential processEnv args,
      materializeCredential surroundings request.credentialReference = .ok credential ∧
      buildProcessEnv surroundings request.env = .ok processEnv ∧
      launchArgs request.args request.prompt.isSome = .ok args ∧
      launch = launchOf request credential processEnv args := by
  unfold execute
  cases request.aborted with
  | true => simp
  | false =>
      by_cases hpath : request.resolvedPath = []
      · simp [hpath]
      · rw [if_neg Bool.false_ne_true, if_neg hpath]
        cases materializeCredential surroundings request.credentialReference with
        | error => simp [Bind.bind, Except.bind]
        | ok credential =>
            cases buildProcessEnv surroundings request.env with
            | error => simp [Bind.bind, Except.bind]
            | ok processEnv =>
                cases launchArgs request.args request.prompt.isSome with
                | error => simp [Bind.bind, Except.bind]
                | ok args => simp [Bind.bind, Except.bind, pure, Except.pure, hpath, eq_comm]

/-- Another text in the place of the prompt leads to the same process, which is given that text. -/
theorem execute_prompt {text : Str} (hprompt : request.prompt.isSome = true)
    (h : execute surroundings request = .ok (.launched launch)) :
    execute surroundings { request with prompt := some text } =
      .ok (.launched { launch with prompt := some text }) := by
  obtain ⟨haborted, hpath, credential, processEnv, args, hcredential, henv, hargs, rfl⟩ :=
    execute_launched_iff.mp h
  rw [hprompt] at hargs
  exact execute_launched_iff.mpr
    ⟨haborted, hpath, credential, processEnv, args, hcredential, henv, hargs, rfl⟩

end Arguments

/-- What is launched is safe, and the same for every text of the prompt, if and only if it has been
requested safely. -/
theorem execute_safe_iff (surroundings : Surroundings) (request : SandboxExecutionRequest)
    (launch : Launch) (h : execute surroundings request = .ok (.launched launch)) :
    (SafeArgs request.args launch.args ∧ ∀ text, request.prompt.isSome = true →
      ∃ other, execute surroundings { request with prompt := some text } = .ok (.launched other) ∧
        other.args = launch.args) ↔ SafelyRequested request.args := by
  obtain ⟨-, -, credential, processEnv, args, -, -, hargs, rfl⟩ := execute_launched_iff.mp h
  rw [← safeArgs_of_launchArgs hargs]
  constructor
  · exact And.left
  · exact fun hsafe => ⟨hsafe, fun text hprompt => ⟨_, execute_prompt hprompt h, rfl⟩⟩

def requestOf (args : List Str) : SandboxExecutionRequest where
  worktreePath := "/w".toList
  resolvedPath := "/opencode".toList
  args := args
  prompt := some ['p']
  timeoutMs := 0
  env := none
  aborted := false
  credentialReference := none

def plainSurroundings : Surroundings where
  sessionDir := "/s".toList
  path := none
  resolve _ := none
  sqliteCredential := none

theorem execute_safe_run :
    let request := requestOf ["run".toList]
    let launch := launchOf request .none (serverEnv plainSurroundings)
      ["run".toList, PRINT_LOGS, LOG_LEVEL, DEFAULT_LOG_LEVEL, ['-']]
    execute plainSurroundings request = .ok (.launched launch) ∧
      ((SafeArgs request.args launch.args ∧ ∀ text, request.prompt.isSome = true →
        ∃ other, execute plainSurroundings { request with prompt := some text } =
          .ok (.launched other) ∧ other.args = launch.args) ↔ SafelyRequested request.args) :=
  ⟨rfl, execute_safe_iff plainSurroundings _ _ rfl⟩

/-- A model in the attached spelling is passed on. -/
theorem not_execute_safe : ¬ ∀ surroundings request launch,
    execute surroundings request = .ok (.launched launch) →
      SafeArgs request.args launch.args := fun h =>
  (h plainSurroundings (requestOf ["run".toList, "-mfoo".toList]) _ rfl).noOverride "-mfoo".toList
    (by decide) (by decide)

end CloudExecution
