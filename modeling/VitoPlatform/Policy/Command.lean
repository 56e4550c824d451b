import VitoPlatform.Policy.Types

/-!
# Classification of shell commands

`tokenizeCommand`, `detectDangerousPatterns`, `detectShellWrappers`, `splitShellChains`,
`matchAgainstAllowed`, `classifySingleCommand`, `classifyGitCommand` and `classifyCommand`
of `execution-policy.ts`. Each scanning loop is a structural recursion on the characters
that are left, with the loop's variables as arguments. A regular expression is a small
recursive test that says what the expression looks for.
-/

namespace Policy

open Text

/-! ## Scanners -/

/-- The body of the loop of `tokenizeCommand`. -/
def tokenizeCommand.loop (tokens : List Str) (current : Str)
    (inSingleQuote inDoubleQuote escaped : Bool) : Str → List Str
  | [] => if current.length > 0 then tokens ++ [current] else tokens
  | ch :: rest =>
      if escaped then
        loop tokens (current ++ [ch]) inSingleQuote inDoubleQuote false rest
      else if ch = '\\' ∧ !inSingleQuote then
        loop tokens current inSingleQuote inDoubleQuote true rest
      else if ch = '\'' ∧ !inDoubleQuote then
        loop tokens current (!inSingleQuote) inDoubleQuote false rest
      else if ch = '"' ∧ !inSingleQuote then
        loop tokens current inSingleQuote (!inDoubleQuote) false rest
      else if isSpace ch ∧ !inSingleQuote ∧ !inDoubleQuote then
        if current.length > 0 then
          loop (tokens ++ [current]) [] inSingleQuote inDoubleQuote false rest
        else
          loop tokens current inSingleQuote inDoubleQuote false rest
      else
        loop tokens (current ++ [ch]) inSingleQuote inDoubleQuote false rest

/-- Tokenize a shell-style command string respecting quoting rules.
Single quotes: literal (no escapes).
Double quotes: backslash escapes.
Unquoted: backslash escapes. -/
def tokenizeCommand (command : Str) : List Str :=
  tokenizeCommand.loop [] [] false false false command

/-- The loop of `detectDangerousPatterns`: a redirection outside quotes. -/
def hasRedirection (inSingle inDouble : Bool) : Str → Bool
  | [] => false
  | ch :: rest =>
      if ch = '\'' ∧ !inDouble then hasRedirection (!inSingle) inDouble rest
      else if ch = '"' ∧ !inSingle then hasRedirection inSingle (!inDouble) rest
      else if inSingle || inDouble then hasRedirection inSingle inDouble rest
      else if ch = '>' ∨ ch = '<' then true
      else hasRedirection inSingle inDouble rest

/-- A back-quoted section with something in it. -/
def hasBacktickSubstitution : Str → Bool
  | [] => false
  | ch :: rest =>
      (ch == '`' && (match rest with
        | [] => false
        | next :: tail => next != '`' && tail.contains '`')) ||
      hasBacktickSubstitution rest

/-- An ampersand with no ampersand on either side. -/
def hasLoneAmpersand (previous : Bool) : Str → Bool
  | [] => false
  | ch :: rest =>
      (ch == '&' && !previous && rest.head? != some '&') || hasLoneAmpersand (ch == '&') rest

/-- Detect dangerous shell patterns that should always be denied: redirections, command
substitution, process substitution, newlines and background operators. -/
def detectDangerousPatterns (command : Str) : Bool :=
  hasRedirection false false command ||
    includes command ['$', '('] ||
    hasBacktickSubstitution command ||
    (includes command ['<', '('] || includes command ['>', '(']) ||
    includes command ['\n'] ||
    hasLoneAmpersand false command

/-- White space, `-c`, white space. -/
def opensShellScript (rest : Str) : Bool :=
  match rest with
  | [] => false
  | ch :: _ =>
      isSpace ch && (match rest.dropWhile isSpace with
        | '-' :: 'c' :: next :: _ => isSpace next
        | _ => false)

/-- Detect opaque shell wrappers: `sh -c`, `bash -c`, `zsh -c`, `dash -c`, `ksh -c`. -/
def detectShellWrappers (command : Str) : Bool :=
  ["sh", "bash", "zsh", "dash", "ksh"].any fun shell =>
    startsWith (trim command) shell.toList &&
      opensShellScript ((trim command).drop shell.toList.length)

/-- `if (current.trim()) commands.push(current.trim())`. -/
def pushCommand (commands : List Str) (current : Str) : List Str :=
  if trim current = [] then commands else commands ++ [trim current]

/-- The loop of `splitShellChains`. `skip` says that the previous character was the first
of a two-character operator, so that `i++` has already consumed this one. -/
def splitShellChains.loop (commands : List Str) (current : Str)
    (inSingleQuote inDoubleQuote skip : Bool) : Str → List Str
  | [] => pushCommand commands current
  | ch :: rest =>
      if skip then
        loop commands current inSingleQuote inDoubleQuote false rest
      else if ch = '\'' ∧ !inDoubleQuote then
        loop commands (current ++ [ch]) (!inSingleQuote) inDoubleQuote false rest
      else if ch = '"' ∧ !inSingleQuote then
        loop commands (current ++ [ch]) inSingleQuote (!inDoubleQuote) false rest
      else if inSingleQuote || inDoubleQuote then
        loop commands (current ++ [ch]) inSingleQuote inDoubleQuote false rest
      else if ch = '&' ∧ rest.head? = some '&' then
        loop (pushCommand commands current) [] inSingleQuote inDoubleQuote true rest
      else if ch = '|' ∧ rest.head? = some '|' then
        loop (pushCommand commands current) [] inSingleQuote inDoubleQuote true rest
      else if ch = ';' then
        loop (pushCommand commands current) [] inSingleQuote inDoubleQuote false rest
      else if ch = '|' then
        loop (pushCommand commands current) [] inSingleQuote inDoubleQuote false rest
      else
        loop commands (current ++ [ch]) inSingleQuote inDoubleQuote false rest

/-- Split a command string into individual commands respecting shell chaining.
Handles: `&&`, `||`, `;`, `|`. -/
def splitShellChains (command : Str) : List Str :=
  splitShellChains.loop [] [] false false false (trim command)

/-! ## Classification -/

/-- The verdict of a classifier: allowed, or the reason why not. -/
structure Classification where
  allowed : Bool
  reasonCode : PolicyReasonCode

def Classification.permitted : Classification := ⟨true, .policyAllowed⟩

def Classification.refused (code : PolicyReasonCode) : Classification := ⟨false, code⟩

def safeScripts : List Str :=
  ["test", "build", "lint", "typecheck", "check", "generate"].map String.toList

/-- `tokens[i]`, compared with a literal. -/
def tokenIs (tokens : List Str) (i : Nat) (text : String) : Bool :=
  tokens[i]? == some text.toList

/-- `pnpm run <safe-script>` and `npm run <safe-script>`. -/
def runsSafeScript (tokens : List Str) (runner : String) : Bool :=
  tokenIs tokens 0 runner && tokenIs tokens 1 "run" && tokens.length ≥ 3 &&
    (match tokens[2]? with
      | some scriptName => safeScripts.contains scriptName
      | none => false)

/-- `yarn run <safe-script>` and `yarn <safe-script>`. -/
def yarnRunsSafeScript (tokens : List Str) : Bool :=
  tokenIs tokens 0 "yarn" && (tokenIs tokens 1 "run" || tokens.length == 2) &&
    (match if tokenIs tokens 1 "run" then tokens[2]? else tokens[1]? with
      | some scriptName => scriptName != [] && safeScripts.contains scriptName
      | none => false)

/-- Check if a tokenized command matches one of the allowed commands. -/
def matchAgainstAllowed (tokens allowedCommands : List Str) : Bool :=
  if tokens.length = 0 then false
  else
    let fullCommand := join [' '] tokens
    allowedCommands.contains fullCommand ||
      allowedCommands.any (fun allowed =>
        fullCommand == allowed || startsWith fullCommand (allowed ++ [' '])) ||
      runsSafeScript tokens "pnpm" || runsSafeScript tokens "npm" || yarnRunsSafeScript tokens

def safeGitSubcommands : List Str :=
  ["status", "diff", "show", "log", "rev-parse"].map String.toList

def gitBranchDeleteFlags : List Str := ["-D", "-d"].map String.toList

def gitPushDeleteFlags : List Str := ["--delete"].map String.toList

/-- Classify git commands with safe argument grammar. -/
def classifyGitCommand (tokens : List Str) : Classification :=
  match tokens with
  | _ :: subcommand :: args =>
      if safeGitSubcommands.contains subcommand then .permitted
      else if subcommand = "branch".toList ∧ args.contains "--show-current".toList then .permitted
      else if subcommand = "branch".toList then
        if gitBranchDeleteFlags.any args.contains then .refused .gitBranchDeleteDenied
        else .permitted
      else if subcommand = "commit".toList then .refused .gitCommitDenied
      else if subcommand = "push".toList then
        if gitPushDeleteFlags.any args.contains then .refused .remoteRefDeleteDenied
        else if args.any (startsWith · [':']) then .refused .remoteRefDeleteDenied
        else .refused .gitPushDenied
      else if subcommand = "merge".toList then .refused .gitMergeDenied
      else if subcommand = "rebase".toList then .refused .gitRebaseDenied
      else .refused .commandNotAllowed
  | _ => .refused .commandNotAllowed

/-- `node` with an evaluation flag, or without `--version` in second place. -/
def isUnsafeNode (tokens : List Str) : Bool :=
  tokenIs tokens 0 "node" &&
    (tokens.any (fun t =>
        t == "-e".toList || t == "--eval".toList || t == "--input-type".toList) ||
      !(tokens.length > 1 && tokenIs tokens 1 "--version"))

/-- Classify a single (non-chained) command. -/
def classifySingleCommand (command : Str) (policy : ExecutionPolicyConfig) : Classification :=
  let trimmed := trim command
  if trimmed.length = 0 then .refused .commandNotAllowed
  else if detectShellWrappers trimmed then .refused .commandNotAllowed
  else if detectDangerousPatterns trimmed then .refused .commandNotAllowed
  else
    let tokens := tokenizeCommand trimmed
    if tokens.length = 0 then .refused .commandNotAllowed
    else if tokenIs tokens 0 "git" then classifyGitCommand tokens
    else if isUnsafeNode tokens then .refused .commandNotAllowed
    else if tokenIs tokens 0 "npx" then
      if tokens.length ≥ 3 ∧ tokenIs tokens 1 "prisma" ∧ tokenIs tokens 2 "generate" then
        .permitted
      else .refused .commandNotAllowed
    else if tokenIs tokens 0 "npm" ∧ tokenIs tokens 1 "exec" then .refused .commandNotAllowed
    else if tokenIs tokens 0 "pnpm" ∧ tokenIs tokens 1 "exec" then .refused .commandNotAllowed
    else if tokenIs tokens 0 "yarn" ∧ tokenIs tokens 1 "dlx" then .refused .commandNotAllowed
    else if matchAgainstAllowed tokens policy.allowedCommands then .permitted
    else .refused .commandNotAllowed

/-- An alias list authorizes exactly the whole command it contains. -/
def aliasesInclude (aliases : Option (List Str)) (command : Str) : Bool :=
  match aliases with
  | none => false
  | some list => list.length > 0 && list.contains command

/-- The two exact-alias branches of `classifyCommand`. -/
def isTrustedAlias (trimmed : Str) (profile : ExecutionProfile)
    (policy : ExecutionPolicyConfig) : Bool :=
  (profile == .builder && aliasesInclude policy.trustedCodingAgentAliases trimmed) ||
    (profile == .reviewer && aliasesInclude policy.trustedReviewerAgentAliases trimmed)

/-- The loop of `classifyCommand` over the chain. -/
def classifyCommand.loop (policy : ExecutionPolicyConfig) : List Str → Classification
  | [] => .permitted
  | cmd :: rest =>
      if detectShellWrappers cmd then .refused .commandNotAllowed
      else if detectDangerousPatterns cmd then .refused .commandNotAllowed
      else
        let result := classifySingleCommand cmd policy
        if !result.allowed then result else loop policy rest

/-- Determine if a command is safe for the given profile. -/
def classifyCommand (command : Str) (profile : ExecutionProfile)
    (policy : ExecutionPolicyConfig) : Classification :=
  let trimmed := trim command
  if detectShellWrappers trimmed then .refused .commandNotAllowed
  else if detectDangerousPatterns trimmed then .refused .commandNotAllowed
  else if isTrustedAlias trimmed profile policy then .permitted
  else classifyCommand.loop policy (splitShellChains trimmed)

theorem classifyCommand_loop_allowed {policy : ExecutionPolicyConfig} {chain : List Str} :
    (classifyCommand.loop policy chain).allowed = true ↔
      ∀ cmd ∈ chain, detectShellWrappers cmd = false ∧ detectDangerousPatterns cmd = false ∧
        (classifySingleCommand cmd policy).allowed = true := by
  induction chain with
  | nil => simp [classifyCommand.loop, Classification.permitted]
  | cons cmd rest ih =>
      rw [List.forall_mem_cons, ← ih, classifyCommand.loop]
      cases hw : detectShellWrappers cmd
      · cases hd : detectDangerousPatterns cmd
        · cases hr : (classifySingleCommand cmd policy).allowed <;> simp [hr]
        · simp [Classification.refused]
      · simp [Classification.refused]

end Policy
