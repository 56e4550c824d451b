import VitoPlatform.Policy.CommandSafety

/-!
# Git effects on the command route

The evaluator denies a merge, a rebase and a branch deletion as actions of their own. The
same effects can be asked for as text, and then `classifyGitCommand` decides them from the
words of the command. Here the words are read by the documented rules, independently of the
tokenizer, and the effects the dedicated actions stand for are read off them.

A commit, a push, a merge and a rebase are never granted as a command. A branch deletion is
granted exactly when its flag is not a separate `-d` or `-D`, or when `--show-current`
stands anywhere beside it.
-/

namespace Policy

open Text

/-! ## Words -/

/-- The words of a text without quotes. A backslash stands for the character after it. -/
def argumentVector.loop (current : Str) (escaped : Bool) : Str → List Str
  | [] => if current = [] then [] else [current]
  | ch :: rest =>
      if escaped then loop (current ++ [ch]) false rest
      else if ch = '\\' then loop current true rest
      else if isSpace ch then
        if current = [] then loop [] false rest else current :: loop [] false rest
      else loop (current ++ [ch]) false rest

/-- The argument vector of a command without quotes. -/
def argumentVector (command : Str) : List Str := argumentVector.loop [] false (trim command)

/-- A command without quotes and without operators that chain it to another. -/
structure SingleCommand (command : Str) : Prop where
  quoteFree : ∀ ch ∈ command, ch ≠ '\'' ∧ ch ≠ '"'
  unchained : ∀ ch ∈ command, ch ≠ ';' ∧ ch ≠ '|' ∧ ch ≠ '&'

instance (command : Str) : Decidable (SingleCommand command) :=
  decidable_of_iff (command.all (fun ch => ch != '\'' && ch != '"') = true ∧
      command.all (fun ch => ch != ';' && ch != '|' && ch != '&') = true) (by
    simp only [List.all_eq_true, Bool.and_eq_true, bne_iff_ne, ne_eq, and_assoc]
    exact ⟨fun h => ⟨h.1, h.2⟩, fun h => ⟨h.quoteFree, h.unchained⟩⟩)

theorem SingleCommand.trim {command : Str} (h : SingleCommand command) :
    SingleCommand (trim command) where
  quoteFree ch hch := h.quoteFree ch (mem_of_mem_trim hch)
  unchained ch hch := h.unchained ch (mem_of_mem_trim hch)

/-- On a text without quotes the tokenizer returns the words. -/
theorem tokenizeCommand_loop_words {s : Str} (hs : ∀ ch ∈ s, ch ≠ '\'' ∧ ch ≠ '"') :
    ∀ (tokens : List Str) (current : Str) (escaped : Bool),
      tokenizeCommand.loop tokens current false false escaped s =
        tokens ++ argumentVector.loop current escaped s := by
  induction s with
  | nil =>
      intro tokens current escaped
      cases current with
      | nil => simp [tokenizeCommand.loop, argumentVector.loop]
      | cons c current => simp [tokenizeCommand.loop, argumentVector.loop]
  | cons ch rest ih =>
      intro tokens current escaped
      obtain ⟨hsingle, hdouble⟩ := hs ch (by simp)
      have step := ih fun c hc => hs c (List.mem_cons_of_mem _ hc)
      rw [tokenizeCommand.loop, argumentVector.loop]
      by_cases hescaped : escaped = true
      · rw [if_pos hescaped, if_pos hescaped]
        apply step
      rw [if_neg hescaped, if_neg hescaped]
      by_cases hbackslash : ch = '\\'
      · rw [if_pos ⟨hbackslash, rfl⟩, if_pos hbackslash]
        apply step
      rw [if_neg (by simp [hbackslash]), if_neg (by simp [hsingle]), if_neg (by simp [hdouble]),
        if_neg hbackslash]
      by_cases hspace : isSpace ch = true
      · rw [if_pos ⟨hspace, rfl, rfl⟩, if_pos hspace]
        cases current with
        | nil => exact step tokens [] false
        | cons c current =>
            rw [if_pos (by simp), if_neg (by simp), step, List.append_assoc]
            rfl
      · rw [if_neg (by simp [hspace]), if_neg hspace]
        apply step

theorem tokenizeCommand_trim {command : Str} (h : SingleCommand command) :
    tokenizeCommand (trim command) = argumentVector command :=
  (tokenizeCommand_loop_words h.trim.quoteFree [] [] false).trans (List.nil_append _)

/-! ## Effects -/

def mutatingGitSubcommands : List Str := ["commit", "push", "merge", "rebase"].map String.toList

/-- The command is a git commit, push, merge or rebase. -/
def MutatesHistory : List Str → Prop
  | program :: subcommand :: _ =>
      program = "git".toList ∧ subcommand ∈ mutatingGitSubcommands
  | _ => False

/-- `-d` and `-D`, alone or in a bundle of short flags, and `--delete`. -/
def isDeletionFlag (arg : Str) : Bool :=
  arg == "--delete".toList ||
    (match arg with
      | '-' :: letters => letters.all Char.isAlpha && (letters.contains 'd' || letters.contains 'D')
      | _ => false)

/-- The command deletes a branch: `git branch` with a deletion flag anywhere. -/
def DeletesBranch : List Str → Prop
  | program :: subcommand :: args =>
      program = "git".toList ∧ subcommand = "branch".toList ∧ args.any isDeletionFlag = true
  | _ => False

/-- A deletion that the classifier does not see: neither `-d` nor `-D` is an argument of its
own, or the shortcut for `--show-current` answers first. -/
def MissedDeletion (argv : List Str) : Prop :=
  DeletesBranch argv ∧
    ("--show-current".toList ∈ argv.drop 2 ∨
      ("-d".toList ∉ argv.drop 2 ∧ "-D".toList ∉ argv.drop 2))

instance (argv : List Str) : Decidable (MutatesHistory argv) :=
  match argv with
  | [] | [_] => isFalse id
  | _ :: _ :: _ => inferInstanceAs (Decidable (_ ∧ _))

instance (argv : List Str) : Decidable (DeletesBranch argv) :=
  match argv with
  | [] | [_] => isFalse id
  | _ :: _ :: _ => inferInstanceAs (Decidable (_ ∧ _))

instance (argv : List Str) : Decidable (MissedDeletion argv) := inferInstanceAs (Decidable (_ ∧ _))

/-- What the classifier grants: the safe subcommands, and `git branch` when it does not see a
deletion flag. -/
theorem classifyGitCommand_allowed {program subcommand : Str} {args : List Str} :
    (classifyGitCommand (program :: subcommand :: args)).allowed = true ↔
      subcommand ∈ safeGitSubcommands ∨ (subcommand = "branch".toList ∧
        ("--show-current".toList ∈ args ∨ ("-d".toList ∉ args ∧ "-D".toList ∉ args))) := by
  have flags : gitBranchDeleteFlags.any args.contains = true ↔
      "-D".toList ∈ args ∨ "-d".toList ∈ args := by simp [gitBranchDeleteFlags]
  rw [classifyGitCommand]
  by_cases hsafe : subcommand ∈ safeGitSubcommands
  · rw [if_pos (List.contains_iff_mem.mpr hsafe)]
    exact ⟨fun _ => .inl hsafe, fun _ => rfl⟩
  rw [if_neg fun h => hsafe (List.contains_iff_mem.mp h)]
  by_cases hbranch : subcommand = "branch".toList
  · by_cases hshow : "--show-current".toList ∈ args
    · rw [if_pos ⟨hbranch, List.contains_iff_mem.mpr hshow⟩]
      exact ⟨fun _ => .inr ⟨hbranch, .inl hshow⟩, fun _ => rfl⟩
    rw [if_neg fun h => hshow (List.contains_iff_mem.mp h.2), if_pos hbranch]
    by_cases hdelete : gitBranchDeleteFlags.any args.contains = true
    · rw [if_pos hdelete]
      constructor
      · nofun
      · rintro (h | ⟨_, h | ⟨hd, hD⟩⟩)
        · exact absurd h hsafe
        · exact absurd h hshow
        · exact ((flags.mp hdelete).elim hD hd).elim
    · rw [if_neg hdelete]
      rw [flags, not_or] at hdelete
      exact ⟨fun _ => .inr ⟨hbranch, .inr ⟨hdelete.2, hdelete.1⟩⟩, fun _ => rfl⟩
  · rw [if_neg fun h => hbranch h.1, if_neg hbranch]
    constructor
    · intro h
      exfalso
      revert h
      repeat' split
      all_goals nofun
    · rintro (h | ⟨h, _⟩)
      · exact absurd h hsafe
      · exact absurd h hbranch

/-- The commands that rewrite or publish history are not among them. -/
theorem MutatesHistory.refused {argv : List Str} (h : MutatesHistory argv) :
    (classifyGitCommand argv).allowed = false := by
  match argv, h with
  | program :: subcommand :: args, h =>
      have excluded : ∀ s ∈ mutatingGitSubcommands,
          s ∉ safeGitSubcommands ∧ s ≠ "branch".toList := by decide
      obtain ⟨hsafe, hbranch⟩ := excluded subcommand h.2
      rw [← Bool.not_eq_true, classifyGitCommand_allowed, not_or]
      exact ⟨hsafe, fun hb => hbranch hb.1⟩

theorem DeletesBranch.head?_eq {argv : List Str} (h : DeletesBranch argv) :
    argv.head? = some "git".toList := by
  match argv, h with
  | program :: _ :: _, h =>
      rw [List.head?_cons, h.1]

/-- A deletion is granted exactly when the classifier misses it. -/
theorem DeletesBranch.granted_iff {argv : List Str} (h : DeletesBranch argv) :
    (classifyGitCommand argv).allowed = true ↔ MissedDeletion argv := by
  match argv, h with
  | program :: subcommand :: args, h =>
      have notSafe : subcommand ∉ safeGitSubcommands := by
        rw [h.2.1]
        decide
      rw [classifyGitCommand_allowed, MissedDeletion]
      constructor
      · rintro (hsafe | ⟨_, hmissed⟩)
        · exact absurd hsafe notSafe
        · exact ⟨h, hmissed⟩
      · rintro ⟨_, hmissed⟩
        exact .inr ⟨h.2.1, hmissed⟩

/-! ## The route -/

theorem splitShellChains_loop_single {s : Str} (hs : ∀ ch ∈ s, ch ≠ ';' ∧ ch ≠ '|' ∧ ch ≠ '&') :
    ∀ (commands : List Str) (current : Str) (inSingleQuote inDoubleQuote : Bool),
      splitShellChains.loop commands current inSingleQuote inDoubleQuote false s =
        pushCommand commands (current ++ s) := by
  induction s with
  | nil =>
      intro commands current _ _
      rw [splitShellChains.loop, List.append_nil]
  | cons ch rest ih =>
      intro commands current inSingle inDouble
      obtain ⟨_, hpipe, hamp⟩ := hs ch (by simp)
      have step := fun iS iD => ih (fun c hc => hs c (List.mem_cons_of_mem _ hc)) commands
        (current ++ [ch]) iS iD
      simp only [List.append_assoc, List.singleton_append] at step
      rw [splitShellChains.loop, if_neg Bool.false_ne_true]
      split
      · apply step
      split
      · apply step
      split
      · apply step
      split
      · rename_i h
        exact absurd h.1 hamp
      split
      · rename_i h
        exact absurd h.1 hpipe
      apply step

/-- The chain of a single command is the command. -/
theorem splitShellChains_single {command : Str} (h : SingleCommand command)
    (hne : trim command ≠ []) : splitShellChains (trim command) = [trim command] := by
  rw [splitShellChains, trim_trim, splitShellChains_loop_single h.trim.unchained, pushCommand,
    List.nil_append, trim_trim, if_neg hne, List.nil_append]

/-- What has been read of a word stays at its front. -/
theorem argumentVector_loop_head {s : Str} : ∀ {ch : Char} {current : Str} {escaped : Bool},
    ∃ word words, argumentVector.loop (ch :: current) escaped s = (ch :: word) :: words := by
  induction s with
  | nil => exact ⟨_, [], rfl⟩
  | cons c rest ih =>
      intro ch current escaped
      rw [argumentVector.loop]
      split
      · exact ih
      split
      · exact ih
      split
      · exact ⟨current, _, rfl⟩
      · exact ih

/-- A command whose first word is `git` is no shell wrapper. -/
theorem detectShellWrappers_git {command : Str}
    (hgit : (argumentVector command).head? = some "git".toList) :
    detectShellWrappers (trim command) = false := by
  have shells : ∀ shell ∈ ["sh", "bash", "zsh", "dash", "ksh"], ∃ ch name,
      shell.toList = ch :: name ∧ isSpace ch = false ∧ ch ≠ '\\' ∧ ch ≠ 'g' := by
    intro shell hshell
    refine ⟨shell.toList.headD ' ', shell.toList.tail, ?_⟩
    revert shell
    decide
  rw [← Bool.not_eq_true, detectShellWrappers, List.any_eq_true, trim_trim]
  rintro ⟨shell, hmem, hshell⟩
  obtain ⟨ch, name, hname, hspace, hbackslash, hg⟩ := shells shell hmem
  obtain ⟨hstarts, _⟩ := Bool.and_eq_true_iff.mp hshell
  obtain ⟨rest, hrest⟩ := List.isPrefixOf_iff_prefix.mp hstarts
  -- The first word begins with the first letter of the shell's name.
  rw [argumentVector, ← hrest, hname, List.cons_append, argumentVector.loop,
    if_neg Bool.false_ne_true, if_neg hbackslash, if_neg (by simp [hspace]),
    List.nil_append] at hgit
  obtain ⟨word, words, hwords⟩ : ∃ word words,
      argumentVector.loop [ch] false (name ++ rest) = (ch :: word) :: words :=
    argumentVector_loop_head
  rw [hwords, List.head?_cons, Option.some.injEq] at hgit
  exact hg (List.head_eq_of_cons_eq hgit)

/-- On a single command whose first word is `git`, the chain check is the git classifier. -/
theorem classifyCommand_git {command : Str} {profile : ExecutionProfile}
    {policy : ExecutionPolicyConfig} (hsingle : SingleCommand command)
    (halias : isTrustedAlias (trim command) profile policy = false)
    (hgit : (argumentVector command).head? = some "git".toList) :
    (classifyCommand command profile policy).allowed = true ↔
      detectDangerousPatterns (trim command) = false ∧
        (classifyGitCommand (argumentVector command)).allowed = true := by
  have hne : trim command ≠ [] := by
    intro h
    rw [argumentVector, h] at hgit
    cases hgit
  have hwrap := detectShellWrappers_git hgit
  rw [classifyCommand]
  simp only [hwrap, halias, Bool.false_eq_true, if_false]
  cases hdanger : detectDangerousPatterns (trim command) with
  | true =>
      simp only [if_true, Bool.true_eq_false, false_and, iff_false]
      intro h
      cases h
  | false =>
      have tokens : tokenIs (argumentVector command) 0 "git" = true := by
        rw [tokenIs, ← List.head?_eq_getElem?, hgit]
        rfl
      have single : classifySingleCommand (trim command) policy =
          classifyGitCommand (argumentVector command) := by
        rw [classifySingleCommand]
        simp only [trim_trim, hwrap, hdanger, tokenizeCommand_trim hsingle, tokens, if_true,
          Bool.false_eq_true, if_false]
        rw [if_neg (by simpa using hne), if_neg ?_]
        intro h
        rw [List.length_eq_zero_iff.mp h] at hgit
        cases hgit
      simp only [Bool.false_eq_true, if_false, true_and]
      rw [splitShellChains_single hsingle hne, classifyCommand_loop_allowed]
      simp [hwrap, hdanger, single]

/-- The evaluator grants the command by its git classifier. -/
def GrantedAsGit (host : Host) (ctx : PolicyEvaluationContext) (profile : ExecutionProfile)
    (policy : ExecutionPolicyConfig) (command : Str) : Prop :=
  (evaluatePolicy host ctx).any (·.allowed) = true ∧
    isTrustedAlias (trim command) profile policy = false ∧
    (argumentVector command).head? = some "git".toList

/-- Exactly when the command route grants no effect of the dedicated git actions: unless the
command is an alias or has a redirection, a substitution or a newline, it is no deletion that
the classifier misses. -/
theorem evaluatePolicy_git_effects_iff {host : Host} {ctx : PolicyEvaluationContext}
    {profile : ExecutionProfile} {policy : ExecutionPolicyConfig} {command : Str}
    (haction : ctx.requestedAction = .known .runCommand)
    (hprofile : ctx.executionProfile = .known profile) (hpolicy : ctx.policy = some policy)
    (hcommand : ctx.requestedCommand = some command) (hsingle : SingleCommand command) :
    (GrantedAsGit host ctx profile policy command →
        ¬ MutatesHistory (argumentVector command) ∧ ¬ DeletesBranch (argumentVector command)) ↔
      (isTrustedAlias (trim command) profile policy = false →
        detectDangerousPatterns (trim command) = false →
          ¬ MissedDeletion (argumentVector command)) := by
  obtain ⟨decision, heval⟩ : ∃ decision, evaluatePolicy host ctx = some decision := by
    rw [evaluatePolicy]
    simp only [hpolicy, hprofile, haction, EnumValue.member?]
    exact ⟨_, rfl⟩
  have granted : isTrustedAlias (trim command) profile policy = false →
      (argumentVector command).head? = some "git".toList →
      (GrantedAsGit host ctx profile policy command ↔
        detectDangerousPatterns (trim command) = false ∧
          (classifyGitCommand (argumentVector command)).allowed = true) := by
    intro halias hgit
    have hne : command ≠ [] := by
      rintro rfl
      cases hgit
    rw [GrantedAsGit, heval, Option.any_some,
      evaluatePolicy_runCommand haction hprofile hpolicy hcommand heval,
      classifyCommand_git hsingle halias hgit]
    simp only [hne, halias, hgit, ne_eq, not_false_eq_true, true_and, and_true]
  constructor
  · intro h halias hdanger missed
    have hgit : (argumentVector command).head? = some "git".toList := missed.1.head?_eq
    have grants := (granted halias hgit).mpr ⟨hdanger, missed.1.granted_iff.mpr missed⟩
    exact (h grants).2 missed.1
  · intro h hgrants
    obtain ⟨hdanger, hclass⟩ := (granted hgrants.2.1 hgrants.2.2).mp hgrants
    constructor
    · intro mutates
      rw [mutates.refused] at hclass
      cases hclass
    · intro deletes
      exact h hgrants.2.1 hdanger (deletes.granted_iff.mp hclass)

/-- A builder's `git branch --list` is granted and deletes nothing. -/
theorem evaluatePolicy_git_effects_iff_list :
    (GrantedAsGit emptyHost (builderCommand "git branch --list".toList) .builder
        (createBuilderPolicy "/work".toList) "git branch --list".toList →
      ¬ MutatesHistory (argumentVector "git branch --list".toList) ∧
        ¬ DeletesBranch (argumentVector "git branch --list".toList)) ↔
      (isTrustedAlias (trim "git branch --list".toList) .builder
          (createBuilderPolicy "/work".toList) = false →
        detectDangerousPatterns (trim "git branch --list".toList) = false →
          ¬ MissedDeletion (argumentVector "git branch --list".toList)) :=
  evaluatePolicy_git_effects_iff rfl rfl rfl rfl (by decide +kernel)

/-- A builder is granted the single command by the git classifier, and it deletes a branch. -/
def GrantsDeletion (command : String) : Prop :=
  SingleCommand command.toList ∧
    GrantedAsGit emptyHost (builderCommand command.toList) .builder
      (createBuilderPolicy "/work".toList) command.toList ∧
    DeletesBranch (argumentVector command.toList)

instance (command : String) : Decidable (GrantsDeletion command) :=
  inferInstanceAs (Decidable (_ ∧ (_ ∧ _ ∧ _) ∧ _))

/-- Three spellings of a branch deletion are granted to a builder as single commands. -/
theorem evaluatePolicy_grants_branch_deletion :
    GrantsDeletion "git branch --show-current -D main" ∧
      GrantsDeletion "git branch -dr origin/main" ∧
      GrantsDeletion "git branch --delete main" := by
  decide

end Policy
