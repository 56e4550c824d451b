import VitoPlatform.EngineeringWorker.Executions

/-!
# Executions that are run once

What holds of the requests of a process all of whose moves are in time: no two requests for an
identifier are between the check for duplicates and the registration, the identifier is not `..`,
nothing fails once an execution is registered, and no artifact finds a file of other content. Then
the commands of an identifier are run at most once, the artifacts are where and what they should
be, and a request that is answered leaves no execution running (`lawful`).
-/

namespace EngineeringWorker

open Text PosixPath

/-- The identifier under which the request waits to be registered. -/
def Session.awaits (session : Session) : Option Str :=
  match session.phase with
  | .resolving executionId _ | .resolved executionId _ _ => some executionId
  | _ => none

/-- The identifier under which the request is registered. -/
def Session.registered (session : Session) : Option Str := session.result.map (·.executionId)

/-- The reference to an output that has been written. -/
def Result.refOf (sha256 : Octets → Str) (result : Result) (cwd : Path) (output : Output) :
    ArtifactRef :=
  ⟨result.artifactPath cwd output, sha256 (result.content output), (result.content output).length⟩

section Statements

variable (registry : List (Str × RepositoryConfig)) (sha256 : Octets → Str)

/-- What is asked of a move of a request. -/
def Session.InTime (s : State) (session : Session) : Event → Prop
  | .start generated =>
      match begin registry s.executions session.input generated with
      | .resolving executionId _ =>
          executionId ≠ dotDot ∧ ∀ other ∈ s.sessions, other.awaits ≠ some executionId
      | _ => True
  | .ran attempt =>
      match session.phase with
      | .running _ (command :: _) => command ≠ [] ∧ attempt ≠ none
      | _ => True
  | .done =>
      match session.phase, session.result with
      | .writing cwd output _, some result =>
          ∀ octets ∈ s.files (result.artifactPath cwd output), octets = result.content output
      | _, _ => True
  | .failed _ => session.result = none
  | _ => True

/-- What is asked of a move. -/
def InTime (s : State) (input : Nat × Event) : Prop :=
  ∀ session ∈ s.sessions[input.1]?, session.InTime registry s input.2

/-- The reference is to a file below the artifact directory, with an output of the execution. -/
structure OwnArtifact (files : Path → Option Octets) (result : Result) (ref : ArtifactRef) :
    Prop where
  inside : ∃ config rest, registry.lookup result.repositoryId = some config ∧ rest ≠ [] ∧
    ref.path = config.canonicalPath ++ [artifactDirName] ++ rest
  content : ∃ output : Output, files ref.path = some (result.content output) ∧
    ref.sha256 = sha256 (result.content output) ∧ ref.size = (result.content output).length

/-- Of the requests for an identifier at most one runs commands. -/
def Once (s : State) : Prop :=
  ∀ (i j : Nat) a b executionId, s.sessions[i]? = some a → s.sessions[j]? = some b →
    a.registered = some executionId → b.registered = some executionId → i = j

/-- The artifacts of a result are its own. -/
def ArtifactsOwn (s : State) : Prop :=
  ∀ (i : Nat) session result, s.sessions[i]? = some session → session.result = some result →
    ∀ ref ∈ result.artifacts, OwnArtifact registry sha256 s.files result ref

/-- What is stored once a registered request has been answered is settled. -/
def Settled (s : State) : Prop :=
  ∀ (i : Nat) session executionId response, s.sessions[i]? = some session →
    session.registered = some executionId → session.phase = .answered response →
      ∃ (owner : Nat) (session' : Session) (result : Result),
        s.executions executionId = some owner ∧
          s.sessions[owner]? = some session' ∧ session'.result = some result ∧
            result.executionId = executionId ∧
              (result.status = .succeeded ∨ result.status = .failed)

/-- What the worker promises of its executions. -/
structure Lawful (s : State) : Prop where
  once : Once s
  /-- A request runs each of its commands at most once. -/
  ran : ∀ (i : Nat) session result, s.sessions[i]? = some session →
    session.result = some result → ∃ config commands,
      registry.lookup result.repositoryId = some config ∧
        commandFor result.action session.input.profile config = .ok commands ∧
          result.attempts.map (·.argv) <+: commands
  artifacts : ArtifactsOwn registry sha256 s
  settled : Settled s

/-! ## The invariant -/

/-- A result in the repository it was registered for, with the commands that are left. -/
structure Running (input : Input) (cwd : Path) (commands : List Command) (result : Result) :
    Prop where
  repository : ∃ config all, registry.lookup result.repositoryId = some config ∧
    cwd = config.canonicalPath ∧ commandFor result.action input.profile config = .ok all ∧
      result.attempts.map (·.argv) ++ commands <+: all
  named : result.executionId ≠ dotDot

/-- The references that are there when an output is written. -/
def refsBefore (result : Result) (cwd : Path) : Output → List ArtifactRef
  | .stdout => []
  | .stderr => [result.refOf sha256 cwd .stdout]

/-- The outputs that are written before one. -/
def Output.before : Output → List Output
  | .stdout => []
  | .stderr => [.stdout]

/-- The outputs have been written. -/
def Written (files : Path → Option Octets) (result : Result) (cwd : Path)
    (outputs : List Output) : Prop :=
  ∀ output ∈ outputs, files (result.artifactPath cwd output) = some (result.content output)

/-- How far a request is. -/
inductive Progress (files : Path → Option Octets) : Session → Prop
  | unregistered {session : Session} : session.result = none →
      (∀ executionId, session.awaits = some executionId → executionId ≠ dotDot) →
        (∀ executionId config, session.phase = .resolving executionId config →
          registry.lookup session.input.repositoryId = some config) →
        (∀ executionId config path, session.phase = .resolved executionId config path →
          registry.lookup session.input.repositoryId = some config) →
        Progress files session
  | running {input cwd commands result} : Running registry input cwd commands result →
      result.artifacts = [] → Progress files ⟨input, .running cwd commands, some result⟩
  | makingDirectory {input cwd output result} : Running registry input cwd [] result →
      result.artifacts = [] → Written files result cwd output.before →
        Progress files
          ⟨input, .makingDirectory cwd output (refsBefore sha256 result cwd output), some result⟩
  | writing {input cwd output result} : Running registry input cwd [] result →
      result.artifacts = [] → Written files result cwd output.before →
        Progress files
          ⟨input, .writing cwd output (refsBefore sha256 result cwd output), some result⟩
  | reading {input cwd output result} : Running registry input cwd [] result →
      result.artifacts = [] → Written files result cwd (output.before ++ [output]) →
        Progress files
          ⟨input, .reading cwd output (refsBefore sha256 result cwd output), some result⟩
  | settled {input cwd i result} : Running registry input cwd [] result →
      result.artifacts = [result.refOf sha256 cwd .stdout, result.refOf sha256 cwd .stderr] →
        Written files result cwd [.stdout, .stderr] →
          (result.status = .succeeded ∨ result.status = .failed) →
            Progress files ⟨input, .answered (.result i), some result⟩

/-- The request stands for an execution of the identifier, registered or not. -/
def Session.Claims (session : Session) (executionId : Str) : Prop :=
  session.awaits = some executionId ∨ session.registered = some executionId

structure Invariant (s : State) : Prop where
  progress : ∀ (i : Nat) session, s.sessions[i]? = some session →
    Progress registry sha256 s.files session
  stored : ∀ executionId (i : Nat), s.executions executionId = some i ↔
    ∃ session, s.sessions[i]? = some session ∧ session.registered = some executionId
  distinct : ∀ (i j : Nat) a b executionId, s.sessions[i]? = some a → s.sessions[j]? = some b →
    a.Claims executionId → b.Claims executionId → i = j

end Statements

/-! ## Moves -/

section Moves

variable {registry : List (Str × RepositoryConfig)} {sha256 : Octets → Str}
variable {s s' : State} {i : Nat} {session session' : Session}
variable {files files' : Path → Option Octets} {result : Result} {cwd : Path}

/-- No file that is there is changed. -/
def Keeps (files files' : Path → Option Octets) : Prop :=
  ∀ path octets, files path = some octets → files' path = some octets

theorem Keeps.refl : Keeps files files := fun _ _ h => h

theorem keeps_update {path : Path} {octets : Octets} (h : files path = none) :
    Keeps files (Function.update files path (some octets)) := by
  intro other content hother
  have hne : other ≠ path := by
    rintro rfl
    rw [h] at hother
    cases hother
  rw [Function.update_of_ne hne, hother]

theorem Written.keep {outputs : List Output} (h : Written files result cwd outputs)
    (hkeep : Keeps files files') : Written files' result cwd outputs :=
  fun output hmem => hkeep _ _ (h output hmem)

theorem Progress.keep (h : Progress registry sha256 files session) (hkeep : Keeps files files') :
    Progress registry sha256 files' session := by
  cases h with
  | unregistered hnone hname hresolving hresolved =>
      exact .unregistered hnone hname hresolving hresolved
  | running hrunning hrefs => exact .running hrunning hrefs
  | makingDirectory hrunning hrefs hwritten =>
      exact .makingDirectory hrunning hrefs (hwritten.keep hkeep)
  | writing hrunning hrefs hwritten => exact .writing hrunning hrefs (hwritten.keep hkeep)
  | reading hrunning hrefs hwritten => exact .reading hrunning hrefs (hwritten.keep hkeep)
  | settled hrunning hrefs hwritten hstatus =>
      exact .settled hrunning hrefs (hwritten.keep hkeep) hstatus

theorem getElem?_set_cases {j : Nat} {other : Session}
    (h : (s.sessions.set i session')[j]? = some other) :
    (j = i ∧ other = session') ∨ (j ≠ i ∧ s.sessions[j]? = some other) := by
  by_cases hji : j = i
  · subst hji
    rw [List.getElem?_set_self'] at h
    obtain ⟨_, -, rfl⟩ := Option.map_eq_some_iff.mp h
    exact .inl ⟨rfl, rfl⟩
  · rw [List.getElem?_set_ne (Ne.symm hji)] at h
    exact .inr ⟨hji, h⟩

/-- One request goes on. -/
theorem Invariant.set {executions' : Str → Option Nat} (h : Invariant registry sha256 s)
    (hsession : s.sessions[i]? = some session)
    (hprogress : Progress registry sha256 files' session') (hkeep : Keeps s.files files')
    (hstored : ∀ executionId k, executions' executionId = some k ↔
      (k = i ∧ session'.registered = some executionId) ∨
        (k ≠ i ∧ s.executions executionId = some k))
    (hclaims : ∀ executionId, session'.Claims executionId → session.Claims executionId ∨
      ∀ (j : Nat) other, s.sessions[j]? = some other → ¬ other.Claims executionId) :
    Invariant registry sha256 ⟨s.sessions.set i session', executions', files'⟩ := by
  have hself : (s.sessions.set i session')[i]? = some session' := by
    rw [List.getElem?_set_self', hsession]
    rfl
  have hclaimed {j : Nat} {other : Session} {executionId : Str} (hji : j ≠ i)
      (hother : s.sessions[j]? = some other) (hmine : session'.Claims executionId)
      (htheirs : other.Claims executionId) : False := by
    obtain hold | hnone := hclaims executionId hmine
    · exact hji (h.distinct j i other session executionId hother hsession htheirs hold)
    · exact hnone j other hother htheirs
  constructor
  · intro j other hother
    obtain ⟨-, rfl⟩ | ⟨-, hother⟩ := getElem?_set_cases hother
    · exact hprogress
    · exact (h.progress j other hother).keep hkeep
  · intro executionId k
    rw [hstored]
    constructor
    · rintro (⟨rfl, hregistered⟩ | ⟨hki, hold⟩)
      · exact ⟨session', hself, hregistered⟩
      · obtain ⟨other, hother, hregistered⟩ := (h.stored executionId k).mp hold
        exact ⟨other, (List.getElem?_set_ne (Ne.symm hki)).trans hother, hregistered⟩
    · rintro ⟨other, hother, hregistered⟩
      obtain ⟨rfl, rfl⟩ | ⟨hki, hother⟩ := getElem?_set_cases hother
      · exact .inl ⟨rfl, hregistered⟩
      · exact .inr ⟨hki, (h.stored executionId k).mpr ⟨other, hother, hregistered⟩⟩
  · intro j k a b executionId ha hb hclaim hclaim'
    obtain ⟨rfl, rfl⟩ | ⟨hji, hold⟩ := getElem?_set_cases ha
    · obtain ⟨rfl, -⟩ | ⟨hki, hold⟩ := getElem?_set_cases hb
      · rfl
      · exact (hclaimed hki hold hclaim hclaim').elim
    · obtain ⟨rfl, rfl⟩ | ⟨hki, hold'⟩ := getElem?_set_cases hb
      · exact (hclaimed hji hold hclaim' hclaim).elim
      · exact h.distinct j k a b executionId hold hold' hclaim hclaim'

/-- One request goes on as what it was registered as. -/
theorem Invariant.move (h : Invariant registry sha256 s) (hsession : s.sessions[i]? = some session)
    (hprogress : Progress registry sha256 files' session') (hkeep : Keeps s.files files')
    (hregistered : session'.registered = session.registered)
    (hclaims : ∀ executionId, session'.Claims executionId → session.Claims executionId ∨
      ∀ (j : Nat) other, s.sessions[j]? = some other → ¬ other.Claims executionId) :
    Invariant registry sha256 ⟨s.sessions.set i session', s.executions, files'⟩ := by
  refine h.set hsession hprogress hkeep (fun executionId k => ?_) hclaims
  by_cases hki : k = i
  · subst hki
    have hmine : s.executions executionId = some k ↔ session.registered = some executionId := by
      rw [h.stored]
      constructor
      · rintro ⟨other, hother, hregistered⟩
        rw [Option.some.inj (hsession.symm.trans hother)]
        exact hregistered
      · exact fun hregistered => ⟨session, hsession, hregistered⟩
    rw [hmine, hregistered]
    simp
  · simp [hki]

/-! ### The events -/

theorem begin_cases {executions : Str → Option Nat} {input : Input} {generated : Str} :
    (∃ response, begin registry executions input generated = .answered response) ∨
      ∃ executionId config,
        begin registry executions input generated = .resolving executionId config ∧
          executions executionId = none ∧ registry.lookup input.repositoryId = some config := by
  rw [begin]
  split
  · exact .inl ⟨_, rfl⟩
  split
  · exact .inl ⟨_, rfl⟩
  split
  · exact .inl ⟨_, rfl⟩
  split
  · exact .inl ⟨_, rfl⟩
  rename_i hfree
  split
  · rename_i hconfig
    exact .inr ⟨_, _, rfl, hfree, hconfig⟩
  · split <;> exact .inl ⟨_, rfl⟩

/-- An answer without a registration. -/
theorem Progress.refused (h : session.result = none) {response : Response} :
    Progress registry sha256 files { session with phase := .answered response } :=
  .unregistered h (by nofun) (by nofun) (by nofun)

theorem not_claims_refused {response : Response} {executionId : Str}
    (h : Session.Claims { session with phase := .answered response } executionId) :
    session.Claims executionId :=
  h.elim (by nofun) .inr

theorem Invariant.start {generated : Str} (h : Invariant registry sha256 s)
    (hin : InTime registry s (i, .start generated)) (hsession : s.sessions[i]? = some session)
    (hadvance : advance registry sha256 s i session (.start generated) = some s') :
    Invariant registry sha256 s' := by
  have hprogress := h.progress i session hsession
  simp only [advance] at hadvance
  split at hadvance
  · rename_i hphase
    obtain rfl := Option.some.inj hadvance
    have hnone : session.result = none := by
      cases hprogress with
      | unregistered hnone => exact hnone
      | _ => cases hphase
    obtain ⟨response, hbegin⟩ | ⟨executionId, config, hbegin, hfree, hconfig⟩ :=
      @begin_cases registry s.executions session.input generated
    · rw [hbegin]
      exact h.move hsession (.refused hnone) .refl rfl fun _ hclaims =>
        .inl (not_claims_refused hclaims)
    · have hstart := hin session hsession
      simp only [Session.InTime, hbegin] at hstart
      obtain ⟨hname, hnobody⟩ := hstart
      rw [hbegin]
      refine h.move hsession (.unregistered hnone ?_ ?_ (by nofun)) .refl rfl ?_
      · intro other heq
        rwa [← Option.some.inj heq]
      · intro other config' heq
        cases heq
        exact hconfig
      · intro other hclaims
        right
        rintro j session'' hother (hawaits | hregistered)
        all_goals
          obtain heq | heq := hclaims
          · obtain rfl : executionId = other := Option.some.inj heq
            first
              | exact hnobody session'' (List.mem_of_getElem? hother) hawaits
              | exact absurd ((h.stored executionId j).mpr ⟨session'', hother, hregistered⟩)
                  (by rw [hfree]; nofun)
          · rw [Session.registered, hnone] at heq
            cases heq
  · cases hadvance

theorem Invariant.realpath {path : Option Path} (h : Invariant registry sha256 s)
    (hsession : s.sessions[i]? = some session)
    (hadvance : advance registry sha256 s i session (.realpath path) = some s') :
    Invariant registry sha256 s' := by
  have hprogress := h.progress i session hsession
  simp only [advance] at hadvance
  split at hadvance
  · rename_i executionId config path hphase
    obtain rfl := Option.some.inj hadvance
    have hawaits : session.awaits = some executionId := by rw [Session.awaits, hphase]
    cases hprogress with
    | unregistered hnone hname hresolving hresolved =>
        refine h.move hsession (.unregistered hnone ?_ (by nofun) ?_) .refl rfl ?_
        · intro other heq
          cases heq
          exact hname executionId hawaits
        · intro other config' path' heq
          cases heq
          exact hresolving executionId config hphase
        · rintro other (heq | heq)
          · cases heq
            exact .inl (.inl hawaits)
          · exact .inl (.inr heq)
    | _ => cases hphase
  · rename_i hphase
    obtain rfl := Option.some.inj hadvance
    cases hprogress with
    | unregistered hnone =>
        exact h.move hsession (.refused hnone) .refl rfl fun _ hclaims =>
          .inl (not_claims_refused hclaims)
    | _ => cases hphase
  · cases hadvance

/-- What follows the commands, of which some may be left. -/
theorem Progress.afterCommands {input : Input} {commands : List Command}
    (h : Running registry input cwd commands result) (hrefs : result.artifacts = []) :
    Progress registry sha256 files ⟨input, afterCommands cwd commands, some result⟩ := by
  cases commands with
  | nil => exact .makingDirectory h hrefs (by nofun)
  | cons command commands => exact .running h hrefs

theorem Invariant.goOn (h : Invariant registry sha256 s) (hsession : s.sessions[i]? = some session)
    (hadvance : advance registry sha256 s i session .goOn = some s') :
    Invariant registry sha256 s' := by
  have hprogress := h.progress i session hsession
  simp only [advance] at hadvance
  split at hadvance
  swap
  · cases hadvance
  rename_i executionId config path hphase
  cases hprogress with
  | unregistered hnone hname hresolving hresolved =>
      split at hadvance
      · obtain rfl := Option.some.inj hadvance
        exact h.move hsession (.refused hnone) .refl rfl fun _ hclaims =>
          .inl (not_claims_refused hclaims)
      rename_i hpath
      split at hadvance
      · obtain rfl := Option.some.inj hadvance
        exact h.move hsession (.refused hnone) .refl rfl fun _ hclaims =>
          .inl (not_claims_refused hclaims)
      rename_i commands hcommands
      obtain rfl := Option.some.inj hadvance
      have hawaits : session.awaits = some executionId := by rw [Session.awaits, hphase]
      have hrunning : Running registry session.input path commands
          (newResult session.input executionId) :=
        { repository := ⟨config, commands, hresolved executionId config path hphase,
            not_not.mp hpath, hcommands, List.prefix_rfl⟩
          named := hname executionId hawaits }
      refine h.set hsession (.afterCommands hrunning rfl) .refl ?_ ?_
      · intro other k
        by_cases hother : other = executionId
        · subst hother
          rw [Function.update_self]
          constructor
          · intro heq
            exact .inl ⟨(Option.some.inj heq).symm, rfl⟩
          · rintro (⟨rfl, -⟩ | ⟨hki, hold⟩)
            · rfl
            · obtain ⟨session', hsession', hregistered⟩ := (h.stored other k).mp hold
              exact absurd (h.distinct k i session' session other hsession' hsession
                (.inr hregistered) (.inl hawaits)) hki
        · rw [Function.update_of_ne hother]
          constructor
          · intro hold
            refine .inr ⟨?_, hold⟩
            rintro rfl
            obtain ⟨session', hsession', hregistered⟩ := (h.stored other k).mp hold
            rw [← Option.some.inj (hsession.symm.trans hsession'), Session.registered, hnone]
              at hregistered
            cases hregistered
          · rintro (⟨-, heq⟩ | ⟨-, hold⟩)
            · exact absurd (Option.some.inj heq).symm hother
            · exact hold
      · rintro other (heq | heq)
        · cases hcases : commands with
          | nil => rw [hcases] at heq; cases heq
          | cons command commands => rw [hcases] at heq; cases heq
        · obtain rfl : executionId = other := Option.some.inj heq
          exact .inl (.inl hawaits)
  | _ => cases hphase

theorem not_awaits_afterCommands {input : Input} {commands : List Command}
    {result : Option Result} :
    Session.awaits ⟨input, afterCommands cwd commands, result⟩ = none := by
  cases commands <;> rfl

theorem Invariant.ran {attempt : Option Attempt} (h : Invariant registry sha256 s)
    (hin : InTime registry s (i, .ran attempt)) (hsession : s.sessions[i]? = some session)
    (hadvance : advance registry sha256 s i session (.ran attempt) = some s') :
    Invariant registry sha256 s' := by
  have hprogress := h.progress i session hsession
  cases hprogress with
  | running hrunning hrefs =>
      rename_i input cwd commands result
      cases commands with
      | nil => cases hadvance
      | cons command commands =>
          obtain ⟨hcommand, hattempt⟩ := hin _ hsession
          obtain ⟨attempt, rfl⟩ := Option.ne_none_iff_exists'.mp hattempt
          simp only [advance, if_neg hcommand] at hadvance
          obtain rfl := Option.some.inj hadvance
          refine h.move hsession (.afterCommands ?_ hrefs) .refl rfl ?_
          · obtain ⟨⟨config, all, hconfig, hcwd, hall, hprefix⟩, hnamed⟩ := hrunning
            refine ⟨⟨config, all, hconfig, hcwd, hall, ?_⟩, hnamed⟩
            rw [List.map_append, List.append_assoc]
            refine List.IsPrefix.trans ?_ hprefix
            refine (List.prefix_append_right_inj _).mpr ?_
            split
            · exact ⟨commands, rfl⟩
            · exact List.prefix_rfl
          · rintro other (heq | heq)
            · rw [not_awaits_afterCommands] at heq
              cases heq
            · exact .inl (.inr heq)
  | unregistered hnone =>
      simp only [advance, hnone] at hadvance
      split at hadvance
      · rename_i heq
        cases heq
      · cases hadvance
  | _ => cases hadvance

/-- A registered request goes on without waiting to be registered again. -/
theorem claims_of_registered {input : Input} {phase phase' : Phase} {result' : Result}
    {executionId : Str} (h : Session.Claims ⟨input, phase', some result'⟩ executionId)
    (hawaits : Session.awaits ⟨input, phase', some result'⟩ = none)
    (hid : result'.executionId = result.executionId) :
    Session.Claims ⟨input, phase, some result⟩ executionId := by
  obtain heq | heq := h
  · rw [hawaits] at heq
    cases heq
  · right
    rw [← heq, Session.registered, Session.registered, Option.map_some, Option.map_some, hid]

theorem written_append {outputs : List Output} {output : Output}
    (h : Written files result cwd outputs)
    (hfile : files (result.artifactPath cwd output) = some (result.content output)) :
    Written files result cwd (outputs ++ [output]) := by
  intro other hmem
  obtain hmem | hmem := List.mem_append.mp hmem
  · exact h other hmem
  · rwa [List.mem_singleton.mp hmem]

theorem settle_status {refs : List ArtifactRef} :
    (result.settle refs).status = .succeeded ∨ (result.settle refs).status = .failed := by
  simp only [Result.settle]
  split
  · exact .inr rfl
  · exact .inl rfl

theorem Invariant.done (h : Invariant registry sha256 s) (hin : InTime registry s (i, .done))
    (hsession : s.sessions[i]? = some session)
    (hadvance : advance registry sha256 s i session .done = some s') :
    Invariant registry sha256 s' := by
  have hprogress := h.progress i session hsession
  cases hprogress with
  | makingDirectory hrunning hrefs hwritten =>
      obtain rfl := Option.some.inj hadvance
      exact h.move hsession (.writing hrunning hrefs hwritten) .refl rfl fun _ hclaims =>
        .inl (claims_of_registered hclaims rfl rfl)
  | writing hrunning hrefs hwritten =>
      rename_i input cwd output result
      simp only [advance] at hadvance
      split at hadvance
      · rename_i octets hfile
        obtain rfl := Option.some.inj hadvance
        have hcontent := hin _ hsession octets hfile
        refine h.move hsession (.reading hrunning hrefs ?_) .refl rfl fun _ hclaims =>
          .inl (claims_of_registered hclaims rfl rfl)
        exact written_append hwritten (hcontent ▸ hfile)
      · rename_i hfile
        obtain rfl := Option.some.inj hadvance
        have hkeep : Keeps s.files _ := @keeps_update _ _ (result.content output) hfile
        refine h.move hsession (.reading hrunning hrefs ?_) hkeep rfl fun _ hclaims =>
          .inl (claims_of_registered hclaims rfl rfl)
        exact written_append (hwritten.keep hkeep) (Function.update_self _ _ _)
  | reading hrunning hrefs hwritten =>
      rename_i input cwd output result
      have hfile := hwritten output (List.mem_append_right _ (List.mem_singleton_self output))
      simp only [advance, hfile] at hadvance
      cases output with
      | stdout =>
          obtain rfl := Option.some.inj hadvance
          exact h.move hsession (.makingDirectory hrunning hrefs hwritten) .refl rfl fun _ hclaims =>
            .inl (claims_of_registered hclaims rfl rfl)
      | stderr =>
          obtain rfl := Option.some.inj hadvance
          obtain ⟨hrepository, hnamed⟩ := hrunning
          refine h.move hsession (.settled ⟨hrepository, hnamed⟩ rfl hwritten settle_status) .refl
            rfl fun _ hclaims => .inl (claims_of_registered hclaims rfl rfl)
  | unregistered hnone =>
      simp only [advance, hnone] at hadvance
      split at hadvance
      · rename_i heq
        cases heq
      · rename_i heq
        cases heq
      · rename_i heq
        cases heq
      · cases hadvance
  | running | settled => cases hadvance

theorem Invariant.failed {written : Nat} (hin : InTime registry s (i, .failed written))
    (hsession : s.sessions[i]? = some session)
    (hadvance : advance registry sha256 s i session (.failed written) = some s') :
    Invariant registry sha256 s' := by
  have hnone : session.result = none := hin session hsession
  simp only [advance, hnone] at hadvance
  split at hadvance
  · rename_i heq
    cases heq
  · rename_i heq
    cases heq
  · rename_i heq
    cases heq
  · cases hadvance

/-- What a move in time does. -/
theorem Invariant.step {event : Event} (h : Invariant registry sha256 s)
    (hin : InTime registry s (i, event)) :
    Invariant registry sha256 (step registry sha256 s (i, event)).2 := by
  rw [EngineeringWorker.step]
  cases hsession : s.sessions[i]? with
  | none => exact h
  | some session =>
      cases hadvance : advance registry sha256 s i session event with
      | none =>
          simp only [hsession, Option.bind_some, hadvance]
          exact h
      | some s' =>
          simp only [hsession, Option.bind_some, hadvance, Option.getD_some]
          cases event with
          | start generated => exact h.start hin hsession hadvance
          | realpath path => exact h.realpath hsession hadvance
          | goOn => exact h.goOn hsession hadvance
          | ran attempt => exact h.ran hin hsession hadvance
          | done => exact h.done hin hsession hadvance
          | failed written => exact Invariant.failed hin hsession hadvance

theorem invariant_initial {inputs : List Input} :
    Invariant registry sha256 (initial inputs files) := by
  have hreceived {i : Nat} {session : Session}
      (h : (initial inputs files).sessions[i]? = some session) :
      session.result = none ∧ session.phase = .received := by
    rw [initial, List.getElem?_map, Option.map_eq_some_iff] at h
    obtain ⟨input, -, rfl⟩ := h
    exact ⟨rfl, rfl⟩
  have hunclaimed {i : Nat} {session : Session} {executionId : Str}
      (h : (initial inputs files).sessions[i]? = some session) :
      ¬ session.Claims executionId := by
    obtain ⟨hnone, hphase⟩ := hreceived h
    rintro (heq | heq)
    · rw [Session.awaits, hphase] at heq
      cases heq
    · rw [Session.registered, hnone] at heq
      cases heq
  constructor
  · intro i session h
    obtain ⟨hnone, hphase⟩ := hreceived h
    refine .unregistered hnone ?_ ?_ ?_
    · intro executionId heq
      exact absurd (.inl heq) (hunclaimed h)
    all_goals
      intros
      rename_i heq
      rw [hphase] at heq
      cases heq
  · intro executionId i
    constructor
    · nofun
    · rintro ⟨session, h, hregistered⟩
      exact absurd (.inr hregistered) (hunclaimed h)
  · intro i j a b executionId ha _ hclaims
    exact absurd hclaims (hunclaimed ha)

/-! ## Runs -/

theorem Invariant.run {inputs : List Input} {moves : List Move}
    (h : Run registry sha256 inputs files moves s)
    (hin : ∀ m ∈ moves, InTime registry m.before m.input) : Invariant registry sha256 s := by
  refine Machine.Run.invariant
    (P := fun past s => (∀ m ∈ past, InTime registry m.before m.input) →
      Invariant registry sha256 s) h (fun _ => invariant_initial) ?_ hin
  intro past m ih hm hin
  have hbefore := ih fun m' hm' => hin m' (List.mem_append_left _ hm')
  have hafter := hbefore.step (hin m (List.mem_append_right _ (List.mem_singleton_self m)))
  have hfollows : EngineeringWorker.step registry sha256 m.before m.input = (m.output, m.after) := hm
  rwa [hfollows] at hafter

/-- A registered request is at one of its commands or outputs, or it is answered. -/
theorem Progress.registered (h : Progress registry sha256 files session)
    (hresult : session.result = some result) :
    ∃ cwd commands, Running registry session.input cwd commands result ∧
      (result.artifacts = [] ∧ (∀ response, session.phase ≠ .answered response) ∨
        result.artifacts = [result.refOf sha256 cwd .stdout, result.refOf sha256 cwd .stderr] ∧
          Written files result cwd [.stdout, .stderr] ∧
            (result.status = .succeeded ∨ result.status = .failed)) := by
  cases h with
  | unregistered hnone =>
      rw [hnone] at hresult
      cases hresult
  | running hrunning hrefs =>
      obtain rfl := Option.some.inj hresult
      exact ⟨_, _, hrunning, .inl ⟨hrefs, nofun⟩⟩
  | makingDirectory hrunning hrefs | writing hrunning hrefs | reading hrunning hrefs =>
      obtain rfl := Option.some.inj hresult
      exact ⟨_, _, hrunning, .inl ⟨hrefs, nofun⟩⟩
  | settled hrunning hrefs hwritten hstatus =>
      obtain rfl := Option.some.inj hresult
      exact ⟨_, _, hrunning, .inr ⟨hrefs, hwritten, hstatus⟩⟩

/-- An output of a result is its own artifact. -/
theorem Running.ownArtifact {input : Input} {commands : List Command} {output : Output}
    (h : Running registry input cwd commands result)
    (hfile : files (result.artifactPath cwd output) = some (result.content output)) :
    OwnArtifact registry sha256 files result (result.refOf sha256 cwd output) where
  inside := by
    obtain ⟨config, -, hconfig, rfl, -⟩ := h.repository
    by_cases hdot : result.executionId = dot
    · refine ⟨config, [output.fileName], hconfig, by simp, ?_⟩
      rw [Result.refOf, Result.artifactPath, artifactRoot, pushSegment, if_pos hdot]
    · refine ⟨config, [result.executionId, output.fileName], hconfig, by simp, ?_⟩
      rw [Result.refOf, Result.artifactPath, artifactRoot, pushSegment, if_neg hdot,
        if_neg h.named, List.append_assoc]
      rfl
  content := ⟨output, hfile, rfl, rfl⟩

theorem Invariant.lawful (h : Invariant registry sha256 s) : Lawful registry sha256 s where
  once i j a b executionId ha hb hclaim hclaim' :=
    h.distinct i j a b executionId ha hb (.inr hclaim) (.inr hclaim')
  ran i session result hsession hresult := by
    obtain ⟨cwd, commands, ⟨⟨config, all, hconfig, -, hall, hprefix⟩, -⟩, -⟩ :=
      (h.progress i session hsession).registered hresult
    exact ⟨config, all, hconfig, hall, (List.prefix_append _ commands).trans hprefix⟩
  artifacts i session result hsession hresult ref href := by
    obtain ⟨cwd, commands, hrunning, hempty | ⟨hrefs, hwritten, -⟩⟩ :=
      (h.progress i session hsession).registered hresult
    · rw [hempty.1] at href
      cases href
    · rw [hrefs] at href
      obtain rfl | href := List.mem_cons.mp href
      · exact hrunning.ownArtifact (hwritten .stdout (by simp))
      · rw [List.mem_singleton.mp href]
        exact hrunning.ownArtifact (hwritten .stderr (by simp))
  settled i session executionId response hsession hregistered hphase := by
    obtain ⟨result, hresult, hid⟩ := Option.map_eq_some_iff.mp hregistered
    obtain ⟨cwd, commands, -, hopen | ⟨-, -, hstatus⟩⟩ :=
      (h.progress i session hsession).registered hresult
    · exact absurd hphase (hopen.2 response)
    · exact ⟨i, session, result, (h.stored executionId i).mpr ⟨session, hsession, hregistered⟩,
        hsession, hresult, hid, hstatus⟩

/-- In a run all of whose moves are in time, every state that is reached is lawful. -/
theorem executions_lawful {inputs : List Input} {moves : List Move}
    (h : Run registry sha256 inputs files moves s)
    (hin : ∀ m ∈ moves, InTime registry m.before m.input) : Lawful registry sha256 s :=
  (Invariant.run h hin).lawful

end Moves

/-! ## Runs that are not in time -/

section Examples

private def registry₀ : List (Str × RepositoryConfig) := [(['r'], ⟨[['w']], none, none⟩)]

private def generating (executionId : String) : Input where
  executionId := some executionId.toList
  repositoryId := ['r']
  action := "RUN_PRISMA_GENERATE".toList
  profile := none
  workflowRunId := none
  workflowStepRunId := none
  policyVersion := none

/-- The first steps of a request, until its command is started. -/
private def startup (i : Nat) : List (Nat × Event) :=
  [(i, .start []), (i, .realpath (some [['w']])), (i, .goOn)]

private def finish (i : Nat) : List (Nat × Event) :=
  (i, .ran (some ⟨[], some 0, false, ['o'], []⟩)) :: List.replicate 6 (i, .done)

private def execution (inputs : List Input) (events : List (Nat × Event)) : List Move × State :=
  Machine.execute (step registry₀ fun _ => []) (initial inputs fun _ => none) events

private theorem run_execution (inputs : List Input) (events : List (Nat × Event)) :
    Run registry₀ (fun _ => []) inputs (fun _ => none) (execution inputs events).1
      (execution inputs events).2 :=
  Machine.run_execute _ _ _

private def written : List Move × State :=
  execution [generating "e"] (startup 0 ++ finish 0)

theorem executions_lawful_written : Lawful registry₀ (fun _ => []) written.2 ∧
    ∀ session ∈ written.2.sessions[0]?, session.result.map (·.status) = some .succeeded := by
  refine ⟨executions_lawful (run_execution _ _) ?_, ?_⟩
  · have hstart : InTime registry₀ (initial [generating "e"] fun _ => none) (0, .start []) := by
      rintro session ⟨⟩
      exact ⟨by decide, by decide⟩
    refine List.forall_mem_cons.mpr ⟨hstart, ?_⟩
    iterate 9
      refine List.forall_mem_cons.mpr ⟨?_, ?_⟩
      · rintro session ⟨⟩
        first
          | trivial
          | exact ⟨nofun, nofun⟩
          | nofun
    nofun
  · rintro session ⟨⟩
    rfl

private def twice : List Move × State :=
  execution [generating "e", generating "e"]
    [(0, .start []), (1, .start []), (0, .realpath (some [['w']])), (1, .realpath (some [['w']])),
      (0, .goOn), (1, .goOn)]

private def outside : List Move × State :=
  execution [generating ".."] (startup 0 ++ finish 0)

private def unwritten : List Move × State :=
  execution [generating "e"]
    (startup 0 ++ [(0, .ran (some ⟨[], some 0, false, ['o'], []⟩)), (0, .failed 0)])

/-- Two requests for an identifier that have both passed the check run their commands; under the
identifier `..` the artifacts are beside their directory; and after a failure the result that is
stored stays RUNNING. -/
theorem not_executions_lawful :
    (¬ ∀ registry sha256 inputs files moves s, Run registry sha256 inputs files moves s → Once s) ∧
    (¬ ∀ registry sha256 inputs files moves s, Run registry sha256 inputs files moves s →
      ArtifactsOwn registry sha256 s) ∧
    ¬ ∀ registry sha256 inputs files moves s, Run registry sha256 inputs files moves s →
      Settled s := by
  refine ⟨fun h => ?_, fun h => ?_, fun h => ?_⟩
  · have honce : 0 = 1 := h _ _ _ _ _ _ (run_execution _ _ : Run _ _ _ _ twice.1 twice.2) 0 1 _ _
      ['e'] rfl rfl rfl rfl
    cases honce
  · have hown := h _ _ _ _ _ _ (run_execution _ _ : Run _ _ _ _ outside.1 outside.2) 0 _ _ rfl rfl
      _ List.mem_cons_self
    obtain ⟨config, rest, hconfig, -, hpath⟩ := hown.inside
    cases hconfig
    have hinside : (['w'] :: artifactDirName :: rest : Path) = [['w'], "stdout.txt".toList] :=
      hpath.symm
    cases rest with
    | nil => exact absurd hinside (by decide)
    | cons name rest => cases hinside
  · obtain ⟨owner, session, result, howner, hsession, hresult, -, hstatus⟩ :=
      h _ _ _ _ _ _ (run_execution _ _ : Run _ _ _ _ unwritten.1 unwritten.2) 0 _ ['e'] _ rfl rfl rfl
    cases howner
    cases hsession
    cases hresult
    exact absurd hstatus (by decide)

end Examples

end EngineeringWorker
