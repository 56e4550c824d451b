import VitoPlatform.Policy.Evaluate

/-!
# Path confinement

A path that the policy allows is canonical except for a tail that does not exist yet. The
operating system, opening or creating it, follows links only in that tail, and the only
component of the tail at which it can still arrive somewhere is the last one. The tail is
appended because `existsSync` denies it, and `existsSync` denies a dangling link too: this
is the one case in which an allowed path leads outside the root.
-/

namespace Policy

open Text PosixPath

/-- The names `normalizePath` resolves a requested path to, before it looks at the disk. -/
def requestedNames (host : Host) (policy : ExecutionPolicyConfig) (requestedPath : Str) :
    List Str :=
  resolveNames host.cwd
    [policy.allowedRoot, forwardSlashes (decodePercentEncoding requestedPath)]

/-- If the last component of the requested path, in its canonicalized directory, is a
symbolic link to a place that is free, then this place lies inside `root`. -/
def DanglingLeafInside (host : Host) (root names : List Str) : Prop :=
  ∀ parent leaf dir target free, names = parent ++ [leaf] →
    canonicalizePath host (render parent) = some (render dir) →
    host.tree.entry (dir ++ [leaf]) = some (.link target) →
    host.tree.lookup host.cwd (render (dir ++ [leaf])) = .missing free → root <+: free

/-! ## Canonicalization -/

theorem appendSegment_render {names : List Str} (h : ∀ n ∈ names, IsName n) (n : Str) :
    appendSegment (render names) n = render (names ++ [n]) := by
  rw [appendSegment, render_snoc]
  cases names with
  | nil => rfl
  | cons m names =>
      have hne : render (m :: names) ≠ ['/'] := fun hroot =>
        absurd (render_injective h (b := []) (by simp) hroot) (by simp)
      rw [if_neg hne, if_neg (by simp), List.append_assoc, List.singleton_append]

theorem canonicalizePath_loop_append {host : Host} {a b : List Str} : ∀ {canon : Str},
    canonicalizePath.loop host canon (a ++ b) =
      (canonicalizePath.loop host canon a).bind fun c => canonicalizePath.loop host c b := by
  induction a with
  | nil => exact rfl
  | cons n a ih =>
      intro canon
      simp only [List.cons_append, canonicalizePath.loop]
      split
      · split
        · exact ih
        · rfl
      · exact ih

/-- One round of the loop, in terms of where the path leads. -/
theorem canonicalizePath_loop_cons {host : Host} {p : List Str} {n : Str} {rest : List Str}
    (hn : ∀ m ∈ p ++ [n], IsName m) :
    canonicalizePath.loop host (render p) (n :: rest) =
      match host.tree.walk host.tree.linkLimit [] (p ++ [n]) with
      | .found q => canonicalizePath.loop host (render q) rest
      | _ => canonicalizePath.loop host (render (p ++ [n])) rest := by
  have hp : ∀ m ∈ p, IsName m := fun m hm => hn m (List.mem_append_left _ hm)
  simp only [canonicalizePath.loop, appendSegment_render hp, FileTree.existsSync,
    FileTree.realpathSync, FileTree.lookup_render hn]
  cases host.tree.walk host.tree.linkLimit [] (p ++ [n]) with
  | found q => rfl
  | missing q => rfl
  | unresolvable => rfl

/-- Once a path leads to no object, the loop appends the rest literally. -/
theorem canonicalizePath_loop_lost {host : Host} {names : List Str} : ∀ {p : List Str},
    (∀ n ∈ p ++ names, IsName n) →
      (∀ q, host.tree.walk host.tree.linkLimit [] p ≠ .found q) →
        canonicalizePath.loop host (render p) names = some (render (p ++ names)) := by
  induction names with
  | nil =>
      intro p _ _
      rw [List.append_nil]
      rfl
  | cons n names ih =>
      intro p hn hlost
      have hsnoc : ∀ m ∈ p ++ [n], IsName m := fun m hm => hn m (by
        rw [List.append_cons]
        exact List.mem_append_left _ hm)
      have hstill : host.tree.walk host.tree.linkLimit [] (p ++ [n]) = .unresolvable :=
        FileTree.walk_append_unresolvable (by simp) hlost
      rw [canonicalizePath_loop_cons hsnoc, hstill]
      change canonicalizePath.loop host (render (p ++ [n])) names = _
      rw [ih (by simpa using hn) (by simp [hstill]), List.append_assoc, List.singleton_append]

/-- The loop stops at an object `q` with the first component that leads to no object, and
appends what is left. -/
theorem canonicalizePath_loop_object {host : Host} {names : List Str} : ∀ {p : List Str},
    host.tree.IsObject p →
      (∀ n ∈ names, IsName n) →
        ∃ q done left, names = done ++ left ∧
          host.tree.IsObject q ∧
          canonicalizePath.loop host (render p) done = some (render q) ∧
          canonicalizePath.loop host (render p) names = some (render (q ++ left)) ∧
          ∀ n rest, left = n :: rest →
            ∀ r, host.tree.walk host.tree.linkLimit [] (q ++ [n]) ≠ .found r := by
  induction names with
  | nil =>
      intro p hp _
      exact ⟨p, [], [], rfl, hp, rfl, by rw [List.append_nil]; rfl, by simp⟩
  | cons n names ih =>
      intro p hp hnames
      have hall : ∀ m ∈ p ++ n :: names, IsName m :=
        List.forall_mem_append.mpr ⟨hp.isName, hnames⟩
      have hsnoc : ∀ m ∈ p ++ [n], IsName m :=
        List.forall_mem_append.mpr ⟨hp.isName, by simpa using hnames n (by simp)⟩
      cases hw : host.tree.walk host.tree.linkLimit [] (p ++ [n]) with
      | found q' =>
          obtain ⟨q, done, left, hsplit, hq, hdone, hloop, hleft⟩ :=
            ih (FileTree.walk_found host.tree.root hw) fun m hm =>
              hnames m (List.mem_cons_of_mem _ hm)
          refine ⟨q, n :: done, left, by rw [hsplit, List.cons_append], hq, ?_, ?_, hleft⟩
          · rw [canonicalizePath_loop_cons hsnoc, hw]
            exact hdone
          · rw [canonicalizePath_loop_cons hsnoc, hw]
            exact hloop
      | missing _ | unresolvable =>
          refine ⟨p, [], n :: names, rfl, hp, rfl, ?_, ?_⟩
          · have lost : canonicalizePath.loop host (render (p ++ [n])) names =
                some (render ((p ++ [n]) ++ names)) :=
              canonicalizePath_loop_lost (by simpa using hall) (by simp [hw])
            rw [canonicalizePath_loop_cons hsnoc, hw]
            simpa using lost
          · intro m rest hm r hr
            obtain ⟨rfl, rfl⟩ := List.cons.inj hm
            rw [hw] at hr
            cases hr

/-- Where a whole path exists, the loop computes its real path. -/
theorem canonicalizePath_loop_found {host : Host} {names : List Str} : ∀ {p q : List Str},
    host.tree.entry p = some .directory → (∀ n ∈ names, IsName n) →
      host.tree.walk host.tree.linkLimit p names = .found q →
        canonicalizePath.loop host (render p) names = some (render q) := by
  induction names with
  | nil =>
      intro p q _ _ h
      rw [FileTree.walk_nil] at h
      cases h
      rfl
  | cons n names ih =>
      intro p q hp hnames h
      obtain ⟨r, hr, hq, hdir⟩ := FileTree.walk_append (a := [n]) hp h
      have hsnoc : ∀ m ∈ p ++ [n], IsName m :=
        List.forall_mem_append.mpr
          ⟨FileTree.IsObject.isName (.inr hp), by simpa using hnames n (by simp)⟩
      have hfrom : host.tree.walk host.tree.linkLimit [] (p ++ [n]) = .found r := by
        rw [FileTree.walk_directories (by simpa using hp), List.nil_append, hr]
      rw [canonicalizePath_loop_cons hsnoc, hfrom]
      change canonicalizePath.loop host (render r) names = _
      cases names with
      | nil =>
          rw [FileTree.walk_nil] at hq
          cases hq
          rfl
      | cons m names =>
          exact ih (hdir (by simp)) (fun k hk => hnames k (List.mem_cons_of_mem _ hk)) hq

/-- The two branches of `canonicalizePath` agree on a resolved path. -/
theorem canonicalizePath_render {host : Host} {names : List Str} (h : ∀ n ∈ names, IsName n) :
    canonicalizePath host (render names) = canonicalizePath.loop host (render []) names := by
  rw [canonicalizePath, isAbsolute_render, if_pos rfl, segments_render h]
  simp only [FileTree.existsSync, FileTree.realpathSync, FileTree.lookup_render h]
  cases hw : host.tree.walk host.tree.linkLimit [] names with
  | found q => exact (canonicalizePath_loop_found host.tree.root h hw).symm
  | missing _ | unresolvable => rfl

/-! ## What an allowed path opens -/

theorem isWithin_render {a b : List Str} (ha : ∀ n ∈ a, IsName n) (hb : ∀ n ∈ b, IsName n)
    (h : isWithin (render b) (render a) = true) : a <+: b := by
  rw [isWithin, Bool.or_eq_true, beq_iff_eq, startsWith_render ha hb] at h
  rcases h with ⟨_, c, _, rfl⟩ | h
  · exact List.prefix_append a c
  · rw [render_injective hb ha h]

/-- Opening a canonicalized path stays at it, unless its last component is a dangling
link. -/
theorem opened_canonical {host : Host} {q left : List Str}
    (hq : host.tree.IsObject q)
    (hnames : ∀ n ∈ q ++ left, IsName n)
    (hleft : ∀ n rest, left = n :: rest →
      ∀ r, host.tree.walk host.tree.linkLimit [] (q ++ [n]) ≠ .found r)
    {object : List Str}
    (hopen : (host.tree.lookup host.cwd (render (q ++ left))).opened = some object) :
    object = q ++ left ∨ ∃ leaf target, left = [leaf] ∧
      host.tree.entry (q ++ [leaf]) = some (.link target) ∧
      host.tree.lookup host.cwd (render (q ++ [leaf])) = .missing object := by
  rw [FileTree.lookup_render hnames] at hopen
  match left, hleft, hnames, hopen with
  | [], _, _, hopen =>
      rw [List.append_nil, FileTree.walk_self hq] at hopen
      rw [List.append_nil]
      exact .inl (Option.some.inj hopen).symm
  | n :: m :: rest, hleft, _, hopen =>
      have hlost : host.tree.walk host.tree.linkLimit [] ((q ++ [n]) ++ m :: rest) =
          .unresolvable :=
        FileTree.walk_append_unresolvable (by simp) (hleft n (m :: rest) rfl)
      rw [List.append_assoc, List.singleton_append] at hlost
      rw [hlost] at hopen
      cases hopen
  | [n], hleft, hnames, hopen =>
      rcases hq with hq | hq
      · rw [FileTree.walk_below_file hq (by simp)] at hopen
        cases hopen
      have hn : IsName n := hnames n (by simp)
      cases he : host.tree.entry (q ++ [n]) with
      | none =>
          rw [FileTree.walk_directories (by simpa using hq), List.nil_append,
            FileTree.walk_name hn (by simp [he]), if_pos he] at hopen
          exact .inl (Option.some.inj hopen).symm
      | some e =>
          cases e with
          | file =>
              exact absurd (FileTree.walk_self (.inl he)) (hleft n [] rfl _)
          | directory =>
              exact absurd (FileTree.walk_self (.inr he)) (hleft n [] rfl _)
          | link target =>
              refine .inr ⟨n, target, rfl, he, ?_⟩
              rw [FileTree.lookup_render hnames]
              cases hw : host.tree.walk host.tree.linkLimit [] (q ++ [n]) with
              | found r => exact absurd hw (hleft n [] rfl r)
              | missing r =>
                  rw [hw] at hopen
                  rw [Option.some.inj hopen]
              | unresolvable =>
                  rw [hw] at hopen
                  cases hopen

/-! ## What the evaluator has checked -/

/-- The actions on a path. -/
def IsPathAction (action : ExecutionAction) : Prop :=
  action = .readFile ∨ action = .writeFile ∨ action = .createFile ∨ action = .deleteFile

/-- The rules of a profile and a policy about the path a request has led to. -/
structure PathRules (host : Host) (homeDir : Option Str) (policy : ExecutionPolicyConfig)
    (profile : ExecutionProfile) (action : ExecutionAction) (normalized : Str) : Prop where
  home : isHomeDenied host homeDir normalized = false
  secret : isSecretPath normalized = false
  denied : firstDenied host (relative host.cwd (resolve host.cwd [policy.allowedRoot]) normalized)
    policy.deniedPaths = some none
  mode : profile = .builder ∨ action = .readFile
  within : isWithin normalized (resolve host.cwd [policy.allowedRoot]) = true

/-- The checks behind an allowed path action. -/
structure PathAllowed (host : Host) (homeDir : Option Str) (policy : ExecutionPolicyConfig)
    (profile : ExecutionProfile) (action : ExecutionAction) (requestedPath normalized : Str) :
    Prop extends PathRules host homeDir policy profile action normalized where
  not_empty : requestedPath ≠ []
  inside : normalizePath host requestedPath policy.allowedRoot = ⟨normalized, true⟩

theorem evaluateWithinWorktree_allowed {host : Host} {policy : ExecutionPolicyConfig}
    {base : PolicyDecision} {normalizedPath : Str} {allowReason denyReason : String} :
    (evaluateWithinWorktree host policy base normalizedPath allowReason denyReason).allowed =
      isWithin normalizedPath (resolve host.cwd [policy.allowedRoot]) := by
  rw [evaluateWithinWorktree]
  split
  · rename_i h
    rw [h]
    rfl
  · rename_i h
    rw [Bool.not_eq_true] at h
    rw [h]
    rfl

theorem evaluateWithinWorktree_normalizedPath {host : Host} {policy : ExecutionPolicyConfig}
    {base : PolicyDecision} {normalizedPath : Str} {allowReason denyReason : String} :
    (evaluateWithinWorktree host policy base normalizedPath allowReason
      denyReason).normalizedPath = some normalizedPath := by
  rw [evaluateWithinWorktree]
  split
  · rfl
  · rfl

theorem evaluateProfilePath_allowed {host : Host} {policy : ExecutionPolicyConfig}
    {profile : ExecutionProfile} {action : ExecutionAction} {base : PolicyDecision}
    {normalizedPath : Str} :
    (evaluateProfilePath host policy profile action base normalizedPath).allowed = true ↔
      (profile = .builder ∨ action = .readFile) ∧
        isWithin normalizedPath (resolve host.cwd [policy.allowedRoot]) = true := by
  cases profile with
  | builder => simp [evaluateProfilePath, evaluateBuilderPath, evaluateWithinWorktree_allowed]
  | reviewer | orchestrator | releaseAuthority =>
      simp only [evaluateProfilePath, evaluateReviewerPath, evaluateOrchestratorPath,
        evaluateReleaseAuthorityPath]
      split
      · rename_i h
        simp [h, evaluateWithinWorktree_allowed]
      · rename_i h
        simp [h]

theorem evaluateProfilePath_normalizedPath {host : Host} {policy : ExecutionPolicyConfig}
    {profile : ExecutionProfile} {action : ExecutionAction} {base : PolicyDecision}
    {normalizedPath : Str} :
    (evaluateProfilePath host policy profile action base normalizedPath).normalizedPath =
      some normalizedPath := by
  cases profile with
  | builder => exact evaluateWithinWorktree_normalizedPath
  | reviewer | orchestrator | releaseAuthority =>
      simp only [evaluateProfilePath, evaluateReviewerPath, evaluateOrchestratorPath,
        evaluateReleaseAuthorityPath]
      split
      · exact evaluateWithinWorktree_normalizedPath
      · rfl

/-- An allowed decision about a path passed every check: it is the one of the profile, about
the canonical path. -/
theorem evaluatePathAction_allowed {host : Host} {ctx : PolicyEvaluationContext}
    {policy : ExecutionPolicyConfig} {profile : ExecutionProfile} {action : ExecutionAction}
    {base decision : PolicyDecision} {requestedPath : Str}
    (hpath : ctx.requestedPath = some requestedPath)
    (heval : evaluatePathAction host ctx policy profile action base = some decision)
    (hallowed : decision.allowed = true) :
    ∃ normalized,
      decision = evaluateProfilePath host policy profile action base normalized ∧
      PathAllowed host ctx.homeDir policy profile action requestedPath normalized := by
  rw [evaluatePathAction, hpath] at heval
  match requestedPath with
  | [] =>
      cases heval
      cases hallowed
  | c :: rest =>
      simp only at heval
      obtain ⟨normalized, inside, hnorm⟩ : ∃ normalized inside,
          normalizePath host (c :: rest) policy.allowedRoot = ⟨normalized, inside⟩ := ⟨_, _, rfl⟩
      rw [hnorm] at heval
      simp only at heval
      split at heval
      · split at heval
        · cases heval
          cases hallowed
        · cases heval
          cases hallowed
      rename_i hinside
      split at heval
      · cases heval
        cases hallowed
      rename_i hhome
      split at heval
      · cases heval
        cases hallowed
      rename_i hsecret
      split at heval
      · cases heval
      · cases heval
        cases hallowed
      · rename_i hdenied
        cases heval
        obtain ⟨hmode, hwithin⟩ := evaluateProfilePath_allowed.mp hallowed
        refine ⟨normalized, rfl,
          ⟨by simpa using hhome, by simpa using hsecret, hdenied, hmode, hwithin⟩, by simp, ?_⟩
        rw [hnorm]
        simpa using hinside

theorem evaluatePolicy_pathAction {host : Host} {ctx : PolicyEvaluationContext}
    {policy : ExecutionPolicyConfig} {profile : ExecutionProfile} {action : ExecutionAction}
    (haction : IsPathAction action) (hrequested : ctx.requestedAction = .known action)
    (hprofile : ctx.executionProfile = .known profile) (hpolicy : ctx.policy = some policy) :
    evaluatePolicy host ctx =
      evaluatePathAction host ctx policy profile action (baseDecision host ctx) := by
  simp only [evaluatePolicy, hpolicy, hprofile, hrequested, EnumValue.member?]
  rcases haction with rfl | rfl | rfl | rfl <;> rfl

theorem normalizePath_inside {host : Host} {requestedPath allowedRoot normalized : Str}
    (h : normalizePath host requestedPath allowedRoot = ⟨normalized, true⟩) :
    ∃ canonicalRoot,
      canonicalizePath host (resolve host.cwd
        [allowedRoot, forwardSlashes (decodePercentEncoding requestedPath)]) = some normalized ∧
      canonicalizePath host (resolve host.cwd [allowedRoot]) = some canonicalRoot ∧
      isWithin normalized canonicalRoot = true := by
  rw [normalizePath] at h
  simp only at h
  split at h
  · cases h
  split at h
  · cases h
  split at h
  · cases h
  split at h
  · cases h
  split at h
  · cases h
  rename_i canonical hcanonical
  split at h
  · cases h
  rename_i canonicalRoot hroot
  split at h
  · cases h
  · rename_i hwithin
    cases h
    exact ⟨canonicalRoot, hcanonical, hroot, by simpa using hwithin⟩

/-! ## Confinement -/

/-- Opening the path of an allowed decision stays inside the canonical root exactly when the
last component of the request is not a dangling link that leads out of it. -/
theorem evaluatePolicy_confined_iff {host : Host} {ctx : PolicyEvaluationContext}
    {policy : ExecutionPolicyConfig} {profile : ExecutionProfile} {action : ExecutionAction}
    {requestedPath : Str} {decision : PolicyDecision} {root : List Str}
    (haction : IsPathAction action) (hrequested : ctx.requestedAction = .known action)
    (hprofile : ctx.executionProfile = .known profile) (hpolicy : ctx.policy = some policy)
    (hpath : ctx.requestedPath = some requestedPath)
    (hroot : host.tree.lookup host.cwd (resolve host.cwd [policy.allowedRoot]) = .found root)
    (heval : evaluatePolicy host ctx = some decision) (hallowed : decision.allowed = true) :
    (∃ normalized, decision.normalizedPath = some normalized ∧
        ∀ object, (host.tree.lookup host.cwd normalized).opened = some object →
          root <+: object) ↔
      DanglingLeafInside host root (requestedNames host policy requestedPath) := by
  rw [evaluatePolicy_pathAction haction hrequested hprofile hpolicy] at heval
  obtain ⟨normalized, hdecision, checked⟩ := evaluatePathAction_allowed hpath heval hallowed
  have hnormalized : decision.normalizedPath = some normalized := by
    rw [hdecision, evaluateProfilePath_normalizedPath]
  obtain ⟨canonicalRoot, hcanonical, hcanonicalRoot, hwithin⟩ :=
    normalizePath_inside checked.inside
  have hnames : ∀ n ∈ requestedNames host policy requestedPath, IsName n := isName_resolveNames
  have hrootEq : canonicalRoot = render root := by
    simp only [canonicalizePath, FileTree.existsSync, FileTree.realpathSync, hroot, if_true,
      Option.some.injEq] at hcanonicalRoot
    exact hcanonicalRoot.symm
  have hrootObject : host.tree.IsObject root := by
    rw [resolve, FileTree.lookup_render isName_resolveNames] at hroot
    exact FileTree.walk_found host.tree.root hroot
  rw [resolve, ← requestedNames, canonicalizePath_render hnames] at hcanonical
  obtain ⟨q, done, left, hsplit, hq, hdone, hloop, hleft⟩ :=
    canonicalizePath_loop_object (.inr host.tree.root) hnames
  have hleftNames : ∀ n ∈ q ++ left, IsName n :=
    List.forall_mem_append.mpr ⟨hq.isName, fun n hn => hnames n (by simp [hsplit, hn])⟩
  rw [hloop, Option.some.injEq] at hcanonical
  have hinside : root <+: q ++ left := by
    rw [← hcanonical, hrootEq] at hwithin
    exact isWithin_render hrootObject.isName hleftNames hwithin
  constructor
  · rintro ⟨normalized', hn', hconfined⟩
    rw [hnormalized, Option.some.injEq] at hn'
    subst hn'
    intro parent leaf dir target free hparent hdir hentry hmissing
    have hexists : host.tree.entry (dir ++ [leaf]) ≠ none := by simp [hentry]
    have hlinkNames : ∀ n ∈ dir ++ [leaf], IsName n := FileTree.isName_of_entry hexists
    -- The canonical path is the link itself: its directory exists, the link leads nowhere.
    have hpath' : normalized = render (dir ++ [leaf]) := by
      have hparentNames : ∀ n ∈ parent, IsName n :=
        fun n hn => hnames n (by simp [hparent, hn])
      rw [canonicalizePath_render hparentNames] at hdir
      have hwalk := hmissing
      rw [FileTree.lookup_render hlinkNames] at hwalk
      have : canonicalizePath.loop host (render []) (parent ++ [leaf]) =
          some (render (dir ++ [leaf])) := by
        rw [canonicalizePath_loop_append, hdir, Option.bind_some,
          canonicalizePath_loop_cons hlinkNames, hwalk]
        rfl
      rw [← hparent, hloop, Option.some.injEq] at this
      rw [← hcanonical, this]
    refine hconfined free ?_
    rw [hpath', hmissing]
    rfl
  · intro hcondition
    refine ⟨normalized, hnormalized, fun object hopen => ?_⟩
    rw [← hcanonical] at hopen
    rcases opened_canonical hq hleftNames hleft hopen with rfl | ⟨leaf, target, rfl, he, hm⟩
    · exact hinside
    · refine hcondition done leaf q target object hsplit ?_ he hm
      rw [canonicalizePath_render fun n hn => hnames n (by simp [hsplit, hn])]
      exact hdone

/-- A worktree `/work` with a source directory and a link to a free place outside it. -/
def linkedHost : Host where
  tree := .ofListing
    [(["work".toList], .directory),
      (["work".toList, "src".toList], .directory),
      (["work".toList, "link".toList], .link "/outside/new".toList),
      (["outside".toList], .directory)]
    (by decide) 40
  cwd := ['/']
  regExpTest _ _ := none
  now := 0

/-- A builder asks to create a file under the default builder policy. -/
def builderCreates (requestedPath : Str) : PolicyEvaluationContext where
  executionProfile := .known .builder
  requestedAction := .known .createFile
  requestedPath := some requestedPath
  requestedCommand := none
  homeDir := none
  policy := some (createBuilderPolicy "/work".toList)
  releaseGateStatus := none
  organizationId := none
  workflowRunId := none
  workflowStepRunId := none
  correlationId := none

theorem evaluatePolicy_confined_iff_new_source :
    ∃ decision, evaluatePolicy linkedHost (builderCreates "src/new.ts".toList) = some decision ∧
      ((∃ normalized, decision.normalizedPath = some normalized ∧
          ∀ object, (linkedHost.tree.lookup linkedHost.cwd normalized).opened = some object →
            ["work".toList] <+: object) ↔
        DanglingLeafInside linkedHost ["work".toList]
          (requestedNames linkedHost (createBuilderPolicy "/work".toList)
            "src/new.ts".toList)) := by
  have allows : (evaluatePolicy linkedHost (builderCreates "src/new.ts".toList)).any
      (·.allowed) = true := by decide +kernel
  obtain ⟨decision, heval, hallowed⟩ := (Option.any_eq_true _ _).mp allows
  have created : IsPathAction .createFile := .inr (.inr (.inl rfl))
  exact ⟨decision, heval, evaluatePolicy_confined_iff created rfl rfl rfl rfl (by decide) heval
    hallowed⟩

/-- Creating `link` is allowed, and creates `/outside/new`. -/
theorem evaluatePolicy_allows_outside_link :
    linkedHost.tree.lookup linkedHost.cwd (resolve linkedHost.cwd ["/work".toList]) =
        .found ["work".toList] ∧
      (evaluatePolicy linkedHost (builderCreates "link".toList)).any (fun decision =>
        decision.allowed && decision.normalizedPath == some "/work/link".toList) = true ∧
      (linkedHost.tree.lookup linkedHost.cwd "/work/link".toList).opened =
        some ["outside".toList, "new".toList] ∧
      ¬ ["work".toList] <+: ["outside".toList, "new".toList] := by
  refine ⟨?_, ?_, ?_, ?_⟩
  · decide
  · decide +kernel
  · decide
  · decide

end Policy
