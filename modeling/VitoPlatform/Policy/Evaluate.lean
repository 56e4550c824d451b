import VitoPlatform.Policy.Command
import VitoPlatform.Library.FileSystem

/-!
# The policy evaluation engine

`normalizePath`, `isSecretPath`, `matchesDenyPattern`, the per-profile path rules and
`evaluatePolicy` of `execution-policy.ts`. The file tree, the working directory and the
clock that the source reads from its process are fields of `Host`.

`evaluatePolicy` answers `none` where the source throws: a denied pattern is spliced into a
regular expression, and the constructor rejects some texts.
-/

namespace Policy

open Text PosixPath

/-- What the evaluator reads from the process it runs in. -/
structure Host where
  tree : FileTree
  cwd : Str
  /-- `new RegExp(source).test(text)`, `none` where the constructor throws. -/
  regExpTest : Str → Str → Option Bool
  /-- Milliseconds since the epoch. -/
  now : Int

/-! ## Paths -/

def hexDigit (c : Char) : Option Nat :=
  let n := c.toNat
  if 48 ≤ n ∧ n ≤ 57 then some (n - 48)
  else if 65 ≤ n ∧ n ≤ 70 then some (n - 55)
  else if 97 ≤ n ∧ n ≤ 102 then some (n - 87)
  else none

/-- Decode percent-encoded characters in a path string. -/
def decodePercentEncoding : Str → Str
  | '%' :: a :: b :: rest =>
      match hexDigit a, hexDigit b with
      | some x, some y => Char.ofNat (16 * x + y) :: decodePercentEncoding rest
      | _, _ => '%' :: decodePercentEncoding (a :: b :: rest)
  | c :: rest => c :: decodePercentEncoding rest
  | [] => []

/-- `s.replace(/\\/g, '/')`. -/
def forwardSlashes (s : Str) : Str := s.map fun c => if c = '\\' then '/' else c

/-- `canon === path.sep ? path.sep + seg : canon + path.sep + seg`. -/
def appendSegment (canon seg : Str) : Str :=
  if canon = ['/'] then '/' :: seg else canon ++ '/' :: seg

/-- The loop of `canonicalizePath` over the segments. -/
def canonicalizePath.loop (host : Host) (canon : Str) : List Str → Option Str
  | [] => some canon
  | seg :: rest =>
      let candidate := appendSegment canon seg
      if host.tree.existsSync host.cwd candidate then
        match host.tree.realpathSync host.cwd candidate with
        | some real => loop host real rest
        | none => none
      else loop host candidate rest

/-- Canonicalize a path, resolving symlinks where possible. -/
def canonicalizePath (host : Host) (p : Str) : Option Str :=
  if host.tree.existsSync host.cwd p then host.tree.realpathSync host.cwd p
  else canonicalizePath.loop host (if isAbsolute p then ['/'] else []) (segments p)

/-- `insideRoot` is the verdict, `normalized` the path it is about. -/
structure NormalizedPath where
  normalized : Str
  insideRoot : Bool

/-- The class `[\x00-\x1f\x7f]`. -/
def isControl (c : Char) : Bool := c.toNat ≤ 0x1f || c.toNat == 0x7f

/-- How deep the segments lead: `..` climbs, `.` stays, anything else descends. -/
def segmentDepth (parts : List Str) : Int :=
  parts.foldl (fun depth seg =>
    if seg = dotDot then depth - 1 else if seg ≠ dot then depth + 1 else depth) 0

/-- `p` is `root` or lies below it, textually. -/
def isWithin (p root : Str) : Bool := startsWith p (root ++ ['/']) || p == root

/-- Normalize and resolve a path, rejecting traversal attempts. -/
def normalizePath (host : Host) (requestedPath allowedRoot : Str) : NormalizedPath :=
  let normalizedSlashes := forwardSlashes (decodePercentEncoding requestedPath)
  if includes normalizedSlashes ['\x00'] || includes requestedPath "%00".toList ||
      includes requestedPath "%0".toList then
    ⟨normalizedSlashes, false⟩
  else if normalizedSlashes.any isControl then ⟨normalizedSlashes, false⟩
  else if segmentDepth (segments normalizedSlashes) < 0 then ⟨normalizedSlashes, false⟩
  else
    let resolvedRoot := resolve host.cwd [allowedRoot]
    let normalized := resolve host.cwd [allowedRoot, normalizedSlashes]
    if !isWithin normalized resolvedRoot then ⟨normalized, false⟩
    else
      match canonicalizePath host normalized with
      | none => ⟨normalized, false⟩
      | some canonical =>
          match canonicalizePath host resolvedRoot with
          | none => ⟨normalized, false⟩
          | some canonicalRoot =>
              if !isWithin canonical canonicalRoot then ⟨canonical, false⟩
              else ⟨canonical, true⟩

/-! ## Secret-like paths -/

def asciiLower (c : Char) : Char :=
  if 65 ≤ c.toNat ∧ c.toNat ≤ 90 then Char.ofNat (c.toNat + 32) else c

/-- What is left of `s` after the literal `word`, the case of letters ignored. -/
def afterWord (word : Str) (s : Str) : Option Str :=
  if startsWith (s.map asciiLower) word then some (s.drop word.length) else none

/-- The line terminators, which `.` does not match. -/
def isLineTerminator (c : Char) : Bool :=
  c == '\n' || c == '\r' || c.toNat == 0x2028 || c.toNat == 0x2029

/-- `(\..*)?$`: the end, or a dot and a rest on one line. -/
def isExtension : Str → Bool
  | [] => true
  | c :: rest => c == '.' && !rest.any isLineTerminator

/-- `s?(\..*)?$`. -/
def isPluralExtension (s : Str) : Bool :=
  isExtension s ||
    match s with
    | [] => false
    | c :: rest => asciiLower c == 's' && isExtension rest

/-- The class `[\w.-]`. -/
def isWordDotDash (c : Char) : Bool :=
  (48 ≤ c.toNat && c.toNat ≤ 57) || (65 ≤ c.toNat && c.toNat ≤ 90) ||
    (97 ≤ c.toNat && c.toNat ≤ 122) || c == '_' || c == '.' || c == '-'

def afterWordIs (word : String) (tail : Str → Bool) (s : Str) : Bool :=
  match afterWord word.toList s with
  | some rest => tail rest
  | none => false

/-- `[\w.-]*` followed by what `tail` matches. -/
def afterWordDotDash (tail : Str → Bool) : Str → Bool
  | [] => tail []
  | c :: rest => tail (c :: rest) || (isWordDotDash c && afterWordDotDash tail rest)

/-- `(^|\/)` followed by what `tail` matches. -/
def atSegmentStart (tail : Str → Bool) (s : Str) : Bool :=
  tail s || s.tails.any fun t => match t with
    | '/' :: rest => tail rest
    | _ => false

/-- `SECRET_PATH_PATTERNS`, after their common `(^|\/)`. -/
def secretPathPatterns : List (Str → Bool) :=
  [afterWordIs ".env" isExtension,
    afterWordIs "credential" isPluralExtension,
    afterWordDotDash (afterWordIs "key" isPluralExtension),
    afterWordDotDash (afterWordIs "secret" isPluralExtension),
    afterWordDotDash (afterWordIs "token" isPluralExtension),
    afterWordIs ".ssh/" fun _ => true,
    afterWordIs ".gnupg/" fun _ => true,
    afterWordIs ".aws/" fun _ => true,
    fun s => afterWordIs ".config/gh/" (fun _ => true) s ||
      afterWordIs ".config/hub/" (fun _ => true) s,
    afterWordIs "id_rsa" fun _ => true,
    afterWordIs "id_ed25519" fun _ => true]

/-- Check if a resolved path matches any secret pattern. -/
def isSecretPath (resolvedPath : Str) : Bool :=
  secretPathPatterns.any fun p => atSegmentStart p resolvedPath

example : isSecretPath "/w/deploy.KEYS.pem".toList = true ∧
    isSecretPath "/w/keyboard.ts".toList = false ∧
    isSecretPath "/w/.env/readme".toList = false := by
  decide

/-! ## Denied patterns -/

/-- What is left after each run of characters without a separator. -/
def starTails : Str → List Str
  | [] => [[]]
  | c :: rest => (c :: rest) :: if c = '/' then [] else starTails rest

/-- A pattern in which `*` stands for any text without a separator. -/
def globMatch : Str → Str → Bool
  | [], s => s == []
  | c :: pattern, s =>
      if c = '*' then (starTails s).any (globMatch pattern)
      else match s with
        | [] => false
        | d :: rest => d == c && globMatch pattern rest

/-- `'^' + pattern.replace(/\./g, '\\.').replace(/\*/g, '[^/]*') + '$'`. -/
def denyRegExpSource (pattern : Str) : Str :=
  '^' :: pattern.flatMap (fun c =>
    if c = '.' then "\\.".toList else if c = '*' then "[^/]*".toList else [c]) ++ ['$']

/-- Characters that stay operators in the regular expression built from a pattern. -/
def isRegExpOperator (c : Char) : Bool := "^$+?()[]|\x7b\x7d".toList.contains c

def matchesDenyPattern (host : Host) (relativePath deniedPattern : Str) : Option Bool :=
  let normalizedRelative := forwardSlashes relativePath
  let normalizedDenied := forwardSlashes deniedPattern
  let below (p : Str) := normalizedRelative == p || startsWith normalizedRelative (p ++ ['/'])
  if endsWith normalizedDenied ['/', '*'] then
    some (below (normalizedDenied.take (normalizedDenied.length - 2)))
  else if endsWith normalizedDenied ['/'] then
    some (below (normalizedDenied.take (normalizedDenied.length - 1)))
  else if includes normalizedDenied ['*'] then
    if normalizedDenied.any isRegExpOperator then
      host.regExpTest (denyRegExpSource normalizedDenied) normalizedRelative
    else some (globMatch normalizedDenied normalizedRelative)
  else some (below normalizedDenied)

/-- The loop over `deniedPaths`: the first pattern that matches. -/
def firstDenied (host : Host) (relativePath : Str) : List Str → Option (Option Str)
  | [] => some none
  | denied :: rest =>
      match matchesDenyPattern host relativePath denied with
      | none => none
      | some true => some (some denied)
      | some false => firstDenied host relativePath rest

/-! ## Path actions -/

def homeSensitivePatterns : List Str :=
  [".ssh", ".gnupg", ".aws", ".config/gh", ".config/hub"].map String.toList

/-- The unrestricted-HOME rule of `evaluatePathAction`. -/
def isHomeDenied (host : Host) (homeDir : Option Str) (normalizedPath : Str) : Bool :=
  match homeDir with
  | none => false
  | some home =>
      home != [] && startsWith normalizedPath (resolve host.cwd [home]) &&
        (normalizedPath == resolve host.cwd [home] ||
          homeSensitivePatterns.any (includes normalizedPath))

/-- Allow what lies within the worktree. -/
def evaluateWithinWorktree (host : Host) (policy : ExecutionPolicyConfig)
    (base : PolicyDecision) (normalizedPath : Str) (allowReason denyReason : String) :
    PolicyDecision :=
  if isWithin normalizedPath (resolve host.cwd [policy.allowedRoot]) then
    allow { base with normalizedPath := some normalizedPath } allowReason
  else
    deny { base with normalizedPath := some normalizedPath } .pathOutsideAllowedRoot denyReason

def evaluateBuilderPath (host : Host) (policy : ExecutionPolicyConfig) (base : PolicyDecision)
    (normalizedPath : Str) : PolicyDecision :=
  evaluateWithinWorktree host policy base normalizedPath
    "Builder path within assigned worktree."
    "Builder may only access paths within assigned worktree."

def evaluateReviewerPath (host : Host) (policy : ExecutionPolicyConfig)
    (action : ExecutionAction) (base : PolicyDecision) (normalizedPath : Str) :
    PolicyDecision :=
  if action = .readFile then
    evaluateWithinWorktree host policy base normalizedPath
      "Reviewer read within assigned worktree."
      "Reviewer may only read within assigned worktree."
  else
    deny { base with normalizedPath := some normalizedPath } .reviewerWriteDenied
      (policyReasonMessage .reviewerWriteDenied)

/-- May read governed metadata and artifacts; must not write, create or delete. -/
def evaluateOrchestratorPath (host : Host) (policy : ExecutionPolicyConfig)
    (action : ExecutionAction) (base : PolicyDecision) (normalizedPath : Str) :
    PolicyDecision :=
  if action = .readFile then
    evaluateWithinWorktree host policy base normalizedPath
      "Orchestrator read within worktree."
      "Orchestrator may only read within assigned worktree."
  else
    deny { base with normalizedPath := some normalizedPath } .pathOutsideAllowedRoot
      "Orchestrator may not directly write/create/delete files."

def evaluateReleaseAuthorityPath (host : Host) (policy : ExecutionPolicyConfig)
    (action : ExecutionAction) (base : PolicyDecision) (normalizedPath : Str) :
    PolicyDecision :=
  if action = .readFile then
    evaluateWithinWorktree host policy base normalizedPath
      "Release authority read within worktree."
      "Release authority may only read within assigned worktree."
  else
    deny { base with normalizedPath := some normalizedPath } .pathOutsideAllowedRoot
      "Release authority does not have arbitrary filesystem write authority."

def evaluateProfilePath (host : Host) (policy : ExecutionPolicyConfig)
    (profile : ExecutionProfile) (action : ExecutionAction) (base : PolicyDecision)
    (normalizedPath : Str) : PolicyDecision :=
  match profile with
  | .builder => evaluateBuilderPath host policy base normalizedPath
  | .reviewer => evaluateReviewerPath host policy action base normalizedPath
  | .orchestrator => evaluateOrchestratorPath host policy action base normalizedPath
  | .releaseAuthority => evaluateReleaseAuthorityPath host policy action base normalizedPath

def evaluatePathAction (host : Host) (ctx : PolicyEvaluationContext)
    (policy : ExecutionPolicyConfig) (profile : ExecutionProfile) (action : ExecutionAction)
    (base : PolicyDecision) : Option PolicyDecision :=
  match ctx.requestedPath with
  | none | some [] =>
      some (deny base .pathOutsideAllowedRoot "Path action requested without a path.")
  | some requestedPath =>
      let result := normalizePath host requestedPath policy.allowedRoot
      let normalizedPath := result.normalized
      let located := { base with normalizedPath := some normalizedPath }
      if !result.insideRoot then
        if includes requestedPath dotDot || includes normalizedPath dotDot then
          some (deny located .pathTraversalRejected (policyReasonMessage .pathTraversalRejected))
        else
          some (deny located .pathOutsideAllowedRoot
            (policyReasonMessage .pathOutsideAllowedRoot))
      else if isHomeDenied host ctx.homeDir normalizedPath then
        some (deny located .homeAccessDenied (policyReasonMessage .homeAccessDenied))
      else if isSecretPath normalizedPath then
        some (deny located .secretAccessDenied (policyReasonMessage .secretAccessDenied))
      else
        let relativePath :=
          relative host.cwd (resolve host.cwd [policy.allowedRoot]) normalizedPath
        match firstDenied host relativePath policy.deniedPaths with
        | none => none
        | some (some denied) =>
            some (deny located .pathExplicitlyDenied ("Path \"" ++ String.ofList relativePath ++
              "\" matches denied pattern \"" ++ String.ofList denied ++ "\"."))
        | some none => some (evaluateProfilePath host policy profile action base normalizedPath)

def evaluateCommandAction (ctx : PolicyEvaluationContext) (policy : ExecutionPolicyConfig)
    (profile : ExecutionProfile) (base : PolicyDecision) : PolicyDecision :=
  match ctx.requestedCommand with
  | none | some [] =>
      deny base .commandNotAllowed "Command action requested without a command."
  | some command =>
      let result := classifyCommand command profile policy
      if result.allowed then allow base "Command is classified as allowed."
      else deny base result.reasonCode (policyReasonMessage result.reasonCode)

/-! ## The evaluator -/

def policyVersion : Str := "eo-01.4-v1".toList

/-- The fields of a decision that do not depend on the verdict. -/
def baseDecision (host : Host) (ctx : PolicyEvaluationContext) : PolicyDecision where
  allowed := false
  executionProfile := ctx.executionProfile
  requestedAction := ctx.requestedAction
  reasonCode := .policyMissing
  reason := ""
  organizationId := ctx.organizationId
  workflowRunId := ctx.workflowRunId
  workflowStepRunId := ctx.workflowStepRunId
  correlationId := ctx.correlationId
  requestedPath := ctx.requestedPath
  normalizedPath := ctx.requestedPath
  requestedCommand := ctx.requestedCommand
  policyVersion := policyVersion
  evaluatedAt := host.now

/-- `allow(base, reason)` or `deny(base, code, POLICY_REASON_MESSAGES[code])`. -/
def permitIf (granted : Bool) (base : PolicyDecision) (reason : String)
    (code : PolicyReasonCode) : PolicyDecision :=
  if granted then allow base reason else deny base code (policyReasonMessage code)

/-- The actions that are decided without looking at a path or a command. -/
def evaluateGrant (ctx : PolicyEvaluationContext) (policy : ExecutionPolicyConfig)
    (profile : ExecutionProfile) (action : ExecutionAction) (base : PolicyDecision) :
    PolicyDecision :=
  let released := profile == .releaseAuthority && ctx.releaseGateStatus == some .approved
  match action with
  | .networkAccess =>
      permitIf policy.allowNetwork base "Network access is permitted by policy."
        .networkAccessDenied
  | .gitRead => allow base "Git read operation is permitted."
  | .gitCommit =>
      permitIf (released && policy.allowGitCommit) base
        "Git commit permitted by governed release authority." .gitCommitDenied
  | .gitPush =>
      permitIf (released && policy.allowGitPush) base
        "Git push permitted by governed release authority." .gitPushDenied
  | .readSecret => deny base .secretAccessDenied (policyReasonMessage .secretAccessDenied)
  | .gitMerge => deny base .gitMergeDenied (policyReasonMessage .gitMergeDenied)
  | .gitRebase => deny base .gitRebaseDenied (policyReasonMessage .gitRebaseDenied)
  | .gitBranchDelete =>
      deny base .gitBranchDeleteDenied (policyReasonMessage .gitBranchDeleteDenied)
  | .remoteRefDelete =>
      deny base .remoteRefDeleteDenied (policyReasonMessage .remoteRefDeleteDenied)
  | _ => deny base .actionUnknown (policyReasonMessage .actionUnknown)

/-- Evaluate whether the requested action is permitted under the given policy. Missing
policy, unknown profile and unknown action are denied, in this order. -/
def evaluatePolicy (host : Host) (ctx : PolicyEvaluationContext) : Option PolicyDecision :=
  let base := baseDecision host ctx
  match ctx.policy with
  | none => some (deny base .policyMissing (policyReasonMessage .policyMissing))
  | some policy =>
      match ctx.executionProfile.member? with
      | none =>
          some (deny base .executionProfileUnknown
            (policyReasonMessage .executionProfileUnknown))
      | some profile =>
          match ctx.requestedAction.member? with
          | none => some (deny base .actionUnknown (policyReasonMessage .actionUnknown))
          | some action =>
              match action with
              | .readFile | .writeFile | .createFile | .deleteFile =>
                  evaluatePathAction host ctx policy profile action base
              | .runCommand => some (evaluateCommandAction ctx policy profile base)
              | _ => some (evaluateGrant ctx policy profile action base)

end Policy
