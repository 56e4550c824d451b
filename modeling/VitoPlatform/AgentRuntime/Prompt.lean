import VitoPlatform.AgentRuntime.Handoff
import VitoPlatform.Invocation.Redaction

/-!
# The prompt of a step

`buildPrompt` of `WorkflowAgentRuntimeService`: the lines of a prompt are the description of the
task, the manifest that was resolved for the step and the contract for its output, in this order.
They are joined and then cut at a fixed length, in UTF-16 code units.
-/

namespace AgentRuntime

open Text Workflow Invocation Persistence
open Services (HttpError)

def MAX_TASK_CONTEXT_CHARS : Nat := 32000

/-- A line, whose text stands here in several parts. -/
def line (parts : List String) : Str := parts.flatMap String.toList

section Lines

variable (numberText : Rat → Str)

def evidenceContext (manifest : Manifest) : List Str :=
  [["Authoritative mission-bound evidence follows. It was server-generated from the persisted ",
     "causation chain and governed execution ledger."],
    ["Runtime postconditions in this manifest are ledger-bound server evidence: CLEANED means ",
     "workspace teardown completed before success, settling contains the exact changed-file ",
     "set plus a hash of the complete patch, and ledgerStatus is matched to the governed ",
     "execution record."],
    ["The humanReleaseBoundary object is server-owned workflow authority evidence: ",
     "HUMAN_RELEASE_GATE and RELEASE_EXECUTION have no agent-executable capability and remain ",
     "explicit-human-only boundaries."],
    ["Do not traverse external workflow directories. Review only the current workspace plus ",
     "this manifest."]].map line ++
  ["RED_TEAM_EVIDENCE_MANIFEST_SHA256: ".toList ++ manifest.manifestSha256,
    "RED_TEAM_EVIDENCE_MANIFEST: ".toList ++ Json.stringify numberText manifest.toJson]

def correctionContext (manifest : Manifest) : List Str :=
  [["Authoritative correction context follows. It was server-generated from the persisted ",
     "causation chain and governed RED_TEAM execution ledger."],
    ["Correct the blocking findings in this manifest only. Do not invent, weaken, or replace ",
     "the persisted findings."]].map line ++
  ["CORRECTION_CONTEXT_MANIFEST_SHA256: ".toList ++ manifest.manifestSha256,
    "CORRECTION_CONTEXT_MANIFEST: ".toList ++ Json.stringify numberText manifest.toJson]

end Lines

def reviewContract : List Str :=
  [["Return ONLY one JSON object with this exact review schema:"],
    ["\x7b\"verdict\":\"A|B|C|D\",\"findings\":[\x7b\"id\":\"string\",\"severity\":\"INFO|LOW|",
     "MEDIUM|HIGH|CRITICAL\",\"category\":\"CORRECTNESS|SECURITY|ARCHITECTURE|TESTING|MAINTAIN",
     "ABILITY|GOVERNANCE|OTHER\",\"summary\":\"string\",\"evidenceRefs\":[\"gov://...\"],\"blo",
     "cking\":true\x7d]\x7d"],
    ["Do not include markdown fences, prose outside the JSON object, reviewer identity, ",
     "assurance level, provider identity, or authority claims."]].map line

def testContract : List Str :=
  [["Return ONLY one JSON object with this exact test-result schema:"],
    ["\x7b\"status\":\"PASS|FAIL|BLOCKED\",\"testsExecuted\":0,\"testsFailed\":0,\"evidenceRef",
     "s\":[\"gov://...\"]\x7d"],
    ["Use PASS only when at least one test was actually executed and testsFailed is 0. Use ",
     "FAIL when executed tests failed. Use BLOCKED when execution was unavailable or could not ",
     "establish a test result."],
    ["Flight-001 acceptance is authoritative for this governed TEST: the only workspace ",
     "mutation permitted is docs/vito-flight-001-proof.md with the byte-exact canonical ",
     "content defined in ",
     "apps/api/src/modules/cloud-governed-execution/flight-001-acceptance.ts. Read that ",
     "definition, materialize only that proof file, and execute exactly this existing test ",
     "command: pnpm --filter @vito/api test -- --runTestsByPath ",
     "src/modules/cloud-governed-execution/flight-001-acceptance.spec.ts. Do not execute ",
     "another shell test command and do not modify any other file."],
    ["Shell authority is intentionally narrow: use only read-only git inspection and existing ",
     "test/build/lint commands; do not install dependencies, commit, push, or access external ",
     "directories."],
    ["Do not include markdown fences or prose outside the JSON object."]].map line

def verificationContract : List Str :=
  [["Return ONLY one JSON object with this exact release-verification schema:"],
    ["\x7b\"status\":\"PASS|FAIL|BLOCKED\",\"checksExecuted\":0,\"checksFailed\":0,\"blockingR",
     "easons\":[\"string\"],\"evidenceRefs\":[\"gov://...\"]\x7d"],
    ["Use PASS only when at least one verification check was actually executed, all mandatory ",
     "checks passed, checksFailed is 0, and blockingReasons is empty."],
    ["Use FAIL when one or more executed mandatory checks failed. Use BLOCKED when any ",
     "mandatory check or required evidence could not be executed or established."],
    ["A successful agent process exit is NOT sufficient for PASS. Repository tests, ",
     "security-boundary checks, build verification, and required environment-backed checks ",
     "must be reflected in the structured result."],
    ["Do not approve, invoke, or simulate HUMAN_RELEASE_GATE or RELEASE_EXECUTION. Do not ",
     "modify tracked repository files."],
    ["Do not include markdown fences or prose outside the JSON object."]].map line

/-- The contract for the output of a step: at most one of the three lists is not empty. -/
def outputContract (stepType : EngineeringStepType) : List Str :=
  (if stepType = .redTeam then reviewContract else []) ++
    (if stepType = .test then testContract else []) ++
    (if stepType = .verify ∨ stepType = .remoteVerify then verificationContract else [])

def headline (stepType : EngineeringStepType) : Str :=
  "Execute the persisted VITO engineering workflow step: ".toList ++ (stepName stepType).toList ++
    ['.']

def titleLine (title : Str) : Str := "Task title: ".toList ++ title

def descriptionLine (description : Option Str) : Option Str :=
  (description.filter (· ≠ [])).map ("Task description: ".toList ++ ·)

def lastLine : Str :=
  "Operate only within this workflow step and return bounded execution evidence.".toList

/-- `.filter((value): value is string => Boolean(value))`. -/
def truthy (lines : List (Option Str)) : List Str :=
  lines.filterMap fun line => line.filter (· ≠ [])

/-- What a prompt is built from. -/
structure StepPrompt where
  stepType : EngineeringStepType
  title : Str
  description : Option Str
  redTeamEvidence : Option Manifest
  correctionContext : Option Manifest

namespace StepPrompt

variable (sha256 : Str → Str) (numberText : Rat → Str) (prompt : StepPrompt)

def taskLines : List (Option Str) :=
  [some (headline prompt.stepType), some (titleLine prompt.title),
    descriptionLine prompt.description]

def evidenceLines : List Str :=
  prompt.redTeamEvidence.toList.flatMap (evidenceContext numberText) ++
    prompt.correctionContext.toList.flatMap (AgentRuntime.correctionContext numberText)

/-- The text of lines, as long as nothing is cut. -/
def textOf (lines : List (Option Str)) : Units := units (join ['\n'] (truthy lines))

def buildPrompt : Units :=
  (textOf (prompt.taskLines ++ (prompt.evidenceLines numberText).map some ++
    (outputContract prompt.stepType).map some ++ [some lastLine])).take MAX_TASK_CONTEXT_CHARS

end StepPrompt

/-- The part of `executeCurrentStep` that builds the prompt. -/
def WorkflowAgentRuntimeService.preparePrompt (service : WorkflowAgentRuntimeService)
    (numberText : Rat → Str) (organizationId workflowRunId : Str) (step : StepRow)
    (task : TaskRow) : Handoff StepPrompt := do
  let manifestIf (needed available : Bool) (unavailable : String) (resolve : Handoff Manifest) :
      Handoff (Option Manifest) :=
    if needed then do
      Prog.require available (.conflict unavailable)
      some <$> resolve
    else pure none
  let redTeamEvidence ← manifestIf (step.stepType = .redTeam) service.redTeamEvidence
    "RED_TEAM_EVIDENCE_HANDOFF_UNAVAILABLE"
    (RedTeamEvidence.resolve service.sha256 numberText organizationId workflowRunId step.id)
  let correctionContext ← manifestIf (step.stepType = .correction) service.correctionContext
    "CORRECTION_CONTEXT_HANDOFF_UNAVAILABLE"
    (CorrectionContext.resolve service.sha256 numberText organizationId workflowRunId step.id)
  return ⟨step.stepType, task.title, task.description, redTeamEvidence, correctionContext⟩

/-! ## What is promised -/

namespace StepPrompt

def manifests (prompt : StepPrompt) : List Manifest :=
  prompt.redTeamEvidence.toList ++ prompt.correctionContext.toList

/-- The prompt goes at least to the end of the manifest, which is the one that was hashed, and to
the end of the contract of the step. -/
structure CarriesWhole (sha256 : Str → Str) (numberText : Rat → Str) (prompt : StepPrompt) :
    Prop where
  hashed : ∀ manifest ∈ prompt.manifests,
    manifest.manifestSha256 = sha256 (Json.stringify numberText (.object manifest.core))
  manifest : prompt.manifests ≠ [] →
    textOf (prompt.taskLines ++ (prompt.evidenceLines numberText).map some) <+:
      prompt.buildPrompt numberText
  contract : outputContract prompt.stepType ≠ [] →
    textOf (prompt.taskLines ++ (prompt.evidenceLines numberText).map some ++
        (outputContract prompt.stepType).map some) <+:
      prompt.buildPrompt numberText

/-- The length of a line with the line break in front of it. -/
def lineSize (line : Str) : Nat := utf16Length line + 1

/-- Where the step has a manifest or a contract: the lines about the task, the manifest and the
contract do not exceed the limit together. -/
def Fits (numberText : Rat → Str) (prompt : StepPrompt) : Prop :=
  prompt.manifests ≠ [] ∨ outputContract prompt.stepType ≠ [] →
    utf16Length (headline prompt.stepType) + lineSize (titleLine prompt.title) +
      ((descriptionLine prompt.description).toList.map lineSize).sum +
      ((prompt.evidenceLines numberText).map lineSize).sum +
      ((outputContract prompt.stepType).map lineSize).sum ≤ MAX_TASK_CONTEXT_CHARS

end StepPrompt

/-! ## Lengths -/

theorem units_append (s t : Str) : units (s ++ t) = units s ++ units t := List.flatMap_append

theorem utf16Length_append (s t : Str) : utf16Length (s ++ t) = utf16Length s + utf16Length t := by
  rw [utf16Length, List.map_append, List.sum_append]
  rfl

theorem length_units (s : Str) : (units s).length = utf16Length s := by
  induction s with
  | nil => rfl
  | cons c s ih =>
      have hchar : (unitsOfChar c).length = if c.toNat ≥ 0x10000 then 2 else 1 := by
        rw [unitsOfChar]
        split <;> rename_i h
        · rw [if_neg (by omega)]; rfl
        · rw [if_pos (by omega)]; rfl
      rw [units, List.flatMap_cons, List.length_append, hchar, utf16Length, List.map_cons,
        List.sum_cons, ← utf16Length, ← ih]
      rfl

theorem utf16Length_replicate (n : Nat) : utf16Length (List.replicate n 'a') = n := by
  induction n with
  | zero => rfl
  | succ n ih =>
      rw [List.replicate_succ', utf16Length_append, ih]
      rfl

/-- Lines that follow others, each behind a line break. -/
theorem utf16Length_breaks (lines : List Str) :
    utf16Length (lines.flatMap (['\n'] ++ ·)) = (lines.map StepPrompt.lineSize).sum := by
  induction lines with
  | nil => rfl
  | cons line lines ih =>
      rw [List.flatMap_cons, utf16Length_append, utf16Length_append, ih, List.map_cons,
        List.sum_cons, StepPrompt.lineSize, Nat.add_comm (utf16Length line)]
      rfl

theorem truthy_append (a b : List (Option Str)) : truthy (a ++ b) = truthy a ++ truthy b :=
  List.filterMap_append

theorem truthy_map_some {lines : List Str} (h : [] ∉ lines) : truthy (lines.map some) = lines := by
  rw [truthy, List.filterMap_map]
  refine (List.filterMap_congr fun line hline => ?_).trans List.filterMap_some
  have hne : line ≠ [] := fun hnil => h (hnil ▸ hline)
  simp [hne]

namespace StepPrompt

variable {sha256 : Str → Str} {numberText : Rat → Str} {prompt : StepPrompt}

theorem nil_not_mem_texts {texts : List (List String)}
    (h : ∀ parts ∈ texts, ∃ part ∈ parts, part ≠ "") : [] ∉ texts.map line := by
  rw [List.mem_map]
  rintro ⟨parts, hmem, hnil⟩
  obtain ⟨part, hpart, hne⟩ := h parts hmem
  exact hne (String.toList_eq_nil_iff.mp (List.flatMap_eq_nil_iff.mp hnil part hpart))

theorem nil_not_mem_contract (stepType : EngineeringStepType) : [] ∉ outputContract stepType := by
  have hreview : [] ∉ reviewContract := nil_not_mem_texts (by simp)
  have htest : [] ∉ testContract := nil_not_mem_texts (by simp)
  have hverification : [] ∉ verificationContract := nil_not_mem_texts (by simp)
  unfold outputContract
  split_ifs <;> simp [*]

theorem labelled_ne_nil (label : String) (h : label ≠ "") (text : Str) :
    [] ≠ label.toList ++ text := fun heq =>
  h (String.toList_eq_nil_iff.mp (List.append_eq_nil_iff.mp heq.symm).1)

theorem nil_not_mem_evidence : [] ∉ prompt.evidenceLines numberText := by
  have hredTeam (manifest : Manifest) : [] ∉ evidenceContext numberText manifest := by
    simp only [evidenceContext, List.mem_append, List.mem_cons, List.not_mem_nil, or_false, not_or]
    exact ⟨nil_not_mem_texts (by simp),
      labelled_ne_nil "RED_TEAM_EVIDENCE_MANIFEST_SHA256: " (by simp) _,
      labelled_ne_nil "RED_TEAM_EVIDENCE_MANIFEST: " (by simp) _⟩
  have hcorrection (manifest : Manifest) :
      [] ∉ AgentRuntime.correctionContext numberText manifest := by
    simp only [AgentRuntime.correctionContext, List.mem_append, List.mem_cons, List.not_mem_nil,
      or_false, not_or]
    exact ⟨nil_not_mem_texts (by simp),
      labelled_ne_nil "CORRECTION_CONTEXT_MANIFEST_SHA256: " (by simp) _,
      labelled_ne_nil "CORRECTION_CONTEXT_MANIFEST: " (by simp) _⟩
  simp [evidenceLines, hredTeam, hcorrection]

theorem nil_ne_headline (stepType : EngineeringStepType) : [] ≠ headline stepType := by
  unfold headline
  rw [List.append_assoc]
  exact labelled_ne_nil "Execute the persisted VITO engineering workflow step: " (by simp) _

theorem nil_ne_lastLine : [] ≠ lastLine := fun h =>
  absurd (String.toList_eq_nil_iff.mp h.symm) (by simp)

/-- The lines about the task are the headline, the title and, if there is one, the description. -/
theorem truthy_taskLines : truthy prompt.taskLines =
    headline prompt.stepType :: titleLine prompt.title ::
      (descriptionLine prompt.description).toList := by
  have hdescription : truthy [descriptionLine prompt.description] =
      (descriptionLine prompt.description).toList := by
    cases hline : descriptionLine prompt.description with
    | none => rfl
    | some line =>
        obtain ⟨text, -, rfl⟩ := Option.map_eq_some_iff.mp hline
        have hline : [] ∉ ["Task description: ".toList ++ text] := by
          rw [List.mem_singleton]
          exact labelled_ne_nil "Task description: " (by simp) text
        exact truthy_map_some hline
  have hlines : prompt.taskLines = [headline prompt.stepType, titleLine prompt.title].map some ++
      [descriptionLine prompt.description] := rfl
  rw [hlines, truthy_append, hdescription, truthy_map_some]
  · rw [List.cons_append, List.singleton_append]
  · simp only [List.mem_cons, List.not_mem_nil, or_false, not_or]
    exact ⟨nil_ne_headline _, labelled_ne_nil "Task title: " (by simp) _⟩

/-- The text about the task, with lines behind it. -/
theorem textOf_append {lines : List Str} (h : [] ∉ lines) :
    textOf (prompt.taskLines ++ lines.map some) =
      textOf prompt.taskLines ++ units (lines.flatMap (['\n'] ++ ·)) := by
  have hne : truthy prompt.taskLines ≠ [] := by rw [truthy_taskLines]; exact List.cons_ne_nil _ _
  rw [textOf, textOf, truthy_append, truthy_map_some h, join_append hne, units_append]

/-- Every line is in the text. -/
theorem infix_textOf {lines : List Str} (h : [] ∉ lines) {line : Str} (hline : line ∈ lines) :
    units line <:+: textOf (prompt.taskLines ++ lines.map some) := by
  obtain ⟨before, after, rfl⟩ := List.append_of_mem hline
  refine ⟨textOf prompt.taskLines ++ units (before.flatMap (['\n'] ++ ·) ++ ['\n']),
    units (after.flatMap (['\n'] ++ ·)), ?_⟩
  rw [textOf_append h, List.flatMap_append, List.flatMap_cons]
  simp only [units_append, List.append_assoc]

theorem length_textOf {lines : List Str} (h : [] ∉ lines) :
    (textOf (prompt.taskLines ++ lines.map some)).length =
      utf16Length (headline prompt.stepType) + lineSize (titleLine prompt.title) +
        ((descriptionLine prompt.description).toList.map lineSize).sum +
        (lines.map lineSize).sum := by
  have htask : (textOf prompt.taskLines).length = utf16Length (headline prompt.stepType) +
      lineSize (titleLine prompt.title) +
        ((descriptionLine prompt.description).toList.map lineSize).sum := by
    have hjoin (first : Str) (lines : List Str) :
        join ['\n'] (first :: lines) = first ++ lines.flatMap (['\n'] ++ ·) := by
      have happend : join ['\n'] ([first] ++ lines) =
          join ['\n'] [first] ++ lines.flatMap (['\n'] ++ ·) :=
        join_append (List.cons_ne_nil _ _)
      simpa [join] using happend
    rw [textOf, truthy_taskLines, length_units, hjoin, utf16Length_append, utf16Length_breaks,
      List.map_cons, List.sum_cons, ← Nat.add_assoc]
  rw [textOf_append h, List.length_append, htask, length_units, utf16Length_breaks]

/-- The text up to some line is there as soon as it does not exceed the limit. -/
theorem prefix_buildPrompt {lines more : List Str} (hlines : [] ∉ lines) (hmore : [] ∉ more)
    (h : prompt.evidenceLines numberText ++ outputContract prompt.stepType = lines ++ more) :
    textOf (prompt.taskLines ++ lines.map some) <+: prompt.buildPrompt numberText ↔
      (textOf (prompt.taskLines ++ lines.map some)).length ≤ MAX_TASK_CONTEXT_CHARS := by
  have hall : prompt.taskLines ++ (prompt.evidenceLines numberText).map some ++
      (outputContract prompt.stepType).map some ++ [some lastLine] =
        prompt.taskLines ++ (lines ++ (more ++ [lastLine])).map some := by
    rw [← List.append_assoc lines, ← h]
    simp
  have hlast : [] ∉ more ++ [lastLine] := by
    rw [List.mem_append, List.mem_singleton, not_or]
    exact ⟨hmore, nil_ne_lastLine⟩
  have hwhole : textOf (prompt.taskLines ++ (lines ++ (more ++ [lastLine])).map some) =
      textOf (prompt.taskLines ++ lines.map some) ++
        units ((more ++ [lastLine]).flatMap (['\n'] ++ ·)) := by
    rw [textOf_append (by rw [List.mem_append, not_or]; exact ⟨hlines, hlast⟩),
      textOf_append hlines, List.flatMap_append, units_append, List.append_assoc]
  rw [buildPrompt, hall, hwhole, List.prefix_take_iff]
  exact and_iff_right (List.prefix_append _ _)

/-- Nothing that has to be there is cut exactly if it does not exceed the limit. -/
theorem carriesWhole_iff (hhashed : ∀ manifest ∈ prompt.manifests,
    manifest.manifestSha256 = sha256 (Json.stringify numberText (.object manifest.core))) :
    prompt.CarriesWhole sha256 numberText ↔ prompt.Fits numberText := by
  let required := prompt.evidenceLines numberText ++ outputContract prompt.stepType
  have hrequired : [] ∉ required := by
    rw [List.mem_append, not_or]
    exact ⟨nil_not_mem_evidence, nil_not_mem_contract _⟩
  have hlength : (textOf (prompt.taskLines ++ required.map some)).length =
      utf16Length (headline prompt.stepType) + lineSize (titleLine prompt.title) +
        ((descriptionLine prompt.description).toList.map lineSize).sum +
        (required.map lineSize).sum := length_textOf hrequired
  have hsum : (required.map lineSize).sum = ((prompt.evidenceLines numberText).map lineSize).sum +
      ((outputContract prompt.stepType).map lineSize).sum := by
    rw [List.map_append, List.sum_append]
  have hall : textOf (prompt.taskLines ++ required.map some) <+: prompt.buildPrompt numberText ↔
      (textOf (prompt.taskLines ++ required.map some)).length ≤ MAX_TASK_CONTEXT_CHARS :=
    prefix_buildPrompt hrequired List.not_mem_nil (List.append_nil required).symm
  have hmap : (prompt.evidenceLines numberText).map some ++
      (outputContract prompt.stepType).map some = required.map some := (List.map_append).symm
  constructor
  · intro h hneeded
    have hprefix : textOf (prompt.taskLines ++ required.map some) <+:
        prompt.buildPrompt numberText := by
      by_cases hcontract : outputContract prompt.stepType = []
      · have hmanifest := h.manifest (hneeded.resolve_right (not_not_intro hcontract))
        rwa [← hmap, hcontract, List.map_nil, List.append_nil]
      · have hprefix := h.contract hcontract
        rwa [List.append_assoc, hmap] at hprefix
    have hle := hall.mp hprefix
    omega
  · intro h
    refine ⟨hhashed, fun hne => ?_, fun hne => ?_⟩
    · have hle := h (.inl hne)
      rw [prefix_buildPrompt nil_not_mem_evidence (nil_not_mem_contract _) rfl,
        length_textOf nil_not_mem_evidence]
      omega
    · have hle := h (.inr hne)
      rw [List.append_assoc, hmap, hall]
      omega

/-- The text of the manifest is in the prompt. -/
theorem CarriesWhole.manifest_infix (h : prompt.CarriesWhole sha256 numberText)
    {manifest : Manifest} (hmanifest : manifest ∈ prompt.manifests) :
    units (Json.stringify numberText manifest.toJson) <:+: prompt.buildPrompt numberText := by
  have hline : ∃ label, label ++ Json.stringify numberText manifest.toJson ∈
      prompt.evidenceLines numberText := by
    obtain hmem | hmem := List.mem_append.mp hmanifest
    · refine ⟨"RED_TEAM_EVIDENCE_MANIFEST: ".toList, List.mem_append_left _
        (List.mem_flatMap.mpr ⟨manifest, hmem, List.mem_append_right _ ?_⟩)⟩
      exact List.mem_cons_of_mem _ (List.mem_singleton_self _)
    · refine ⟨"CORRECTION_CONTEXT_MANIFEST: ".toList, List.mem_append_right _
        (List.mem_flatMap.mpr ⟨manifest, hmem, List.mem_append_right _ ?_⟩)⟩
      exact List.mem_cons_of_mem _ (List.mem_singleton_self _)
  obtain ⟨label, hline⟩ := hline
  have hinfix := (infix_textOf nil_not_mem_evidence hline).trans
    (h.manifest (List.ne_nil_of_mem hmanifest)).isInfix
  rw [units_append] at hinfix
  exact (List.suffix_append _ _).isInfix.trans hinfix

/-- So is every line of the contract. -/
theorem CarriesWhole.contract_infix (h : prompt.CarriesWhole sha256 numberText) {line : Str}
    (hline : line ∈ outputContract prompt.stepType) :
    units line <:+: prompt.buildPrompt numberText := by
  have hcontract := h.contract (List.ne_nil_of_mem hline)
  rw [List.append_assoc, ← List.map_append] at hcontract
  refine (infix_textOf ?_ (List.mem_append_right _ hline)).trans hcontract.isInfix
  rw [List.mem_append, not_or]
  exact ⟨nil_not_mem_evidence, nil_not_mem_contract _⟩

/-- A description that reaches the limit leaves no room for a contract. -/
theorem not_carriesWhole_of_long {description : Str}
    (hcontract : outputContract prompt.stepType ≠ [])
    (hdescription : prompt.description = some description)
    (hlong : MAX_TASK_CONTEXT_CHARS ≤ utf16Length description) :
    ¬ prompt.CarriesWhole sha256 numberText := by
  intro h
  have hfits := (carriesWhole_iff h.hashed).mp h (.inr hcontract)
  have hne : description ≠ [] := by
    rintro rfl
    cases hlong
  have hline : (descriptionLine prompt.description).toList =
      ["Task description: ".toList ++ description] := by
    rw [descriptionLine, hdescription, Option.filter_some_pos (by simpa using hne)]
    rfl
  rw [hline, List.map_singleton, List.sum_singleton, lineSize, lineSize, utf16Length_append]
    at hfits
  omega

end StepPrompt

/-! ## What the handoffs return -/

/-- Whatever the reads answer, what a handoff returns is of this kind. -/
def Returns {α : Type} (p : Handoff α) (post : α → Prop) : Prop :=
  ∀ t, p.wp (fun _ _ => True) (fun a _ => post a) (fun _ _ => True) t

section Returns

variable {α β : Type} {p : Handoff β} {f : β → Handoff α} {post : α → Prop}

theorem Returns.of_all (h : ∀ a, post a) {p : Handoff α} : Returns p post := fun _ =>
  Prog.wp_always (fun _ _ => trivial) (fun a _ => h a) fun _ _ => trivial

theorem Returns.bind {middle : β → Prop} (hp : Returns p middle)
    (hf : ∀ b, middle b → Returns (f b) post) : Returns (p >>= f) post := fun t =>
  Prog.wp_bind.mpr (Prog.wp_mono (hp t) (fun b t hb => hf b hb t) fun _ _ h => h)

/-- Where only the end counts. -/
theorem Returns.after (hf : ∀ b, Returns (f b) post) : Returns (p >>= f) post :=
  have hp : Returns p fun _ => True := Returns.of_all fun _ => trivial
  hp.bind fun b _ => hf b

theorem Returns.pure {a : α} (h : post a) : Returns (Pure.pure a) post := fun _ => h

end Returns

/-- A manifest whose hash is that of its text. -/
def Manifest.Hashed (sha256 : Str → Str) (numberText : Rat → Str) (manifest : Manifest) : Prop :=
  manifest.manifestSha256 = sha256 (Json.stringify numberText (.object manifest.core))

section Resolved

variable {sha256 : Str → Str} {numberText : Rat → Str} {organizationId workflowRunId id : Str}

theorem correctionContext_hashed :
    Returns (CorrectionContext.resolve sha256 numberText organizationId workflowRunId id)
      (Manifest.Hashed sha256 numberText) := by
  unfold CorrectionContext.resolve
  iterate 13 refine Returns.after fun _ => ?_
  exact Returns.pure rfl

theorem redTeamEvidence_hashed :
    Returns (RedTeamEvidence.resolve sha256 numberText organizationId workflowRunId id)
      (Manifest.Hashed sha256 numberText) := by
  unfold RedTeamEvidence.resolve
  iterate 10 refine Returns.after fun _ => ?_
  exact Returns.pure rfl

end Resolved

theorem preparePrompt_hashed {service : WorkflowAgentRuntimeService} {numberText : Rat → Str}
    {organizationId workflowRunId : Str} {step : StepRow} {task : TaskRow} :
    Returns (service.preparePrompt numberText organizationId workflowRunId step task)
      fun prompt => ∀ manifest ∈ prompt.manifests,
        manifest.Hashed service.sha256 numberText := by
  have hmanifestIf {needed available : Bool} {unavailable : String} {p : Handoff Manifest}
      (hp : Returns p (Manifest.Hashed service.sha256 numberText)) :
      Returns (if needed then do
          Prog.require available (.conflict unavailable)
          some <$> p
        else pure none)
        fun found => ∀ manifest ∈ found, manifest.Hashed service.sha256 numberText := by
    cases needed with
    | false => exact Returns.pure nofun
    | true =>
        refine Returns.after fun _ => hp.bind fun manifest hmanifest => Returns.pure ?_
        rintro _ ⟨⟩
        exact hmanifest
  refine (hmanifestIf redTeamEvidence_hashed).bind fun evidence hevidence =>
    (hmanifestIf correctionContext_hashed).bind fun context hcontext => Returns.pure ?_
  intro manifest hmanifest
  obtain h | h := List.mem_append.mp hmanifest
  · exact hevidence manifest (Option.mem_toList.mp h)
  · exact hcontext manifest (Option.mem_toList.mp h)

/-- The prompt of a step has its manifest and its contract whole exactly if the lines up to them
do not exceed the limit together. -/
theorem prompt_carries_whole_iff (service : WorkflowAgentRuntimeService) (numberText : Rat → Str)
    (organizationId workflowRunId : Str) (step : StepRow) (task : TaskRow)
    (reads : List (Prog.Event Lookup Found HttpError)) (prompt : StepPrompt)
    (h : Prog.Trace (service.preparePrompt numberText organizationId workflowRunId step task) reads
      (.pure prompt)) :
    prompt.CarriesWhole service.sha256 numberText ↔ prompt.Fits numberText :=
  StepPrompt.carriesWhole_iff (h.returns (preparePrompt_hashed []))

/-! ## A correction, and a test of a task with a long description -/

section Sample

def correctingService : WorkflowAgentRuntimeService where
  runtimeOutcome := false
  runtimeReflectionLearning := false
  codeBuildApprovals := true
  redTeamEvidence := true
  correctionContext := true
  parse := fun _ => none
  sha256 := fun _ => "0".toList

def textField (name value : String) : Str × Json := (name.toList, literal value)

def correctedLineage : Str → Option LineageStep
  | ['c'] => some ⟨['c'], .correction, .ready, some ['p'], .null⟩
  | ['p'] => some ⟨['p'], .parseVerdict, .succeeded, some ['r'], .object
      [textField "source" "WORKFLOW_REVIEW_VERDICT_RUNTIME",
        textField "authority" "GOVERNED_EXECUTION_RECORD", textField "verdict" "D",
        textField "reviewStepRunId" "r", textField "reviewerExecutionId" "x"]⟩
  | ['r'] => some ⟨['r'], .redTeam, .succeeded, none, .object
      [textField "source" "WORKFLOW_AGENT_RUNTIME", textField "reviewProjectionStatus" "VALID",
        textField "executionStatus" "SUCCEEDED", textField "capabilityCode" "RED_TEAM",
        textField "selectedProviderId" "v",
        ("executionEvidence".toList, .object
          [textField "outputReference" "gov://o", textField "invocationId" "x"]),
        ("reviewResult".toList, .object
          [textField "verdict" "D", textField "reviewerExecutionId" "x",
            ("findings".toList, .array [.object
              [textField "id" "f", textField "severity" "HIGH", textField "category" "SECURITY",
                textField "summary" "s", ("evidenceRefs".toList, .array [literal "gov://e"]),
                ("blocking".toList, .bool true)]])])]⟩
  | _ => none

def correctedRows : (question : Lookup) → Except HttpError (Found question)
  | .findStep id _ _ => .ok (correctedLineage id)
  | .findRecord query => .ok (some ⟨query.id, some "gov://o".toList, some "d".toList, .null, .null⟩)

def correctionPrompt : Handoff StepPrompt :=
  correctingService.preparePrompt (fun _ => []) ['o'] ['w'] ⟨['c'], .correction, 1⟩
    ⟨['t'], "Fix it".toList, none⟩

def longTask (n : Nat) : TaskRow := ⟨['t'], "Test it".toList, some (List.replicate n 'a')⟩

/-- The manifest of a correction with one finding stands in its prompt. -/
theorem prompt_carries_whole_correction : ∃ prompt : StepPrompt, prompt.manifests ≠ [] ∧
    prompt.CarriesWhole correctingService.sha256 fun _ => [] := by
  have hrun := Prog.trace_runUntil correctedRows (fun _ => false) correctionPrompt
  have hend : ∃ prompt, (correctionPrompt.runUntil correctedRows fun _ => false).2 = .pure prompt ∧
      prompt.manifests ≠ [] ∧ prompt.Fits fun _ => [] :=
    ⟨_, rfl, by decide, fun _ => by decide +kernel⟩
  obtain ⟨prompt, hprompt, hmanifest, hfits⟩ := hend
  rw [hprompt] at hrun
  exact ⟨prompt, hmanifest, (prompt_carries_whole_iff correctingService (fun _ => []) ['o'] ['w']
    ⟨['c'], .correction, 1⟩ ⟨['t'], "Fix it".toList, none⟩ _ prompt hrun).mpr hfits⟩

/-- The contract of a test is cut off by a long description. -/
theorem not_prompt_carries_whole : ¬ ∀ (service : WorkflowAgentRuntimeService)
    (numberText : Rat → Str) (organizationId workflowRunId : Str) (step : StepRow)
    (task : TaskRow) (reads : List (Prog.Event Lookup Found HttpError)) (prompt : StepPrompt),
    Prog.Trace (service.preparePrompt numberText organizationId workflowRunId step task) reads
      (.pure prompt) → prompt.CarriesWhole service.sha256 numberText := by
  intro h
  have hwhole := h correctingService (fun _ => []) ['o'] ['w'] ⟨['s'], .test, 1⟩ (longTask 32000) []
    _ (.nil _)
  exact StepPrompt.not_carriesWhole_of_long (by decide) rfl (utf16Length_replicate _).ge hwhole

end Sample

end AgentRuntime
