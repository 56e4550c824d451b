import VitoPlatform.CloudExecution.Identity
import VitoPlatform.AgentRuntime.Execution

/-!
# The acceptance of a proof file

`evaluateFlight001Acceptance`: a change set is accepted if its only changed file is the proof file
and the content that is read from its patch is the expected one. The content is read by looking at
how the lines of the patch begin, so a line of the content that begins with `++ ` is taken for a
line of the header (`evaluate_faithful_iff`).
-/

namespace CloudExecution

open Text

def VITO_FLIGHT_001_PROOF_RELATIVE_PATH : Str := "docs/vito-flight-001-proof.md".toList

/-- The fields of a settled change set that are read. -/
structure GovernedResultSettling where
  baseSha : Str
  changedFiles : List Str
  patch : Str
  empty : Bool

inductive AcceptanceReason where
  | noFilesChanged
  | otherFilesChanged
  | notTheOnlyNewFile
  | notByteEquivalent
  | otherHash
  deriving DecidableEq

def AcceptanceReason.text : AcceptanceReason → String
  | .noFilesChanged => "no files changed"
  | .otherFilesChanged => "changed files must be exactly the canonical proof file"
  | .notTheOnlyNewFile => "patch does not contain the canonical proof file as the only new file"
  | .notByteEquivalent => "proof content is not byte-equivalent to the canonical content"
  | .otherHash => "proof content hash does not match the canonical expected hash"

structure Flight001AcceptanceResult where
  passed : Bool
  reason : Option AcceptanceReason
  changedFiles : List Str
  expectedPath : Str
  expectedSha256 : Str
  actualSha256 : Option Str
  baseSha : Str

/-! ## The headers of a patch -/

/-- The characters at which a line of a regular expression ends. -/
def isTerminator (c : Char) : Bool :=
  c = '\n' || c = '\r' || c.toNat = 0x2028 || c.toNat = 0x2029

def segments (patch : Str) : List Str := patch.splitOnP isTerminator

/-- `b/` and something behind it. -/
def isB (text : Str) : Bool := startsWith text "b/".toList && 2 < text.length

/-- What stands before the first match of `\sb\/.+$` in a line. -/
def beforeB : Str → Option Str
  | [] => none
  | c :: rest =>
      if isSpace c && isB rest then some [] else (beforeB rest).map (c :: ·)

/-- The path that is read from a line, followed by another, if `^diff --git a\/.+\sb\/.+$` matches
here. The white space in the expression can be the end of the line. -/
def headerPath (line : Str) (next : Option Str) : Option Str :=
  if startsWith line "diff --git a/".toList then
    let body := line.drop "diff --git a/".length
    if body ≠ [] ∧ next.any isB then some body
    else if (beforeB body.tail).isSome then beforeB body
    else none
  else none

/-- The paths of all matches. A match that goes on to the next line cannot hide one, since that
line begins with `b/`. -/
def headerPaths : List Str → List Str
  | [] => []
  | line :: rest => (headerPath line rest.head?).toList ++ headerPaths rest

/-! ## The content of a patch -/

structure Extraction where
  inTarget : Bool
  sawNewFileMarker : Bool
  contentLines : List Str

def extractLines : List Str → Extraction → Option Extraction
  | [], e => some e
  | line :: rest, e =>
      if startsWith line "diff --git ".toList then
        if e.inTarget then some e else extractLines rest e
      else if line = "new file mode 100644".toList then
        extractLines rest { e with sawNewFileMarker := true }
      else if line = "--- /dev/null".toList then extractLines rest { e with inTarget := true }
      else if !e.inTarget then extractLines rest e
      else if startsWith line "\\ No newline at end of file".toList then none
      else if startsWith line "+++ ".toList then extractLines rest e
      else if startsWith line "--- ".toList then extractLines rest e
      else if startsWith line "@@ ".toList then extractLines rest e
      else if startsWith line ['+'] then
        extractLines rest { e with contentLines := e.contentLines ++ [line.drop 1] }
      else extractLines rest e

def extractNewFileContent (patch expectedPath : Str) : Option Str :=
  if headerPaths (segments patch) ≠ [expectedPath] then none
  else
    (extractLines (lines patch) ⟨false, false, []⟩).bind fun e =>
      if !e.sawNewFileMarker || e.contentLines.isEmpty then none
      else some (join ['\n'] e.contentLines ++ ['\n'])

/-- The evaluation for an expected content and its hash, which are constants of the source. -/
def evaluateFlight001Acceptance (sha256 : Str → Str) (expectedContent expectedSha256 : Str)
    (settling : GovernedResultSettling) : Flight001AcceptanceResult :=
  let result (passed : Bool) (reason : Option AcceptanceReason) (actualSha256 : Option Str) :
      Flight001AcceptanceResult :=
    { passed := passed
      reason := reason
      changedFiles := settling.changedFiles
      expectedPath := VITO_FLIGHT_001_PROOF_RELATIVE_PATH
      expectedSha256 := expectedSha256
      actualSha256 := actualSha256
      baseSha := settling.baseSha }
  if settling.empty || settling.changedFiles.isEmpty then result false (some .noFilesChanged) none
  else if settling.changedFiles ≠ [VITO_FLIGHT_001_PROOF_RELATIVE_PATH] then
    result false (some .otherFilesChanged) none
  else
    match extractNewFileContent settling.patch VITO_FLIGHT_001_PROOF_RELATIVE_PATH with
    | none => result false (some .notTheOnlyNewFile) none
    | some reconstructed =>
        let actualSha := sha256 reconstructed
        if reconstructed ≠ expectedContent then
          result false (some .notByteEquivalent) (some actualSha)
        else if actualSha ≠ expectedSha256 then result false (some .otherHash) (some actualSha)
        else result true none (some actualSha)

/-! ## New-file diffs -/

/-- A text of lines, each with its line break. -/
def contentOf (lines : List Str) : Str := lines.flatMap (· ++ ['\n'])

/-- How git shows a new file with given lines: its mode, the abbreviated names of the objects, and
whether a count of one is shown and the last line is terminated. -/
structure NewFileDiff where
  executable : Bool
  index : Option Str
  index_hex : ∀ names, index = some names → ∀ c ∈ names,
    AgentRuntime.isHexDigit c = true ∨ c = '.'
  counted : Bool
  terminated : Bool

namespace NewFileDiff

variable (diff : NewFileDiff)

def modeLine : Str := "new file mode ".toList ++
  if diff.executable then "100755".toList else "100644".toList

def hunkLine (count : Nat) : Str :=
  "@@ -0,0 +1".toList ++
    (if count = 1 ∧ !diff.counted then [] else ',' :: Nat.toDigits 10 count) ++ " @@".toList

def headLines : List Str :=
  ["diff --git a/".toList ++ VITO_FLIGHT_001_PROOF_RELATIVE_PATH ++ " b/".toList ++
      VITO_FLIGHT_001_PROOF_RELATIVE_PATH, diff.modeLine] ++
    diff.index.toList.map ("index ".toList ++ ·)

/-- An empty file has no hunk. -/
def hunkLines (lines : List Str) : List Str :=
  if lines = [] then []
  else
    ["--- /dev/null".toList, "+++ b/".toList ++ VITO_FLIGHT_001_PROOF_RELATIVE_PATH,
      diff.hunkLine lines.length] ++ lines.map ('+' :: ·)

/-- The lines of the patch, with the empty text behind its last line break. -/
def allLines (lines : List Str) : List Str :=
  diff.headLines ++ diff.hunkLines lines ++ if diff.terminated then [[]] else []

def render (lines : List Str) : Str := join ['\n'] (diff.allLines lines)

end NewFileDiff

/-! ## What is promised -/

/-- The change set is the creation of the proof file with these lines. -/
def Creates (settling : GovernedResultSettling) (lines : List Str) : Prop :=
  settling.empty = false ∧ settling.changedFiles = [VITO_FLIGHT_001_PROOF_RELATIVE_PATH] ∧
    ∃ diff : NewFileDiff, settling.patch = diff.render lines

/-- A change set is accepted exactly if it creates the proof file with the expected lines, and what
is read from the diff of such a file are these lines. -/
structure FaithfulAcceptance (sha256 : Str → Str) (lines : List Str)
    (settling : GovernedResultSettling) : Prop where
  accepted : (evaluateFlight001Acceptance sha256 (contentOf lines) (sha256 (contentOf lines))
    settling).passed = true ↔ Creates settling lines
  roundTrip : ∀ diff : NewFileDiff, settling.patch = diff.render lines →
    extractNewFileContent settling.patch VITO_FLIGHT_001_PROOF_RELATIVE_PATH =
      some (contentOf lines)

/-- The lines behind the first `--- /dev/null`, up to the next diff. -/
def sectionOf (lines : List Str) : List Str :=
  (lines.dropWhile (· ≠ "--- /dev/null".toList)).tail.takeWhile
    fun line => !startsWith line "diff --git ".toList

/-- The lines that are added, as long as they do not look like a header. -/
def addedLines (lines : List Str) : List Str :=
  (lines.filter fun line => startsWith line ['+'] && !startsWith line "+++ ".toList).map (·.drop 1)

/-- A patch in which expected lines are found: it has one header, which is that of the proof file,
the mark of a new file, and the lines are added in the section of the new file, which has no mark
of a missing line break. -/
structure Shows (patch : Str) (expected : List Str) : Prop where
  header : headerPaths (segments patch) = [VITO_FLIGHT_001_PROOF_RELATIVE_PATH]
  marker : "new file mode 100644".toList ∈
    (lines patch).takeWhile (· ≠ "--- /dev/null".toList) ++ sectionOf (lines patch)
  complete : ∀ line ∈ sectionOf (lines patch),
    startsWith line "\\ No newline at end of file".toList = false
  added : addedLines (sectionOf (lines patch)) = expected
  nonempty : expected ≠ []

/-- The diff is of an ordinary file that is not empty, and no line of it can be taken for a header,
not even behind a character that ends a line for a regular expression only. -/
structure Plain (diff : NewFileDiff) (lines : List Str) : Prop where
  mode : diff.executable = false
  nonempty : lines ≠ []
  added : ∀ line ∈ lines, startsWith line "++ ".toList = false
  hidden : ∀ line ∈ lines, headerPaths (segments line).tail = []

/-- The diff of the expected file is plain, and another patch does not show its lines. -/
def Readable (lines : List Str) (settling : GovernedResultSettling) : Prop :=
  (∀ diff : NewFileDiff, settling.patch = diff.render lines → Plain diff lines) ∧
    (settling.empty = false → settling.changedFiles = [VITO_FLIGHT_001_PROOF_RELATIVE_PATH] →
      (∀ diff : NewFileDiff, settling.patch ≠ diff.render lines) → ¬ Shows settling.patch lines)

/-! ## What is extracted -/

theorem startsWith_cons {line t : Str} {c d : Char} (h : startsWith line (c :: t) = true)
    (hcd : c ≠ d) : startsWith line [d] = false := by
  cases line with
  | nil => cases h
  | cons e line =>
      obtain ⟨hce, -⟩ := (Bool.and_eq_true_iff).mp (h : (c == e && t.isPrefixOf line) = true)
      have hde : d ≠ e := (eq_of_beq hce) ▸ hcd.symm
      exact (Bool.and_eq_false_iff).mpr (.inl (beq_eq_false_iff_ne.mpr hde))

/-- Whether a line of the section adds a line. -/
def adds (line : Str) : Bool := startsWith line ['+'] && !startsWith line "+++ ".toList

theorem addedLines_cons (line : Str) (ls : List Str) :
    addedLines (line :: ls) = (if adds line then [line.drop 1] else []) ++ addedLines ls := by
  unfold addedLines
  rw [List.filter_cons]
  change (List.map _ (if adds line = true then _ else _)) = _
  split_ifs <;> rfl

theorem adds_eq_false {line t : Str} {c : Char} (h : startsWith line (c :: t) = true)
    (hc : c ≠ '+') : adds line = false := by
  rw [adds, startsWith_cons h hc]
  rfl

/-- A line of the section that neither ends it nor marks a missing line break. -/
theorem extractLines_line {line : Str} {ls : List Str} {saw : Bool} {acc : List Str}
    (hdiff : startsWith line "diff --git ".toList = false)
    (hmark : startsWith line "\\ No newline at end of file".toList = false) :
    extractLines (line :: ls) ⟨true, saw, acc⟩ =
      extractLines ls ⟨true, saw || "new file mode 100644".toList == line,
        acc ++ if adds line then [line.drop 1] else []⟩ := by
  have hplain (hline : "new file mode 100644".toList ≠ line) (hadds : adds line = false) :
      extractLines ls ⟨true, saw, acc⟩ =
        extractLines ls ⟨true, saw || "new file mode 100644".toList == line,
          acc ++ if adds line then [line.drop 1] else []⟩ := by
    rw [hadds, beq_eq_false_iff_ne.mpr hline]
    simp only [Bool.or_false, Bool.false_eq_true, if_false, List.append_nil]
  rw [extractLines, if_neg (by rw [hdiff]; exact Bool.false_ne_true)]
  by_cases hmarker : line = "new file mode 100644".toList
  · rw [if_pos hmarker]
    subst hmarker
    rw [show adds "new file mode 100644".toList = false by decide]
    simp only [beq_self_eq_true, Bool.or_true, Bool.false_eq_true, if_false, List.append_nil]
  rw [if_neg hmarker]
  have hline : "new file mode 100644".toList ≠ line := Ne.symm hmarker
  by_cases hnull : line = "--- /dev/null".toList
  · rw [if_pos hnull]
    exact hplain hline (hnull ▸ (by decide : adds "--- /dev/null".toList = false))
  rw [if_neg hnull, if_neg (show ¬ (!true) = true from Bool.false_ne_true),
    if_neg (by rw [hmark]; exact Bool.false_ne_true)]
  by_cases hplus : startsWith line "+++ ".toList = true
  · rw [if_pos hplus]
    exact hplain hline (by rw [adds, hplus, Bool.not_true, Bool.and_false])
  rw [if_neg hplus]
  by_cases hminus : startsWith line "--- ".toList = true
  · rw [if_pos hminus]
    exact hplain hline (adds_eq_false hminus (by decide))
  rw [if_neg hminus]
  by_cases hhunk : startsWith line "@@ ".toList = true
  · rw [if_pos hhunk]
    exact hplain hline (adds_eq_false hhunk (by decide))
  rw [if_neg hhunk]
  by_cases hadd : startsWith line ['+'] = true
  · have hadds : adds line = true := by
      rw [adds, hadd, eq_false_of_ne_true hplus]
      rfl
    rw [if_pos hadd, hadds, beq_eq_false_iff_ne.mpr hline, Bool.or_false, if_pos rfl]
  · rw [if_neg hadd]
    exact hplain hline (by rw [adds, eq_false_of_ne_true hadd, Bool.false_and])

theorem extractLines_target (ls : List Str) (saw : Bool) (acc : List Str) :
    extractLines ls ⟨true, saw, acc⟩ =
      let target := ls.takeWhile fun line => !startsWith line "diff --git ".toList
      if target.any fun line => startsWith line "\\ No newline at end of file".toList then none
      else some ⟨true, saw || target.contains "new file mode 100644".toList,
        acc ++ addedLines target⟩ := by
  induction ls generalizing saw acc with
  | nil => simp [extractLines, addedLines]
  | cons line ls ih =>
      cases hdiff : startsWith line "diff --git ".toList
      · rw [List.takeWhile_cons_of_pos (by rw [hdiff]; rfl)]
        cases hmark : startsWith line "\\ No newline at end of file".toList
        · rw [extractLines_line hdiff hmark, ih]
          dsimp only
          rw [List.any_cons, hmark, Bool.false_or, List.contains_cons, addedLines_cons,
            Bool.or_assoc, List.append_assoc]
        · have hneq {t : Str} (ht : startsWith t "\\ No newline at end of file".toList = false) :
              line ≠ t := by
            rintro rfl
            exact absurd hmark (by rw [ht]; exact Bool.false_ne_true)
          rw [extractLines, if_neg (by rw [hdiff]; exact Bool.false_ne_true),
            if_neg (hneq (by decide)), if_neg (hneq (by decide)),
            if_neg (show ¬ (!true) = true from Bool.false_ne_true), if_pos hmark]
          dsimp only
          rw [List.any_cons, hmark, Bool.true_or, if_pos rfl]
      · rw [List.takeWhile_cons_of_neg (by rw [hdiff]; exact Bool.false_ne_true), extractLines,
          if_pos hdiff]
        simp [addedLines]

/-- A line before the section. -/
theorem extractLines_skip {line : Str} {ls : List Str} {saw : Bool}
    (hnull : line ≠ "--- /dev/null".toList) :
    extractLines (line :: ls) ⟨false, saw, []⟩ =
      extractLines ls ⟨false, saw || "new file mode 100644".toList == line, []⟩ := by
  rw [extractLines]
  by_cases hdiff : startsWith line "diff --git ".toList = true
  · have hline : "new file mode 100644".toList ≠ line := by
      rintro rfl
      exact absurd hdiff (by decide)
    rw [if_pos hdiff, if_neg Bool.false_ne_true, beq_eq_false_iff_ne.mpr hline, Bool.or_false]
  rw [if_neg hdiff]
  by_cases hmarker : line = "new file mode 100644".toList
  · rw [if_pos hmarker, hmarker, beq_self_eq_true, Bool.or_true]
  rw [if_neg hmarker, if_neg hnull, if_pos (show (!false) = true from rfl),
    beq_eq_false_iff_ne.mpr (Ne.symm hmarker), Bool.or_false]

theorem extractLines_before (ls : List Str) (saw : Bool) :
    extractLines ls ⟨false, saw, []⟩ =
      let seen := saw ||
        (ls.takeWhile (· ≠ "--- /dev/null".toList)).contains "new file mode 100644".toList
      if (sectionOf ls).any fun line => startsWith line "\\ No newline at end of file".toList then
        none
      else
        some ⟨ls.contains "--- /dev/null".toList,
          seen || (sectionOf ls).contains "new file mode 100644".toList,
          addedLines (sectionOf ls)⟩ := by
  induction ls generalizing saw with
  | nil => cases saw <;> rfl
  | cons line ls ih =>
      by_cases hnull : line = "--- /dev/null".toList
      · subst hnull
        rw [extractLines, if_neg (by decide), if_neg (by decide), if_pos rfl, extractLines_target]
        have hsection : sectionOf ("--- /dev/null".toList :: ls) =
            ls.takeWhile fun line => !startsWith line "diff --git ".toList := by
          rw [sectionOf, List.dropWhile_cons_of_neg (by decide), List.tail_cons]
        rw [hsection, List.takeWhile_cons_of_neg (by decide), List.contains_cons, beq_self_eq_true,
          Bool.true_or]
        dsimp only
        rw [List.contains_nil, Bool.or_false, List.nil_append]
      · have hsection : sectionOf (line :: ls) = sectionOf ls := by
          rw [sectionOf, List.dropWhile_cons_of_pos (by exact decide_eq_true hnull)]
          rfl
        rw [extractLines_skip hnull, ih, hsection,
          List.takeWhile_cons_of_pos (by exact decide_eq_true hnull), List.contains_cons,
          List.contains_cons, beq_eq_false_iff_ne.mpr (Ne.symm hnull), Bool.false_or]
        dsimp only
        rw [← Bool.or_assoc saw]

/-! ## What is accepted -/

theorem contentOf_eq_join {ls : List Str} (hls : ls ≠ []) :
    join ['\n'] ls ++ ['\n'] = contentOf ls := by
  induction ls with
  | nil => exact absurd rfl hls
  | cons line ls ih =>
      cases ls with
      | nil => simp [join, contentOf]
      | cons second ls =>
          have hrest : join ['\n'] (second :: ls) ++ ['\n'] = contentOf (second :: ls) :=
            ih (List.cons_ne_nil second ls)
          rw [show contentOf (line :: second :: ls) =
            line ++ ['\n'] ++ contentOf (second :: ls) from rfl, ← hrest]
          simp [join, List.intercalate]

theorem extractNewFileContent_eq_some_iff {patch content : Str} :
    extractNewFileContent patch VITO_FLIGHT_001_PROOF_RELATIVE_PATH = some content ↔
      ∃ expected, Shows patch expected ∧ content = contentOf expected := by
  rw [extractNewFileContent, extractLines_before]
  by_cases hheader : headerPaths (segments patch) = [VITO_FLIGHT_001_PROOF_RELATIVE_PATH]
  swap
  · rw [if_pos hheader]
    exact ⟨nofun, fun ⟨_, hshows, _⟩ => absurd hshows.header hheader⟩
  rw [if_neg (not_not_intro hheader)]
  dsimp only
  rw [Bool.false_or]
  cases hmark : (sectionOf (lines patch)).any fun line =>
    startsWith line "\\ No newline at end of file".toList
  swap
  · obtain ⟨line, hline, hbad⟩ := List.any_eq_true.mp hmark
    refine ⟨nofun, fun ⟨_, hshows, _⟩ => ?_⟩
    exact absurd hbad (by rw [hshows.complete line hline]; exact Bool.false_ne_true)
  rw [if_neg Bool.false_ne_true, Option.bind_some]
  have hmarker : (((lines patch).takeWhile (· ≠ "--- /dev/null".toList)).contains
        "new file mode 100644".toList ||
      (sectionOf (lines patch)).contains "new file mode 100644".toList) = true ↔
      "new file mode 100644".toList ∈
        (lines patch).takeWhile (· ≠ "--- /dev/null".toList) ++ sectionOf (lines patch) := by
    rw [Bool.or_eq_true, List.contains_iff_mem, List.contains_iff_mem, List.mem_append]
  have hempty : (addedLines (sectionOf (lines patch))).isEmpty = true ↔
      addedLines (sectionOf (lines patch)) = [] := List.isEmpty_iff
  constructor
  · intro h
    split_ifs at h with hnone
    rw [Bool.or_eq_true, not_or, Bool.not_eq_true', Bool.not_eq_false, hempty] at hnone
    refine ⟨_, ⟨hheader, hmarker.mp hnone.1, fun line hline => ?_, rfl, hnone.2⟩, ?_⟩
    · exact eq_false_of_ne_true fun hbad =>
        Bool.false_ne_true (hmark.symm.trans (List.any_eq_true.mpr ⟨line, hline, hbad⟩))
    · rw [← Option.some.inj h, contentOf_eq_join hnone.2]
  · rintro ⟨expected, hshows, rfl⟩
    have hadded : addedLines (sectionOf (lines patch)) ≠ [] := hshows.added ▸ hshows.nonempty
    rw [hmarker.mpr hshows.marker, if_neg, contentOf_eq_join hadded, hshows.added]
    rw [Bool.not_true, Bool.false_or, hempty]
    exact hadded

/-! ## The headers of a text of lines -/

theorem segments_join {ls : List Str} (hls : ls ≠ []) :
    segments (join ['\n'] ls) = ls.flatMap segments := by
  induction ls with
  | nil => exact absurd rfl hls
  | cons line ls ih =>
      cases ls with
      | nil => simp [join, List.intercalate_singleton]
      | cons second ls =>
          have hrest : segments (join ['\n'] (second :: ls)) = (second :: ls).flatMap segments :=
            ih (List.cons_ne_nil second ls)
          rw [join, List.intercalate_cons_cons, List.append_assoc, List.flatMap_cons, ← hrest]
          exact List.splitOnP_append_cons line _ (by decide)

theorem segments_of_forall {line : Str} (h : ∀ c ∈ line, isTerminator c = false) :
    segments line = [line] :=
  List.splitOnP_eq_singleton h

/-- The first segment begins like the line. -/
theorem segments_cons {c : Char} (line : Str) (hc : isTerminator c = false) :
    ∃ first, segments (c :: line) = (c :: first) :: (segments line).tail := by
  obtain ⟨first, rest, hsegments⟩ : ∃ first rest, segments line = first :: rest :=
    List.exists_cons_of_ne_nil (List.splitOnP_ne_nil _ _)
  refine ⟨first, ?_⟩
  rw [hsegments, segments, List.splitOnP_cons_eq_if_modifyHead, hc, if_neg Bool.false_ne_true]
  change (segments line).modifyHead (List.cons c) = _
  rw [hsegments]
  rfl

/-- A line that cannot end a header on the line before. -/
def NoTarget (line : Str) : Prop := ∀ c ∈ line.head?, c ≠ 'b'

theorem noTarget_cons {c : Char} {line : Str} (hc : c ≠ 'b') : NoTarget (c :: line) :=
  fun _ hd => (Option.some.inj hd) ▸ hc

theorem isB_of_noTarget {line : Str} (h : NoTarget line) : isB line = false := by
  cases line with
  | nil => rfl
  | cons c line =>
      have hc : 'b' ≠ c := (h c rfl).symm
      rw [isB, Text.startsWith, show "b/".toList = ['b', '/'] from rfl, List.isPrefixOf,
        beq_eq_false_iff_ne.mpr hc]
      rfl

theorem head_segments {line : Str} (h : NoTarget line) :
    ∀ first ∈ (segments line).head?, isB first = false := by
  cases line with
  | nil => exact fun first hfirst => by cases hfirst; rfl
  | cons c line =>
      intro first hfirst
      cases hc : isTerminator c
      · obtain ⟨text, htext⟩ := segments_cons line hc
        rw [htext, List.head?_cons, Option.mem_some_iff] at hfirst
        rw [← hfirst]
        exact isB_of_noTarget fun d hd => h d hd
      · rw [segments, List.splitOnP_cons_eq_if_modifyHead, hc, if_pos rfl, List.head?_cons,
          Option.mem_some_iff] at hfirst
        rw [← hfirst]
        rfl

theorem headerPath_eq {line : Str} {next : Option Str} (h : ∀ text ∈ next, isB text = false) :
    headerPath line next = headerPath line none := by
  have hany : next.any isB = false := by
    cases next with
    | none => rfl
    | some text => exact h text rfl
  rw [headerPath, headerPath, hany]
  rfl

theorem headerPaths_append {front back : List Str}
    (hback : ∀ text ∈ back.head?, isB text = false) :
    headerPaths (front ++ back) = headerPaths front ++ headerPaths back := by
  induction front with
  | nil => rfl
  | cons line front ih =>
      rw [List.cons_append, headerPaths, headerPaths, ih, List.append_assoc]
      cases front with
      | nil => rw [List.nil_append, headerPath_eq hback]; rfl
      | cons second front => rfl

theorem headerPaths_flatMap {ls : List Str} (hls : ∀ line ∈ ls.tail, NoTarget line) :
    headerPaths (ls.flatMap segments) = ls.flatMap fun line => headerPaths (segments line) := by
  induction ls with
  | nil => rfl
  | cons line ls ih =>
      have hhead : ∀ text ∈ (ls.flatMap segments).head?, isB text = false := by
        cases ls with
        | nil => nofun
        | cons second ls =>
            rw [List.flatMap_cons, List.head?_append_of_ne_nil (segments second)
              (List.splitOnP_ne_nil _ _)]
            exact head_segments (hls second List.mem_cons_self)
      rw [List.flatMap_cons, List.flatMap_cons, headerPaths_append hhead,
        ih fun text htext => hls text (List.mem_of_mem_tail htext)]

/-- A line that begins with a sign has its headers behind a character at which only a regular
expression ends a line. -/
theorem headerPaths_signed {c : Char} (line : Str) (hc : isTerminator c = false) (hd : c ≠ 'd') :
    headerPaths (segments (c :: line)) = headerPaths (segments line).tail := by
  obtain ⟨first, hfirst⟩ := segments_cons line hc
  rw [hfirst, headerPaths, headerPath, if_neg, Option.toList_none, List.nil_append]
  rw [Text.startsWith, show "diff --git a/".toList = 'd' :: "iff --git a/".toList from rfl,
    List.isPrefixOf, beq_eq_false_iff_ne.mpr hd.symm, Bool.false_and]
  exact Bool.false_ne_true

/-! ## The diff of a new file -/

theorem isTerminator_of_range {c : Char} (hlow : 32 ≤ c.toNat) (hhigh : c.toNat < 0x2028) :
    isTerminator c = false := by
  have hlf : c ≠ '\n' := by
    rintro rfl
    exact absurd hlow (by decide)
  have hcr : c ≠ '\r' := by
    rintro rfl
    exact absurd hlow (by decide)
  rw [isTerminator, decide_eq_false hlf, decide_eq_false hcr, decide_eq_false (by omega),
    decide_eq_false (by omega)]
  rfl

theorem isTerminator_of_isDigit {c : Char} (h : c.isDigit = true) : isTerminator c = false := by
  have hrange : 48 ≤ c.toNat ∧ c.toNat ≤ 57 := by
    simpa [Char.isDigit, UInt32.le_iff_toNat_le] using h
  exact isTerminator_of_range (by omega) (by omega)

theorem isTerminator_of_isHexDigit {c : Char} (h : AgentRuntime.isHexDigit c = true) :
    isTerminator c = false := by
  obtain hdigit | hletter := Bool.or_eq_true_iff.mp h
  · exact isTerminator_of_isDigit hdigit
  · have hrange : 97 ≤ c.toNat ∧ c.toNat ≤ 102 := by
      simpa [Char.le_def, UInt32.le_iff_toNat_le] using hletter
    exact isTerminator_of_range (by omega) (by omega)

/-- A line that is no header, with no line inside that could be one. -/
theorem headerPaths_calm {c : Char} {line : Str} (hline : ∀ d ∈ c :: line, isTerminator d = false)
    (hd : c ≠ 'd') : headerPaths (segments (c :: line)) = [] := by
  rw [headerPaths_signed line (hline c List.mem_cons_self) hd,
    segments_of_forall fun d hd => hline d (List.mem_cons_of_mem c hd)]
  rfl

namespace NewFileDiff

variable (diff : NewFileDiff)

def header : Str := "diff --git a/".toList ++ VITO_FLIGHT_001_PROOF_RELATIVE_PATH ++ " b/".toList ++
  VITO_FLIGHT_001_PROOF_RELATIVE_PATH

theorem header_calm : ∀ c ∈ header, isTerminator c = false := forall_mem_of_all (by decide)

theorem headerPaths_header :
    headerPaths (segments header) = [VITO_FLIGHT_001_PROOF_RELATIVE_PATH] := by
  rw [segments_of_forall header_calm]
  decide

theorem modeLine_eq : diff.modeLine =
    if diff.executable then "new file mode 100755".toList else "new file mode 100644".toList := by
  obtain ⟨executable⟩ := diff
  cases executable <;> rfl

theorem modeLine_calm : ∀ c ∈ diff.modeLine, isTerminator c = false := by
  rw [modeLine_eq]
  split_ifs
  · exact forall_mem_of_all (by decide)
  · exact forall_mem_of_all (by decide)

theorem hunkLine_calm (count : Nat) : ∀ c ∈ diff.hunkLine count, isTerminator c = false := by
  intro c hc
  change c ∈ "@@ -0,0 +1".toList ++
    (if count = 1 ∧ !diff.counted then [] else ',' :: Nat.toDigits 10 count) ++ " @@".toList at hc
  rw [List.mem_append, List.mem_append] at hc
  obtain (hfront | hcount) | hback := hc
  · exact forall_mem_of_all (p := fun c => isTerminator c = false) (by decide) c hfront
  · split_ifs at hcount
    · cases hcount
    · obtain rfl | hdigit := List.mem_cons.mp hcount
      · decide
      · exact isTerminator_of_isDigit (Nat.isDigit_of_mem_toDigits (by decide) (by decide) hdigit)
  · exact forall_mem_of_all (p := fun c => isTerminator c = false) (by decide) c hback

theorem indexLine_calm {names : Str} (hnames : diff.index = some names) :
    ∀ c ∈ "index ".toList ++ names, isTerminator c = false := by
  intro c hc
  obtain hfront | hname := List.mem_append.mp hc
  · exact forall_mem_of_all (p := fun c => isTerminator c = false) (by decide) c hfront
  · obtain hhex | rfl := diff.index_hex names hnames c hname
    · exact isTerminator_of_isHexDigit hhex
    · decide

/-- The lines of the head behind the header. -/
theorem mem_headLines_tail {line : Str} (h : line ∈ diff.headLines.tail) :
    line = diff.modeLine ∨ ∃ names, diff.index = some names ∧ line = "index ".toList ++ names := by
  obtain rfl | hindex := List.mem_cons.mp
    (h : line ∈ diff.modeLine :: (diff.index.toList.map ("index ".toList ++ ·)))
  · exact .inl rfl
  · obtain ⟨names, hnames, rfl⟩ := List.mem_map.mp hindex
    exact .inr ⟨names, Option.mem_toList.mp hnames, rfl⟩

theorem headerPaths_headLines_tail {line : Str} (h : line ∈ diff.headLines.tail) :
    headerPaths (segments line) = [] ∧ NoTarget line := by
  obtain rfl | ⟨names, hnames, rfl⟩ := diff.mem_headLines_tail h
  · exact ⟨headerPaths_calm diff.modeLine_calm (by decide), noTarget_cons (by decide)⟩
  · exact ⟨headerPaths_calm (diff.indexLine_calm hnames) (by decide),
      noTarget_cons (by decide)⟩

/-- The lines between the head and the content. -/
def markLines (count : Nat) : List Str :=
  ["--- /dev/null".toList, "+++ b/".toList ++ VITO_FLIGHT_001_PROOF_RELATIVE_PATH,
    diff.hunkLine count]

theorem hunkLines_eq {ls : List Str} (hls : ls ≠ []) :
    diff.hunkLines ls = diff.markLines ls.length ++ ls.map ('+' :: ·) := if_neg hls

theorem markLines_calm {count : Nat} {line : Str} (h : line ∈ diff.markLines count) :
    ∀ c ∈ line, isTerminator c = false := by
  obtain rfl | rfl | rfl : line = _ ∨ line = _ ∨ line = _ := by
    simpa [markLines] using h
  · exact forall_mem_of_all (by decide)
  · exact forall_mem_of_all (by decide)
  · exact diff.hunkLine_calm count

theorem headerPaths_markLines {count : Nat} {line : Str} (h : line ∈ diff.markLines count) :
    headerPaths (segments line) = [] ∧ NoTarget line := by
  have hcalm : ∀ c ∈ line, isTerminator c = false := diff.markLines_calm h
  obtain rfl | rfl | rfl : line = _ ∨ line = _ ∨ line = _ := by
    simpa [markLines] using h
  · exact ⟨headerPaths_calm hcalm (by decide), noTarget_cons (by decide)⟩
  · exact ⟨headerPaths_calm hcalm (by decide), noTarget_cons (by decide)⟩
  · exact ⟨headerPaths_calm hcalm (by decide), noTarget_cons (by decide)⟩

theorem headerPaths_hunkLines (ls : List Str) :
    (diff.hunkLines ls).flatMap (fun line => headerPaths (segments line)) =
      ls.flatMap fun line => headerPaths (segments line).tail := by
  by_cases hls : ls = []
  · subst hls
    rfl
  rw [diff.hunkLines_eq hls, List.flatMap_append, List.flatMap_eq_nil_iff.mpr fun line hline =>
    (diff.headerPaths_markLines hline).1, List.nil_append, List.flatMap_map]
  exact List.flatMap_congr fun line _ => headerPaths_signed line (by decide) (by decide)

theorem noTarget_hunkLines {ls : List Str} {line : Str} (h : line ∈ diff.hunkLines ls) :
    NoTarget line := by
  by_cases hls : ls = []
  · subst hls
    cases h
  rw [diff.hunkLines_eq hls, List.mem_append] at h
  obtain hmark | hcontent := h
  · exact (diff.headerPaths_markLines hmark).2
  · obtain ⟨text, -, rfl⟩ := List.mem_map.mp hcontent
    exact noTarget_cons (by decide)

/-- The headers that are found in the diff of a new file: its own, and what is hidden in its
lines. -/
theorem headerPaths_render (ls : List Str) :
    headerPaths (segments (diff.render ls)) = VITO_FLIGHT_001_PROOF_RELATIVE_PATH ::
      ls.flatMap fun line => headerPaths (segments line).tail := by
  have hlines : diff.allLines ls = header ::
      (diff.headLines.tail ++ diff.hunkLines ls ++ if diff.terminated then [[]] else []) := rfl
  have hend : ∀ line ∈ if diff.terminated then [([] : Str)] else [], line = [] := by
    split_ifs
    · exact fun line hline => List.mem_singleton.mp hline
    · nofun
  have hends : (if diff.terminated then [([] : Str)] else []).flatMap
      (fun line => headerPaths (segments line)) = [] :=
    List.flatMap_eq_nil_iff.mpr fun line hline => by rw [hend line hline]; rfl
  have htail : ∀ line ∈ (diff.allLines ls).tail, NoTarget line := by
    rw [hlines, List.tail_cons]
    intro line hline
    obtain (hhead | hhunk) | hlast := List.mem_append.mp hline |>.imp_left List.mem_append.mp
    · exact (diff.headerPaths_headLines_tail hhead).2
    · exact diff.noTarget_hunkLines hhunk
    · rw [hend line hlast]
      nofun
  rw [render, segments_join (hlines ▸ List.cons_ne_nil _ _), headerPaths_flatMap htail, hlines,
    List.flatMap_cons, headerPaths_header, List.flatMap_append, List.flatMap_append, hends,
    List.flatMap_eq_nil_iff.mpr fun line hline => (diff.headerPaths_headLines_tail hline).1,
    diff.headerPaths_hunkLines, List.append_nil, List.nil_append]
  rfl

theorem newline_not_mem {line : Str} (h : ∀ c ∈ line, isTerminator c = false) : '\n' ∉ line :=
  fun hmem => absurd (h '\n' hmem) (by decide)

theorem lines_render {ls : List Str} (hlines : ∀ line ∈ ls, '\n' ∉ line) :
    lines (diff.render ls) = diff.allLines ls := by
  refine List.splitOn_intercalate '\n' (fun line hline => ?_) (List.cons_ne_nil header _)
  obtain (hhead | hhunk) | hlast := List.mem_append.mp hline |>.imp_left List.mem_append.mp
  · obtain rfl | htail := List.mem_cons.mp (show line ∈ header :: diff.headLines.tail from hhead)
    · exact newline_not_mem header_calm
    · obtain rfl | ⟨names, hnames, rfl⟩ := diff.mem_headLines_tail htail
      · exact newline_not_mem diff.modeLine_calm
      · exact newline_not_mem (diff.indexLine_calm hnames)
  · by_cases hls : ls = []
    · subst hls
      cases hhunk
    rw [diff.hunkLines_eq hls, List.mem_append] at hhunk
    obtain hmark | hcontent := hhunk
    · exact newline_not_mem (diff.markLines_calm hmark)
    · obtain ⟨text, htext, rfl⟩ := List.mem_map.mp hcontent
      exact List.not_mem_cons_of_ne_of_not_mem (by decide) (hlines text htext)
  · split_ifs at hlast
    · rw [List.mem_singleton.mp hlast]
      exact List.not_mem_nil
    · cases hlast

/-- No line before the section opens it. -/
theorem headLines_ne {line : Str} (h : line ∈ diff.headLines) : line ≠ "--- /dev/null".toList := by
  obtain rfl | htail := List.mem_cons.mp (show line ∈ header :: diff.headLines.tail from h)
  · decide
  · obtain rfl | ⟨names, -, rfl⟩ := diff.mem_headLines_tail htail
    · rw [modeLine_eq]
      split_ifs <;> decide
    · exact fun heq => absurd (show some 'i' = some '-' from congrArg List.head? heq) (by decide)

theorem marker_mem_headLines :
    "new file mode 100644".toList ∈ diff.headLines ↔ diff.executable = false := by
  constructor
  · intro h
    obtain heq | htail := List.mem_cons.mp (show _ ∈ header :: diff.headLines.tail from h)
    · exact absurd heq (by decide)
    · obtain heq | ⟨names, -, heq⟩ := diff.mem_headLines_tail htail
      · rw [modeLine_eq] at heq
        split_ifs at heq with hmode
        · exact absurd heq (by decide)
        · exact eq_false_of_ne_true hmode
      · exact absurd (show some 'n' = some 'i' from congrArg List.head? heq) (by decide)
  · intro h
    have hmode : diff.modeLine = "new file mode 100644".toList := by
      rw [modeLine_eq, h]
      rfl
    exact hmode ▸ List.mem_cons_of_mem _ List.mem_cons_self

/-- The section of the new file. -/
def sectionLines (ls : List Str) : List Str :=
  ["+++ b/".toList ++ VITO_FLIGHT_001_PROOF_RELATIVE_PATH, diff.hunkLine ls.length] ++
    ls.map ('+' :: ·) ++ if diff.terminated then [[]] else []

theorem allLines_eq {ls : List Str} (hls : ls ≠ []) :
    diff.allLines ls = diff.headLines ++ "--- /dev/null".toList :: diff.sectionLines ls := by
  rw [allLines, diff.hunkLines_eq hls, List.append_assoc]
  rfl

theorem mem_sectionLines {ls : List Str} {line : Str} (h : line ∈ diff.sectionLines ls) :
    line = [] ∨ line = diff.hunkLine ls.length ∨ ∃ text, line = '+' :: text := by
  obtain (hmark | hcontent) | hlast := List.mem_append.mp h |>.imp_left List.mem_append.mp
  · obtain rfl | hhunk := List.mem_cons.mp hmark
    · exact .inr (.inr ⟨_, rfl⟩)
    · exact .inr (.inl (List.mem_singleton.mp hhunk))
  · obtain ⟨text, -, rfl⟩ := List.mem_map.mp hcontent
    exact .inr (.inr ⟨text, rfl⟩)
  · split_ifs at hlast
    · exact .inl (List.mem_singleton.mp hlast)
    · cases hlast

/-- No line of the section begins with something else than `+` and `@`. -/
theorem startsWith_sectionLines {ls : List Str} {line t : Str} {c : Char}
    (h : line ∈ diff.sectionLines ls) (hplus : c ≠ '+') (hat : c ≠ '@') :
    startsWith line (c :: t) = false := by
  obtain rfl | rfl | ⟨text, rfl⟩ := diff.mem_sectionLines h
  · rfl
  · exact Bool.and_eq_false_iff.mpr (.inl (beq_eq_false_iff_ne.mpr hat))
  · exact Bool.and_eq_false_iff.mpr (.inl (beq_eq_false_iff_ne.mpr hplus))

end NewFileDiff

theorem sectionOf_append {front back : List Str}
    (hfront : ∀ line ∈ front, line ≠ "--- /dev/null".toList)
    (hback : ∀ line ∈ back, startsWith line "diff --git ".toList = false) :
    sectionOf (front ++ "--- /dev/null".toList :: back) = back := by
  rw [sectionOf, List.dropWhile_append_of_pos fun line hline => decide_eq_true (hfront line hline),
    List.dropWhile_cons_of_neg (by decide), List.tail_cons]
  exact List.takeWhile_eq_self_iff.mpr fun line hline => by rw [hback line hline]; rfl

theorem sectionOf_eq_nil {ls : List Str} (h : ∀ line ∈ ls, line ≠ "--- /dev/null".toList) :
    sectionOf ls = [] := by
  rw [sectionOf, List.dropWhile_eq_nil_iff.mpr fun line hline => decide_eq_true (h line hline)]
  rfl

theorem addedLines_map (ls : List Str) :
    addedLines (ls.map ('+' :: ·)) = ls.filter fun line => !startsWith line "++ ".toList := by
  rw [addedLines, List.filter_map, List.map_map]
  exact List.map_id _

/-- The lines of a new file that are read from its diff. -/
def readableLines (ls : List Str) : List Str :=
  ls.filter fun line => !startsWith line "++ ".toList

theorem addedLines_sectionLines (diff : NewFileDiff) (ls : List Str) :
    addedLines (diff.sectionLines ls) = readableLines ls := by
  have happend (front back : List Str) :
      addedLines (front ++ back) = addedLines front ++ addedLines back := by
    rw [addedLines, List.filter_append, List.map_append]
    rfl
  have hfront : addedLines ["+++ b/".toList ++ VITO_FLIGHT_001_PROOF_RELATIVE_PATH,
      diff.hunkLine ls.length] = [] := by
    rw [addedLines_cons, addedLines_cons, if_neg, if_neg]
    · rfl
    · exact Bool.false_ne_true
    · exact Bool.false_ne_true
  have hback : addedLines (if diff.terminated then [[]] else []) = [] := by
    split_ifs <;> rfl
  rw [NewFileDiff.sectionLines, happend, happend, hfront, hback, addedLines_map, List.nil_append,
    List.append_nil]
  rfl

/-- Which lines the diff of a new file shows: if its mode is that of an ordinary file and no header
is hidden in its lines, those that do not begin with `++ `. -/
theorem shows_render_iff (diff : NewFileDiff) {ls expected : List Str}
    (hlines : ∀ line ∈ ls, '\n' ∉ line) :
    Shows (diff.render ls) expected ↔
      diff.executable = false ∧ (∀ line ∈ ls, headerPaths (segments line).tail = []) ∧
        readableLines ls = expected ∧ expected ≠ [] := by
  have hheader : headerPaths (segments (diff.render ls)) = [VITO_FLIGHT_001_PROOF_RELATIVE_PATH] ↔
      ∀ line ∈ ls, headerPaths (segments line).tail = [] := by
    rw [diff.headerPaths_render, List.cons_eq_cons, List.flatMap_eq_nil_iff]
    exact and_iff_right rfl
  by_cases hls : ls = []
  · subst hls
    have hempty : sectionOf (lines (diff.render [])) = [] := by
      rw [diff.lines_render hlines]
      refine sectionOf_eq_nil fun line hline => ?_
      obtain (hhead | hhunk) | hlast := List.mem_append.mp hline |>.imp_left List.mem_append.mp
      · exact diff.headLines_ne hhead
      · cases hhunk
      · split_ifs at hlast
        · exact List.mem_singleton.mp hlast ▸ (List.cons_ne_nil _ _).symm
        · cases hlast
    constructor
    · exact fun hshows => absurd (hshows.added.symm.trans (by rw [hempty]; rfl)) hshows.nonempty
    · exact fun ⟨_, _, hread, hnonempty⟩ => absurd hread.symm hnonempty
  have hsection : sectionOf (lines (diff.render ls)) = diff.sectionLines ls := by
    rw [diff.lines_render hlines, diff.allLines_eq hls]
    exact sectionOf_append (fun line => diff.headLines_ne)
      fun line hline => diff.startsWith_sectionLines hline (by decide) (by decide)
  have hbefore : (lines (diff.render ls)).takeWhile (· ≠ "--- /dev/null".toList) =
      diff.headLines := by
    rw [diff.lines_render hlines, diff.allLines_eq hls,
      List.takeWhile_append_of_pos fun line hline => decide_eq_true (diff.headLines_ne hline),
      List.takeWhile_cons_of_neg (by decide), List.append_nil]
  have hmarker : "new file mode 100644".toList ∈ diff.headLines ++ diff.sectionLines ls ↔
      diff.executable = false := by
    rw [List.mem_append, diff.marker_mem_headLines, or_iff_left]
    intro hmem
    have hnot : startsWith "new file mode 100644".toList ['n'] = false :=
      diff.startsWith_sectionLines hmem (by decide) (by decide)
    exact absurd hnot (by decide)
  constructor
  · rintro ⟨hone, hmem, -, hadded, hnonempty⟩
    rw [hbefore, hsection, hmarker] at hmem
    rw [hsection, addedLines_sectionLines] at hadded
    exact ⟨hmem, hheader.mp hone, hadded, hnonempty⟩
  · rintro ⟨hmode, hhidden, hread, hnonempty⟩
    refine ⟨hheader.mpr hhidden, ?_, ?_, ?_, hnonempty⟩
    · rw [hbefore, hsection]
      exact hmarker.mpr hmode
    · rw [hsection]
      exact fun line hline => diff.startsWith_sectionLines hline (by decide) (by decide)
    · rw [hsection, addedLines_sectionLines, hread]

/-! ## The verdict -/

theorem lines_contentOf {ls : List Str} (hlines : ∀ line ∈ ls, '\n' ∉ line) :
    lines (contentOf ls) = ls ++ [[]] := by
  induction ls with
  | nil => rfl
  | cons line ls ih =>
      have hstep : contentOf (line :: ls) = line ++ '\n' :: contentOf ls := by
        simp [contentOf]
      rw [hstep, lines, List.splitOn_append_cons_self_of_not_mem (hlines line List.mem_cons_self)]
      exact congrArg (line :: ·)
        (ih fun text htext => hlines text (List.mem_cons_of_mem line htext))

theorem contentOf_injective {a b : List Str} (ha : ∀ line ∈ a, '\n' ∉ line)
    (hb : ∀ line ∈ b, '\n' ∉ line) (h : contentOf a = contentOf b) : a = b := by
  have hlines : a ++ [[]] = b ++ [[]] := by rw [← lines_contentOf ha, ← lines_contentOf hb, h]
  exact List.append_cancel_right hlines

theorem newline_not_mem_sectionOf {patch line : Str} (h : line ∈ sectionOf (lines patch)) :
    '\n' ∉ line :=
  not_mem_of_mem_splitOn ((List.dropWhile_sublist _).subset (List.mem_of_mem_tail
    ((List.takeWhile_sublist _).subset h)))

theorem Shows.newline_not_mem {patch : Str} {expected : List Str} (h : Shows patch expected) :
    ∀ line ∈ expected, '\n' ∉ line := by
  intro line hline hmem
  rw [← h.added] at hline
  obtain ⟨text, htext, rfl⟩ := List.mem_map.mp hline
  exact newline_not_mem_sectionOf (List.mem_filter.mp htext).1 (List.mem_of_mem_drop hmem)

/-- Which change sets are accepted. -/
theorem passed_iff {sha256 : Str → Str} {ls : List Str} {settling : GovernedResultSettling}
    (hlines : ∀ line ∈ ls, '\n' ∉ line) :
    (evaluateFlight001Acceptance sha256 (contentOf ls) (sha256 (contentOf ls))
        settling).passed = true ↔
      settling.empty = false ∧ settling.changedFiles = [VITO_FLIGHT_001_PROOF_RELATIVE_PATH] ∧
        Shows settling.patch ls := by
  rw [evaluateFlight001Acceptance]
  dsimp only
  split_ifs with hnone hother
  · refine ⟨nofun, fun ⟨hempty, hfiles, _⟩ => ?_⟩
    rw [hempty, hfiles] at hnone
    exact absurd hnone (by decide)
  · exact ⟨nofun, fun ⟨_, hfiles, _⟩ => absurd hfiles hother⟩
  rw [Bool.or_eq_true, not_or, Bool.not_eq_true] at hnone
  have hshows : extractNewFileContent settling.patch VITO_FLIGHT_001_PROOF_RELATIVE_PATH =
      some (contentOf ls) ↔ Shows settling.patch ls := by
    rw [extractNewFileContent_eq_some_iff]
    constructor
    · rintro ⟨expected, hexpected, heq⟩
      rwa [contentOf_injective hlines hexpected.newline_not_mem heq]
    · exact fun h => ⟨ls, h, rfl⟩
  rw [and_iff_right hnone.1, and_iff_right (not_not.mp hother), ← hshows]
  generalize extractNewFileContent settling.patch VITO_FLIGHT_001_PROOF_RELATIVE_PATH = content
  cases content with
  | none => exact ⟨nofun, nofun⟩
  | some reconstructed =>
      dsimp only
      by_cases heq : reconstructed = contentOf ls
      · rw [if_neg (not_not_intro heq), if_neg (not_not_intro (congrArg sha256 heq)), heq]
        exact ⟨fun _ => rfl, fun _ => rfl⟩
      · rw [if_pos heq]
        exact ⟨nofun, fun h => absurd (Option.some.inj h) heq⟩

theorem readableLines_eq_self {ls : List Str} :
    readableLines ls = ls ↔ ∀ line ∈ ls, startsWith line "++ ".toList = false := by
  rw [readableLines, List.filter_eq_self]
  exact forall₂_congr fun line _ => iff_of_eq (Bool.not_eq_true' _)

/-- The diff of a plain file is read back, and that of no other file. -/
theorem shows_render_self_iff (diff : NewFileDiff) {ls : List Str}
    (hlines : ∀ line ∈ ls, '\n' ∉ line) : Shows (diff.render ls) ls ↔ Plain diff ls := by
  rw [shows_render_iff diff hlines, readableLines_eq_self]
  exact ⟨fun ⟨hmode, hhidden, hadded, hnonempty⟩ => ⟨hmode, hnonempty, hadded, hhidden⟩,
    fun h => ⟨h.mode, h.hidden, h.added, h.nonempty⟩⟩

/-- The new files that are accepted: those whose lines are the expected ones once what begins with
`++ ` is left out. -/
theorem passed_render_iff {sha256 : Str → Str} {ls expected : List Str}
    {settling : GovernedResultSettling} (diff : NewFileDiff)
    (hpatch : settling.patch = diff.render ls) (hempty : settling.empty = false)
    (hfiles : settling.changedFiles = [VITO_FLIGHT_001_PROOF_RELATIVE_PATH])
    (hls : ∀ line ∈ ls, '\n' ∉ line) (hexpected : ∀ line ∈ expected, '\n' ∉ line) :
    (evaluateFlight001Acceptance sha256 (contentOf expected) (sha256 (contentOf expected))
        settling).passed = true ↔
      diff.executable = false ∧ (∀ line ∈ ls, headerPaths (segments line).tail = []) ∧
        readableLines ls = expected ∧ expected ≠ [] := by
  rw [passed_iff hexpected, and_iff_right hempty, and_iff_right hfiles, hpatch,
    shows_render_iff diff hls]

/-- The acceptance is faithful exactly if no line of the expected content can be taken for a header
and no other patch shows the expected lines. -/
theorem evaluate_faithful_iff (sha256 : Str → Str) (lines : List Str)
    (settling : GovernedResultSettling) (hlines : ∀ line ∈ lines, '\n' ∉ line) :
    FaithfulAcceptance sha256 lines settling ↔ Readable lines settling := by
  constructor
  · intro h
    refine ⟨fun diff hdiff => ?_, fun hempty hfiles hother hshows => ?_⟩
    · obtain ⟨expected, hexpected, heq⟩ :=
        extractNewFileContent_eq_some_iff.mp (h.roundTrip diff hdiff)
      have hself : expected = lines :=
        (contentOf_injective hlines hexpected.newline_not_mem heq).symm
      rw [hself, hdiff] at hexpected
      exact (shows_render_self_iff diff hlines).mp hexpected
    · obtain ⟨-, -, diff, hdiff⟩ :=
        h.accepted.mp ((passed_iff hlines).mpr ⟨hempty, hfiles, hshows⟩)
      exact hother diff hdiff
  · rintro ⟨hplain, hother⟩
    have hshown (diff : NewFileDiff) (hdiff : settling.patch = diff.render lines) :
        Shows settling.patch lines := by
      rw [hdiff]
      exact (shows_render_self_iff diff hlines).mpr (hplain diff hdiff)
    refine ⟨?_, fun diff hdiff =>
      extractNewFileContent_eq_some_iff.mpr ⟨lines, hshown diff hdiff, rfl⟩⟩
    rw [passed_iff hlines]
    constructor
    · rintro ⟨hempty, hfiles, hshows⟩
      refine ⟨hempty, hfiles, ?_⟩
      by_contra hnone
      exact hother hempty hfiles (fun diff hdiff => hnone ⟨diff, hdiff⟩) hshows
    · rintro ⟨hempty, hfiles, diff, hdiff⟩
      exact ⟨hempty, hfiles, hshown diff hdiff⟩

def proofDiff : NewFileDiff where
  executable := false
  index := some "0000000..78981922".toList
  index_hex := by
    intro names hnames
    rw [← Option.some.inj hnames]
    exact forall_mem_of_all (by decide)
  counted := true
  terminated := true

def proofSettling (lines : List Str) : GovernedResultSettling where
  baseSha := "a11ce".toList
  changedFiles := [VITO_FLIGHT_001_PROOF_RELATIVE_PATH]
  patch := proofDiff.render lines
  empty := false

theorem evaluate_faithful_sample :
    FaithfulAcceptance id ["# Proof".toList, [], "+ done".toList]
      (proofSettling ["# Proof".toList, [], "+ done".toList]) := by
  refine (evaluate_faithful_iff id _ _ (by decide)).mpr ⟨fun diff hdiff => ?_, ?_⟩
  · have hshows : Shows (diff.render ["# Proof".toList, [], "+ done".toList])
        ["# Proof".toList, [], "+ done".toList] := by
      rw [← hdiff]
      exact (shows_render_self_iff proofDiff (by decide)).mpr
        ⟨rfl, List.cons_ne_nil _ _, by decide, by decide⟩
    exact (shows_render_self_iff diff (by decide)).mp hshows
  · exact fun _ _ hother => absurd rfl (hother proofDiff)

/-- A line that begins with two plus signs is lost. -/
theorem not_evaluate_faithful :
    ¬ FaithfulAcceptance id ["# Proof".toList, "++ done".toList]
      (proofSettling ["# Proof".toList, "++ done".toList]) := by
  intro h
  obtain ⟨expected, hexpected, heq⟩ :=
    extractNewFileContent_eq_some_iff.mp (h.roundTrip proofDiff rfl)
  obtain ⟨-, -, hread, -⟩ := (shows_render_iff proofDiff (by decide)).mp hexpected
  rw [← hread] at heq
  exact absurd heq (by decide)

end CloudExecution
