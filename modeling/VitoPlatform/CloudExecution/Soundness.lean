import VitoPlatform.CloudExecution.Identity
import Mathlib.Data.List.Nodup

/-!
# What the identity gate sees

The gate decides by the recognised lines of what has been captured, whatever stands between them.
Of streams that fit into the capture, and whose chunks do not end inside a character, all is
captured; then a gate that is passed has seen every recognised line. Of longer streams the first
lines are lost.
-/

namespace CloudExecution

open Text

/-! ## What is read from the lines -/

section Lines

variable {output output' line : Str} {readings : List Reading} {identity : ProviderIdentity}
variable {seen : Seen}

/-- A line that counts. -/
def Recognised (line : Str) : Prop := readLine line ≠ .nothing

/-- What the loop has seen after some readings. -/
def seenOf (readings : List Reading) : Seen := readings.foldl Seen.add ⟨[], [], false⟩

theorem extractProviderIdentity_eq :
    extractProviderIdentity output = (seenOf ((lines output).map readLine)).conclude := by
  rw [extractProviderIdentity, seenOf, List.foldl_map]

theorem seenOf_append (reading : Reading) :
    seenOf (readings ++ [reading]) = (seenOf readings).add reading := by
  rw [seenOf, List.foldl_append]
  rfl

theorem mem_builds : identity ∈ (seenOf readings).builds ↔ .build identity ∈ readings := by
  induction readings using List.reverseRecOn with
  | nil => simp [seenOf]
  | append_singleton readings reading ih =>
      rw [seenOf_append]
      cases reading <;> simp [Seen.add, ih, or_comm]

theorem mem_runtimes : identity ∈ (seenOf readings).runtimes ↔ .runtime identity ∈ readings := by
  induction readings using List.reverseRecOn with
  | nil => simp [seenOf]
  | append_singleton readings reading ih =>
      rw [seenOf_append]
      cases reading <;> simp [Seen.add, ih, or_comm]

theorem sawInvalidToken_iff :
    (seenOf readings).sawInvalidToken = true ↔ .invalid ∈ readings := by
  induction readings using List.reverseRecOn with
  | nil => simp [seenOf]
  | append_singleton readings reading ih =>
      rw [seenOf_append]
      cases reading <;> simp [Seen.add, ih]

theorem nodup_seenOf :
    (seenOf readings).builds.Nodup ∧ (seenOf readings).runtimes.Nodup := by
  induction readings using List.reverseRecOn with
  | nil => exact ⟨List.nodup_nil, List.nodup_nil⟩
  | append_singleton readings reading ih =>
      rw [seenOf_append]
      cases reading with
      | nothing | invalid => exact ih
      | build identity => exact ⟨List.Nodup.insert ih.1, ih.2⟩
      | runtime identity => exact ⟨ih.1, List.Nodup.insert ih.2⟩

/-- An identity is concluded from readings of that identity only. -/
theorem conclude_ok (h : seen.conclude = .ok identity) :
    seen.sawInvalidToken = false ∧ seen.builds = [identity] ∧
      ∀ runtime ∈ seen.runtimes, runtime = identity := by
  unfold Seen.conclude at h
  split at h
  · cases h
  · rename_i hvalid
    refine ⟨Bool.eq_false_iff.mpr hvalid, ?_⟩
    split at h
    · cases h
    · rename_i hbuilds hruntimes
      cases h
      exact ⟨hbuilds, by simp [hruntimes]⟩
    · rename_i hbuilds hruntimes
      split at h
      · rename_i hsame
        cases h
        exact ⟨hbuilds, by simp [hruntimes, hsame]⟩
      · cases h
    · cases h

theorem extractProviderIdentity_ok (h : extractProviderIdentity output = .ok identity)
    (hline : line ∈ lines output) (hrecognised : Recognised line) :
    readLine line = .build identity ∨ readLine line = .runtime identity := by
  rw [extractProviderIdentity_eq] at h
  obtain ⟨hvalid, hbuilds, hruntimes⟩ := conclude_ok h
  have hmem : readLine line ∈ (lines output).map readLine := List.mem_map_of_mem hline
  cases hreading : readLine line with
  | nothing => exact absurd hreading hrecognised
  | invalid =>
      rw [hreading, ← sawInvalidToken_iff, hvalid] at hmem
      cases hmem
  | build other =>
      rw [hreading, ← mem_builds, hbuilds, List.mem_singleton] at hmem
      exact .inl (congrArg _ hmem)
  | runtime other =>
      rw [hreading, ← mem_runtimes] at hmem
      exact .inr (congrArg _ (hruntimes other hmem))

/-- What is concluded does not depend on the order in which identities have been seen. -/
theorem conclude_perm {other : Seen} (hvalid : seen.sawInvalidToken = other.sawInvalidToken)
    (hbuilds : seen.builds.Perm other.builds) (hruntimes : seen.runtimes.Perm other.runtimes) :
    seen.conclude = other.conclude := by
  obtain ⟨builds, runtimes, invalid⟩ := seen
  obtain ⟨builds', runtimes', invalid'⟩ := other
  dsimp only at hvalid hbuilds hruntimes
  subst hvalid
  unfold Seen.conclude
  dsimp only
  split
  · rfl
  · match builds, runtimes with
    | [], _ =>
        obtain rfl := hbuilds.nil_eq
        rfl
    | [identity], [] =>
        obtain rfl := List.singleton_perm.mp hbuilds
        obtain rfl := hruntimes.nil_eq
        rfl
    | [identity], [runtime] =>
        obtain rfl := List.singleton_perm.mp hbuilds
        obtain rfl := List.singleton_perm.mp hruntimes
        rfl
    | [identity], first :: second :: rest =>
        obtain rfl := List.singleton_perm.mp hbuilds
        match runtimes', hruntimes.length_eq with
        | _ :: _ :: _, _ => rfl
    | first :: second :: rest, _ =>
        match builds', hbuilds.length_eq with
        | _ :: _ :: _, _ => rfl

/-- Outputs with the same recognised lines are concluded the same from. -/
theorem extractProviderIdentity_congr
    (h : ∀ line, Recognised line → (line ∈ lines output ↔ line ∈ lines output')) :
    extractProviderIdentity output = extractProviderIdentity output' := by
  have hreading (reading : Reading) (hreading : reading ≠ .nothing) :
      reading ∈ (lines output).map readLine ↔ reading ∈ (lines output').map readLine := by
    simp only [List.mem_map]
    constructor
    · rintro ⟨line, hline, rfl⟩
      exact ⟨line, (h line hreading).mp hline, rfl⟩
    · rintro ⟨line, hline, rfl⟩
      exact ⟨line, (h line hreading).mpr hline, rfl⟩
  rw [extractProviderIdentity_eq, extractProviderIdentity_eq]
  refine conclude_perm ?_ ?_ ?_
  · rw [Bool.eq_iff_iff, sawInvalidToken_iff, sawInvalidToken_iff]
    exact hreading _ nofun
  · refine (List.perm_ext_iff_of_nodup nodup_seenOf.1 nodup_seenOf.1).mpr fun identity => ?_
    rw [mem_builds, mem_builds]
    exact hreading _ nofun
  · refine (List.perm_ext_iff_of_nodup nodup_seenOf.2 nodup_seenOf.2).mpr fun identity => ?_
    rw [mem_runtimes, mem_runtimes]
    exact hreading _ nofun

end Lines

/-! ## What is captured -/

section Capture

variable {limit : Nat} {chunks : List (List UInt8)}

/-- A stream that fits into the capture, and whose chunks do not end inside a character. -/
structure Intact (limit : Nat) (chunks : List (List UInt8)) : Prop where
  ended : ∀ chunk ∈ chunks.dropLast, Utf8.Ended chunk
  bounded : (Utf8.encode (Utf8.decode chunks.flatten)).length ≤ limit

theorem Intact.mono {more : Nat} (h : Intact limit chunks) (hle : limit ≤ more) :
    Intact more chunks :=
  ⟨h.ended, h.bounded.trans hle⟩

theorem appendChunks_eq : ∀ current,
    (Utf8.encode (current ++ chunks.flatMap Utf8.decode)).length ≤ limit →
      chunks.foldl (fun current chunk => appendBounded current chunk limit) current =
        current ++ chunks.flatMap Utf8.decode := by
  induction chunks with
  | nil => intro current _; simp
  | cons chunk chunks ih =>
      intro current h
      rw [List.flatMap_cons, ← List.append_assoc] at h ⊢
      have hfits : (Utf8.encode (current ++ Utf8.decode chunk)).length ≤ limit := by
        refine le_trans ?_ h
        have hsplit : Utf8.encode (current ++ Utf8.decode chunk ++ chunks.flatMap Utf8.decode) =
            Utf8.encode (current ++ Utf8.decode chunk) ++
              Utf8.encode (chunks.flatMap Utf8.decode) := Utf8.encode_append
        rw [hsplit, List.length_append]
        omega
      rw [List.foldl_cons, appendBounded, if_pos hfits]
      exact ih _ h

/-- Of an intact stream all is captured. -/
theorem capture_eq (h : Intact limit chunks) :
    capture limit chunks = Utf8.decode chunks.flatten := by
  have hflatten := Utf8.decode_flatten h.ended
  have hbounded := h.bounded
  rw [hflatten] at hbounded ⊢
  exact appendChunks_eq [] hbounded

theorem captured_eq {streams : Streams} (hstdout : Intact MAX_OUTPUT_BYTES streams.stdout)
    (hstderr : Intact MAX_OUTPUT_BYTES streams.stderr) : streams.captured = streams.complete := by
  rw [Streams.captured, Streams.complete, capture_eq hstdout, capture_eq hstderr]

end Capture

/-! ## The gate -/

section Gate

variable {expected : ExpectedProviderIdentity} {streams : Streams}

/-- A recognised line carries the expected provider and an allowed model. -/
def Carries (expected : ExpectedProviderIdentity) (line : Str) : Prop :=
  ∃ identity, (readLine line = .build identity ∨ readLine line = .runtime identity) ∧
    identity.providerId = expected.providerId ∧ expected.allows identity.modelId = true

/-- If the gate is passed, every recognised line of the complete streams is as expected. -/
def Sound (expected : ExpectedProviderIdentity) (streams : Streams) : Prop :=
  (identityOutcome (some expected) streams).passed = true →
    ∀ line ∈ lines streams.complete, Recognised line → Carries expected line

/-- The same recognised lines, whatever else has been written. -/
def SameLines (streams other : Streams) : Prop :=
  ∀ line, Recognised line → (line ∈ lines streams.complete ↔ line ∈ lines other.complete)

/-- A gate that is passed has concluded to the expected identity. -/
theorem evaluate_passed {output : Str}
    (h : (evaluateProviderIdentity (some expected) output).passed = true) :
    ∃ identity, extractProviderIdentity output = .ok identity ∧
      identity.providerId = expected.providerId ∧ expected.allows identity.modelId = true := by
  unfold evaluateProviderIdentity IdentityOutcome.passed at h
  split at h
  · rename_i hnone
    cases hnone
  · cases h
  · cases h
  · rename_i hnone
    cases hnone
  · rename_i identity expected' hextract hsome
    cases hsome
    split at h
    · cases h
    · rename_i hprovider
      split at h
      · cases h
      · rename_i hmodel
        exact ⟨identity, hextract, not_not.mp hprovider, by simpa using hmodel⟩

theorem sound_of_captured (h : streams.captured = streams.complete) : Sound expected streams := by
  intro hpassed line hline hrecognised
  rw [identityOutcome, h] at hpassed
  obtain ⟨identity, hextract, hidentity⟩ := evaluate_passed hpassed
  exact ⟨identity, extractProviderIdentity_ok hextract hline hrecognised, hidentity⟩

theorem outcome_congr {other : Streams} (h : streams.captured = streams.complete)
    (hother : other.captured = other.complete) (hsame : SameLines streams other) :
    identityOutcome (some expected) streams = identityOutcome (some expected) other := by
  have hextract := extractProviderIdentity_congr hsame
  rw [identityOutcome, identityOutcome, h, hother]
  unfold evaluateProviderIdentity
  rw [hextract]

end Gate

/-! ## Streams that do not fit -/

section Overflow

variable {n : Nat} {text : Str}

def expectedGood : ExpectedProviderIdentity := ⟨"good".toList, none⟩

def badLine : Str := "message=stream agent=build providerID=evil modelID=m".toList

def goodLine : Str := "message=stream agent=build providerID=good modelID=m".toList

def padding (n : Nat) : Str := List.replicate n 'x'

/-- First an unexpected identity, then padding, and the expected identity last. -/
def maskedText (n : Nat) : Str := badLine ++ '\n' :: (padding n ++ '\n' :: goodLine)

theorem newline_not_mem_padding : '\n' ∉ padding n := fun h =>
  absurd (List.eq_of_mem_replicate h) (by decide)

theorem readLine_padding : readLine (padding n) = .nothing := by
  have hnone {word : Str} {c : Char} (hc : c ∈ word) (hx : c ≠ 'x') :
      includes (padding n) word = false := by
    rw [Bool.eq_false_iff]
    intro h
    have hmem : c ∈ padding n := (includes_iff.mp h).subset hc
    exact hx (List.eq_of_mem_replicate hmem)
  have hbuild : isStreamBuildLine (padding n) = false := by
    rw [isStreamBuildLine, hnone (c := 'm') (by decide) (by decide), Bool.false_and]
  have hruntime : isRuntimeSelectedLine (padding n) = false := by
    rw [isRuntimeSelectedLine, hnone (c := 'm') (by decide) (by decide), Bool.false_and]
  rw [readLine, if_neg (by simp [hbuild]), if_neg (by simp [hruntime])]

theorem lines_append (a b : Str) : lines (a ++ '\n' :: b) = lines a ++ lines b :=
  List.splitOn_append_cons_self a b

theorem lines_of_not_mem (h : '\n' ∉ text) : lines text = [text] := List.splitOn_eq_singleton h

theorem lines_masked {front : Str} (h : '\n' ∉ front) :
    lines (front ++ '\n' :: (padding n ++ '\n' :: goodLine)) = [front, padding n, goodLine] := by
  rw [lines_append, lines_append, lines_of_not_mem h, lines_of_not_mem newline_not_mem_padding,
    lines_of_not_mem (by decide)]
  rfl

theorem ascii_masked : Utf8.Ascii (maskedText n) := by
  have hpadding : Utf8.Ascii (padding n) := fun c hc => by
    rw [List.eq_of_mem_replicate hc]
    decide
  have hnewline : Utf8.Ascii ['\n'] := by decide
  have hbad : Utf8.Ascii badLine := by decide
  have hgood : Utf8.Ascii goodLine := by decide
  exact hbad.append (hnewline.append (hpadding.append (hnewline.append hgood)))

theorem length_masked : (maskedText n).length = n + 106 := by
  have hbad : badLine.length = 52 := by decide
  have hgood : goodLine.length = 52 := by decide
  simp only [maskedText, padding, List.length_append, List.length_cons, List.length_replicate,
    hbad, hgood]
  omega

/-- Of a chunk of small characters that does not fit, the last octets are captured. -/
theorem capture_ascii {limit : Nat} (h : Utf8.Ascii text) (hlong : limit < text.length) :
    capture limit [text.map Utf8.octet] = text.drop (text.length - limit) := by
  have hdrop : Utf8.Ascii (text.drop (text.length - limit)) := fun c hc =>
    h c (List.mem_of_mem_drop hc)
  have hnot : ¬ (text.map Utf8.octet).length ≤ limit := by
    rw [List.length_map]
    omega
  change appendBounded [] (text.map Utf8.octet) limit = _
  rw [appendBounded, List.nil_append, Utf8.decode_ascii h, Utf8.encode_ascii h, if_neg hnot,
    List.length_map, ← List.map_drop, Utf8.decode_ascii hdrop]

/-- A stream that is one octet too long for the capture. -/
def masked : List (List UInt8) := [(maskedText (MAX_OUTPUT_BYTES - 105)).map Utf8.octet]

theorem capture_masked : capture MAX_OUTPUT_BYTES masked = badLine.tail ++
    '\n' :: (padding (MAX_OUTPUT_BYTES - 105) ++ '\n' :: goodLine) := by
  have hlength : (maskedText (MAX_OUTPUT_BYTES - 105)).length = MAX_OUTPUT_BYTES + 1 := by
    rw [length_masked]
    decide
  rw [masked, capture_ascii ascii_masked (by omega), hlength, Nat.add_sub_cancel_left]
  rfl

theorem decode_masked :
    Utf8.decode masked.flatten = maskedText (MAX_OUTPUT_BYTES - 105) := by
  rw [masked, List.flatten_singleton, Utf8.decode_ascii ascii_masked]

theorem intact_masked {a : Nat} (h : MAX_OUTPUT_BYTES < a) : Intact a masked where
  ended _ h := (List.not_mem_nil h).elim
  bounded := by
    rw [decode_masked, Utf8.encode_ascii ascii_masked, List.length_map, length_masked]
    have hmax : MAX_OUTPUT_BYTES - 105 + 106 = MAX_OUTPUT_BYTES + 1 := by decide
    omega

/-- The gate is passed although a line that has been lost has another identity. -/
theorem not_sound_of_masked {streams : Streams}
    (hcaptured : ∀ line ∈ lines streams.captured, line ∈
      [badLine.tail, padding (MAX_OUTPUT_BYTES - 105), goodLine] ++ [[]])
    (hgood : goodLine ∈ lines streams.captured) (hbad : badLine ∈ lines streams.complete) :
    ¬ Sound expectedGood streams := by
  intro h
  have hextract : extractProviderIdentity streams.captured = extractProviderIdentity goodLine := by
    refine extractProviderIdentity_congr fun line hrecognised => ?_
    rw [lines_of_not_mem (show '\n' ∉ goodLine by decide), List.mem_singleton]
    constructor
    · intro hline
      have hall := hcaptured line hline
      simp only [List.mem_append, List.mem_cons, List.not_mem_nil, or_false] at hall
      obtain (rfl | rfl | rfl) | rfl := hall
      · exact absurd (by decide) hrecognised
      · exact absurd readLine_padding hrecognised
      · rfl
      · exact absurd (by decide) hrecognised
    · rintro rfl
      exact hgood
  have hpassed : (identityOutcome (some expectedGood) streams).passed = true := by
    rw [identityOutcome]
    unfold evaluateProviderIdentity
    rw [hextract]
    decide
  obtain ⟨identity, hreading, hprovider, -⟩ := h hpassed badLine hbad (by
    rw [Recognised]
    decide)
  have hevil : readLine badLine = .build ⟨"evil".toList, ['m']⟩ := by decide
  rw [hevil] at hreading
  obtain hbuild | hruntime := hreading
  · rw [← Reading.build.inj hbuild] at hprovider
    exact absurd hprovider (by decide)
  · cases hruntime

theorem lines_capture_masked : lines (capture MAX_OUTPUT_BYTES masked) =
    [badLine.tail, padding (MAX_OUTPUT_BYTES - 105), goodLine] := by
  rw [capture_masked]
  exact lines_masked (by decide)

theorem badLine_mem_masked : badLine ∈ lines (Utf8.decode masked.flatten) := by
  have hnewline : '\n' ∉ badLine := by decide
  rw [decode_masked, maskedText, lines_masked hnewline]
  exact List.mem_cons_self

theorem goodLine_mem_masked :
    goodLine ∈ [badLine.tail, padding (MAX_OUTPUT_BYTES - 105), goodLine] :=
  List.mem_cons_of_mem _ (List.mem_cons_of_mem _ List.mem_cons_self)

theorem not_sound_stdout : ¬ Sound expectedGood ⟨masked, []⟩ := by
  have hcaptured : lines (Streams.captured ⟨masked, []⟩) =
      [badLine.tail, padding (MAX_OUTPUT_BYTES - 105), goodLine] ++ [[]] := by
    rw [Streams.captured, lines_append, lines_capture_masked]
    rfl
  refine not_sound_of_masked ?_ ?_ ?_
  · rw [hcaptured]
    exact fun _ hline => hline
  · rw [hcaptured]
    exact List.mem_append_left _ goodLine_mem_masked
  · rw [Streams.complete, lines_append]
    exact List.mem_append_left _ badLine_mem_masked

theorem not_sound_stderr : ¬ Sound expectedGood ⟨[], masked⟩ := by
  have hcaptured : lines (Streams.captured ⟨[], masked⟩) =
      [[]] ++ [badLine.tail, padding (MAX_OUTPUT_BYTES - 105), goodLine] := by
    rw [Streams.captured, lines_append, lines_capture_masked]
    rfl
  refine not_sound_of_masked ?_ ?_ ?_
  · rw [hcaptured]
    exact fun _ hline => List.mem_append.mpr (List.mem_append.mp hline).symm
  · rw [hcaptured]
    exact List.mem_append_right _ goodLine_mem_masked
  · rw [Streams.complete, lines_append]
    exact List.mem_append_right _ badLine_mem_masked

end Overflow

section Results

/-- The gate can be trusted with all streams up to some sizes, cut between characters, if and only
if these sizes do not exceed what is captured. -/
theorem identity_gate_iff (a b : Nat) :
    (∀ expected streams, Intact a streams.stdout → Intact b streams.stderr →
      Sound expected streams ∧
        ∀ other, Intact a other.stdout → Intact b other.stderr → SameLines streams other →
          identityOutcome (some expected) streams = identityOutcome (some expected) other) ↔
      a ≤ MAX_OUTPUT_BYTES ∧ b ≤ MAX_OUTPUT_BYTES := by
  constructor
  · intro h
    have hempty {limit : Nat} : Intact limit [] := ⟨fun _ h => (List.not_mem_nil h).elim, by simp
      [Utf8.decode, Utf8.decodeFrom, Utf8.encode]⟩
    constructor
    · by_contra hlong
      exact not_sound_stdout (h _ ⟨masked, []⟩ (intact_masked (not_le.mp hlong)) hempty).1
    · by_contra hlong
      exact not_sound_stderr (h _ ⟨[], masked⟩ hempty (intact_masked (not_le.mp hlong))).1
  · rintro ⟨ha, hb⟩ expected streams hstdout hstderr
    have hcaptured := captured_eq (hstdout.mono ha) (hstderr.mono hb)
    refine ⟨sound_of_captured hcaptured, fun other hother hother' hsame => ?_⟩
    exact outcome_congr hcaptured (captured_eq (hother.mono ha) (hother'.mono hb)) hsame

/-- White space that is two octets, and arrives in two chunks. -/
private def cutSpace : List (List UInt8) :=
  [(goodLine ++ "\nx".toList).map Utf8.octet ++ [0xC2],
    0xA0 :: "llm.provider=evil llm.model=m".toList.map Utf8.octet]

/-- The first line of a stream that is too long is not seen, and neither is a line whose white space
is cut in two. -/
theorem not_identity_gate :
    (¬ ∀ expected streams, Sound expected streams) ∧
      ¬ ∀ expected streams, Intact MAX_OUTPUT_BYTES [streams.stdout.flatten] →
        streams.stderr = [] → Sound expected streams := by
  constructor
  · exact fun h => not_sound_stdout (h expectedGood ⟨masked, []⟩)
  · intro h
    have hintact : Intact MAX_OUTPUT_BYTES [cutSpace.flatten] :=
      ⟨fun _ h => (List.not_mem_nil h).elim, by decide +kernel⟩
    have hpassed : (identityOutcome (some expectedGood) ⟨cutSpace, []⟩).passed = true := by
      decide +kernel
    have hline : "x\u00A0llm.provider=evil llm.model=m".toList ∈
        lines (Streams.complete ⟨cutSpace, []⟩) := by
      decide +kernel
    have hreading : readLine "x\u00A0llm.provider=evil llm.model=m".toList =
        .runtime ⟨"evil".toList, ['m']⟩ := by
      decide +kernel
    obtain ⟨identity, hcarries, hprovider, -⟩ := h expectedGood ⟨cutSpace, []⟩ hintact rfl hpassed
      _ hline (by rw [Recognised, hreading]; nofun)
    rw [hreading] at hcarries
    obtain hbuild | hruntime := hcarries
    · cases hbuild
    · rw [← Reading.runtime.inj hruntime] at hprovider
      exact absurd hprovider (by decide)

end Results

end CloudExecution
