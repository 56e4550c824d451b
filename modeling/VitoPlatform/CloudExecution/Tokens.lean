import VitoPlatform.CloudExecution.Soundness

/-!
# The fields of a line

The identity is read from the first field of each key. Whatever stands on the other lines, it agrees
with all fields of a line if and only if these repeat the first ones, and a runtime line that is
skipped for want of a field has none.
-/

namespace CloudExecution

open Text

/-- `key=value` at this place, the key taken literally. -/
def fieldHere (key line : Str) : Option Str :=
  if startsWith line (key ++ ['=']) then
    let value := (line.drop (key.length + 1)).takeWhile fun c => !isSpace c
    if value = [] then none else some value
  else none

/-- All fields of a key that stand at the front or after white space. -/
def fieldsFrom (atStart : Bool) (key : Str) : Str → List Str
  | [] => []
  | c :: rest =>
      (if atStart then (fieldHere key (c :: rest)).toList else []) ++
        fieldsFrom (isSpace c) key rest

def fields (line key : Str) : List Str := fieldsFrom true key line

/-- Every provider and every model on a line of one of the two kinds is the identity's. -/
def Agrees (line : Str) (identity : ProviderIdentity) : Prop :=
  (isStreamBuildLine line = true →
    (∀ v ∈ fields line "providerID".toList, v = identity.providerId) ∧
      ∀ v ∈ fields line "modelID".toList, v = identity.modelId) ∧
  (isRuntimeSelectedLine line = true →
    (∀ v ∈ fields line "llm.provider".toList, v = identity.providerId) ∧
      ∀ v ∈ fields line "llm.model".toList, v = identity.modelId)

/-- An identity that is extracted from a log with this line agrees with it. -/
def Heeded (line : Str) : Prop :=
  ∀ output identity, line ∈ lines output → extractProviderIdentity output = .ok identity →
    Agrees line identity

/-- The first provider and the first model of a line. -/
def firstFields (line providerKey modelKey : Str) : Option (Str × Str) :=
  match kv line providerKey, kv line modelKey with
  | some provider, some model => some (provider, model)
  | _, _ => none

/-- Where the first fields are well formed, the others repeat them. A runtime line without first
fields has no others. -/
def Unequivocal (line : Str) : Prop :=
  if isStreamBuildLine line then
    ∀ provider model, firstFields line "providerID".toList "modelID".toList =
        some (provider, model) →
      isValidProviderId provider = true → isValidModelId model = true →
        Agrees line ⟨provider, model⟩
  else if isRuntimeSelectedLine line then
    match firstFields line "llm.provider".toList "llm.model".toList with
    | some (provider, model) =>
        isValidProviderId provider = true → isValidModelId model = true →
          Agrees line ⟨provider, model⟩
    | none => fields line "llm.provider".toList = [] ∧ fields line "llm.model".toList = []
  else True

section Fields

variable {line output other : Str} {identity : ProviderIdentity} {provider model text key : Str}

theorem identityOf_of_valid (hprovider : isValidProviderId provider = true)
    (hmodel : isValidModelId model = true) : identityOf provider model = some ⟨provider, model⟩ := by
  rw [identityOf, if_pos (by rw [hprovider, hmodel]; rfl)]

theorem identityOf_eq_some (h : identityOf provider model = some identity) :
    some (provider, model) = some (identity.providerId, identity.modelId) ∧
      isValidProviderId identity.providerId = true ∧ isValidModelId identity.modelId = true := by
  unfold identityOf at h
  split at h
  · rename_i hvalid
    obtain rfl := Option.some.inj h
    exact ⟨rfl, by simpa using hvalid⟩
  · cases h

theorem readLine_of_build (h : isStreamBuildLine line = true) : readLine line =
    match firstFields line "providerID".toList "modelID".toList with
    | some (provider, model) => ((identityOf provider model).map Reading.build).getD .invalid
    | none => .invalid := by
  rw [readLine, if_pos h, firstFields]
  cases kv line "providerID".toList <;> cases kv line "modelID".toList <;> rfl

theorem readLine_of_runtime (hbuild : isStreamBuildLine line = false)
    (h : isRuntimeSelectedLine line = true) : readLine line =
    match firstFields line "llm.provider".toList "llm.model".toList with
    | some (provider, model) => ((identityOf provider model).map Reading.runtime).getD .invalid
    | none => .nothing := by
  rw [readLine, if_neg (by simp [hbuild]), if_pos h, firstFields]
  cases kv line "llm.provider".toList <;> cases kv line "llm.model".toList <;> rfl

/-- What an identity has been read from. -/
theorem fields_of_build (hbuild : isStreamBuildLine line = true)
    (h : readLine line = .build identity ∨ readLine line = .runtime identity) :
    firstFields line "providerID".toList "modelID".toList =
        some (identity.providerId, identity.modelId) ∧
      isValidProviderId identity.providerId = true ∧ isValidModelId identity.modelId = true := by
  rw [readLine_of_build hbuild] at h
  split at h
  · rename_i provider model hfirst
    rw [hfirst]
    cases hidentity : identityOf provider model with
    | none => simp [hidentity] at h
    | some other =>
        obtain rfl : other = identity := by simpa [hidentity] using h
        exact identityOf_eq_some hidentity
  · simp at h

theorem fields_of_runtime (hbuild : isStreamBuildLine line = false)
    (hruntime : isRuntimeSelectedLine line = true)
    (h : readLine line = .build identity ∨ readLine line = .runtime identity) :
    firstFields line "llm.provider".toList "llm.model".toList =
        some (identity.providerId, identity.modelId) ∧
      isValidProviderId identity.providerId = true ∧ isValidModelId identity.modelId = true := by
  rw [readLine_of_runtime hbuild hruntime] at h
  split at h
  · rename_i provider model hfirst
    rw [hfirst]
    cases hidentity : identityOf provider model with
    | none => simp [hidentity] at h
    | some other =>
        obtain rfl : other = identity := by simpa [hidentity] using h
        exact identityOf_eq_some hidentity
  · simp at h

theorem agrees_of_other (hbuild : isStreamBuildLine line = false)
    (hruntime : isRuntimeSelectedLine line = false) : Agrees line identity :=
  ⟨fun h => absurd h (by simp [hbuild]), fun h => absurd h (by simp [hruntime])⟩

/-- A line whose further fields repeat the first ones is heeded. -/
theorem Unequivocal.heeded (h : Unequivocal line) : Heeded line := by
  intro output identity hline hextract
  unfold Unequivocal at h
  have hreading (hrecognised : Recognised line) :=
    extractProviderIdentity_ok hextract hline hrecognised
  cases hbuild : isStreamBuildLine line with
  | true =>
      have hrecognised : Recognised line := by
        rw [Recognised, readLine_of_build hbuild]
        split
        · rename_i provider model _
          cases identityOf provider model <;> (intro hread; cases hread)
        · intro hread
          cases hread
      obtain ⟨hfirst, hprovider, hmodel⟩ := fields_of_build hbuild (hreading hrecognised)
      rw [if_pos hbuild] at h
      exact h _ _ hfirst hprovider hmodel
  | false =>
      rw [if_neg (by simp [hbuild])] at h
      cases hruntime : isRuntimeSelectedLine line with
      | false => exact agrees_of_other hbuild hruntime
      | true =>
          rw [if_pos hruntime] at h
          by_cases hrecognised : Recognised line
          · obtain ⟨hfirst, hprovider, hmodel⟩ :=
              fields_of_runtime hbuild hruntime (hreading hrecognised)
            rw [hfirst] at h
            exact h hprovider hmodel
          · rw [Recognised, readLine_of_runtime hbuild hruntime, not_not] at hrecognised
            split at h
            · rename_i provider model hfirst
              rw [hfirst] at hrecognised
              dsimp only at hrecognised
              cases hidentity : identityOf provider model <;> simp [hidentity] at hrecognised
            · refine ⟨fun hbuild' => absurd hbuild' (by simp [hbuild]), fun _ => ?_⟩
              rw [h.1, h.2]
              exact ⟨(fun _ h => by cases h), fun _ h => by cases h⟩

/-! ## Logs that show a line -/

/-- A build line of an identity. -/
def buildLine (identity : ProviderIdentity) : Str :=
  "providerID=".toList ++ (identity.providerId ++ (" modelID=".toList ++ (identity.modelId ++
    " message=stream agent=build".toList)))

theorem isSpace_of_isIdChar {c : Char} (h : isIdChar c = true) : isSpace c = false := by
  have hbounds : 45 ≤ c.toNat ∧ c.toNat ≤ 122 := by
    simp only [isIdChar, Bool.or_eq_true, decide_eq_true_eq, isAlphanum_iff] at h
    obtain (((h | rfl) | rfl) | rfl) | rfl := h
    · omega
    all_goals decide
  simp only [isSpace, Bool.or_eq_false_iff, Bool.and_eq_false_iff, decide_eq_false_iff_not,
    beq_eq_false_iff_ne]
  omega

theorem nonspace_of_provider (h : isValidProviderId provider = true) :
    provider ≠ [] ∧ ∀ c ∈ provider, isSpace c = false := by
  simp only [isValidProviderId, Bool.and_eq_true, decide_eq_true_eq, List.all_eq_true] at h
  exact ⟨List.ne_nil_of_length_pos h.1.1, fun c hc => isSpace_of_isIdChar (h.2 c hc)⟩

theorem nonspace_of_model (h : isValidModelId model = true) :
    model ≠ [] ∧ ∀ c ∈ model, isSpace c = false := by
  simp only [isValidModelId, Bool.and_eq_true, decide_eq_true_eq, List.all_eq_true,
    Bool.or_eq_true] at h
  refine ⟨List.ne_nil_of_length_pos h.1.1, fun c hc => ?_⟩
  obtain hid | rfl := h.2 c hc
  · exact isSpace_of_isIdChar hid
  · decide

theorem takeWhile_value {c : Char} (h : ∀ d ∈ text, isSpace d = false) (hc : isSpace c = true) :
    (text ++ c :: line).takeWhile (fun d => !isSpace d) = text := by
  rw [List.takeWhile_append_of_pos (fun d hd => by rw [h d hd]; rfl),
    List.takeWhile_cons_of_neg (by simp [hc]), List.append_nil]

theorem fieldAfterSpace_append (h : ∀ d ∈ text, isSpace d = false) :
    fieldAfterSpace key (text ++ line) = fieldAfterSpace key line := by
  induction text with
  | nil => rfl
  | cons d text ih =>
      obtain ⟨hd, htext⟩ := List.forall_mem_cons.mp h
      rw [List.cons_append, fieldAfterSpace, hd, ih htext]
      rfl

theorem matchField_of_key {c : Char} (hkey : matchKey key line = some ('=' :: (text ++ c :: other)))
    (hne : text ≠ []) (h : ∀ d ∈ text, isSpace d = false) (hc : isSpace c = true) :
    matchField key line = some text := by
  have htake : (text ++ c :: other).takeWhile (fun d => !isSpace d) = text := takeWhile_value h hc
  rw [matchField, hkey]
  change (if _ = [] then none else some _) = _
  rw [htake, if_neg hne]

theorem kv_provider (h : isValidProviderId identity.providerId = true) :
    kv (buildLine identity) "providerID".toList = some identity.providerId := by
  have hp := nonspace_of_provider h
  have hkey : matchKey "providerID".toList (buildLine identity) = some ('=' ::
      (identity.providerId ++ ' ' :: ("modelID=".toList ++ (identity.modelId ++
        " message=stream agent=build".toList)))) := rfl
  rw [kv, matchField_of_key hkey hp.1 hp.2 (by decide), Option.some_or]

theorem kv_model (hprovider : isValidProviderId identity.providerId = true)
    (hmodel : isValidModelId identity.modelId = true) :
    kv (buildLine identity) "modelID".toList = some identity.modelId := by
  have hp := nonspace_of_provider hprovider
  have hm := nonspace_of_model hmodel
  have hnone : matchField "modelID".toList (buildLine identity) = none := rfl
  have hkey : matchKey "modelID".toList ("modelID=".toList ++ (identity.modelId ++
      " message=stream agent=build".toList)) = some ('=' ::
      (identity.modelId ++ ' ' :: "message=stream agent=build".toList)) := rfl
  have hall : ("providerID=".toList.all fun d => !isSpace d) = true := rfl
  have hskip (d : Char) (hd : d ∈ "providerID=".toList) : isSpace d = false :=
    Bool.not_eq_true' _ |>.mp (List.all_eq_true.mp hall d hd)
  have hafter : fieldAfterSpace "modelID".toList (buildLine identity) =
      fieldAfterSpace "modelID".toList (' ' :: ("modelID=".toList ++ (identity.modelId ++
        " message=stream agent=build".toList))) :=
    (fieldAfterSpace_append hskip).trans (fieldAfterSpace_append hp.2)
  rw [kv, hnone, Option.none_or, hafter, fieldAfterSpace,
    matchField_of_key hkey hm.1 hm.2 (by decide), if_pos (by decide), Option.some_or]

theorem firstFields_buildLine (hprovider : isValidProviderId identity.providerId = true)
    (hmodel : isValidModelId identity.modelId = true) :
    firstFields (buildLine identity) "providerID".toList "modelID".toList =
      some (identity.providerId, identity.modelId) := by
  rw [firstFields, kv_provider hprovider, kv_model hprovider hmodel]

theorem includes_append_right (h : includes other key = true) :
    includes (text ++ other) key = true :=
  includes_iff.mpr ((includes_iff.mp h).trans (List.suffix_append text other).isInfix)

theorem readLine_buildLine (hprovider : isValidProviderId identity.providerId = true)
    (hmodel : isValidModelId identity.modelId = true) :
    readLine (buildLine identity) = .build identity := by
  have hkind : isStreamBuildLine (buildLine identity) = true := by
    have hend {word : Str} (h : includes " message=stream agent=build".toList word = true) :
        includes (buildLine identity) word = true :=
      includes_append_right (includes_append_right (includes_append_right
        (includes_append_right h)))
    rw [isStreamBuildLine, hend (by decide), hend (by decide), Bool.and_self]
  rw [readLine_of_build hkind, firstFields_buildLine hprovider hmodel]
  dsimp only
  rw [identityOf, if_pos (by rw [hprovider, hmodel]; rfl)]
  rfl

theorem newline_not_mem_of_nonspace (h : ∀ c ∈ text, isSpace c = false) : '\n' ∉ text :=
  fun hmem => absurd (h _ hmem) (by decide)

theorem newline_not_mem_buildLine (hprovider : isValidProviderId identity.providerId = true)
    (hmodel : isValidModelId identity.modelId = true) : '\n' ∉ buildLine identity := by
  have hp := newline_not_mem_of_nonspace (nonspace_of_provider hprovider).2
  have hm := newline_not_mem_of_nonspace (nonspace_of_model hmodel).2
  have hfirst : '\n' ∉ "providerID=".toList := by decide
  have hsecond : '\n' ∉ " modelID=".toList := by decide
  have hthird : '\n' ∉ " message=stream agent=build".toList := by decide
  unfold buildLine
  rw [List.mem_append, List.mem_append, List.mem_append, List.mem_append]
  exact not_or.mpr ⟨hfirst, not_or.mpr ⟨hp, not_or.mpr ⟨hsecond, not_or.mpr ⟨hm, hthird⟩⟩⟩⟩

/-- A log from which an identity is extracted, with a line that does not contradict it. -/
theorem extract_buildLine (hline : '\n' ∉ line)
    (hprovider : isValidProviderId identity.providerId = true)
    (hmodel : isValidModelId identity.modelId = true)
    (hreading : readLine line = .build identity ∨ readLine line = .runtime identity ∨
      readLine line = .nothing) :
    line ∈ lines (buildLine identity ++ '\n' :: line) ∧
      extractProviderIdentity (buildLine identity ++ '\n' :: line) = .ok identity := by
  have hlines : lines (buildLine identity ++ '\n' :: line) = [buildLine identity, line] := by
    rw [lines_append, lines_of_not_mem (newline_not_mem_buildLine hprovider hmodel),
      lines_of_not_mem hline]
    rfl
  rw [extractProviderIdentity_eq, hlines]
  refine ⟨by simp, ?_⟩
  rw [List.map_cons, List.map_cons, readLine_buildLine hprovider hmodel]
  obtain h | h | h := hreading <;>
    simp [h, seenOf, Seen.add, Seen.conclude]

/-- Otherwise there is a log that shows an identity from which the line differs. -/
theorem Heeded.unequivocal (hline : '\n' ∉ line) (h : Heeded line) : Unequivocal line := by
  have hagrees (identity : ProviderIdentity)
      (hprovider : isValidProviderId identity.providerId = true)
      (hmodel : isValidModelId identity.modelId = true)
      (hreading : readLine line = .build identity ∨ readLine line = .runtime identity ∨
        readLine line = .nothing) : Agrees line identity := by
    obtain ⟨hmem, hextract⟩ := extract_buildLine hline hprovider hmodel hreading
    exact h _ _ hmem hextract
  have hidentity {provider model : Str} (hprovider : isValidProviderId provider = true)
      (hmodel : isValidModelId model = true) :
      identityOf provider model = some ⟨provider, model⟩ := by
    rw [identityOf, if_pos (by rw [hprovider, hmodel]; rfl)]
  unfold Unequivocal
  split
  · rename_i hbuild
    intro provider model hfirst hprovider hmodel
    refine hagrees ⟨provider, model⟩ hprovider hmodel (.inl ?_)
    rw [readLine_of_build hbuild, hfirst]
    dsimp only
    rw [hidentity hprovider hmodel]
    rfl
  · rename_i hbuild
    split
    · rename_i hruntime
      have hread := readLine_of_runtime (Bool.eq_false_iff.mpr hbuild) hruntime
      split
      · rename_i provider model hfirst
        intro hprovider hmodel
        refine hagrees ⟨provider, model⟩ hprovider hmodel (.inr (.inl ?_))
        rw [hread, hfirst]
        dsimp only
        rw [hidentity hprovider hmodel]
        rfl
      · rename_i hnone
        -- such a line is skipped whatever the identity: its fields would be equal to two texts
        rw [hnone] at hread
        have ha := (hagrees ⟨['a'], ['a']⟩ rfl rfl (.inr (.inr hread))).2 hruntime
        have hb := (hagrees ⟨['b'], ['b']⟩ rfl rfl (.inr (.inr hread))).2 hruntime
        have hnil {values : List Str} (ha : ∀ v ∈ values, v = ['a']) (hb : ∀ v ∈ values, v = ['b']) :
            values = [] := List.eq_nil_iff_forall_not_mem.mpr fun v hv =>
          absurd ((ha v hv).symm.trans (hb v hv)) (by decide)
        exact ⟨hnil ha.1 hb.1, hnil ha.2 hb.2⟩
    · trivial

/-- One identity cannot become another when lines are added. -/
theorem extract_more {found : ProviderIdentity}
    (hmore : ∀ line ∈ lines output, line ∈ lines other)
    (h : extractProviderIdentity output = .ok identity)
    (hfound : extractProviderIdentity other = .ok found) : found = identity := by
  rw [extractProviderIdentity_eq] at h hfound
  obtain ⟨-, hbuilds, -⟩ := conclude_ok h
  obtain ⟨-, hbuilds', -⟩ := conclude_ok hfound
  have hmem : identity ∈ (seenOf ((lines output).map readLine)).builds := by
    rw [hbuilds]
    exact List.mem_singleton_self identity
  rw [mem_builds] at hmem
  obtain ⟨line, hline, hreading⟩ := List.mem_map.mp hmem
  have hmem' : identity ∈ (seenOf ((lines other).map readLine)).builds :=
    mem_builds.mpr (List.mem_map.mpr ⟨line, hmore line hline, hreading⟩)
  rw [hbuilds', List.mem_singleton] at hmem'
  exact hmem'.symm

end Fields

/-- Which lines are heeded; the order of lines and their number do not count, and lines that are
added do not lead to another identity. -/
theorem identity_evidence_iff (line output other : Str) (hline : '\n' ∉ line) :
    (Heeded line ↔ Unequivocal line) ∧
      ((∀ line, line ∈ lines output ↔ line ∈ lines other) →
        extractProviderIdentity output = extractProviderIdentity other) ∧
      ((∀ line ∈ lines output, line ∈ lines other) → ∀ identity found,
        extractProviderIdentity output = .ok identity →
          extractProviderIdentity other = .ok found → found = identity) :=
  ⟨⟨Heeded.unequivocal hline, Unequivocal.heeded⟩,
    fun hsame => extractProviderIdentity_congr fun line _ => hsame line,
    fun hmore _ _ => extract_more hmore⟩

/-- A good line, once, twice, and beside a bad one. -/
theorem identity_evidence_good : (Heeded goodLine ↔ Unequivocal goodLine) ∧
    extractProviderIdentity goodLine = extractProviderIdentity (goodLine ++ '\n' :: goodLine) ∧
    ∀ found, extractProviderIdentity (goodLine ++ '\n' :: goodLine) = .ok found →
      found = ⟨"good".toList, ['m']⟩ := by
  obtain ⟨hheeded, hsame, hmore⟩ := identity_evidence_iff goodLine goodLine
    (goodLine ++ '\n' :: goodLine) (by decide)
  exact ⟨hheeded, hsame (by simp [lines_append]),
    fun found => hmore (by simp [lines_append]) ⟨"good".toList, ['m']⟩ found (by decide)⟩

/-- A line whose second provider is not seen. -/
def doubleLine : Str :=
  "message=stream agent=build providerID=good modelID=m providerID=evil".toList

theorem not_identity_evidence : ¬ ∀ output identity, extractProviderIdentity output = .ok identity →
    ∀ line ∈ lines output, Agrees line identity := fun h => by
  have hagrees := h doubleLine ⟨"good".toList, ['m']⟩ (by decide) doubleLine (by decide)
  exact absurd ((hagrees.1 (by decide)).1 "evil".toList (by decide)) (by decide)

end CloudExecution
