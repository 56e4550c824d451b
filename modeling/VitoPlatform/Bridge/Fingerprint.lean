import Std.Data.String.ToInt
import VitoPlatform.Bridge.Tasks
import VitoPlatform.Library.Stringify

/-!
# The fingerprint of a request

`computeRequestFingerprint`. The object that is hashed is built anew, but for the approval of a
code build: that is the object of the request, with its keys in the order in which they were
sent. Two requests have one fingerprint exactly if they dispatch the same and list the keys of
the approval in one order (`fingerprint_eq_iff`).
-/

namespace Bridge

open Text

/-- A script writes a whole number below `10 ^ 21` so, and the budgets are validated to be such. Any
other number would be written as a fraction here. -/
def decimal (value : Rat) : Str :=
  (Int.repr value.num).toList ++ if value.den = 1 then [] else '/' :: (Nat.repr value.den).toList

def ApprovalKey.name : ApprovalKey → Str
  | .approvalId => "approvalId".toList
  | .missionId => "missionId".toList
  | .repository => "repository".toList
  | .branch => "branch".toList

namespace OperatorCodeBuildApproval

def get (approval : OperatorCodeBuildApproval) : ApprovalKey → Str
  | .approvalId => approval.approvalId
  | .missionId => approval.missionId
  | .repository => approval.repository
  | .branch => approval.branch

def toJson (approval : OperatorCodeBuildApproval) : Json :=
  .object (approval.keys.map fun key => (key.name, .string (approval.get key)))

end OperatorCodeBuildApproval

/-- `value ?? null`. -/
def orNull {α : Type} (toJson : α → Json) (value : Option α) : Json := (value.map toJson).getD .null

def OperatorBudget.toJson (budget : OperatorBudget) : Json :=
  let number (value : Int) : Json := .number value
  .object [("maxDurationMs".toList, orNull number budget.maxDurationMs),
    ("maxTokens".toList, orNull number budget.maxTokens),
    ("maxCostMinorUnits".toList, orNull number budget.maxCostMinorUnits)]

/-- The argument of `JSON.stringify`. -/
def FingerprintInput.toJson (input : FingerprintInput) : Json :=
  .object [("capabilityCode".toList, .string input.capabilityCode),
    ("codeBuildApproval".toList, orNull OperatorCodeBuildApproval.toJson input.codeBuildApproval),
    ("prompt".toList, .string input.prompt),
    ("assuranceLevel".toList, orNull .string input.assuranceLevel),
    ("budget".toList, input.budget.toJson)]

def computeRequestFingerprint (sha256 : Str → Str) (input : FingerprintInput) : Str :=
  sha256 (input.toJson.stringify decimal)

/-! ## What is promised -/

/-- The fields of an approval, without their order. -/
def OperatorCodeBuildApproval.fields (approval : OperatorCodeBuildApproval) :
    Str × Str × Str × Str :=
  (approval.approvalId, approval.missionId, approval.repository, approval.branch)

/-- Two requests with the same effect. -/
structure SameDispatch (a b : SubmitOperatorTask) : Prop where
  capabilityCode : a.capabilityCode = b.capabilityCode
  prompt : a.prompt = b.prompt
  assuranceLevel : a.assuranceLevel = b.assuranceLevel
  budget : a.budget = b.budget
  codeBuildApproval : a.codeBuildApproval.map OperatorCodeBuildApproval.fields =
    b.codeBuildApproval.map OperatorCodeBuildApproval.fields

/-- Where both requests have an approval, its keys come in one order. -/
def SameOrder (a b : SubmitOperatorTask) : Prop :=
  a.codeBuildApproval.map OperatorCodeBuildApproval.keys =
    b.codeBuildApproval.map OperatorCodeBuildApproval.keys

/-- The fingerprint tells requests apart by their effect, so that a retransmission is answered with
the stored task and nothing else is. -/
structure Discerning (sha256 : Str → Str) (a b : SubmitOperatorTask) : Prop where
  fingerprint : computeRequestFingerprint sha256 a.fingerprintInput =
    computeRequestFingerprint sha256 b.fingerprintInput ↔ SameDispatch a b
  replayed : ∀ task : OperatorTask,
    task.requestFingerprint = computeRequestFingerprint sha256 a.fingerprintInput →
      SameDispatch a b →
        resolveExisting task (computeRequestFingerprint sha256 b.fingerprintInput) =
          Prog.pure ⟨task, false⟩
  refused : ∀ task : OperatorTask,
    task.requestFingerprint = computeRequestFingerprint sha256 a.fingerprintInput →
      ¬ SameDispatch a b →
        resolveExisting task (computeRequestFingerprint sha256 b.fingerprintInput) =
          .throw (.conflict "OPERATOR_IDEMPOTENCY_CONFLICT")

/-! ## Numbers -/

theorem mem_natText {n : Nat} {c : Char} (h : c ∈ (Nat.repr n).toList) : c.isDigit = true := by
  rw [Nat.repr, String.toList_ofList] at h
  exact Nat.isDigit_of_mem_toDigits (by decide) (by decide) h

theorem natText_ne_nil (n : Nat) : (Nat.repr n).toList ≠ [] := by
  rw [Nat.repr, String.toList_ofList]
  exact Nat.toDigits_ne_nil

theorem mem_intText {n : Int} {c : Char} (h : c ∈ (Int.repr n).toList) :
    c.isDigit = true ∨ c = '-' := by
  cases n with
  | ofNat n => exact .inl (mem_natText h)
  | negSucc n =>
      have hmem : c ∈ '-' :: (Nat.repr (n + 1)).toList := by simpa [Int.repr] using h
      obtain rfl | hdigit := List.mem_cons.mp hmem
      · exact .inr rfl
      · exact .inl (mem_natText hdigit)

theorem intText_ne_nil (n : Int) : (Int.repr n).toList ≠ [] := by
  cases n with
  | ofNat n => exact natText_ne_nil n
  | negSucc n => simp [Int.repr]

theorem mem_decimal {value : Rat} {c : Char} (h : c ∈ decimal value) :
    c.isDigit = true ∨ c = '-' ∨ c = '/' := by
  obtain h | h := List.mem_append.mp h
  · exact (mem_intText h).imp_right .inl
  · split at h
    · cases h
    · obtain rfl | h := List.mem_cons.mp h
      · exact .inr (.inr rfl)
      · exact .inl (mem_natText h)

theorem slash_not_mem_intText (n : Int) : '/' ∉ (Int.repr n).toList := fun h => by
  obtain h | h := mem_intText h <;> cases h

theorem decimal_injective : Function.Injective decimal := by
  intro p q h
  unfold decimal at h
  split_ifs at h with hp hq hq
  · rw [List.append_nil, List.append_nil] at h
    exact Rat.ext (Int.repr_injective (String.toList_injective h)) (hp.trans hq.symm)
  · rw [List.append_nil] at h
    exact absurd (h ▸ List.mem_append_right _ List.mem_cons_self) (slash_not_mem_intText p.num)
  · rw [List.append_nil] at h
    exact absurd (h ▸ List.mem_append_right _ List.mem_cons_self) (slash_not_mem_intText q.num)
  · obtain ⟨hnum, hden⟩ :=
      separated_injective (slash_not_mem_intText _) (slash_not_mem_intText _) h
    exact Rat.ext (Int.repr_injective (String.toList_injective hnum))
      (Nat.repr_injective (String.toList_injective hden))

theorem legible_decimal : Json.Legible decimal where
  injective := decimal_injective
  starts value := by
    cases htext : decimal value with
    | nil => exact absurd (List.append_eq_nil_iff.mp htext).1 (intText_ne_nil _)
    | cons c rest =>
        refine ⟨c, rest, rfl, ?_⟩
        have hmem : c ∈ decimal value := by rw [htext]; exact List.mem_cons_self
        refine ⟨?_, ?_, ?_, ?_, ?_, ?_⟩ <;> rintro rfl <;> obtain h | h | h := mem_decimal hmem <;>
          cases h
  continues value c hc := by
    rintro (rfl | rfl | rfl) <;> obtain h | h | h := mem_decimal hc <;> cases h

/-! ## What the text tells -/

theorem orNull_injective {α : Type} {toJson : α → Json} (hinjective : Function.Injective toJson)
    (hnull : ∀ value, toJson value ≠ .null) : Function.Injective (orNull toJson) := by
  intro a b h
  cases a with
  | none =>
      cases b with
      | none => rfl
      | some b => exact absurd h.symm (hnull b)
  | some a =>
      cases b with
      | none => exact absurd h (hnull a)
      | some b => exact congrArg some (hinjective h)

theorem ApprovalKey.name_injective : Function.Injective ApprovalKey.name := by
  intro a b h
  cases a <;> cases b <;> first | rfl | exact absurd h (by decide)

namespace OperatorCodeBuildApproval

variable {a b : OperatorCodeBuildApproval}

theorem mem_keys (approval : OperatorCodeBuildApproval) (key : ApprovalKey) :
    key ∈ approval.keys := by
  rw [approval.keys_perm.mem_iff]
  cases key <;> decide

theorem toJson_eq_iff : a.toJson = b.toJson ↔ a.fields = b.fields ∧ a.keys = b.keys := by
  constructor
  · intro h
    have hentries : a.keys.map (fun key => (key.name, Json.string (a.get key))) =
        b.keys.map fun key => (key.name, Json.string (b.get key)) := by
      simpa [toJson] using h
    have hkeys : a.keys = b.keys := by
      have hnames := congrArg (List.map Prod.fst) hentries
      rw [List.map_map, List.map_map] at hnames
      exact List.map_injective_iff.mpr ApprovalKey.name_injective hnames
    have hget (key : ApprovalKey) : a.get key = b.get key := by
      rw [hkeys] at hentries
      have hentry := List.map_inj_left.mp hentries key (b.mem_keys key)
      simpa using hentry
    refine ⟨?_, hkeys⟩
    rw [fields, fields, show a.approvalId = b.approvalId from hget .approvalId,
      show a.missionId = b.missionId from hget .missionId,
      show a.repository = b.repository from hget .repository,
      show a.branch = b.branch from hget .branch]
  · rintro ⟨hfields, hkeys⟩
    simp only [fields, Prod.mk.injEq] at hfields
    obtain ⟨hid, hmission, hrepository, hbranch⟩ := hfields
    have hget : a.get = b.get := funext fun key => by cases key <;> assumption
    rw [toJson, toJson, hkeys, hget]

theorem orNull_toJson_eq_iff {a b : Option OperatorCodeBuildApproval} :
    orNull toJson a = orNull toJson b ↔ a.map fields = b.map fields ∧ a.map keys = b.map keys := by
  cases a with
  | none => cases b <;> simp [orNull, toJson]
  | some a =>
      cases b with
      | none => simp [orNull, toJson]
      | some b => simpa [orNull] using toJson_eq_iff

end OperatorCodeBuildApproval

theorem OperatorBudget.toJson_injective : Function.Injective OperatorBudget.toJson := by
  intro a b h
  have hnumber : Function.Injective (orNull fun value : Int => Json.number value) :=
    orNull_injective (fun p q h => Rat.intCast_inj.mp (Json.number.inj h)) nofun
  simp only [toJson, Json.object.injEq, List.cons.injEq, Prod.mk.injEq, true_and, and_true] at h
  obtain ⟨hduration, htokens, hcost⟩ := h
  obtain ⟨duration, tokens, cost⟩ := a
  obtain ⟨duration', tokens', cost'⟩ := b
  cases hnumber hduration
  cases hnumber htokens
  cases hnumber hcost
  rfl

/-- The object that is hashed tells what is dispatched and the order of the keys of the approval. -/
theorem toJson_eq_iff (a b : SubmitOperatorTask) :
    a.fingerprintInput.toJson = b.fingerprintInput.toJson ↔ SameDispatch a b ∧ SameOrder a b := by
  have hlevel : Function.Injective (orNull Json.string) :=
    orNull_injective (fun _ _ h => Json.string.inj h) nofun
  simp only [FingerprintInput.toJson, SubmitOperatorTask.fingerprintInput, Json.object.injEq,
    List.cons.injEq, Prod.mk.injEq, true_and, and_true, Json.string.injEq, hlevel.eq_iff,
    OperatorBudget.toJson_injective.eq_iff, OperatorCodeBuildApproval.orNull_toJson_eq_iff]
  constructor
  · rintro ⟨hcapability, ⟨hfields, hkeys⟩, hprompt, hlevel, hbudget⟩
    exact ⟨⟨hcapability, hprompt, hlevel, hbudget, hfields⟩, hkeys⟩
  · rintro ⟨⟨hcapability, hprompt, hlevel, hbudget, hfields⟩, hkeys⟩
    exact ⟨hcapability, ⟨hfields, hkeys⟩, hprompt, hlevel, hbudget⟩

section Fingerprints

variable {sha256 : Str → Str} (hsha256 : Function.Injective sha256) (a b : SubmitOperatorTask)

include hsha256

theorem fingerprint_eq_iff : computeRequestFingerprint sha256 a.fingerprintInput =
    computeRequestFingerprint sha256 b.fingerprintInput ↔ SameDispatch a b ∧ SameOrder a b := by
  rw [computeRequestFingerprint, computeRequestFingerprint, hsha256.eq_iff,
    (Json.stringify_injective legible_decimal).eq_iff, toJson_eq_iff]

/-- A fingerprint tells requests apart by their effect exactly if requests with one effect list the
keys of the approval in one order. -/
theorem fingerprint_discerning_iff :
    Discerning sha256 a b ↔ (SameDispatch a b → SameOrder a b) := by
  have hfingerprint := fingerprint_eq_iff hsha256 a b
  constructor
  · intro h hsame
    exact (hfingerprint.mp (h.fingerprint.mpr hsame)).2
  · intro horder
    have hsame : computeRequestFingerprint sha256 a.fingerprintInput =
        computeRequestFingerprint sha256 b.fingerprintInput ↔ SameDispatch a b :=
      hfingerprint.trans ⟨And.left, fun h => ⟨h, horder h⟩⟩
    refine ⟨hsame, fun task htask h => ?_, fun task htask h => ?_⟩
    · exact if_pos (htask.trans (hsame.mpr h))
    · exact if_neg fun heq => h (hsame.mp (htask.symm.trans heq))

end Fingerprints

section Sample

def approvalSent (keys : List ApprovalKey)
    (h : keys.Perm [.approvalId, .missionId, .repository, .branch]) :
    OperatorCodeBuildApproval where
  approvalId := "6f1c1c5e-5d0c-4b1e-9a55-0a2f4b8f7c11".toList
  missionId := "mission-a".toList
  repository := "lavolpeofficial/vito-platform".toList
  branch := "feat/a".toList
  keys := keys
  keys_perm := h

def requestSent (approval : OperatorCodeBuildApproval) : SubmitOperatorTask where
  requestId := "0b31931b-aa1c-4570-bc5d-f9cd90b4970e".toList
  capabilityCode := Dispatch.codeBuild
  prompt := "Implement exactly this task.".toList
  assuranceLevel := none
  budget := ⟨none, none, none⟩
  codeBuildApproval := some approval

def firstSent : SubmitOperatorTask :=
  requestSent (approvalSent [.approvalId, .missionId, .repository, .branch] (.refl _))

def sentAgain : SubmitOperatorTask :=
  requestSent (approvalSent [.branch, .approvalId, .missionId, .repository] (by decide))

/-- A request sent twice with one text is recognised. -/
theorem fingerprint_discerning_same : Discerning id firstSent firstSent :=
  (fingerprint_discerning_iff Function.injective_id firstSent firstSent).mpr fun _ => rfl

/-- A client that lists the keys of the approval in another order the second time gets a
conflict. -/
theorem not_fingerprint_discerning : ¬ ∀ sha256 : Str → Str, Function.Injective sha256 →
    ∀ a b : SubmitOperatorTask, Discerning sha256 a b := by
  intro h
  have hsame : SameDispatch firstSent sentAgain := ⟨rfl, rfl, rfl, rfl, rfl⟩
  have horder : ¬ SameOrder firstSent sentAgain := by
    intro h
    cases Option.some.inj h
  have hdiscerning := h id Function.injective_id firstSent sentAgain
  exact horder ((fingerprint_eq_iff Function.injective_id _ _).mp
    (hdiscerning.fingerprint.mpr hsame)).2

end Sample

end Bridge
