import VitoPlatform.Invocation.ClaimGate
import VitoPlatform.Library.Autocommit

/-!
# At-most-once consequential execution

Any number of `invoke` calls, interleaved in any order over the database store. The calls
open no transaction, so the table moves by single statements: a claim is inserted where it
excludes no other, or the claim a call has obtained is completed. The claim rows then only
settle: a row keeps its key and its owner, and its state once it has left IN_PROGRESS.
-/

namespace Invocation

open Text Policy Persistence Database Prog

abbrev Call := GovernedInvocationDependencies × Request

def programs (calls : List Call) : List (Program Result) :=
  calls.map fun call => invoke call.1.persistent call.2

abbrev Platform := System Row Ask Failure Ans Result

abbrev Step := Entry Row Ask Failure Ans

/-! ## One step of the table -/

section Table

/-- Claims persist with their key and owner, and settled ones as they are. -/
def Kept (before after : List Row) : Prop :=
  ∀ row, Row.claim row ∈ before → ∃ row', Row.claim row' ∈ after ∧
    row'.logicalOperationKey = row.logicalOperationKey ∧
    row'.invocationId = row.invocationId ∧ (row.state ≠ .inProgress → row' = row)

theorem Kept.refl (rows : List Row) : Kept rows rows :=
  fun row hrow => ⟨row, hrow, rfl, rfl, fun _ => rfl⟩

theorem Kept.trans (a b c : List Row) (hab : Kept a b) (hbc : Kept b c) : Kept a c := by
  intro row hrow
  obtain ⟨row', hrow', hkey, hid, hstate⟩ := hab row hrow
  obtain ⟨row'', hrow'', hkey', hid', hstate'⟩ := hbc row' hrow'
  refine ⟨row'', hrow'', hkey'.trans hkey, hid'.trans hid, fun hne => ?_⟩
  have hsame := hstate hne
  rw [hsame] at hstate'
  exact hstate' hne

variable {request : Request} {t : List Happened} {rows before after : List Row}
variable {state : GovernedInvocationClaimState}

theorem key_setClaimState (r : Row) : (setClaimState state r).key = r.key :=
  key_onClaim (f := fun row => { row with state := state }) (fun _ => rfl) r

theorem clash_setClaimState (r q : Row) : (setClaimState state r).clash q = r.clash q :=
  clash_onClaim (f := fun row => { row with state := state }) (fun _ => rfl) (fun _ => rfl) r q

theorem completes_iff {key invocationId : Str} {r : Row} :
    completes key invocationId r = true ↔
      ∃ row, r = .claim row ∧ row.logicalOperationKey = key ∧ row.invocationId = invocationId ∧
        row.state = .inProgress := by
  simp [completes, isClaim_iff, and_assoc]

/-- What one step of a call does to the table. -/
inductive TableStep (request : Request) (t : List Happened) (event : Happened)
    (before after : List Row) : Prop
  | same : after = before → (∀ fingerprint rows, event ≠ ⟨insertClaim request fingerprint,
      .ok rows⟩) → TableStep request t event before after
  | inserted (fingerprint : Str) (rows : List Row) :
      event = ⟨insertClaim request fingerprint, .ok rows⟩ →
      (∀ u ∈ before, Row.clash (.claim (newClaim (buildGovernedLogicalOperationKey request)
        request.invocationId fingerprint)) u = false) →
      after = apply schema before [.claim (newClaim (buildGovernedLogicalOperationKey request)
        request.invocationId fingerprint)] →
      TableStep request t event before after
  | completed (state : GovernedInvocationClaimState) : state ≠ .inProgress →
      Claimed request t →
      (∀ fingerprint rows, event ≠ ⟨insertClaim request fingerprint, .ok rows⟩) →
      after = apply schema before ((before.filter
        (completes (buildGovernedLogicalOperationKey request) request.invocationId)).map
          (setClaimState state)) →
      TableStep request t event before after

/-- A guarded effect answered by an idle session is such a step. -/
theorem tableStep_of_guard {event : Happened} {choice : Choice Failure Ans}
    {session' : Session Row} (hguard : gateGuard request t event.1)
    (hrespond : respond schema .idle before choice event.1 = (event.2, session', after)) :
    TableStep request t event before after := by
  obtain ⟨e, answer⟩ := event
  cases e with
  | begin => exact absurd hguard id
  | commit => exact absurd hguard id
  | rollback => exact absurd hguard id
  | ask x =>
      cases hrespond
      exact .same rfl fun _ _ h => by cases h
  | stmt st =>
      cases st with
      | select p => exact .same (respond_select hrespond).1 fun _ _ h => by cases h
      | insert v =>
          obtain ⟨-, fingerprint, rfl⟩ := hguard
          rcases respond_insert hrespond with ⟨rfl, hclash, hafter⟩ | ⟨error, rfl, hafter, -⟩
          · exact .inserted fingerprint _ rfl hclash hafter
          · exact .same hafter fun _ _ h => by cases h
      | update p f =>
          obtain ⟨hclaimed, state, hstate, rfl, rfl⟩ := hguard
          rcases respond_update hrespond with ⟨-, hafter⟩ | ⟨error, -, hafter, -⟩
          · exact .completed state hstate hclaimed (fun _ _ h => by cases h) hafter
          · exact .same hafter fun _ _ h => by cases h

variable {event : Happened}

theorem TableStep.unique (h : TableStep request t event before after)
    (hunique : Unique schema before) : Unique schema after := by
  cases h with
  | same hsame _ => exact hsame ▸ hunique
  | inserted fingerprint rows _ hclash hafter => exact hafter ▸ hunique.insert hclash
  | completed state _ _ _ hafter =>
      exact hafter ▸ hunique.update key_setClaimState clash_setClaimState

theorem TableStep.kept (h : TableStep request t event before after)
    (hunique : Unique schema before) : Kept before after := by
  cases h with
  | same hsame _ => exact hsame ▸ Kept.refl before
  | inserted fingerprint rows _ hclash hafter =>
      intro row hrow
      refine ⟨row, ?_, rfl, rfl, fun _ => rfl⟩
      rw [hafter, apply_insert (not_mem_key_of_clash hclash)]
      exact List.mem_append_left _ hrow
  | completed state _ _ _ hafter =>
      intro row hrow
      have hmem : (if completes (buildGovernedLogicalOperationKey request) request.invocationId
          (.claim row) then setClaimState state (.claim row) else .claim row) ∈ after := by
        rw [hafter, hunique.keyed.mem_apply_update key_setClaimState]
        exact ⟨_, hrow, rfl⟩
      split at hmem
      · rename_i hcompletes
        obtain ⟨row', hrow', -, -, hprogress⟩ := completes_iff.mp hcompletes
        cases hrow'
        exact ⟨_, hmem, rfl, rfl, fun hne => absurd hprogress hne⟩
      · exact ⟨row, hmem, rfl, rfl, fun _ => rfl⟩

/-- A claim that is not there any more was completed, by a call that has obtained it. -/
theorem TableStep.left (h : TableStep request t event before after)
    (hunique : Unique schema before) {row : GovernedInvocationClaim}
    (hbefore : Row.claim row ∈ before) (hafter : Row.claim row ∉ after) :
    row.logicalOperationKey = buildGovernedLogicalOperationKey request ∧
      row.invocationId = request.invocationId ∧ Claimed request t := by
  cases h with
  | same hsame _ => exact absurd (hsame ▸ hbefore) hafter
  | inserted fingerprint rows _ hclash hrows =>
      rw [hrows, apply_insert (not_mem_key_of_clash hclash)] at hafter
      exact absurd (List.mem_append_left _ hbefore) hafter
  | completed state _ hclaimed _ hrows =>
      rw [hrows, hunique.keyed.mem_apply_update key_setClaimState] at hafter
      by_cases hcompletes : completes (buildGovernedLogicalOperationKey request)
          request.invocationId (.claim row) = true
      · obtain ⟨row', hrow', hkey, hid, -⟩ := completes_iff.mp hcompletes
        cases hrow'
        exact ⟨hkey, hid, hclaimed⟩
      · exact absurd ⟨_, hbefore, by rw [if_neg hcompletes]⟩ hafter

end Table

/-! ## Runs -/

section Runs

variable {calls : List Call} {rows : List Row} {s : Platform}
variable {before after between : List Step} {en en' : Step}

/-- The facts about a run that the results below share. -/
structure Observed (calls : List Call) (rows : List Row) (s : Platform) : Prop where
  recorded : Recorded schema (fun _ => True) rows (programs calls) s
  guarded : ∀ {before en after}, s.history = before ++ en :: after →
    ∃ call, calls[en.call]? = some call ∧ gateGuard call.2 (own en.call before) en.event.1
  idle : ∀ en ∈ s.history, en.session = .idle
  unique : (∀ en ∈ s.history, Unique schema en.before) ∧ Unique schema s.rows

theorem guarded_of_recorded (h : Recorded schema (fun _ => True) rows (programs calls) s)
    (hs : s.history = before ++ en :: after) :
    ∃ call, calls[en.call]? = some call ∧ gateGuard call.2 (own en.call before) en.event.1 := by
  have hlt : en.call < calls.length := by
    have := h.call_lt.2 en (by simp [hs])
    rwa [programs, List.length_map] at this
  refine ⟨calls[en.call], List.getElem?_eq_getElem hlt, ?_⟩
  refine h.guarded hs ?_ (wp_invoke_gate calls[en.call].1 calls[en.call].2)
  rw [programs, List.getElem?_map, List.getElem?_eq_getElem hlt]
  rfl

/-- What a step did, in any run. -/
theorem tableStep_of_recorded (h : Recorded schema (fun _ => True) rows (programs calls) s)
    (hidle : ∀ en ∈ s.history, en.session = .idle) (hs : s.history = before ++ en :: after) :
    ∃ call, calls[en.call]? = some call ∧
      TableStep call.2 (own en.call before) en.event en.before en.after := by
  obtain ⟨call, hcall, hguard⟩ := guarded_of_recorded h hs
  have hen : en ∈ s.history := by simp [hs]
  obtain ⟨choice, session', -, hrespond⟩ := h.respond en hen
  rw [hidle en hen] at hrespond
  exact ⟨call, hcall, tableStep_of_guard hguard hrespond⟩

theorem observed (hrows : Unique schema rows)
    (h : System.Reaches schema (fun _ => True) (System.start rows (programs calls)) s) :
    Observed calls rows s := by
  have hrecorded := h.recorded
  have hidle : ∀ en ∈ s.history, en.session = .idle := by
    refine (h.idle fun en hen hbegin => ?_).2
    obtain ⟨before, after, hs⟩ := List.append_of_mem hen
    obtain ⟨call, -, hguard⟩ := guarded_of_recorded hrecorded hs
    rw [hbegin] at hguard
    exact hguard
  refine ⟨hrecorded, guarded_of_recorded hrecorded, hidle, ?_⟩
  refine hrecorded.invariant hrows fun en hen hunique => ?_
  obtain ⟨before, after, hs⟩ := List.append_of_mem hen
  obtain ⟨call, -, hstep⟩ := tableStep_of_recorded hrecorded hidle hs
  exact hstep.unique hunique

/-- A claim obtained in a call's own trace is a step of the run. -/
theorem claim_entry {i : Nat} {request : Request} {history : List Step}
    (hclaimed : Claimed request (own i history)) :
    ∃ en ∈ history, en.call = i ∧
      ∃ fingerprint rows, en.event = ⟨insertClaim request fingerprint, .ok rows⟩ := by
  obtain ⟨fingerprint, answer, hmem⟩ := hclaimed
  obtain ⟨en, hen, hcall, hevent⟩ := mem_own.mp hmem
  exact ⟨en, hen, hcall, fingerprint, answer, hevent⟩

namespace Observed

variable (o : Observed calls rows s)

include o

theorem step (hs : s.history = before ++ en :: after) :
    ∃ call, calls[en.call]? = some call ∧
      TableStep call.2 (own en.call before) en.event en.before en.after :=
  tableStep_of_recorded o.recorded o.idle hs

theorem kept (hen : en ∈ s.history) : Kept en.before en.after := by
  obtain ⟨before, after, hs⟩ := List.append_of_mem hen
  obtain ⟨call, -, hstep⟩ := o.step hs
  exact hstep.kept (o.unique.1 en hen)

theorem kept_last (hen : en ∈ s.history) : Kept en.before s.rows := by
  obtain ⟨before, after, hs⟩ := List.append_of_mem hen
  exact Kept.trans _ _ _ (o.kept hen)
    (o.recorded.rel_last Kept.refl Kept.trans (fun _ => o.kept) hs)

theorem kept_later (hs : s.history = before ++ en :: between ++ en' :: after) :
    Kept en.after en'.before :=
  o.recorded.rel_later Kept.refl Kept.trans (fun _ => o.kept) hs

/-- A call inserts one claim at most. -/
theorem insert_unique (hs : s.history = before ++ en :: between ++ en' :: after)
    (hcall : en.call = en'.call) (hen : isInsert en.event.1 = true) :
    isInsert en'.event.1 = false := by
  obtain ⟨call, -, hguard⟩ := o.guarded hs
  by_contra hinsert
  rw [Bool.not_eq_false] at hinsert
  obtain ⟨e, answer, he⟩ : ∃ e answer, en'.event = ⟨e, answer⟩ := ⟨_, _, rfl⟩
  rw [he] at hguard hinsert
  cases e with
  | stmt st =>
      cases st with
      | insert v =>
          have hclear := hguard.1 en.event (mem_own.mpr ⟨en, by simp, hcall, rfl⟩)
          rw [hclear] at hen
          cases hen
      | _ => cases hinsert
  | _ => cases hinsert

/-- Two claims obtained in a run differ in key and in owner. -/
theorem claims_apart (hs : s.history = before ++ en :: between ++ en' :: after)
    {request request' : Request} {fingerprint fingerprint' : Str} {answer answer' : List Row}
    (hen : en.event = ⟨insertClaim request fingerprint, .ok answer⟩)
    (hen' : en'.event = ⟨insertClaim request' fingerprint', .ok answer'⟩) :
    buildGovernedLogicalOperationKey request ≠ buildGovernedLogicalOperationKey request' ∧
      request.invocationId ≠ request'.invocationId := by
  have hmem : en ∈ s.history := by simp [hs]
  have hmem' : en' ∈ s.history := by simp [hs]
  obtain ⟨choice, session', -, hrespond⟩ := o.recorded.respond en hmem
  rw [o.idle en hmem, hen] at hrespond
  obtain ⟨choice', session'', -, hrespond'⟩ := o.recorded.respond en' hmem'
  rw [o.idle en' hmem', hen'] at hrespond'
  obtain ⟨-, hclash, hafter⟩ := (respond_insert hrespond).resolve_right
    (by rintro ⟨error, h, -⟩; cases h)
  obtain ⟨-, hclash', -⟩ := (respond_insert hrespond').resolve_right
    (by rintro ⟨error, h, -⟩; cases h)
  have hinserted : Row.claim (newClaim (buildGovernedLogicalOperationKey request)
      request.invocationId fingerprint) ∈ en.after := by
    rw [hafter, apply_insert (not_mem_key_of_clash hclash)]
    simp
  obtain ⟨row, hrow, hkey, hid, -⟩ := o.kept_later hs _ hinserted
  have hapart := hclash' _ hrow
  simp only [schema, Row.clash, newClaim, hkey, hid, Bool.or_eq_false_iff, beq_eq_false_iff_ne]
    at hapart
  exact ⟨Ne.symm hapart.1, Ne.symm hapart.2⟩

/-- Two executions of consequential actions differ in key and in invocation. -/
theorem executions_apart (hs : s.history = before ++ en :: between ++ en' :: after)
    (hen : isExecute en.event.1 = true) (hen' : isExecute en'.event.1 = true)
    {call call' : Call} (hcall : calls[en.call]? = some call)
    (hcall' : calls[en'.call]? = some call')
    (hconsequential : isConsequentialExecutionAction call.2.requestedAction = true)
    (hconsequential' : isConsequentialExecutionAction call'.2.requestedAction = true) :
    buildGovernedLogicalOperationKey call.2 ≠ buildGovernedLogicalOperationKey call'.2 ∧
      call.2.invocationId ≠ call'.2.invocationId := by
  have execution : ∀ {before after : List Step} {en : Step} {call : Call},
      s.history = before ++ en :: after → isExecute en.event.1 = true →
      calls[en.call]? = some call →
      isConsequentialExecutionAction call.2.requestedAction = true →
      (∀ event ∈ own en.call before, isExecute event.1 = false) ∧
        Claimed call.2 (own en.call before) := by
    intro before after en call hs hen hcall hconsequential
    obtain ⟨call', hcall', hguard⟩ := o.guarded hs
    rw [hcall] at hcall'
    cases hcall'
    obtain ⟨e, answer, he⟩ : ∃ e answer, en.event = ⟨e, answer⟩ := ⟨_, _, rfl⟩
    rw [he] at hguard hen
    cases e with
    | ask x =>
        cases x with
        | execute providerType adapterRequest context =>
            exact ⟨hguard.1, hguard.2 hconsequential⟩
        | _ => cases hen
    | _ => cases hen
  have hs₀ : s.history = before ++ en :: (between ++ en' :: after) := by simp [hs]
  obtain ⟨-, hclaimed⟩ := execution hs₀ hen hcall hconsequential
  obtain ⟨honce, hclaimed'⟩ := execution hs hen' hcall' hconsequential'
  -- One call executes once, so these are executions of two calls.
  have hne : en.call ≠ en'.call := by
    intro heq
    have := honce en.event (mem_own.mpr ⟨en, by simp, heq, rfl⟩)
    rw [hen] at this
    cases this
  obtain ⟨c, hc, hccall, fingerprint, answer, hcevent⟩ := claim_entry hclaimed
  obtain ⟨c', hc', hccall', fingerprint', answer', hcevent'⟩ := claim_entry hclaimed'
  replace hc : c ∈ s.history := hs₀ ▸ List.mem_append_left _ hc
  replace hc' : c' ∈ s.history := hs ▸ List.mem_append_left _ hc'
  have hdiffer : c ≠ c' := by
    rintro rfl
    exact hne (hccall.symm.trans hccall')
  obtain ⟨x, y, z, horder | horder⟩ := exists_two_splits hc hc' hdiffer
  · exact o.claims_apart horder hcevent hcevent'
  · obtain ⟨hkey, hid⟩ := o.claims_apart horder hcevent' hcevent
    exact ⟨Ne.symm hkey, Ne.symm hid⟩

end Observed

/-! ## Refused calls -/

/-- The invocation id of the call is bound to another operation. -/
def BoundElsewhere (request : Request) (rows : List Row) : Prop :=
  ∃ row, Row.claim row ∈ rows ∧ row.invocationId = request.invocationId ∧
    row.logicalOperationKey ≠ buildGovernedLogicalOperationKey request

/-- The claim row of the call's operation is owned by `owner`. -/
def OwnedBy (request : Request) (rows : List Row) (owner : Str) : Prop :=
  ∃ row, Row.claim row ∈ rows ∧
    row.logicalOperationKey = buildGovernedLogicalOperationKey request ∧
    row.invocationId = owner

def isStatement : Effect Row Ask → Bool
  | .stmt _ => true
  | _ => false

section Reads

variable {p : GovernedInvocationClaim → Bool} {table : List Row} {row : GovernedInvocationClaim}

theorem claim_of_read
    (h : ((table.filter (isClaim p)).filterMap Row.claim?).head? = some row) :
    Row.claim row ∈ table ∧ p row = true := by
  have hmem := List.mem_of_mem_head? h
  rw [List.mem_filterMap] at hmem
  obtain ⟨r, hr, hrow⟩ := hmem
  obtain rfl := Row.claim?_eq_some.mp hrow
  exact ⟨(List.mem_filter.mp hr).1, (List.mem_filter.mp hr).2⟩

theorem read_of_claim (hrow : Row.claim row ∈ table) (hp : p row = true) :
    ∃ found, ((table.filter (isClaim p)).filterMap Row.claim?).head? = some found := by
  have hmem : row ∈ (table.filter (isClaim p)).filterMap Row.claim? :=
    List.mem_filterMap.mpr ⟨.claim row, List.mem_filter.mpr ⟨hrow, hp⟩, rfl⟩
  cases hhead : ((table.filter (isClaim p)).filterMap Row.claim?).head? with
  | none =>
      rw [List.head?_eq_none_iff.mp hhead] at hmem
      cases hmem
  | some found => exact ⟨found, rfl⟩

end Reads

/-- An invocation id is bound to one operation at most. -/
theorem claim_eq_of_invocation (hunique : Unique schema rows) {a b : GovernedInvocationClaim}
    (ha : Row.claim a ∈ rows) (hb : Row.claim b ∈ rows) (h : a.invocationId = b.invocationId) :
    a = b := by
  have := hunique.apart _ ha _ hb (by simp [schema, Row.clash, h])
  cases this
  rfl

namespace Observed

variable (o : Observed calls rows s)

include o

theorem select_rows (hen : en ∈ s.history) {p : Row → Bool} {answer : List Row}
    (hevent : en.event = ⟨.stmt (.select p), .ok answer⟩) : answer = en.before.filter p := by
  obtain ⟨choice, session', -, hrespond⟩ := o.recorded.respond en hen
  rw [o.idle en hen, hevent] at hrespond
  rcases (respond_select hrespond).2 with h | ⟨error, h, -⟩
  · cases h
    rfl
  · cases h

/-- The owner of a claim at a step is its owner in the end. -/
theorem owned_last (hen : en ∈ s.history) {request : Request} {owner : Str}
    (h : OwnedBy request en.before owner) : OwnedBy request s.rows owner := by
  obtain ⟨row, hrow, hkey, hid⟩ := h
  obtain ⟨row', hrow', hkey', hid', -⟩ := o.kept_last hen row hrow
  exact ⟨row', hrow', hkey'.trans hkey, hid'.trans hid⟩

/-- What the reads of a refused call say about the table, at the last of them. -/
theorem refusal {i : Nat} {request : Request} {reads rest : List Happened}
    {reason : InvocationFailureReason} {owner : Option Str} {history : List Step}
    (hs : s.history = before ++ history) (hown : own i history = reads ++ rest)
    (h : Refusal request reads reason owner) :
    ∃ before en after, s.history = before ++ en :: after ∧ en.call = i ∧ own i after = rest ∧
      isStatement en.event.1 = true ∧
      (reason = .invocationIdempotencyConflict ∧ BoundElsewhere request en.before ∨
        reason = .invocationDuplicate ∧ ¬ BoundElsewhere request en.before ∧
          OwnedBy request s.rows (owner.getD request.invocationId)) := by
  cases h with
  | sameAttempt answer existing hfound hattempt =>
      obtain ⟨a, r, b, rfl, hcall, hevent, -, hrest⟩ := own_head hown
      have hr : r ∈ s.history := by simp [hs]
      obtain rfl := o.select_rows hr hevent
      obtain ⟨hrow, hkey⟩ := claim_of_read hfound
      have hkey : existing.logicalOperationKey = buildGovernedLogicalOperationKey request := by
        simpa using hkey
      refine ⟨before ++ a, r, b, by simp [hs], hcall, hrest, by rw [hevent]; rfl,
        .inr ⟨rfl, ?_, o.owned_last hr ⟨existing, hrow, hkey, hattempt⟩⟩⟩
      rintro ⟨row, hmem, hid, hne⟩
      obtain rfl := claim_eq_of_invocation (o.unique.1 r hr) hmem hrow (hid.trans hattempt.symm)
      exact hne hkey
  | conflict answer answer' row hfound hne =>
      obtain ⟨a, r, b, rfl, hcall, hevent, -, hrest⟩ := own_head hown
      obtain ⟨a', r', b', rfl, hcall', hevent', -, hrest'⟩ := own_head hrest
      have hr' : r' ∈ s.history := by simp [hs]
      obtain rfl := o.select_rows hr' hevent'
      obtain ⟨hrow, hid⟩ := claim_of_read hfound
      exact ⟨before ++ a ++ r :: a', r', b', by simp [hs], hcall', hrest', by rw [hevent']; rfl,
        .inl ⟨rfl, row, hrow, by simpa using hid, hne⟩⟩
  | foreign answer answer' existing hfound hforeign hsame =>
      obtain ⟨a, r, b, rfl, hcall, hevent, -, hrest⟩ := own_head hown
      obtain ⟨a', r', b', rfl, hcall', hevent', -, hrest'⟩ := own_head hrest
      have hr : r ∈ s.history := by simp [hs]
      have hr' : r' ∈ s.history := by simp [hs]
      obtain rfl := o.select_rows hr hevent
      obtain rfl := o.select_rows hr' hevent'
      obtain ⟨hrow, hkey⟩ := claim_of_read hfound
      refine ⟨before ++ a ++ r :: a', r', b', by simp [hs], hcall', hrest',
        by rw [hevent']; rfl, .inr ⟨rfl, ?_, ?_⟩⟩
      · -- The only row with this invocation id is the one the second read returned.
        rintro ⟨row, hmem, hid, hne⟩
        obtain ⟨found, hread⟩ := read_of_claim (p := fun row =>
          row.invocationId == request.invocationId) hmem (by simpa using hid)
        obtain ⟨hfoundMem, hfoundId⟩ := claim_of_read hread
        have hfoundId : found.invocationId = request.invocationId := by simpa using hfoundId
        obtain rfl := claim_eq_of_invocation (o.unique.1 r' hr') hmem hfoundMem
          (hid.trans hfoundId.symm)
        exact hne (hsame _ hread)
      · exact o.owned_last hr ⟨existing, hrow, by simpa using hkey, rfl⟩

/-- Without failures of the database, the row that refused a claim is found by the reads. -/
theorem not_lost {i : Nat} {request : Request} {fingerprint : Str} {answer answer' : List Row}
    {rest : List Happened} {history : List Step} (hs : s.history = before ++ en :: history)
    (hevent : en.event = ⟨insertClaim request fingerprint, .error .uniqueViolation⟩)
    (hfaultless : Faultless schema en)
    (hown : own i history = ⟨readByKey request, .ok answer⟩ ::
      ⟨readByInvocation request, .ok answer'⟩ :: rest)
    (hnone : answer.filterMap Row.claim? = [])
    (hsame : ∀ row, (answer'.filterMap Row.claim?).head? = some row →
      row.logicalOperationKey = buildGovernedLogicalOperationKey request) : False := by
  have hen : en ∈ s.history := by simp [hs]
  obtain ⟨choice, session', hfault, hrespond⟩ := hfaultless
  rw [o.idle en hen, hevent] at hrespond
  obtain ⟨error, -, hafter, hclash⟩ := (respond_insert hrespond).resolve_left
    (by rintro ⟨h, -⟩; cases h)
  obtain ⟨-, u, hu, hclash⟩ := hclash hfault
  obtain ⟨a, r, b, rfl, -, hread, -, hrest⟩ := own_head hown
  obtain ⟨a', r', b', rfl, -, hread', -, -⟩ := own_head hrest
  have hr : r ∈ s.history := by simp [hs]
  have hr' : r' ∈ s.history := by simp [hs]
  obtain rfl := o.select_rows hr hread
  obtain rfl := o.select_rows hr' hread'
  -- A row that excludes the new claim is a claim, of the same key or the same invocation.
  obtain ⟨row, rfl, hrow⟩ : ∃ row, u = .claim row ∧
      (row.logicalOperationKey = buildGovernedLogicalOperationKey request ∨
        row.invocationId = request.invocationId) := by
    cases u with
    | claim row =>
        refine ⟨row, rfl, ?_⟩
        simp only [schema, Row.clash, newClaim, Bool.or_eq_true, beq_iff_eq] at hclash
        exact hclash.imp Eq.symm Eq.symm
    | run row => simp [schema, Row.clash, Row.key] at hclash
    | step row => simp [schema, Row.clash, Row.key] at hclash
  have unread : ∀ row, Row.claim row ∈ r.before →
      row.logicalOperationKey ≠ buildGovernedLogicalOperationKey request := by
    intro row hmem hkey
    obtain ⟨found, hfound⟩ := read_of_claim (p := fun row =>
      row.logicalOperationKey == buildGovernedLogicalOperationKey request) hmem
      (by simpa using hkey)
    rw [hnone] at hfound
    cases hfound
  have hs₁ : s.history = before ++ en :: a ++ r :: (a' ++ r' :: b') := by simp [hs]
  have hs₂ : s.history = (before ++ en :: a) ++ r :: a' ++ r' :: b' := by simp [hs]
  have hfirst : Kept en.before r.before := hafter ▸ o.kept_later hs₁
  have hsecond : Kept r.before r'.before := Kept.trans _ _ _ (o.kept hr) (o.kept_later hs₂)
  obtain ⟨row₁, hrow₁, hkey₁, hid₁, -⟩ := hfirst row hu
  rcases hrow with hkey | hid
  · exact unread row₁ hrow₁ (hkey₁.trans hkey)
  · obtain ⟨row₂, hrow₂, hkey₂, hid₂, -⟩ := hsecond row₁ hrow₁
    have hid₂ : row₂.invocationId = request.invocationId := (hid₂.trans hid₁).trans hid
    obtain ⟨found, hfound⟩ := read_of_claim (p := fun row =>
      row.invocationId == request.invocationId) hrow₂ (by simpa using hid₂)
    obtain ⟨hmem, hfoundId⟩ := claim_of_read hfound
    have hfoundId : found.invocationId = request.invocationId := by simpa using hfoundId
    obtain rfl := claim_eq_of_invocation (o.unique.1 r' hr') hrow₂ hmem
      (hid₂.trans hfoundId.symm)
    exact unread row₁ hrow₁ (hkey₂.symm.trans (hsame _ hfound))

/-- Without failures of the database no statement of a call is broken. -/
theorem not_broken {event : Happened} (hen : en ∈ s.history) (hevent : en.event = event)
    (hfaultless : Faultless schema en) : ¬ Broken event := by
  obtain ⟨choice, session', hfault, hrespond⟩ := hfaultless
  rw [o.idle en hen, hevent] at hrespond
  obtain ⟨e, answer⟩ := event
  intro hbroken
  cases e with
  | stmt st =>
      cases st with
      | insert v =>
          rcases respond_insert hrespond with ⟨rfl, -⟩ | ⟨error, rfl, -, hunique⟩
          · exact hbroken
          · exact hbroken (hunique hfault).1
      | select p =>
          rcases (respond_select hrespond).2 with rfl | ⟨error, rfl, herror⟩
          · exact hbroken
          · rw [hfault] at herror
            cases herror
      | update p f => exact hbroken
  | _ => exact hbroken

/-- The event of the one insert of a call tells whether it has been refused. -/
theorem insert_event {i : Nat} {event event' : Happened} (hevent : event ∈ own i s.history)
    (hevent' : event' ∈ own i s.history) (hinsert : isInsert event.1 = true)
    (hinsert' : isInsert event'.1 = true) : event = event' := by
  obtain ⟨en, hen, hcall, rfl⟩ := mem_own.mp hevent
  obtain ⟨en', hen', hcall', rfl⟩ := mem_own.mp hevent'
  by_contra hne
  have hdiffer : en ≠ en' := fun h => hne (h ▸ rfl)
  obtain ⟨x, y, z, horder | horder⟩ := exists_two_splits hen hen' hdiffer
  · have := o.insert_unique horder (hcall.trans hcall'.symm) hinsert
    rw [this] at hinsert'
    cases hinsert'
  · have := o.insert_unique horder (hcall'.trans hcall.symm) hinsert'
    rw [this] at hinsert
    cases hinsert

end Observed

/-- The owner that a refusal names: another invocation, or the refused one itself. -/
def namedOwner (request : Request) (result : Result) : Str :=
  (result.normalizedError.bind (·.duplicateOfInvocationId)).getD request.invocationId

/-- A call ended as refused. Its last statement decided at the table it saw: a conflict if the
invocation id was bound to another operation there, else a duplicate of the true owner. After
it the call only reported its result, which it returned unless the report failed. -/
structure RefusedAs (s : Platform) (i : Nat) (request : Request)
    (outcome : Except Failure Result) (decision : List Row) (result : Result) : Prop where
  decided : ∃ (before : List Step) (en : Step) (after : List Step)
    (executionProfile : ExecutionProfile) (answer : Except Failure Unit),
    s.history = before ++ en :: after ∧ en.call = i ∧ isStatement en.event.1 = true ∧ en.before = decision ∧
    own i after = [⟨.ask (.auditInvocationComplete executionProfile result), answer⟩] ∧
    outcome = answer.map fun _ => result
  reason :
    result.normalizedError.map (·.reason) = some .invocationIdempotencyConflict ∧
        BoundElsewhere request decision ∨
      result.normalizedError.map (·.reason) = some .invocationDuplicate ∧
        ¬ BoundElsewhere request decision ∧
        OwnedBy request s.rows (namedOwner request result)

theorem Observed.refused_call (o : Observed calls rows s) {i : Nat} {call : Call}
    (hcall : calls[i]? = some call) {process : Process Row Ask Failure Ans Result}
    (hprocess : s.procs[i]? = some process) {outcome : Except Failure Result}
    (hended : process.prog.outcome = some outcome)
    (hfaultless : ∀ en ∈ s.history, en.call = i → Faultless schema en)
    {fingerprint : Str} {error : Failure}
    (hrefused : (⟨insertClaim call.2 fingerprint, .error error⟩ : Happened) ∈
      own i s.history) :
    ∃ decision result, RefusedAs s i call.2 outcome decision result := by
  have hprogram : (programs calls)[i]? = some (invoke call.1.persistent call.2) := by
    rw [programs, List.getElem?_map, hcall]
    rfl
  have unclaimed : ¬ Claimed call.2 (own i s.history) := by
    rintro ⟨fingerprint', answer, hclaimed⟩
    have := o.insert_event hrefused hclaimed rfl rfl
    cases this
  rcases o.recorded.ended hprogram (wp_invoke_gate call.1 call.2) hprocess hended with
    hclear | hclaimed | ⟨before, executionProfile, result, answer, hown, houtcome⟩
  · have := hclear _ hrefused
    cases this
  · exact absurd hclaimed unclaimed
  · obtain ⟨a, en, b, hs, hen, hevent, hbefore, hafter⟩ := own_split hown
    obtain ⟨call', hcall', hguard⟩ := o.guarded hs
    rw [hen, hcall] at hcall'
    cases hcall'
    rw [hen, hevent, hbefore] at hguard
    have hsub : before ⊆ own i s.history := hown ▸ List.subset_append_left _ _
    have hinsert : (⟨insertClaim call.2 fingerprint, .error error⟩ : Happened) ∈ before := by
      rw [hown] at hrefused
      rcases List.mem_append.mp hrefused with h | h
      · exact h
      · cases List.mem_singleton.mp h
    cases hguard with
    | unclaimed hclear =>
        have := hclear _ hinsert
        cases this
    | claimed hclaimed => exact absurd (hclaimed.mono hsub) unclaimed
    | broken event hmem hbroken =>
        obtain ⟨en', hen', hcall', hevent'⟩ := mem_own.mp (hsub hmem)
        exact absurd hbroken (o.not_broken hen' hevent' (hfaultless en' hen' hcall'))
    | lost first fingerprint' answer₁ answer₂ hlost hnone hsame =>
        rw [hlost, List.append_assoc] at hown
        obtain ⟨a₀, en₀, b₀, hs₀, hen₀, hevent₀, -, hrest⟩ := own_split hown
        have hfault := hfaultless en₀ (by simp [hs₀]) hen₀
        exact (o.not_lost hs₀ hevent₀ hfault hrest hnone hsame).elim
    | refused first reads fingerprint' provider reason owner hreads hrefusal hresult =>
        rw [hreads, List.append_assoc, List.cons_append] at hown
        obtain ⟨a₀, en₀, b₀, hs₀, -, -, -, hrest⟩ := own_split hown
        have hs₀' : s.history = (a₀ ++ [en₀]) ++ b₀ := by simp [hs₀]
        obtain ⟨before', last, after', hs', hlast, hreport, hstatement, hreason⟩ :=
          o.refusal hs₀' hrest hrefusal
        refine ⟨last.before, result, ⟨⟨before', last, after', executionProfile, answer, hs',
          hlast, hstatement, rfl, hreport, houtcome⟩, ?_⟩⟩
        rw [hresult]
        exact hreason.imp (fun h => ⟨congrArg some h.1, h.2⟩) fun h => ⟨congrArg some h.1, h.2⟩

/-- At-most-once execution in one state of the platform. -/
structure AtMostOnce (calls : List Call) (s : Platform) : Prop where
  /-- No two executions of consequential actions share a key or an invocation. -/
  executions : ∀ (before between after : List Step) (en en' : Step) (call call' : Call),
    s.history = before ++ en :: between ++ en' :: after →
    isExecute en.event.1 = true → isExecute en'.event.1 = true →
    calls[en.call]? = some call → calls[en'.call]? = some call' →
    isConsequentialExecutionAction call.2.requestedAction = true →
    isConsequentialExecutionAction call'.2.requestedAction = true →
    buildGovernedLogicalOperationKey call.2 ≠ buildGovernedLogicalOperationKey call'.2 ∧
      call.2.invocationId ≠ call'.2.invocationId
  constraints : Unique schema s.rows
  /-- A claim row stays, under its key and its owner. -/
  owners : ∀ en ∈ s.history, ∀ row, Row.claim row ∈ en.before →
    ∃ row', Row.claim row' ∈ s.rows ∧
      row'.logicalOperationKey = row.logicalOperationKey ∧ row'.invocationId = row.invocationId
  /-- A state that has left IN_PROGRESS is the last one. -/
  settled : ∀ en ∈ s.history, ∀ row, Row.claim row ∈ en.before → row.state ≠ .inProgress →
    Row.claim row ∈ s.rows
  /-- Only the call that obtained a claim changes its row, and it owns it. -/
  completions : ∀ (before after : List Step) (en : Step) (row : GovernedInvocationClaim),
    s.history = before ++ en :: after →
    Row.claim row ∈ en.before → Row.claim row ∉ en.after →
    row.state = .inProgress ∧ ∃ call, calls[en.call]? = some call ∧
      row.logicalOperationKey = buildGovernedLogicalOperationKey call.2 ∧
      row.invocationId = call.2.invocationId ∧ Claimed call.2 (own en.call before)
  /-- A call whose claim was refused ends as refused, unless the database itself fails it. -/
  refusals : ∀ (i : Nat) (call : Call) (process : Process Row Ask Failure Ans Result)
    (outcome : Except Failure Result) (fingerprint : Str) (error : Failure),
    calls[i]? = some call → s.procs[i]? = some process →
    process.prog.outcome = some outcome →
    (∀ en ∈ s.history, en.call = i → Faultless schema en) →
    (⟨insertClaim call.2 fingerprint, .error error⟩ : Happened) ∈ own i s.history →
    ∃ decision result, RefusedAs s i call.2 outcome decision result

/-- Any number of calls, in any interleaving over a database that keeps its constraints,
execute each consequential operation at most once. -/
theorem invoke_atMostOnce (calls : List Call) (rows : List Row) (s : Platform)
    (hrows : Unique schema rows)
    (h : System.Reaches schema (fun _ => True) (System.start rows (programs calls)) s) :
    AtMostOnce calls s := by
  have o := observed hrows h
  refine ⟨?_, o.unique.2, ?_, ?_, ?_, ?_⟩
  · intro before between after en en' call call' hs hen hen' hcall hcall' haction haction'
    exact o.executions_apart hs hen hen' hcall hcall' haction haction'
  · intro en hen row hrow
    obtain ⟨row', hrow', hkey, hid, -⟩ := o.kept_last hen row hrow
    exact ⟨row', hrow', hkey, hid⟩
  · intro en hen row hrow hstate
    obtain ⟨row', hrow', -, -, hsame⟩ := o.kept_last hen row hrow
    rwa [hsame hstate] at hrow'
  · intro before after en row hs hbefore hafter
    have hen : en ∈ s.history := by simp [hs]
    obtain ⟨call, hcall, hstep⟩ := o.step hs
    obtain ⟨hkey, hid, hclaimed⟩ := hstep.left (o.unique.1 en hen) hbefore hafter
    refine ⟨?_, call, hcall, hkey, hid, hclaimed⟩
    by_contra hstate
    obtain ⟨row', hrow', -, -, hsame⟩ := o.kept hen row hbefore
    rw [hsame hstate] at hrow'
    exact hafter hrow'
  · intro i call process outcome fingerprint error hcall hprocess hended hfaultless hrefused
    exact o.refused_call hcall hprocess hended hfaultless hrefused

end Runs

/-- Two attempts at one operation. -/
def retryCalls : List Call :=
  [(agentDependencies, agentRequest),
    (agentDependencies, { agentRequest with invocationId := "retry".toList })]

/-- The two attempts, step by step in turn. -/
def retrySchedule : List (Nat × Choice Failure Ans) :=
  (List.replicate 13 [(0, ⟨none, agentAnswers⟩), (1, ⟨none, agentAnswers⟩)]).flatten

theorem invoke_atMostOnce_retry :
    ∃ s, (System.start [] (programs retryCalls)).run schema retrySchedule = some s ∧
      AtMostOnce retryCalls s := by
  have hsome : ((System.start [] (programs retryCalls)).run schema retrySchedule).isSome =
      true := by decide +kernel
  obtain ⟨s, hs⟩ := Option.isSome_iff_exists.mp hsome
  have hempty : Unique schema ([] : List Row) := ⟨List.nodup_nil, by simp⟩
  exact ⟨s, hs, invoke_atMostOnce retryCalls [] s hempty
    (System.run_reaches (fun _ _ => trivial) .refl hs)⟩

end Invocation
