import VitoPlatform.Dispatch.ApprovalCalls

/-!
# The safety of build approvals

Any number of calls to the approval service and of dispatches, interleaved at their database
statements. Consuming is a guarded update, so an approval is consumed once at most, before it
expires and before it is revoked, and a provider is invoked for CODE_BUILD only after the call
has consumed an approval of its own. Revoking is a read followed by an update under the id
alone: where a consumption commits in between, the approval ends both consumed and revoked, and
nowhere else (`approval_safe_iff`).
-/

namespace Dispatch

open Text Invocation Database Prog

/-! ## Runs -/

section Runs

variable {allowed : Choice Failure Ans → Prop} {service : AgentWorkforceService}
variable {requests : List Request} {s : System CodeBuildApproval Ask Failure Ans Reply}
variable {past future : List LogEntry} {en : LogEntry} {id : Str}

/-- What the call of a process may do. -/
def MayAt (service : AgentWorkforceService) (requests : List Request) (i : Nat)
    (t : List Happened) (e : Effect CodeBuildApproval Ask) : Prop :=
  ∃ request, requests[i]? = some request ∧ May service request t e

theorem programs_hold (i : Nat) (p : Program Reply)
    (hp : (requests.map (Request.program service))[i]? = some p) :
    wp (Disciplined (MayAt service requests i)) p (fun _ _ => True) (fun _ _ => True) [] := by
  rw [List.getElem?_map, Option.map_eq_some_iff] at hp
  obtain ⟨request, hrequest, rfl⟩ := hp
  exact wp_guard_mono (program_holds service request) fun t e h => ⟨⟨request, hrequest, h.1⟩, h.2⟩

theorem Writes.keeps_id {t : List Happened} {request : Request} {p : CodeBuildApproval → Bool}
    {f : CodeBuildApproval → CodeBuildApproval} (h : Writes service t (.update p f) request)
    (u : CodeBuildApproval) : (f u).id = u.id := by
  cases request with
  | create organizationId userId dto =>
      obtain ⟨_, _, _, h⟩ := h
      cases h
  | revoke organizationId userId id =>
      obtain ⟨-, now, h⟩ := h
      cases h
      rfl
  | consume organizationId machineUserId id dto =>
      obtain ⟨_, now, -, h⟩ := h
      cases h
      rfl
  | consumeForDispatch organizationId machineUserId id dto executionTarget =>
      obtain ⟨-, now, -, h⟩ := h
      cases h
      rfl
  | dispatch input =>
      obtain ⟨_, _, -, -, now, -, h⟩ := h
      cases h
      rfl

theorem keyed_nil : Keyed schema [] := List.nodup_nil

/-- What a step of a run publishes, one of its statements has written. -/
theorem Run.writtenAt (h : Run allowed service requests s)
    (hs : s.history = past ++ en :: future) (hpublished : en.published ≠ []) :
    ∃ request st answer A e, requests[en.call]? = some request ∧
      WrittenAt schema past en st answer A e ∧ Writes service (own en.call A) st request := by
  have hwritten := System.Reaches.writtenAt h keyed_nil programs_hold ?_ hs
  · rcases hwritten with hnone | ⟨st, answer, A, e, hwritten, request, hrequest, hmay⟩
    · exact absurd hnone hpublished
    refine ⟨request, st, answer, A, e, hrequest, hwritten, ?_⟩
    cases st with
    | select p =>
        exact absurd hwritten.publishes hpublished
    | update p f => exact hmay
    | insert v => exact hmay
  · rintro i t p f ⟨request, -, hmay⟩ u -
    exact Writes.keeps_id hmay u

theorem Run.made (h : Run allowed service requests s) (hs : s.history = past ++ en :: future)
    {w : CodeBuildApproval} (hw : w ∈ en.published) :
    ∃ request, requests[en.call]? = some request ∧ Made en.before w request := by
  obtain ⟨request, st, answer, A, e, hrequest, hwritten, hwrites⟩ :=
    h.writtenAt hs (List.ne_nil_of_mem hw)
  exact ⟨request, hrequest, hwrites.made hwritten.publishes hw⟩

theorem Run.disciplined (h : Run allowed service requests s)
    (hs : s.history = past ++ en :: future) {request : Request}
    (hrequest : requests[en.call]? = some request) :
    Disciplined (May service request) (own en.call past) en.event.1 := by
  obtain ⟨⟨request', hrequest', hmay⟩, hrest⟩ :=
    System.Reaches.disciplined h programs_hold hs
  rw [hrequest] at hrequest'
  obtain rfl := Option.some.inj hrequest'
  exact ⟨hmay, hrest⟩

/-- A committed approval stays, and evolves. -/
theorem Run.evolves_step (h : Run allowed service requests s)
    (hs : s.history = past ++ en :: future) {a : CodeBuildApproval}
    (ha : find schema en.before id = some a) :
    ∃ b, find schema en.after id = some b ∧ Evolves a b := by
  rcases h.ledger.find_step hs id with hsame | ⟨w, hw, hkey, hfound⟩
  · exact ⟨a, hsame.trans ha, .refl a⟩
  · obtain ⟨request, -, hmade⟩ := h.made hs hw
    have hid : w.id = id := hkey
    rw [← hid] at ha
    exact ⟨w, hfound, hmade.evolves ha⟩

/-- It evolves up to any later table of the run. -/
theorem Run.evolves (h : Run allowed service requests s) {A B C : List LogEntry} {e : LogEntry}
    {last : List CodeBuildApproval} (hs : s.history = A ++ e :: (B ++ C))
    (hledger : Ledger schema [] (A ++ e :: B) last) {a : CodeBuildApproval}
    (ha : find schema e.after id = some a) : ∃ b, find schema last id = some b ∧ Evolves a b := by
  refine hledger.since (P := fun rows => ∃ b, find schema rows id = some b ∧ Evolves a b) rfl
    ⟨a, ha, .refl a⟩ ?_
  rintro M b N rfl ⟨c, hc, hevolves⟩
  have hb : s.history = (A ++ e :: M) ++ b :: (N ++ C) := by
    rw [hs]
    simp
  obtain ⟨d, hd, hnext⟩ := h.evolves_step hb hc
  exact ⟨d, hd, hevolves.trans hnext⟩

theorem Run.evolves_between (h : Run allowed service requests s) {A B C : List LogEntry}
    {e e' : LogEntry} (hs : s.history = A ++ e :: (B ++ e' :: C)) {a : CodeBuildApproval}
    (ha : find schema e.after id = some a) :
    ∃ b, find schema e'.before id = some b ∧ Evolves a b := by
  have hledger := h.ledger
  rw [hs, ← List.cons_append, ← List.append_assoc] at hledger
  exact h.evolves hs (hledger.take rfl) ha

theorem Run.evolves_since (h : Run allowed service requests s)
    (hs : s.history = past ++ en :: future) {a : CodeBuildApproval}
    (ha : find schema en.after id = some a) :
    ∃ b, find schema s.rows id = some b ∧ Evolves a b := by
  have hledger := h.ledger
  rw [hs] at hledger
  exact h.evolves (C := []) (by rw [hs, List.append_nil]) hledger ha

/-! ## Consumptions and revocations -/

/-- The approval a call consumes if it succeeds. -/
def Request.consumes : Request → Option Str
  | .consume _ _ id _ => some id
  | .consumeForDispatch _ _ id _ _ => some id
  | .dispatch input => input.codeBuildApproval.map fun evidence => evidence.approvalId
  | _ => none

/-- The step consumes the approval: it publishes the row of a call that does. -/
structure Consumes (requests : List Request) (en : LogEntry) (id : Str) : Prop where
  request : ∃ request, requests[en.call]? = some request ∧ request.consumes = some id
  published : ∃ w ∈ en.published, w.id = id

/-- The step by which a call to revoke the approval succeeds. -/
structure Acknowledges (requests : List Request) (en : LogEntry) (id : Str) : Prop where
  event : en.event = ⟨.commit, .ok ()⟩
  request : ∃ organizationId userId, requests[en.call]? = some (.revoke organizationId userId id)

/-- A consumption, seen from the committed rows before and after it. -/
structure Consumption (past : List LogEntry) (en : LogEntry) (id : Str)
    (u w : CodeBuildApproval) (now : Int) : Prop where
  found : find schema en.before id = some u
  available : available now u = true
  after : find schema en.after id = some w
  consumedAt : w.consumedAt = some now
  expiresAt : w.expiresAt = u.expiresAt
  clock : ⟨.ask .now, .ok now⟩ ∈ own en.call past

theorem ClaimMade.consumed {claim : DispatchClaim} {before : List CodeBuildApproval}
    {u w : CodeBuildApproval} {now : Int} (h : ClaimMade claim before w u now) :
    w.consumedAt = some now ∧ w.expiresAt = u.expiresAt ∧ w.id = claim.id ∧
      w.executionTarget = some claim.executionTarget ∧ w.scope = u.scope := by
  obtain ⟨requestHash, targetHash, rfl⟩ := h.row
  exact ⟨rfl, rfl, find_key h.found, rfl, rfl⟩

theorem Writes.consumes {t : List Happened} {st : Stmt CodeBuildApproval} {request : Request}
    {before published : List CodeBuildApproval} {w : CodeBuildApproval}
    (h : Writes service t st request) (hconsumes : request.consumes = some id)
    (hpublishes : Publishes schema before published st) (hw : w ∈ published) :
    w.id = id ∧ ∃ u now, ⟨.ask .now, .ok now⟩ ∈ t ∧ find schema before id = some u ∧
      available now u = true ∧ w.consumedAt = some now ∧ w.expiresAt = u.expiresAt := by
  have claimed : ∀ {claim : DispatchClaim}, claim.id = id → claim.WrittenBy service.hash t st →
      w.id = id ∧ ∃ u now, ⟨.ask .now, .ok now⟩ ∈ t ∧ find schema before id = some u ∧
        available now u = true ∧ w.consumedAt = some now ∧ w.expiresAt = u.expiresAt := by
    rintro claim rfl hwritten
    obtain ⟨u, now, hnow, hmade⟩ := hwritten.made hpublishes hw
    obtain ⟨hconsumed, hexpires, hid, -⟩ := hmade.consumed
    exact ⟨hid, u, now, hnow, hmade.found, hmade.available, hconsumed, hexpires⟩
  cases request with
  | create organizationId userId dto | revoke organizationId userId id' => cases hconsumes
  | consume organizationId machineUserId id' dto =>
      obtain rfl : id' = id := Option.some.inj hconsumes
      obtain ⟨requestHash, now, hnow, rfl⟩ := h
      obtain ⟨u, hu, hp, rfl, -⟩ := hpublishes w hw
      rw [Bool.and_eq_true, approvalOf_iff] at hp
      obtain ⟨⟨rfl, -⟩, havailable⟩ := hp
      exact ⟨rfl, u, now, hnow, hu, havailable, rfl, rfl⟩
  | consumeForDispatch organizationId machineUserId id' dto executionTarget =>
      have hid : id' = id := Option.some.inj hconsumes
      have hwritten : DispatchClaim.WrittenBy
        ⟨organizationId, machineUserId, id', dto, executionTarget⟩ service.hash t st := h
      exact claimed hid hwritten
  | dispatch input =>
      obtain ⟨evidence, executionTarget, hevidence, hwritten⟩ := h
      simp only [Request.consumes, hevidence, Option.map_some, Option.some.injEq] at hconsumes
      exact claimed hconsumes hwritten

/-- A consumption takes an available approval, and stamps it with a time its call has read. -/
theorem Run.consumption (h : Run allowed service requests s)
    (hs : s.history = past ++ en :: future) (hconsumes : Consumes requests en id) :
    ∃ u w now, Consumption past en id u w now := by
  obtain ⟨w, hw, rfl⟩ := hconsumes.published
  obtain ⟨request, hrequest, hof⟩ := hconsumes.request
  obtain ⟨w', hw', hkey, hafter⟩ := h.ledger.find_published hs hw
  obtain ⟨request', st, answer, A, e, hrequest', hwritten, hwrites⟩ :=
    h.writtenAt hs (List.ne_nil_of_mem hw)
  rw [hrequest] at hrequest'
  obtain rfl := Option.some.inj hrequest'
  obtain ⟨-, u, now, hnow, hfound, havailable, hconsumed, hexpires⟩ :=
    hwrites.consumes hof hwritten.publishes hw'
  refine ⟨u, w', now, hfound, havailable, hafter, hconsumed, hexpires, ?_⟩
  obtain ⟨C, rfl⟩ := hwritten.past_eq
  rw [own_append]
  exact List.mem_append_left _ hnow

/-- What a transaction has found before it writes are committed rows. -/
theorem Run.found (h : Run allowed service requests s) (hs : s.history = past ++ en :: future)
    {organizationId : Str} {row : CodeBuildApproval}
    (hfound : FoundApproval organizationId id (own en.call past) row) :
    ∃ A r B, past = A ++ r :: B ∧ r.call = en.call ∧
      (∃ p rows, r.event = ⟨.stmt (.select p), .ok rows⟩) ∧
        find schema r.before id = some row ∧ r.after = r.before := by
  obtain ⟨a, rest, b, hown, pre, tx, rfl, hquiet, hnone⟩ := hfound
  obtain ⟨A, r, B, rfl, hcall, hevent, hA, -⟩ := own_split hown
  rw [List.append_assoc, List.cons_append] at hs
  have haccounted := h.ledger.accounted _ _ _ hs
  have hsession : r.session = ⟨.active, tx.flatMap written⟩ := by
    rw [haccounted.session, hcall, hA, sessionAfter_begin hquiet]
  obtain ⟨-, hanswer⟩ := haccounted.answer _ _ hevent
  rw [hsession, hnone] at hanswer
  have hrows : r.before.filter (approvalOf organizationId id) = row :: rest :=
    (Prod.mk.inj (Option.some.inj hanswer)).1
  have hrow : row ∈ r.before.filter (approvalOf organizationId id) := by
    rw [hrows]
    exact List.mem_cons_self
  obtain ⟨hmem, hof⟩ := List.mem_filter.mp hrow
  obtain ⟨rfl, -⟩ := approvalOf_iff.mp hof
  have hkeyed : Keyed schema r.before := (h.ledger.take hs).keyed keyed_nil
  refine ⟨A, r, B, rfl, hcall, ⟨_, _, hevent⟩, hkeyed.mem_iff.mp hmem, ?_⟩
  have hpublished : r.published = [] := by
    unfold Entry.published
    rw [hevent]
    exact publishes_nil (by rw [hsession]) trivial
  rw [haccounted.after, hpublished]
  rfl

/-- Once a revocation has succeeded the approval is revoked. -/
theorem Run.acknowledged (h : Run allowed service requests s)
    (hs : s.history = past ++ en :: future) (hack : Acknowledges requests en id) :
    ∃ b, find schema en.after id = some b ∧ b.revokedAt.isSome = true := by
  obtain ⟨hevent, organizationId, userId, hrequest⟩ := hack
  have hdisciplined := h.disciplined hs hrequest
  rw [hevent] at hdisciplined
  have hledger := h.ledger
  rw [hs] at hledger
  rcases hdisciplined.1 with ⟨row, hfound, hrevoked⟩ | ⟨pre, reads, asks, answer, now, hwrote, hne⟩
  · -- It had been revoked before: the row has evolved since.
    obtain ⟨A, r, B, rfl, -, -, hrow, hsame⟩ := h.found hs hfound
    rw [List.append_assoc, List.cons_append] at hs
    rw [← hsame] at hrow
    obtain ⟨b, hb, hevolves⟩ := h.evolves_between hs hrow
    have hs' : s.history = (A ++ r :: B) ++ en :: future := by
      rw [hs]
      simp
    obtain ⟨c, hc, hevolves'⟩ := h.evolves_step hs' hb
    exact ⟨c, hc, hevolves'.revoked (hevolves.revoked hrevoked)⟩
  · have hpublished := hwrote.published hledger hevent
    obtain ⟨w, hw⟩ : ∃ w, w ∈ en.published := by
      rw [hpublished]
      exact List.exists_mem_of_ne_nil _ hne
    obtain ⟨w', hw', hkey, hafter⟩ := h.ledger.find_published hs hw
    -- Whatever the call publishes is a revoked row of this approval.
    have revoked : ∀ w ∈ en.published, w.id = id ∧ w.revokedAt.isSome = true := by
      intro w hw
      obtain ⟨request, hrequest', hmade⟩ := h.made hs hw
      rw [hrequest] at hrequest'
      obtain rfl := Option.some.inj hrequest'
      cases hmade with
      | revoked u now hu hwu =>
          rw [hwu]
          exact ⟨find_key hu, rfl⟩
    have hid : schema.key w = id := (revoked w hw).1
    rw [hid] at hafter
    exact ⟨w', hafter, (revoked w' hw').2⟩

/-- Only a consumption makes an approval consumed. -/
theorem Run.consumes_of_change (h : Run allowed service requests s)
    (hs : s.history = past ++ en :: future) {a b : CodeBuildApproval}
    (ha : find schema en.before id = some a) (hfree : a.consumedAt = none)
    (hb : find schema en.after id = some b) (htaken : b.consumedAt.isSome = true) :
    Consumes requests en id := by
  rcases h.ledger.find_step hs id with hsame | ⟨w, hw, hkey, hfound⟩
  · rw [hsame, ha] at hb
    rw [← Option.some.inj hb, hfree] at htaken
    cases htaken
  rw [hfound] at hb
  obtain rfl := Option.some.inj hb
  obtain ⟨request, hrequest, hmade⟩ := h.made hs hw
  have hid : w.id = id := hkey
  refine ⟨⟨request, hrequest, ?_⟩, w, hw, hid⟩
  -- The approval of the call is the one of the row.
  have same : ∀ {u : CodeBuildApproval} {id' : Str}, find schema en.before id' = some u →
      w.id = u.id → id' = id := by
    intro u id' hu hwu
    have hkeyed : u.id = id' := find_key hu
    rw [← hkeyed, ← hwu, hid]
  cases hmade with
  | granted id' requestHash approvedAt _ hfresh =>
      rw [hid, ha] at hfresh
      cases hfresh
  | revoked u now hu hwu =>
      obtain rfl := same hu (by rw [hwu]; rfl)
      rw [ha] at hu
      rw [hwu, ← Option.some.inj hu] at htaken
      have hsome : a.consumedAt.isSome = true := htaken
      rw [hfree] at hsome
      cases hsome
  | consumed u now requestHash hu _ hwu => exact congrArg some (same hu (by rw [hwu]; rfl))
  | claimed u now hclaim =>
      exact congrArg some (same hclaim.found (hclaim.consumed.2.2.1.trans (find_key hclaim.found).symm))
  | dispatched evidence executionTarget u now hevidence hclaim =>
      rw [Request.consumes, hevidence]
      exact congrArg some (same hclaim.found (hclaim.consumed.2.2.1.trans (find_key hclaim.found).symm))

/-! ## Safety -/

/-- The step invokes a provider for CODE_BUILD, in a dispatch that brings this approval. -/
structure Invokes (requests : List Request) (en : LogEntry) (id : Str) : Prop where
  event : ∃ operation r, en.event = ⟨.ask (.execute operation), r⟩ ∧
    operation.capabilityCode = codeBuild
  request : ∃ input evidence, requests[en.call]? = some (.dispatch input) ∧
    input.codeBuildApproval = some evidence ∧ evidence.approvalId = id

/-- What is promised of approvals, over a whole run. -/
structure Safe (requests : List Request) (s : System CodeBuildApproval Ask Failure Ans Reply) :
    Prop where
  consumedOnce : ∀ A e B e' C id, s.history = A ++ e :: (B ++ e' :: C) →
    Consumes requests e id → ¬ Consumes requests e' id
  /-- It is consumed at a time the call has read from the clock, before the expiry. -/
  beforeExpiry : ∀ past en future id, s.history = past ++ en :: future →
    Consumes requests en id → ∃ w now, find schema en.after id = some w ∧
      w.consumedAt = some now ∧ now < w.expiresAt ∧ ⟨.ask .now, .ok now⟩ ∈ own en.call past
  beforeRevocation : ∀ past en future id, s.history = past ++ en :: future →
    Consumes requests en id → ∀ c ∈ past, ¬ Acknowledges requests c id
  exclusive : ∀ en ∈ s.history, ∀ r ∈ en.after,
    ¬ (r.consumedAt.isSome = true ∧ r.revokedAt.isSome = true)
  /-- A successful `consumeForDispatch` has recorded a target within the approval's scope. -/
  recorded : ∀ past en future organizationId machineUserId id dto executionTarget,
    s.history = past ++ en :: future → en.event = ⟨.commit, .ok ()⟩ →
      requests[en.call]? =
        some (.consumeForDispatch organizationId machineUserId id dto executionTarget) →
        ∃ r, find schema s.rows id = some r ∧ r.executionTarget = some executionTarget ∧
          codeBuildTargetMatchesApprovalScope executionTarget r.scope = true
  /-- A provider is invoked for CODE_BUILD by a dispatch that has consumed its approval for the
  target it runs. -/
  approved : ∀ past en future operation r, s.history = past ++ en :: future →
    en.event = ⟨.ask (.execute operation), r⟩ → operation.capabilityCode = codeBuild →
      ∃ c ∈ past, ∃ id w, c.call = en.call ∧ Invokes requests en id ∧ Consumes requests c id ∧
        find schema c.after id = some w ∧ w.executionTarget.isSome = true ∧
          w.executionTarget = operation.codeBuildExecutionTarget
  unshared : ∀ A e B e' C id, s.history = A ++ e :: (B ++ e' :: C) →
    Invokes requests e id → ¬ Invokes requests e' id

/-- A consumption of an approval commits between the read and the commit of a revocation. -/
def Overtaken (requests : List Request) (history : List LogEntry) : Prop :=
  ∃ A r B c C organizationId userId id, history = A ++ r :: (B ++ c :: C) ∧ r.call = c.call ∧
    requests[c.call]? = some (.revoke organizationId userId id) ∧
    (∃ p rows, r.event = ⟨.stmt (.select p), .ok rows⟩) ∧ (∃ w ∈ c.published, w.id = id) ∧
    ∃ b ∈ B, Consumes requests b id

theorem Run.consumed_once (h : Run allowed service requests s) {A B C : List LogEntry}
    {e e' : LogEntry} (hs : s.history = A ++ e :: (B ++ e' :: C))
    (hconsumes : Consumes requests e id) : ¬ Consumes requests e' id := by
  intro hconsumes'
  obtain ⟨u, w, now, hfirst⟩ := h.consumption hs hconsumes
  have hs' : s.history = (A ++ e :: B) ++ e' :: C := by
    rw [hs]
    simp
  obtain ⟨u', w', now', hsecond⟩ := h.consumption hs' hconsumes'
  obtain ⟨b, hb, hevolves⟩ := h.evolves_between hs hfirst.after
  rw [hsecond.found] at hb
  obtain rfl := Option.some.inj hb
  have hconsumed := (hevolves.consumed (by rw [hfirst.consumedAt]; rfl)).1
  rw [(available_iff.mp hsecond.available).1, hfirst.consumedAt] at hconsumed
  cases hconsumed

theorem Run.consumed_unrevoked (h : Run allowed service requests s)
    (hs : s.history = past ++ en :: future) (hconsumes : Consumes requests en id) :
    ∀ c ∈ past, ¬ Acknowledges requests c id := by
  intro c hc hack
  obtain ⟨A, B, rfl⟩ := List.append_of_mem hc
  rw [List.append_assoc, List.cons_append] at hs
  obtain ⟨a, ha, hrevoked⟩ := h.acknowledged hs hack
  obtain ⟨b, hb, hevolves⟩ := h.evolves_between hs ha
  have hs' : s.history = (A ++ c :: B) ++ en :: future := by
    rw [hs]
    simp
  obtain ⟨u, w, now, hconsumption⟩ := h.consumption hs' hconsumes
  rw [hconsumption.found] at hb
  obtain rfl := Option.some.inj hb
  have hsome := hevolves.revoked hrevoked
  rw [(available_iff.mp hconsumption.available).2.1] at hsome
  cases hsome

/-- The commit of a call that has taken an approval for a target. -/
theorem Run.taken (h : Run allowed service requests s) (hs : s.history = past ++ en :: future)
    (hevent : en.event = ⟨.commit, .ok ()⟩) {claim : DispatchClaim}
    (htaken : claim.Taken service.hash (own en.call past)) :
    ∃ w u now, w ∈ en.published ∧ w.id = claim.id ∧ find schema en.after claim.id = some w ∧
      ClaimMade claim en.before w u now := by
  obtain ⟨pre, reads, asks, st, answer, hwrote, hone, hwritten⟩ := htaken
  have hledger := h.ledger
  rw [hs] at hledger
  have hpublished := hwrote.published hledger hevent
  obtain ⟨A, e, hat⟩ : ∃ A e, WrittenAt schema past en st answer A e := by
    refine hwrote.writtenAt hledger keyed_nil hevent ?_
    obtain ⟨-, now, -, rfl⟩ := hwritten
    intro p f hst u _
    cases hst
    rfl
  have hanswer : en.published = answer := by
    obtain ⟨-, now, -, rfl⟩ := hwritten
    exact hpublished
  obtain ⟨w, hw⟩ : ∃ w, w ∈ en.published := by
    rw [hanswer]
    exact List.exists_mem_of_length_pos (by omega)
  obtain ⟨w', hw', hkey, hafter⟩ := h.ledger.find_published hs hw
  obtain ⟨u, now, -, hmade⟩ := hwritten.made hat.publishes hw
  obtain ⟨u', now', -, hmade'⟩ := hwritten.made hat.publishes hw'
  have hid : schema.key w = claim.id := hmade.consumed.2.2.1
  rw [hid] at hafter
  exact ⟨w', u', now', hw', hmade'.consumed.2.2.1, hafter, hmade'⟩

theorem Run.recorded (h : Run allowed service requests s) (hs : s.history = past ++ en :: future)
    {organizationId machineUserId : Str} {dto : ConsumeCodeBuildApprovalDto}
    {executionTarget : CodeBuildExecutionTarget} (hevent : en.event = ⟨.commit, .ok ()⟩)
    (hrequest : requests[en.call]? =
      some (.consumeForDispatch organizationId machineUserId id dto executionTarget)) :
    ∃ r, find schema s.rows id = some r ∧ r.executionTarget = some executionTarget ∧
      codeBuildTargetMatchesApprovalScope executionTarget r.scope = true := by
  have hdisciplined := h.disciplined hs hrequest
  rw [hevent] at hdisciplined
  obtain ⟨w, u, now, -, -, hafter, hmade⟩ := h.taken hs hevent hdisciplined.1
  obtain ⟨hconsumed, -, -, htarget, hscope⟩ := hmade.consumed
  obtain ⟨r, hr, hevolves⟩ := h.evolves_since hs hafter
  refine ⟨r, hr, ?_, ?_⟩
  · rw [(hevolves.consumed (by rw [hconsumed]; rfl)).2, htarget]
  · rw [hevolves.scope, hscope, hmade.scope]
    exact hmade.matched

theorem Run.approved (h : Run allowed service requests s) (hs : s.history = past ++ en :: future)
    {operation : GovernedOperation}
    {r : Except Failure (Answer CodeBuildApproval Ans (.ask (.execute operation)))}
    (hevent : en.event = ⟨.ask (.execute operation), r⟩)
    (hcapability : operation.capabilityCode = codeBuild) :
    ∃ c ∈ past, ∃ id w, c.call = en.call ∧ Invokes requests en id ∧ Consumes requests c id ∧
      find schema c.after id = some w ∧ w.executionTarget.isSome = true ∧
        w.executionTarget = operation.codeBuildExecutionTarget := by
  obtain ⟨⟨request, hrequest, hmay⟩, -⟩ := System.Reaches.disciplined h programs_hold hs
  rw [hevent] at hmay
  have happroved := hmay.2 hcapability
  cases request with
  | create | revoke | consume | consumeForDispatch => exact happroved.elim
  | dispatch input =>
      obtain ⟨evidence, executionTarget, a, b, hevidence, htarget, hown, htaken⟩ := happroved
      obtain ⟨A, c, B, rfl, hcall, hcommit, hA, -⟩ := own_split hown
      rw [List.append_assoc, List.cons_append] at hs
      rw [← hA, ← hcall] at htaken
      obtain ⟨w, u, now, hw, hid, hafter, hmade⟩ := h.taken hs hcommit htaken
      obtain ⟨-, -, -, hrecorded, -⟩ := hmade.consumed
      refine ⟨c, by simp, evidence.approvalId, w, hcall, ⟨⟨operation, r, hevent, hcapability⟩,
        input, evidence, hrequest, hevidence, rfl⟩, ⟨⟨.dispatch input, hcall ▸ hrequest, ?_⟩, w, hw,
        hid⟩, hafter, by rw [hrecorded]; rfl, hrecorded.trans htarget.symm⟩
      rw [Request.consumes, hevidence]
      rfl

theorem Invokes.unique {id' : Str} (h : Invokes requests en id) (h' : Invokes requests en id') :
    id' = id := by
  obtain ⟨input, evidence, hrequest, hevidence, rfl⟩ := h.request
  obtain ⟨input', evidence', hrequest', hevidence', rfl⟩ := h'.request
  rw [hrequest] at hrequest'
  cases hrequest'
  rw [hevidence] at hevidence'
  cases hevidence'
  rfl

theorem Run.unshared (h : Run allowed service requests s) {A B C : List LogEntry}
    {e e' : LogEntry} (hs : s.history = A ++ e :: (B ++ e' :: C)) (hinvokes : Invokes requests e id) :
    ¬ Invokes requests e' id := by
  intro hinvokes'
  have hs' : s.history = (A ++ e :: B) ++ e' :: C := by
    rw [hs]
    simp
  obtain ⟨operation, r, hevent, hcapability⟩ := hinvokes.event
  obtain ⟨operation', r', hevent', hcapability'⟩ := hinvokes'.event
  obtain ⟨c, hc, id₁, w, hcall, hof, hconsumes, -⟩ := h.approved hs hevent hcapability
  obtain ⟨c', hc', id₂, w', hcall', hof', hconsumes', -⟩ := h.approved hs' hevent' hcapability'
  obtain rfl := hinvokes.unique hof
  obtain rfl := hinvokes'.unique hof'
  by_cases hsame : e.call = e'.call
  · -- A call invokes once.
    obtain ⟨⟨request, -, hmay⟩, -⟩ := System.Reaches.disciplined h programs_hold hs'
    rw [hevent'] at hmay
    have hmem : e.event ∈ own e'.call (A ++ e :: B) := mem_own.mpr ⟨e, by simp, hsame, rfl⟩
    have huninvoked := hmay.1 _ hmem
    rw [hevent] at huninvoked
    cases huninvoked
  · have hne : c ≠ c' := by
      rintro rfl
      exact hsame (hcall.symm.trans hcall')
    have hmem : c ∈ s.history := by
      rw [hs]
      exact List.mem_append_left _ hc
    have hmem' : c' ∈ s.history := by
      rw [hs']
      exact List.mem_append_left _ hc'
    obtain ⟨x, y, z, horder | horder⟩ := exists_two_splits hmem hmem' hne
    · rw [List.append_assoc, List.cons_append] at horder
      exact h.consumed_once horder hconsumes hconsumes'
    · rw [List.append_assoc, List.cons_append] at horder
      exact h.consumed_once horder hconsumes' hconsumes

/-! ## Revocations that are overtaken -/

/-- Between an unconsumed and a consumed row there is a consumption. -/
theorem Run.consumes_between (h : Run allowed service requests s) {A B C : List LogEntry}
    {e e' : LogEntry} (hs : s.history = A ++ e :: (B ++ e' :: C)) {a b : CodeBuildApproval}
    (ha : find schema e.after id = some a) (hfree : a.consumedAt = none)
    (hb : find schema e'.before id = some b) (htaken : b.consumedAt.isSome = true) :
    ∃ c ∈ B, Consumes requests c id := by
  by_contra hnone
  have hledger := h.ledger
  rw [hs, ← List.cons_append, ← List.append_assoc] at hledger
  -- Otherwise the row stays unconsumed.
  obtain ⟨b', hb', hstill⟩ : ∃ b', find schema e'.before id = some b' ∧ b'.consumedAt = none := by
    refine (hledger.take rfl).since
      (P := fun rows => ∃ b, find schema rows id = some b ∧ b.consumedAt = none) rfl
      ⟨a, ha, hfree⟩ ?_
    rintro M c N rfl ⟨x, hx, hfree⟩
    have hc : s.history = (A ++ e :: M) ++ c :: (N ++ e' :: C) := by
      rw [hs]
      simp
    obtain ⟨y, hy, -⟩ := h.evolves_step hc hx
    refine ⟨y, hy, ?_⟩
    by_contra htaken
    refine hnone ⟨c, by simp, h.consumes_of_change hc hx hfree hy ?_⟩
    exact Option.isSome_iff_ne_none.mpr htaken
  rw [hb] at hb'
  rw [Option.some.inj hb', hstill] at htaken
  cases htaken

/-- An overtaken revocation leaves the approval consumed and revoked. -/
theorem Run.overtaken_both (h : Run allowed service requests s)
    (hovertaken : Overtaken requests s.history) :
    ∃ en ∈ s.history, ∃ r ∈ en.after, r.consumedAt.isSome = true ∧ r.revokedAt.isSome = true := by
  obtain ⟨A, r, B, c, C, organizationId, userId, id, hs, -, hrequest, -, ⟨w, hw, hid⟩, b, hb,
    hconsumes⟩ := hovertaken
  obtain ⟨B₁, B₂, rfl⟩ := List.append_of_mem hb
  have hsb : s.history = (A ++ r :: B₁) ++ b :: (B₂ ++ c :: C) := by
    rw [hs]
    simp
  have hsc : s.history = (A ++ r :: (B₁ ++ b :: B₂)) ++ c :: C := by
    rw [hs]
    simp
  obtain ⟨u, taken, now, hconsumption⟩ := h.consumption hsb hconsumes
  obtain ⟨v, hv, hevolves⟩ := h.evolves_between hsb hconsumption.after
  have hconsumed := (hevolves.consumed (by rw [hconsumption.consumedAt]; rfl)).1
  obtain ⟨w', hw', hkey, hafter⟩ := h.ledger.find_published hsc hw
  obtain ⟨request, hrequest', hmade⟩ := h.made hsc hw'
  rw [hrequest] at hrequest'
  obtain rfl := Option.some.inj hrequest'
  refine ⟨c, by rw [hsc]; simp, w', mem_of_find hafter, ?_⟩
  cases hmade with
  | revoked u' now' hu hwu =>
      rw [hv] at hu
      obtain rfl := Option.some.inj hu
      rw [hwu]
      refine ⟨?_, rfl⟩
      change v.consumedAt.isSome = true
      rw [hconsumed, hconsumption.consumedAt]
      rfl

/-- An approval that becomes consumed and revoked does so by an overtaken revocation. -/
theorem Run.overtaken_of_both (h : Run allowed service requests s)
    (hs : s.history = past ++ en :: future)
    (hbefore : ∀ r ∈ en.before, ¬ (r.consumedAt.isSome = true ∧ r.revokedAt.isSome = true))
    {r : CodeBuildApproval} (hr : r ∈ en.after) (hconsumed : r.consumedAt.isSome = true)
    (hrevoked : r.revokedAt.isSome = true) : Overtaken requests s.history := by
  have hkeyed : Keyed schema en.after := by
    rw [(h.ledger.accounted past en future hs).after]
    exact ((h.ledger.take hs).keyed keyed_nil).apply _
  have hfound := hkeyed.mem_iff.mp hr
  rcases h.ledger.find_step hs (schema.key r) with hsame | ⟨w, hw, -, hafter⟩
  · rw [hsame] at hfound
    exact absurd ⟨hconsumed, hrevoked⟩ (hbefore r (mem_of_find hfound))
  rw [hfound] at hafter
  obtain rfl := Option.some.inj hafter
  obtain ⟨request, st, answer, A, e, hrequest, hwritten, hwrites⟩ :=
    h.writtenAt hs (List.ne_nil_of_mem hw)
  have free : ∀ {now : Int} {u : CodeBuildApproval}, available now u = true →
      r.revokedAt = u.revokedAt → False := by
    intro now u havailable hsame
    rw [hsame, (available_iff.mp havailable).2.1] at hrevoked
    cases hrevoked
  cases hwrites.made hwritten.publishes hw with
  | granted id requestHash approvedAt hwu _ =>
      rw [hwu] at hconsumed
      cases hconsumed
  | consumed u now requestHash hu havailable hwu =>
      exact (free havailable (by rw [hwu]; rfl)).elim
  | claimed u now hclaim =>
      obtain ⟨_, _, hwu⟩ := hclaim.row
      exact (free hclaim.available (by rw [hwu]; rfl)).elim
  | dispatched evidence executionTarget u now _ hclaim =>
      obtain ⟨_, _, hwu⟩ := hclaim.row
      exact (free hclaim.available (by rw [hwu]; rfl)).elim
  | @revoked organizationId userId id u now hu hwu =>
      obtain ⟨⟨row, hrow, hfree⟩, -⟩ := hwrites
      obtain ⟨D, rfl⟩ := hwritten.past_eq
      obtain ⟨B, hsplit⟩ := hwritten.split
      -- The read is the one before the update.
      have hse : s.history = A ++ e :: (B ++ future) := by
        rw [hs, ← List.singleton_append, ← List.append_assoc, hsplit, List.append_assoc,
          List.cons_append]
      rw [← hwritten.same] at hrow
      obtain ⟨A', read, B', rfl, hcall, hread, hseen, hsame⟩ := h.found hse hrow
      have hsr : s.history = A' ++ read :: ((B' ++ D) ++ en :: future) := by
        rw [hs]
        simp
      rw [← hsame] at hseen
      have htaken : u.consumedAt.isSome = true := by
        rw [hwu] at hconsumed
        exact hconsumed
      refine ⟨A', read, B' ++ D, en, future, organizationId, userId, id, hsr,
        hcall.trans hwritten.same, hrequest, hread, ⟨r, hw, ?_⟩,
        h.consumes_between hsr hseen hfree hu htaken⟩
      rw [hwu]
      exact find_key hu

theorem Run.exclusive_of_not_overtaken (h : Run allowed service requests s)
    (hnone : ¬ Overtaken requests s.history) {en : LogEntry} (hen : en ∈ s.history) :
    ∀ r ∈ en.after, ¬ (r.consumedAt.isSome = true ∧ r.revokedAt.isSome = true) := by
  have hstep : ∀ past en future, s.history = past ++ en :: future →
      (∀ r ∈ en.before, ¬ (r.consumedAt.isSome = true ∧ r.revokedAt.isSome = true)) →
        ∀ r ∈ en.after, ¬ (r.consumedAt.isSome = true ∧ r.revokedAt.isSome = true) :=
    fun past en future hs hbefore r hr hboth =>
      hnone (h.overtaken_of_both hs hbefore hr hboth.1 hboth.2)
  obtain ⟨past, future, hs⟩ := List.append_of_mem hen
  refine hstep past en future hs ?_
  have hledger := h.ledger
  rw [hs] at hledger
  refine (hledger.take rfl).chained.invariant (P := fun _ rows =>
    ∀ r ∈ rows, ¬ (r.consumedAt.isSome = true ∧ r.revokedAt.isSome = true))
    (fun r hr => absurd hr List.not_mem_nil) ?_
  intro before en' after hpast hbefore
  refine hstep before en' (after ++ en :: future) ?_ hbefore
  rw [hs, hpast, List.append_assoc, List.cons_append]

/-- Approvals are safe in exactly the runs in which no revocation is overtaken by a consumption
between its read and its commit. -/
theorem approval_safe_iff (h : Run allowed service requests s) :
    Safe requests s ↔ ¬ Overtaken requests s.history := by
  constructor
  · intro hsafe hovertaken
    obtain ⟨en, hen, r, hr, hboth⟩ := h.overtaken_both hovertaken
    exact hsafe.exclusive en hen r hr hboth
  · intro hnone
    refine ⟨?_, ?_, ?_, ?_, ?_, ?_, ?_⟩
    · exact fun A e B e' C id hs => h.consumed_once hs
    · intro past en future id hs hconsumes
      obtain ⟨u, w, now, hconsumption⟩ := h.consumption hs hconsumes
      refine ⟨w, now, hconsumption.after, hconsumption.consumedAt, ?_, hconsumption.clock⟩
      rw [hconsumption.expiresAt]
      exact (available_iff.mp hconsumption.available).2.2
    · exact fun past en future id hs => h.consumed_unrevoked hs
    · exact fun en hen => h.exclusive_of_not_overtaken hnone hen
    · exact fun past en future _ _ id _ _ hs hevent hrequest => h.recorded hs hevent hrequest
    · exact fun past en future operation r hs hevent hcapability =>
        h.approved hs hevent hcapability
    · exact fun A e B e' C id hs => h.unshared hs

end Runs

/-! ## A revocation that is overtaken, and one that is not -/

/-- A text that stands for the hash. -/
def digest : Hashed → Str
  | .approval missionId repository branch _ => missionId ++ repository ++ branch
  | .consumption approvalId missionId repository branch targetHash =>
      approvalId ++ missionId ++ repository ++ branch ++ targetHash.getD []
  | .target executionTarget => executionTarget.workflowStepRunId

def buildService : AgentWorkforceService := ⟨fun _ => none, true, digest⟩

def branchName : Str := "feat/approval".toList

/-- A grant by a person, its revocation, and a consumption by the bridge. -/
def revokedBuild : List Request :=
  [.create "org".toList "owner".toList
      ⟨"mission".toList, CODE_BUILD_REPOSITORY, branchName, 100, "grant".toList⟩,
    .revoke "org".toList "owner".toList "approval".toList,
    .consume "org".toList "bridge".toList "approval".toList
      ⟨"mission".toList, CODE_BUILD_REPOSITORY, branchName, "task".toList⟩]

/-- The owner is a person and the bridge a machine; it is always one o'clock. -/
def officeHours : Choice Failure Ans where
  fault := none
  answers
    | .findActiveUser id _ =>
        if id = "bridge".toList then .ok (some ⟨true, .member, some "vito-bridge".toList⟩)
        else .ok (some ⟨false, .owner, none⟩)
    | .now => .ok 1
    | .newId => .ok "approval".toList
    | .recordAudit _ _ _ _ | .observe _ _ => .ok ()
    | .resolveIdentity _ _ _ => .ok none
    | .routeForExecution _ => .ok ⟨none, []⟩
    | .enrichPrompt _ _ prompt _ => .ok prompt
    | .execute _ => .error (.internal "")

def steps (call n : Nat) : List (Nat × Choice Failure Ans) := List.replicate n (call, officeHours)

/-- The revocation reads the approval, the consumption commits, the revocation goes on. -/
def overtaking : List (Nat × Choice Failure Ans) :=
  steps 0 9 ++ steps 1 3 ++ steps 2 9 ++ steps 1 4

theorem approval_consumed_and_revoked :
    ∃ s, Run (fun _ => True) buildService revokedBuild s ∧ ¬ Safe revokedBuild s := by
  have hchecks : ((System.start [] (revokedBuild.map (Request.program buildService))).run schema
      overtaking).any (fun s => s.history.any fun en => en.after.any fun r =>
        r.consumedAt.isSome && r.revokedAt.isSome) = true := by
    decide +kernel
  obtain ⟨s, hs, hchecked⟩ := (Option.any_eq_true _ _).mp hchecks
  refine ⟨s, System.run_reaches (fun _ _ => trivial) .refl hs, fun hsafe => ?_⟩
  obtain ⟨en, hen, r, hr, hboth⟩ : ∃ en ∈ s.history, ∃ r ∈ en.after,
      r.consumedAt.isSome = true ∧ r.revokedAt.isSome = true := by simpa using hchecked
  exact hsafe.exclusive en hen r hr hboth

/-- Without the revocation the same approval is granted, consumed, and safe. -/
theorem approval_safe_consumed :
    ∃ s, Run (fun _ => True) buildService revokedBuild s ∧
      (∃ r ∈ s.rows, r.consumedAt = some 1) ∧ Safe revokedBuild s := by
  have hchecks : ((System.start [] (revokedBuild.map (Request.program buildService))).run schema
      (steps 0 9 ++ steps 2 9)).any (fun s => (s.rows.any fun r => r.consumedAt == some 1) &&
        s.history.all fun en => en.call != 1) = true := by
    decide +kernel
  obtain ⟨s, hs, hchecked⟩ := (Option.any_eq_true _ _).mp hchecks
  simp only [Bool.and_eq_true, List.any_eq_true, List.all_eq_true, beq_iff_eq, bne_iff_ne,
    ne_eq] at hchecked
  obtain ⟨hconsumed, hunrevoked⟩ := hchecked
  have hrun : Run (fun _ => True) buildService revokedBuild s :=
    System.run_reaches (fun _ _ => trivial) .refl hs
  refine ⟨s, hrun, hconsumed, (approval_safe_iff hrun).mpr ?_⟩
  rintro ⟨A, r, B, c, C, organizationId, userId, id, hhistory, -, hrequest, -⟩
  -- The only call to revoke has not moved.
  have hcall : c.call ≠ 1 := hunrevoked c (by rw [hhistory]; simp)
  obtain hc | hc | ⟨n, hc⟩ : c.call = 0 ∨ c.call = 2 ∨ ∃ n, c.call = n + 3 := by
    obtain hlow | hhigh := Nat.lt_or_ge c.call 3
    · omega
    · exact .inr (.inr ⟨c.call - 3, by omega⟩)
  · simp_all [revokedBuild]
  · simp_all [revokedBuild]
  · simp [hc, revokedBuild] at hrequest

end Dispatch
