import VitoPlatform.Bridge.Submissions

/-!
# Exactly-once submission

Any number of submissions, reads and deletions of payloads, interleaved at their database
statements. Every row a statement answers or a commit publishes is `Made` from the committed
rows; from `Made.evolves` follows what a task keeps for good: its request key and fingerprint,
a terminal status, and that a deleted payload stays deleted. With the unique constraint on the
request key this gives `submission_exactly_once`.
-/

namespace Bridge

open Text Invocation Database Prog

/-! ## Rows -/

/-- The payload of the task is deleted. -/
structure OperatorTask.Purged (task : OperatorTask) : Prop where
  unavailable : task.sensitivePayloadAvailable = false
  prompt : task.prompt = none
  patch : task.patch = none
  stdout : task.stdout = none
  stderr : task.stderr = none

/-- `CURRENT_TIMESTAMP` of the open transaction. -/
def CurrentTimestamp (t : List Happened) (databaseNow : Int) : Prop :=
  ∃ pre tx, t = pre ++ ⟨.begin, .ok ()⟩ :: ⟨.ask .databaseNow, .ok databaseNow⟩ :: tx ∧
    ∀ event ∈ tx, Quiet event

/-- How a row a call answers or publishes comes about, over the committed rows. -/
inductive Made (service : OperatorBridgeService) (request : Request) (t : List Happened)
    (before : List OperatorTask) (w : OperatorTask) : Prop
  | created : Creates service w request → (∀ u ∈ before, OperatorTask.clash w u = false) →
      Made service request t before w
  | kept : find schema before w.id = some w → Made service request t before w
  | settled (u : OperatorTask) (terminal : TerminalUpdate) (providerName : Option Str)
      (databaseNow : Int) : find schema before u.id = some u → u.status = .dispatching →
        CurrentTimestamp t databaseNow → terminal.status ≠ .dispatching →
          w = terminal.persist providerName (u.payloadState databaseNow) u →
            Made service request t before w
  | deleted (u : OperatorTask) (databaseNow : Int) : find schema before u.id = some u →
      w = u.deleted databaseNow → Made service request t before w

/-- What no call changes in a task, and what it changes once at most. -/
structure Evolves (a b : OperatorTask) : Prop where
  id : b.id = a.id
  requestKey : b.requestKey = a.requestKey
  requestFingerprint : b.requestFingerprint = a.requestFingerprint
  expiresAt : b.sensitivePayloadExpiresAt = a.sensitivePayloadExpiresAt
  status : a.status ≠ .dispatching → b.status = a.status
  purged : a.Purged → b.Purged
  clean : (a.sensitivePayloadAvailable = false → a.Purged) →
    b.sensitivePayloadAvailable = false → b.Purged

section Rows

variable {service : OperatorBridgeService} {request : Request} {t : List Happened}
variable {before : List OperatorTask} {u w : OperatorTask}

theorem Evolves.refl (a : OperatorTask) : Evolves a a :=
  ⟨rfl, rfl, rfl, rfl, fun _ => rfl, fun h => h, fun h => h⟩

theorem Evolves.trans {a b c : OperatorTask} (hab : Evolves a b) (hbc : Evolves b c) :
    Evolves a c where
  id := hbc.id.trans hab.id
  requestKey := hbc.requestKey.trans hab.requestKey
  requestFingerprint := hbc.requestFingerprint.trans hab.requestFingerprint
  expiresAt := hbc.expiresAt.trans hab.expiresAt
  status h := by
    have hb := hab.status h
    exact (hbc.status (by rwa [hb])).trans hb
  purged h := hbc.purged (hab.purged h)
  clean h := hbc.clean (hab.clean h)

theorem purged_deleted (task : OperatorTask) (deletedAt : Int) : (task.deleted deletedAt).Purged :=
  ⟨rfl, rfl, rfl, rfl, rfl⟩

theorem evolves_deleted (task : OperatorTask) (deletedAt : Int) :
    Evolves task (task.deleted deletedAt) :=
  ⟨rfl, rfl, rfl, rfl, fun _ => rfl, fun _ => purged_deleted task deletedAt,
    fun _ _ => purged_deleted task deletedAt⟩

theorem payloadExpired_iff {databaseNow : Int} :
    (u.payloadState databaseNow).payloadExpired = true ↔
      u.sensitivePayloadAvailable = false ∨ u.sensitivePayloadExpiresAt ≤ databaseNow := by
  rw [LockedPayloadState.payloadExpired, Bool.or_eq_true, Bool.not_eq_true', decide_eq_true_iff]
  rfl

theorem evolves_persist {terminal : TerminalUpdate} {providerName : Option Str} {databaseNow : Int}
    (hstatus : u.status = .dispatching) :
    Evolves u (terminal.persist providerName (u.payloadState databaseNow) u) := by
  unfold TerminalUpdate.persist
  split
  · exact ⟨rfl, rfl, rfl, rfl, fun h => absurd hstatus h, fun _ => purged_deleted _ _,
      fun _ _ => purged_deleted _ _⟩
  · rename_i hunexpired
    rw [payloadExpired_iff, not_or] at hunexpired
    refine ⟨rfl, rfl, rfl, rfl, fun h => absurd hstatus h, fun h => ?_, fun _ h => ?_⟩
    · exact absurd h.unavailable hunexpired.1
    · exact absurd h hunexpired.1

theorem Made.evolves (h : Made service request t before w)
    (hfound : find schema before w.id = some u) : Evolves u w := by
  -- The row that was found is the one under the id of the new one.
  have same : ∀ {v : OperatorTask}, find schema before v.id = some v → Evolves v w →
      Evolves u w := by
    intro v hv hevolves
    rw [hevolves.id, hv] at hfound
    rwa [← Option.some.inj hfound]
  cases h with
  | created _ hfresh =>
      have hfree : ∀ v ∈ before, schema.clash w v = false := hfresh
      have hmissing := not_mem_key_of_clash hfree
      rw [← find_isSome_iff] at hmissing
      exact absurd (by rw [show schema.key w = w.id from rfl, hfound]; rfl) hmissing
  | kept hkept => exact same hkept (.refl w)
  | settled v terminal providerName databaseNow hv hstatus _ _ hw =>
      refine same hv ?_
      rw [hw]
      exact evolves_persist hstatus
  | deleted v databaseNow hv hw =>
      refine same hv ?_
      rw [hw]
      exact evolves_deleted v databaseNow

/-- A row of a call either evolves from a committed one or is new. -/
theorem Made.origin (h : Made service request t before w) :
    (Creates service w request ∧ ∀ u ∈ before, OperatorTask.clash w u = false) ∨
      ∃ u, find schema before w.id = some u ∧ Evolves u w := by
  cases h with
  | created hcreates hfresh => exact .inl ⟨hcreates, hfresh⟩
  | kept hkept => exact .inr ⟨w, hkept, .refl w⟩
  | settled v terminal providerName databaseNow hv hstatus _ _ hw =>
      have hevolves : Evolves v w := by
        rw [hw]
        exact evolves_persist hstatus
      refine .inr ⟨v, ?_, hevolves⟩
      rwa [hevolves.id]
  | deleted v databaseNow hv hw =>
      have hevolves := evolves_deleted v databaseNow
      rw [← hw] at hevolves
      refine .inr ⟨v, ?_, hevolves⟩
      rwa [hevolves.id]

theorem isDispatching_iff {claim task : OperatorTask} :
    isDispatching claim task = true ↔ task.id = claim.id ∧
      task.organizationId = claim.organizationId ∧ task.status = .dispatching := by
  simp [isDispatching, and_assoc]

/-- What a result is written over is the row that was locked. -/
theorem made_settled {claim locked : OperatorTask} {terminal : TerminalUpdate}
    {providerName : Option Str} {databaseNow : Int} (hu : find schema before u.id = some u)
    (hid : (u.id == claim.id) = true)
    (hlocked : isDispatching claim locked = true ∧ find schema before locked.id = some locked)
    (htime : CurrentTimestamp t databaseNow) (hterminal : terminal.status ≠ .dispatching) :
    Made service request t before
      (terminal.persist providerName (locked.payloadState databaseNow) u) := by
  obtain ⟨hof, hfound⟩ := hlocked
  obtain ⟨hlockedId, -, hstatus⟩ := isDispatching_iff.mp hof
  rw [hlockedId, ← beq_iff_eq.mp hid, hu] at hfound
  obtain rfl := Option.some.inj hfound
  exact .settled u terminal providerName databaseNow hu hstatus htime hterminal rfl

end Rows

/-! ## Steps -/

section Runs

variable {allowed : Choice Failure Ans → Prop} {service : OperatorBridgeService}
variable {requests : List Request} {s : System OperatorTask Ask Failure Ans Reply}
variable {past future : List LogEntry} {en : LogEntry}

theorem keyed_nil : Keyed schema [] := List.nodup_nil

/-- A step of a call meets the discipline of its request. -/
theorem Run.bracketed (h : Run allowed service requests s) (hs : s.history = past ++ en :: future) :
    ∃ request, requests[en.call]? = some request ∧
      Bracketed (May service request) (own en.call past) en.event.1 := by
  have hrecorded := System.Reaches.recorded h
  have hlt : en.call < requests.length := by
    have := hrecorded.call_lt.2 en (by simp [hs])
    rwa [List.length_map] at this
  have hrequest : requests[en.call]? = some requests[en.call] := List.getElem?_eq_getElem hlt
  have hp : (requests.map (Request.program service))[en.call]? =
      some (requests[en.call].program service) := by
    rw [List.getElem?_map, hrequest]
    rfl
  exact ⟨_, hrequest, hrecorded.guarded hs hp (program_holds service _)⟩

theorem Run.ledger (h : Run allowed service requests s) :
    Ledger schema [] s.history s.rows :=
  System.Reaches.ledger h

theorem Run.keyed_before (h : Run allowed service requests s)
    (hs : s.history = past ++ en :: future) : Keyed schema en.before :=
  (h.ledger.take hs).keyed keyed_nil

/-- The rows a statement answers are made from the committed ones. -/
theorem Run.answered (h : Run allowed service requests s) (hs : s.history = past ++ en :: future)
    {st : Stmt OperatorTask} {rows : List OperatorTask} (hevent : en.event = ⟨.stmt st, .ok rows⟩)
    {v : OperatorTask} (hv : v ∈ rows) :
    ∃ request, requests[en.call]? = some request ∧
      Made service request (own en.call past) en.before v := by
  obtain ⟨request, hrequest, hmay, -⟩ := h.bracketed hs
  refine ⟨request, hrequest, ?_⟩
  have hledger := h.ledger
  rw [hs] at hledger
  have hkeyed := h.keyed_before hs
  rw [hevent] at hmay
  have hexecutes : Executes service request (own en.call past) st := hmay
  -- Without locks, and for rows that are only read or locked.
  have unlocked : Unlocked (own en.call past) → eval schema en.before st = some (rows, written
      en.event) := fun hunlocked => hunlocked.answered hledger hevent
  have updated : ∀ {p f}, eval schema en.before (.update p f) = some (rows, written en.event) →
      ∃ u, find schema en.before u.id = some u ∧ p u = true ∧ v = f u := by
    intro p f heval
    rw [← (Prod.mk.inj (Option.some.inj heval)).1] at hv
    obtain ⟨u, hu, rfl⟩ := List.mem_map.mp hv
    obtain ⟨hu, hp⟩ := List.mem_filter.mp hu
    exact ⟨u, hkeyed.mem_iff.mp hu, hp, rfl⟩
  cases hexecutes with
  | select p hunlocked =>
      have heval := unlocked hunlocked
      rw [← (Prod.mk.inj (Option.some.inj heval)).1] at hv
      exact .kept (hkeyed.mem_iff.mp (List.mem_filter.mp hv).1)
  | insert task hcreates hreading =>
      have heval := unlocked hreading.unlocked
      rw [eval] at heval
      split at heval
      · cases heval
      rename_i hclash
      rw [← (Prod.mk.inj (Option.some.inj heval)).1, List.mem_singleton] at hv
      rw [hv]
      have hfresh : ∀ u ∈ en.before, schema.clash task u = false := by simpa using hclash
      exact .created hcreates hfresh
  | lock claim hreading =>
      obtain ⟨u, hu, -, rfl⟩ := updated (unlocked hreading.unlocked)
      exact .kept hu
  | persist claim locked terminal providerName databaseNow hholds hterminal =>
      obtain ⟨pre, rest, between, hlock⟩ := hholds
      obtain ⟨hlocked, heval⟩ := hlock.answered hledger keyed_nil hevent
      obtain ⟨u, hu, hp, rfl⟩ := updated heval
      exact made_settled hu hp (hlocked locked List.mem_cons_self)
        ⟨pre, _, hlock.split, fun event hmem => hlock.quiet event (List.mem_cons_of_mem _ hmem)⟩ hterminal
  | delete due databaseNow hreading =>
      obtain ⟨u, hu, -, rfl⟩ := updated (unlocked hreading.unlocked)
      exact .deleted u databaseNow hu rfl

theorem persist_id (terminal : TerminalUpdate) (providerName : Option Str)
    (payloadState : LockedPayloadState) (u : OperatorTask) :
    (terminal.persist providerName payloadState u).id = u.id := by
  unfold TerminalUpdate.persist
  split <;> rfl

/-- So are the rows a step publishes; a new row is published alone. -/
theorem Run.published (h : Run allowed service requests s) (hs : s.history = past ++ en :: future)
    {w : OperatorTask} (hw : w ∈ en.published) :
    ∃ request, requests[en.call]? = some request ∧
      Made service request (own en.call past) en.before w ∧
        (en.published = [w] ∨ ∃ u, find schema en.before w.id = some u) := by
  obtain ⟨request, hrequest, hbracketed⟩ := h.bracketed hs
  refine ⟨request, hrequest, ?_⟩
  have hledger := h.ledger
  rw [hs] at hledger
  rcases published_of_bracketed hledger hbracketed with hnone | hevent
  · rw [hnone] at hw
    cases hw
  have hmay := hbracketed.1
  rw [hevent] at hmay
  have hcommits : Commits service request (own en.call past) := hmay
  cases hcommits with
  | nothing hreading =>
      obtain ⟨pre, tx, hown, hquiet, hnone⟩ := hreading
      rw [hledger.published rfl hevent hown hquiet, hnone] at hw
      cases hw
  | claim pre reads asks task rows hwrote hcreates =>
      obtain ⟨A, e, hwritten⟩ := hwrote.writtenAt hledger keyed_nil hevent nofun
      obtain ⟨hpublished, hfresh⟩ := hwritten.publishes
      obtain rfl := List.mem_singleton.mp (hpublished ▸ hw)
      exact ⟨.created hcreates hfresh, .inl hpublished⟩
  | result pre between asks claim locked rest rows terminal providerName databaseNow hwrote
      hterminal =>
      obtain ⟨hpublished, hpublishes⟩ := hwrote.publishes hledger keyed_nil hevent fun p f h u _ => by
        cases h
        exact persist_id terminal providerName _ u
      have hlocked := (hledger.take rfl).locked_rows keyed_nil hwrote.split hwrote.quiet
        hwrote.noneBefore
      rw [hpublished] at hw
      rcases List.mem_append.mp hw with hw | hw
      · obtain ⟨-, hfound⟩ := hlocked w hw
        exact ⟨.kept hfound, .inr ⟨w, hfound⟩⟩
      · obtain ⟨u, hu, hp, rfl, hkey⟩ := hpublishes w hw
        refine ⟨made_settled hu hp (hlocked locked List.mem_cons_self)
          ⟨pre, _, hwrote.split, fun event hmem => hwrote.quiet event
            (List.mem_cons_of_mem _ hmem)⟩ hterminal, .inr ⟨u, ?_⟩⟩
        rw [← hu]
        exact congrArg _ hkey
  | deletion pre reads asks due databaseNow rows hwrote =>
      obtain ⟨A, e, hwritten⟩ := hwrote.writtenAt hledger keyed_nil hevent fun p f h u _ => by
        cases h
        rfl
      obtain ⟨u, hu, -, rfl, hkey⟩ := hwritten.publishes w hw
      refine ⟨.deleted u databaseNow hu rfl, .inr ⟨u, ?_⟩⟩
      rw [← hu]
      exact congrArg _ hkey

/-! ## Tables -/

/-- A committed task stays, and evolves. -/
def Grows (rows rows' : List OperatorTask) : Prop :=
  ∀ id u, find schema rows id = some u → ∃ v, find schema rows' id = some v ∧ Evolves u v

theorem Grows.refl (rows : List OperatorTask) : Grows rows rows :=
  fun _ u hu => ⟨u, hu, .refl u⟩

theorem Grows.trans {rows rows' rows'' : List OperatorTask} (h : Grows rows rows')
    (h' : Grows rows' rows'') : Grows rows rows'' := by
  intro id u hu
  obtain ⟨v, hv, huv⟩ := h id u hu
  obtain ⟨w, hw, hvw⟩ := h' id v hv
  exact ⟨w, hw, huv.trans hvw⟩

theorem Run.grows_step (h : Run allowed service requests s)
    (hs : s.history = past ++ en :: future) : Grows en.before en.after := by
  intro id u hu
  rcases h.ledger.find_step hs id with hsame | ⟨w, hw, hkey, hfound⟩
  · exact ⟨u, hsame.trans hu, .refl u⟩
  · obtain ⟨request, -, hmade, -⟩ := h.published hs hw
    have hid : w.id = id := hkey
    rw [← hid] at hu
    exact ⟨w, hfound, hmade.evolves hu⟩

theorem Run.grows_between (h : Run allowed service requests s) {A B C : List LogEntry}
    {e e' : LogEntry} (hs : s.history = A ++ e :: (B ++ e' :: C)) : Grows e.after e'.before := by
  have hledger := h.ledger
  rw [hs, ← List.cons_append, ← List.append_assoc] at hledger
  refine (hledger.take rfl).since (P := Grows e.after) rfl (Grows.refl _) ?_
  rintro M b N rfl hgrows
  have hb : s.history = (A ++ e :: M) ++ b :: (N ++ e' :: C) := by
    rw [hs]
    simp
  exact hgrows.trans (h.grows_step hb)

theorem Run.grows_since (h : Run allowed service requests s)
    (hs : s.history = past ++ en :: future) : Grows en.after s.rows := by
  refine h.ledger.since (P := Grows en.after) hs (Grows.refl _) ?_
  rintro M b N rfl hgrows
  have hb : s.history = (past ++ en :: M) ++ b :: N := by
    rw [hs]
    simp
  exact hgrows.trans (h.grows_step hb)

theorem Run.keyed_after (h : Run allowed service requests s)
    (hs : s.history = past ++ en :: future) : Keyed schema en.after := by
  rw [(h.ledger.accounted past en future hs).after]
  exact (h.keyed_before hs).apply _

/-- A row after a step is new and published alone, or has evolved from one before it. -/
theorem Run.origin (h : Run allowed service requests s) (hs : s.history = past ++ en :: future)
    {w : OperatorTask} (hw : w ∈ en.after) :
    (en.published = [w] ∧ (∃ request, Creates service w request) ∧
        ∀ u ∈ en.before, OperatorTask.clash w u = false) ∨
      ∃ u ∈ en.before, Evolves u w := by
  have hfound := (h.keyed_after hs).mem_iff.mp hw
  rcases h.ledger.find_step hs (schema.key w) with hsame | ⟨w', hw', -, hafter⟩
  · rw [hsame] at hfound
    exact .inr ⟨w, mem_of_find hfound, .refl w⟩
  rw [hfound] at hafter
  obtain rfl := Option.some.inj hafter
  obtain ⟨request, -, hmade, halone⟩ := h.published hs hw'
  rcases hmade.origin with ⟨hcreates, hfresh⟩ | ⟨u, hu, hevolves⟩
  · rcases halone with halone | ⟨u, hu⟩
    · exact .inl ⟨halone, ⟨request, hcreates⟩, hfresh⟩
    · exact .inr ⟨u, mem_of_find hu, hmade.evolves hu⟩
  · exact .inr ⟨u, mem_of_find hu, hevolves⟩

/-- What every step keeps holds in every table of the run. -/
theorem Run.invariant (h : Run allowed service requests s) {P : List OperatorTask → Prop}
    (hstart : P [])
    (hstep : ∀ past en future, s.history = past ++ en :: future → P en.before → P en.after) :
    P s.rows ∧ ∀ en ∈ s.history, P en.before ∧ P en.after := by
  have hledger := h.ledger
  refine ⟨hledger.chained.invariant (P := fun _ rows => P rows) hstart hstep, fun en hen => ?_⟩
  obtain ⟨past, future, hs⟩ := List.append_of_mem hen
  have hbefore : P en.before := by
    refine (hledger.take hs).chained.invariant (P := fun _ rows => P rows) hstart ?_
    rintro A e B rfl
    exact hstep A e (B ++ en :: future) (by rw [hs, List.append_assoc, List.cons_append])
  exact ⟨hbefore, hstep past en future hs hbefore⟩

/-- A payload that is not available is deleted. -/
def Clean (rows : List OperatorTask) : Prop :=
  ∀ u ∈ rows, u.sensitivePayloadAvailable = false → u.Purged

/-- A request key is there once. -/
def Apart (rows : List OperatorTask) : Prop :=
  ∀ a ∈ rows, ∀ b ∈ rows, a.requestKey = b.requestKey → a = b

theorem Creates.available {task : OperatorTask} {request : Request}
    (h : Creates service task request) : task.sensitivePayloadAvailable = true := by
  cases request with
  | submit organizationId userId submitted =>
      obtain ⟨identity, createdAt, expiresAt, rfl⟩ := h
      rfl
  | getTask | deletePayloads => exact h.elim

theorem Run.clean_step (h : Run allowed service requests s)
    (hs : s.history = past ++ en :: future) (hclean : Clean en.before) : Clean en.after := by
  intro w hw hunavailable
  rcases h.origin hs hw with ⟨-, ⟨request, hcreates⟩, -⟩ | ⟨u, hu, hevolves⟩
  · rw [hcreates.available] at hunavailable
    cases hunavailable
  · exact hevolves.clean (hclean u hu) hunavailable

theorem clash_of_requestKey {a b : OperatorTask} (h : a.requestKey = b.requestKey) :
    OperatorTask.clash a b = true := by
  simp [OperatorTask.clash, h]

theorem Run.apart_step (h : Run allowed service requests s)
    (hs : s.history = past ++ en :: future) (hapart : Apart en.before) : Apart en.after := by
  intro a ha b hb hkey
  -- A new row excludes every row that has its request key.
  have fresh : ∀ {w u v : OperatorTask}, (∀ x ∈ en.before, OperatorTask.clash w x = false) →
      u ∈ en.before → Evolves u v → w.requestKey ≠ v.requestKey := by
    intro w u v hfresh hu hevolves hsame
    have hfree := hfresh u hu
    rw [clash_of_requestKey (hsame.trans hevolves.requestKey)] at hfree
    cases hfree
  rcases h.origin hs ha with ⟨halone, -, hfresh⟩ | ⟨u, hu, hua⟩
  · rcases h.origin hs hb with ⟨halone', -, -⟩ | ⟨v, hv, hvb⟩
    · rw [halone] at halone'
      exact List.singleton_inj.mp halone'
    · exact absurd hkey (fresh hfresh hv hvb)
  · rcases h.origin hs hb with ⟨-, -, hfresh⟩ | ⟨v, hv, hvb⟩
    · exact absurd hkey.symm (fresh hfresh hu hua)
    · have huv : u = v := by
        refine hapart u hu v hv ?_
        rw [← hua.requestKey, hkey, hvb.requestKey]
      refine (h.keyed_after hs).eq_of_key ha hb ?_
      show a.id = b.id
      rw [hua.id, huv, hvb.id]

theorem Run.clean (h : Run allowed service requests s) :
    Clean s.rows ∧ ∀ en ∈ s.history, Clean en.before ∧ Clean en.after :=
  h.invariant (fun _ hu => absurd hu List.not_mem_nil) fun _ _ _ hs => h.clean_step hs

theorem Run.apart (h : Run allowed service requests s) : Apart s.rows :=
  (h.invariant (fun _ hu => absurd hu List.not_mem_nil) fun _ _ _ hs => h.apart_step hs).1

/-- A task of an earlier table is in the last one. -/
theorem Run.last (h : Run allowed service requests s) (hs : s.history = past ++ en :: future)
    {u : OperatorTask} (hu : u ∈ en.before) : ∃ v ∈ s.rows, Evolves u v := by
  have hfound := (h.keyed_before hs).mem_iff.mp hu
  obtain ⟨v, hv, hevolves⟩ := ((h.grows_step hs).trans (h.grows_since hs)) _ u hfound
  exact ⟨v, mem_of_find hv, hevolves⟩

theorem Run.last_after (h : Run allowed service requests s) (hs : s.history = past ++ en :: future)
    {u : OperatorTask} (hu : u ∈ en.after) : ∃ v ∈ s.rows, Evolves u v := by
  obtain ⟨v, hv, hevolves⟩ := h.grows_since hs _ u ((h.keyed_after hs).mem_iff.mp hu)
  exact ⟨v, mem_of_find hv, hevolves⟩

/-! ## Submissions -/

/-- The step dispatches the request with this key. -/
structure Dispatches (requests : List Request) (en : LogEntry) (organizationId userId : Str)
    (submitted : SubmitOperatorTask) : Prop where
  request : requests[en.call]? = some (.submit organizationId userId submitted)
  event : isDispatch en.event = true

/-- The step takes the task out of DISPATCHING. -/
def Settling (en : LogEntry) (id : Str) : Prop :=
  ∃ u w, find schema en.before id = some u ∧ u.status = .dispatching ∧
    find schema en.after id = some w ∧ w.status ≠ .dispatching

/-- The step commits a task of its own under a request key that was free. -/
structure Claims (en : LogEntry) (key : Str × Str) (fingerprint : Str) : Prop where
  task : ∃ task ∈ en.after, task.requestKey = key ∧ task.requestFingerprint = fingerprint
  free : ∀ u ∈ en.before, u.requestKey ≠ key

/-- A call that has claimed its request has done so at a step. -/
theorem Run.claims (h : Run allowed service requests s) {i : Nat} {organizationId userId : Str}
    {submitted : SubmitOperatorTask} (hs : s.history = past ++ future)
    (hclaimed : Claimed service (.submit organizationId userId submitted) (own i past)) :
    ∃ c ∈ past, c.call = i ∧ Claims c (organizationId, submitted.requestId)
      (service.hash submitted.fingerprintInput) := by
  obtain ⟨a, b, pre, reads, asks, task, rows, hown, hwrote, identity, createdAt, expiresAt, rfl⟩ :=
    hclaimed
  obtain ⟨A, c, B, rfl, rfl, hevent, rfl, -⟩ := own_split hown
  rw [List.append_assoc, List.cons_append] at hs
  have hledger := h.ledger
  rw [hs] at hledger
  obtain ⟨A', e, hwritten⟩ := hwrote.writtenAt hledger keyed_nil hevent nofun
  obtain ⟨hpublished, hfresh⟩ := hwritten.publishes
  obtain ⟨w, hw, -, hafter⟩ := h.ledger.find_published hs
    (show _ ∈ c.published by rw [hpublished]; exact List.mem_singleton_self _)
  rw [hpublished, List.mem_singleton] at hw
  subst hw
  refine ⟨c, by simp, rfl, ⟨_, mem_of_find hafter, rfl, rfl⟩, fun u hu hkey => ?_⟩
  have hfree := hfresh u hu
  have hclash : schema.clash (submitted.row identity organizationId userId
      (service.hash submitted.fingerprintInput) createdAt expiresAt) u = true :=
    clash_of_requestKey hkey.symm
  rw [hclash] at hfree
  cases hfree

/-- A request key is claimed once. -/
theorem Run.claimed_once (h : Run allowed service requests s) {A B C : List LogEntry}
    {c c' : LogEntry} {key : Str × Str} {fingerprint fingerprint' : Str}
    (hs : s.history = A ++ c :: (B ++ c' :: C)) (hclaims : Claims c key fingerprint) :
    ¬ Claims c' key fingerprint' := by
  intro hclaims'
  obtain ⟨task, htask, hkey, -⟩ := hclaims.task
  obtain ⟨v, hv, hevolves⟩ :=
    h.grows_between hs _ task ((h.keyed_after hs).mem_iff.mp htask)
  exact hclaims'.free v (mem_of_find hv) (hevolves.requestKey.trans hkey)

/-- A call that has claimed its request has left its task in the last table. -/
theorem Run.claimed (h : Run allowed service requests s) {i : Nat} {organizationId userId : Str}
    {submitted : SubmitOperatorTask}
    (hclaimed : Claimed service (.submit organizationId userId submitted) (own i s.history)) :
    ∃ task ∈ s.rows, task.requestKey = (organizationId, submitted.requestId) ∧
      task.requestFingerprint = service.hash submitted.fingerprintInput := by
  obtain ⟨c, hc, -, hclaims⟩ := h.claims (List.append_nil s.history).symm hclaimed
  obtain ⟨task, htask, hkey, hfingerprint⟩ := hclaims.task
  obtain ⟨A, B, hs⟩ := List.append_of_mem hc
  obtain ⟨v, hv, hevolves⟩ := h.last_after hs htask
  exact ⟨v, hv, hevolves.requestKey.trans hkey, hevolves.requestFingerprint.trans hfingerprint⟩

theorem Run.dispatch_claimed (h : Run allowed service requests s)
    (hs : s.history = past ++ en :: future) {organizationId userId : Str}
    {submitted : SubmitOperatorTask} (hdispatches : Dispatches requests en organizationId userId submitted) :
    Undispatched (own en.call past) ∧
      Claimed service (.submit organizationId userId submitted) (own en.call past) := by
  obtain ⟨request, hrequest, hmay, -⟩ := h.bracketed hs
  rw [hdispatches.request] at hrequest
  obtain rfl := Option.some.inj hrequest
  have hevent := hdispatches.event
  generalize en.event = event at hmay hevent
  obtain ⟨effect, reply⟩ := event
  cases effect with
  | ask x =>
      cases x with
      | dispatch input => exact hmay
      | _ => cases hevent
  | _ => cases hevent

theorem Run.dispatched_once (h : Run allowed service requests s) {A B C : List LogEntry}
    {e e' : LogEntry} {organizationId userId userId' : Str}
    {submitted submitted' : SubmitOperatorTask} (hs : s.history = A ++ e :: (B ++ e' :: C))
    (hdispatches : Dispatches requests e organizationId userId submitted)
    (hdispatches' : Dispatches requests e' organizationId userId' submitted') :
    submitted.requestId ≠ submitted'.requestId := by
  intro hsame
  have hs' : s.history = (A ++ e :: B) ++ e' :: C := by
    rw [hs]
    simp
  obtain ⟨-, hclaimed⟩ := h.dispatch_claimed hs hdispatches
  obtain ⟨hundispatched, hclaimed'⟩ := h.dispatch_claimed hs' hdispatches'
  by_cases hcall : e.call = e'.call
  · -- A call dispatches once.
    have hmem : e.event ∈ own e'.call (A ++ e :: B) := mem_own.mpr ⟨e, by simp, hcall, rfl⟩
    have hevent := hundispatched _ hmem
    rw [hdispatches.event] at hevent
    cases hevent
  · obtain ⟨c, hc, hof, hclaims⟩ := h.claims hs hclaimed
    obtain ⟨c', hc', hof', hclaims'⟩ := h.claims hs' hclaimed'
    rw [← hsame] at hclaims'
    have hne : c ≠ c' := by
      rintro rfl
      exact hcall (hof.symm.trans hof')
    have hmem : c ∈ s.history := by
      rw [hs]
      exact List.mem_append_left _ hc
    have hmem' : c' ∈ s.history := by
      rw [hs']
      exact List.mem_append_left _ hc'
    obtain ⟨x, y, z, horder | horder⟩ := exists_two_splits hmem hmem' hne
    · rw [List.append_assoc, List.cons_append] at horder
      exact h.claimed_once horder hclaims hclaims'
    · rw [List.append_assoc, List.cons_append] at horder
      exact h.claimed_once horder hclaims' hclaims

/-- Whoever dispatches has the fingerprint that is stored. -/
theorem Run.dispatch_matches (h : Run allowed service requests s) (hen : en ∈ s.history)
    {organizationId userId : Str} {submitted : SubmitOperatorTask}
    (hdispatches : Dispatches requests en organizationId userId submitted) {e : LogEntry}
    (he : e ∈ s.history) {task : OperatorTask} (htask : task ∈ e.after)
    (hkey : task.requestKey = (organizationId, submitted.requestId)) :
    task.requestFingerprint = service.hash submitted.fingerprintInput := by
  obtain ⟨past, future, hs⟩ := List.append_of_mem hen
  obtain ⟨A, B, hs'⟩ := List.append_of_mem he
  obtain ⟨-, hclaimed⟩ := h.dispatch_claimed hs hdispatches
  have hcall : own en.call s.history = own en.call past ++ own en.call (en :: future) := by
    rw [hs, own_append]
  have hlast := hclaimed.append (own en.call (en :: future))
  rw [← hcall] at hlast
  obtain ⟨v, hv, hvkey, hfingerprint⟩ := h.claimed hlast
  obtain ⟨w, hw, hevolves⟩ := h.last_after hs' htask
  obtain rfl := h.apart v hv w hw (by rw [hvkey, hevolves.requestKey, hkey])
  rw [← hevolves.requestFingerprint, hfingerprint]

/-! ## Conflicts -/

/-- What a select outside of any lock has found are committed rows. -/
theorem Run.selected (h : Run allowed service requests s) {i : Nat} {a b : List Happened}
    {p : OperatorTask → Bool} {rows : List OperatorTask}
    (hown : own i s.history = a ++ ⟨.stmt (.select p), .ok rows⟩ :: b) (hunlocked : Unlocked a) :
    ∃ A r B, s.history = A ++ r :: B ∧ own i B = b ∧ r.call = i ∧ rows = r.before.filter p := by
  obtain ⟨A, r, B, hs, rfl, hevent, rfl, hb⟩ := own_split hown
  have hledger := h.ledger
  rw [hs] at hledger
  have heval := hunlocked.answered hledger hevent
  exact ⟨A, r, B, hs, hb, rfl, ((Prod.mk.inj (Option.some.inj heval)).1).symm⟩

/-- What is there at a step of a call is there at its last one. -/
theorem Run.seen (h : Run allowed service requests s) (hs : s.history = past ++ en :: future)
    {A B : List LogEntry} {r : LogEntry} (hs' : s.history = A ++ r :: B)
    (hlast : own en.call B = []) {u : OperatorTask} (hu : u ∈ en.before) :
    ∃ v ∈ r.before, Evolves u v := by
  have hfound := (h.keyed_before hs).mem_iff.mp hu
  rcases List.append_eq_append_iff.mp (hs.symm.trans hs') with ⟨M, rfl, hM⟩ | ⟨M, rfl, hM⟩
  · cases M with
    | nil =>
        obtain ⟨rfl, -⟩ := List.cons.inj hM
        exact ⟨u, hu, .refl u⟩
    | cons e M =>
        obtain ⟨rfl, rfl⟩ := List.cons.inj hM
        obtain ⟨v, hv, hevolves⟩ := ((h.grows_step hs).trans (h.grows_between hs)) _ u hfound
        exact ⟨v, mem_of_find hv, hevolves⟩
  · cases M with
    | nil =>
        obtain ⟨rfl, -⟩ := List.cons.inj hM
        exact ⟨u, hu, .refl u⟩
    | cons e M =>
        obtain ⟨rfl, rfl⟩ := List.cons.inj hM
        have hmem : en.event ∈ own en.call (M ++ en :: future) := mem_own.mpr ⟨en, by simp, rfl, rfl⟩
        have hnone : own en.call (M ++ en :: future) = [] := hlast
        rw [hnone] at hmem
        cases hmem

theorem hasKey_iff {key : Str × Str} {task : OperatorTask} :
    hasKey key task = true ↔ task.requestKey = key := by
  simp [hasKey]

/-- A submission that ends with another fingerprint stored ends with the conflict, unless
something has failed. -/
theorem Run.conflicting (h : Run allowed service requests s) (hs : s.history = past ++ en :: future)
    {organizationId userId : Str} {submitted : SubmitOperatorTask}
    (hrequest : requests[en.call]? = some (.submit organizationId userId submitted))
    {task : OperatorTask} (htask : task ∈ en.before)
    (hkey : task.requestKey = (organizationId, submitted.requestId))
    (hother : task.requestFingerprint ≠ service.hash submitted.fingerprintInput)
    {process : Process OperatorTask Ask Failure Ans Reply} {outcome : Except Failure Reply}
    (hprocess : s.procs[en.call]? = some process)
    (houtcome : process.prog.outcome = some outcome) :
    outcome = .error conflict ∨ Faulted (own en.call s.history) := by
  obtain ⟨last, hlast, hevolves⟩ := h.last hs htask
  -- The task of another fingerprint is the only one under the key.
  have differs : ∀ v ∈ s.rows, v.requestKey = (organizationId, submitted.requestId) →
      v.requestFingerprint ≠ service.hash submitted.fingerprintInput := by
    intro v hv hvkey
    obtain rfl := h.apart v hv last hlast (by rw [hvkey, hevolves.requestKey, hkey])
    rwa [hevolves.requestFingerprint]
  have unresolved : Resolved service (.submit organizationId userId submitted)
      (organizationId, submitted.requestId) (service.hash submitted.fingerprintInput)
        (own en.call s.history) → Faulted (own en.call s.history) := by
    rintro (hclaimed | ⟨a, found, rest, b, hown, hunlocked, hsame⟩ | hfaulted)
    · obtain ⟨v, hv, hvkey, hfingerprint⟩ := h.claimed hclaimed
      exact absurd hfingerprint (differs v hv hvkey)
    · obtain ⟨A, r, B, hs', -, -, hrows⟩ := h.selected hown hunlocked
      have hfound : found ∈ r.before.filter (hasKey (organizationId, submitted.requestId)) := by
        rw [← hrows]
        exact List.mem_cons_self
      obtain ⟨hmem, hof⟩ := List.mem_filter.mp hfound
      obtain ⟨v, hv, hvevolves⟩ := h.last hs' hmem
      refine absurd ?_ (differs v hv (hvevolves.requestKey.trans (hasKey_iff.mp hof)))
      rw [hvevolves.requestFingerprint, hsame]
    · exact hfaulted
  have hp : (requests.map (Request.program service))[en.call]? =
      some (Request.program service (.submit organizationId userId submitted)) := by
    rw [List.getElem?_map, hrequest]
    rfl
  have hends : Ends service organizationId userId submitted (own en.call s.history) outcome :=
    (System.Reaches.recorded h).ended hp submit_ends hprocess houtcome
  cases outcome with
  | ok reply => exact .inr (unresolved hends)
  | error error =>
      rcases hends with rfl | ⟨a, hown, hunlocked⟩ | hresolved
      · exact .inl rfl
      · -- The task was there at the step, so it is there when the call looks for it.
        obtain ⟨A, r, B, hs', hnone, -, hrows⟩ := h.selected hown hunlocked
        obtain ⟨v, hv, hvevolves⟩ := h.seen hs hs' hnone htask
        have hmem : v ∈ r.before.filter (hasKey (organizationId, submitted.requestId)) :=
          List.mem_filter.mpr ⟨hv, hasKey_iff.mpr (hvevolves.requestKey.trans hkey)⟩
        rw [← hrows] at hmem
        cases hmem
      · exact .inr (unresolved hresolved)

/-! ## Terminal states and deleted payloads -/

theorem Run.settled_once (h : Run allowed service requests s) {A B C : List LogEntry}
    {e e' : LogEntry} {id : Str} (hs : s.history = A ++ e :: (B ++ e' :: C))
    (hsettling : Settling e id) : ¬ Settling e' id := by
  rintro ⟨u', w', hu', hdispatching, -, -⟩
  obtain ⟨u, w, -, -, hw, hterminal⟩ := hsettling
  obtain ⟨v, hv, hevolves⟩ := h.grows_between hs id w hw
  rw [hu'] at hv
  obtain rfl := Option.some.inj hv
  exact hterminal ((hevolves.status hterminal).symm.trans hdispatching)

/-- The status of a task changes by being settled only. -/
theorem Run.settles_of_change (h : Run allowed service requests s)
    (hs : s.history = past ++ en :: future) {id : Str} {u w : OperatorTask}
    (hu : find schema en.before id = some u) (hw : find schema en.after id = some w)
    (hchange : w.status ≠ u.status) : Settling en id := by
  obtain ⟨w', hw', hevolves⟩ := h.grows_step hs id u hu
  rw [hw] at hw'
  obtain rfl := Option.some.inj hw'
  have hdispatching : u.status = .dispatching := by
    by_contra hterminal
    exact hchange (hevolves.status hterminal)
  exact ⟨u, w, hu, hdispatching, hw, by rwa [← hdispatching]⟩

/-- A result is persisted with its payload only before the payload expires, by the time of the
transaction that persists it. -/
theorem Run.unexpired (h : Run allowed service requests s) (hs : s.history = past ++ en :: future)
    {id : Str} {u w : OperatorTask} (hu : find schema en.before id = some u)
    (hdispatching : u.status = .dispatching) (hw : find schema en.after id = some w)
    (hterminal : w.status ≠ .dispatching) (havailable : w.sensitivePayloadAvailable = true) :
    ∃ databaseNow, CurrentTimestamp (own en.call past) databaseNow ∧
      databaseNow < w.sensitivePayloadExpiresAt := by
  rcases h.ledger.find_step hs id with hsame | ⟨w', hpublished, hkey, hfound⟩
  · rw [hsame, hu] at hw
    rw [← Option.some.inj hw] at hterminal
    exact absurd hdispatching hterminal
  rw [hw] at hfound
  obtain rfl := Option.some.inj hfound
  have hid : w.id = id := hkey
  rw [← hid] at hu
  obtain ⟨request, -, hmade, -⟩ := h.published hs hpublished
  have hevolves := hmade.evolves hu
  cases hmade with
  | created _ hfresh =>
      have hfree := hfresh u (mem_of_find hu)
      rw [clash_of_requestKey hevolves.requestKey] at hfree
      cases hfree
  | kept hkept =>
      rw [hu] at hkept
      rw [← Option.some.inj hkept] at hterminal
      exact absurd hdispatching hterminal
  | deleted v databaseNow hv hwv =>
      rw [hwv] at havailable
      cases havailable
  | settled v terminal providerName databaseNow hv hstatus htime _ hwv =>
      refine ⟨databaseNow, htime, ?_⟩
      rw [hwv] at havailable ⊢
      unfold TerminalUpdate.persist at havailable ⊢
      split at havailable
      · cases havailable
      · rename_i hunexpired
        rw [if_neg hunexpired]
        rw [payloadExpired_iff, not_or] at hunexpired
        exact Int.not_le.mp hunexpired.2

/-- A deleted payload is in no row that is answered or published from then on. -/
theorem Run.stays_purged (h : Run allowed service requests s) {A B C : List LogEntry}
    {e e' : LogEntry} (hs : s.history = A ++ e :: (B ++ e' :: C)) {u v : OperatorTask}
    (hu : u ∈ e.after) (hpurged : u.Purged) (hid : v.id = u.id) {request : Request}
    {t : List Happened} (hmade : Made service request t e'.before v) : v.Purged := by
  obtain ⟨w, hw, hevolves⟩ :=
    h.grows_between hs _ u ((h.keyed_after hs).mem_iff.mp hu)
  have hfound : find schema e'.before v.id = some w := by
    rw [hid]
    exact hw
  exact (hmade.evolves hfound).purged (hevolves.purged hpurged)

/-! ## The whole law -/

/-- What the bridge promises of a run. -/
structure ExactlyOnce (service : OperatorBridgeService) (requests : List Request)
    (s : System OperatorTask Ask Failure Ans Reply) : Prop where
  /-- For a request key there is one dispatch at most. -/
  dispatched : ∀ A e B e' C organizationId userId userId' submitted submitted',
    s.history = A ++ e :: (B ++ e' :: C) → Dispatches requests e organizationId userId submitted →
      Dispatches requests e' organizationId userId' submitted' →
        submitted.requestId ≠ submitted'.requestId
  /-- A call whose fingerprint is not the stored one dispatches nothing. -/
  undispatched : ∀ en ∈ s.history, ∀ organizationId userId submitted,
    requests[en.call]? = some (.submit organizationId userId submitted) →
      ∀ e ∈ s.history, ∀ task ∈ e.after,
        task.requestKey = (organizationId, submitted.requestId) →
          task.requestFingerprint ≠ service.hash submitted.fingerprintInput →
            isDispatch en.event = false
  /-- Such a call, if it has made a step with the task stored and has ended, has ended with the
  conflict, unless one of its own effects has failed. -/
  conflicting : ∀ en ∈ s.history, ∀ organizationId userId submitted,
    requests[en.call]? = some (.submit organizationId userId submitted) →
      ∀ task ∈ en.before, task.requestKey = (organizationId, submitted.requestId) →
        task.requestFingerprint ≠ service.hash submitted.fingerprintInput →
          ∀ process outcome, s.procs[en.call]? = some process →
            process.prog.outcome = some outcome →
              outcome = .error conflict ∨ Faulted (own en.call s.history)
  /-- A task leaves DISPATCHING once at most, and its status changes in no other way. -/
  settled : ∀ A e B e' C id, s.history = A ++ e :: (B ++ e' :: C) → Settling e id →
    ¬ Settling e' id
  changed : ∀ en ∈ s.history, ∀ id u w, find schema en.before id = some u →
    find schema en.after id = some w → w.status ≠ u.status → Settling en id
  /-- A task whose payload is not available has none. -/
  purged : ∀ en ∈ s.history, ∀ u ∈ en.after, u.sensitivePayloadAvailable = false → u.Purged
  /-- A payload that has expired when its result is persisted is deleted with it. -/
  unexpired : ∀ past en future id u w, s.history = past ++ en :: future →
    find schema en.before id = some u → u.status = .dispatching →
      find schema en.after id = some w → w.status ≠ .dispatching →
        w.sensitivePayloadAvailable = true →
          ∃ databaseNow, CurrentTimestamp (own en.call past) databaseNow ∧
            databaseNow < w.sensitivePayloadExpiresAt
  /-- What is deleted is never written again. -/
  unwritten : ∀ A e B e' C u, s.history = A ++ e :: (B ++ e' :: C) → u ∈ e.after → u.Purged →
    ∀ w ∈ e'.published, w.id = u.id → w.Purged
  /-- Nor read. -/
  unread : ∀ A e B e' C u, s.history = A ++ e :: (B ++ e' :: C) → u ∈ e.after → u.Purged →
    ∀ st rows, e'.event = ⟨.stmt st, .ok rows⟩ → ∀ v ∈ rows, v.id = u.id → v.Purged

theorem submission_exactly_once (h : Run allowed service requests s) :
    ExactlyOnce service requests s where
  dispatched A e B e' C organizationId userId userId' submitted submitted' hs hdispatches
      hdispatches' := h.dispatched_once hs hdispatches hdispatches'
  undispatched en hen organizationId userId submitted hrequest e he task htask hkey hother := by
    rw [Bool.eq_false_iff]
    exact fun hevent => hother (h.dispatch_matches hen ⟨hrequest, hevent⟩ he htask hkey)
  conflicting en hen organizationId userId submitted hrequest task htask hkey hother process outcome
      hprocess houtcome := by
    obtain ⟨past, future, hs⟩ := List.append_of_mem hen
    exact h.conflicting hs hrequest htask hkey hother hprocess houtcome
  settled A e B e' C id hs := h.settled_once hs
  changed en hen id u w hu hw hchange := by
    obtain ⟨past, future, hs⟩ := List.append_of_mem hen
    exact h.settles_of_change hs hu hw hchange
  purged en hen := (h.clean.2 en hen).2
  unexpired past en future id u w hs hu hdispatching hw hterminal havailable :=
    h.unexpired hs hu hdispatching hw hterminal havailable
  unwritten A e B e' C u hs hu hpurged w hw hid := by
    have hs' : s.history = (A ++ e :: B) ++ e' :: C := by
      rw [hs]
      simp
    obtain ⟨request, -, hmade, -⟩ := h.published hs' hw
    exact h.stays_purged hs hu hpurged hid hmade
  unread A e B e' C u hs hu hpurged st rows hevent v hv hid := by
    have hs' : s.history = (A ++ e :: B) ++ e' :: C := by
      rw [hs]
      simp
    obtain ⟨request, -, hmade⟩ := h.answered hs' hevent hv
    exact h.stays_purged hs hu hpurged hid hmade

end Runs

/-! ## A submission whose payload expires while it is dispatched -/

/-- The fingerprint is the prompt. -/
def hourlyBridge : OperatorBridgeService := ⟨1, FingerprintInput.prompt⟩

def submission (prompt : String) : SubmitOperatorTask :=
  ⟨"request".toList, "CODE_REVIEW".toList, prompt.toList, none, ⟨none, none, none⟩, none⟩

/-- The same request key with two prompts, and a deletion of what has expired. -/
def submissions : List Request :=
  [.submit "org".toList "user".toList (submission "review"),
    .submit "org".toList "user".toList (submission "rewrite"), .deletePayloads expired]

/-- The agent succeeds; tasks are created at midnight, and the database reads two o'clock. -/
def night : Choice Failure Ans where
  fault := none
  answers
    | .newId => .ok "task".toList
    | .now => .ok 0
    | .databaseNow => .ok 7200000
    | .dispatch _ => .ok ⟨lit "routing", "provider".toList, "CODEX".toList,
        ⟨.succeeded, "invocation".toList, none, some 0, 1, some 1, .undefined⟩⟩
    | .findProvider _ _ => .ok none
    | .recordAudit _ _ _ _ => .ok ()

/-- The first call claims the request, the second meets the conflict, the first persists its
result after the payload has expired, and there is nothing left to delete. -/
def nightSchedule : List (Nat × Choice Failure Ans) :=
  (List.replicate 10 0 ++ List.replicate 8 1 ++ List.replicate 9 0 ++ List.replicate 4 2).map
    fun call => (call, night)

theorem submission_exactly_once_expired :
    ∃ s, Run (fun _ => True) hourlyBridge submissions s ∧
      (∃ task ∈ s.rows, task.status = .completed ∧ task.prompt = none) ∧
        ExactlyOnce hourlyBridge submissions s := by
  have hchecks : ((System.start [] (submissions.map (Request.program hourlyBridge))).run schema
      nightSchedule).any (fun s => s.rows.any fun task =>
        task.status == .completed && task.prompt == none) = true := by
    decide +kernel
  obtain ⟨s, hs, hchecked⟩ := (Option.any_eq_true _ _).mp hchecks
  have hrun : Run (fun _ => True) hourlyBridge submissions s := by
    refine System.run_reaches (fun _ _ => trivial) .refl hs
  refine ⟨s, hrun, ?_, submission_exactly_once hrun⟩
  simpa using hchecked

end Bridge
