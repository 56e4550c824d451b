import VitoPlatform.Bridge.Tasks

/-!
# What a call of the operator bridge does

A submission, a read or a deletion of payloads as a program of its own: the statements it may
execute, what it has written when it commits, that it dispatches once and only after it has
claimed its request, and how a submission ends (`program_holds`, `submit_ends`). A statement
answers, and a commit publishes, rows that are `Made` from the committed ones; `Made.evolves`
says what no call ever changes in a task.
-/

namespace Bridge

open Text Invocation Database Prog

/-! ## Calls -/

inductive Request where
  | submit (organizationId userId : Str) (request : SubmitOperatorTask)
  | getTask (organizationId taskId : Str)
  | deletePayloads (due : Int → OperatorTask → Bool)

inductive Reply where
  | submitted (response : SubmitOperatorTaskResponse)
  | task (result : OperatorTaskResult)
  | deleted

def Request.program (service : OperatorBridgeService) : Request → Program Reply
  | .submit organizationId userId request => do
      let response ← submitTask service organizationId userId request
      Prog.pure (.submitted response)
  | .getTask organizationId taskId => do
      let result ← Bridge.getTask organizationId taskId
      Prog.pure (.task result)
  | .deletePayloads due => do
      Bridge.deletePayloads due
      Prog.pure .deleted

abbrev LogEntry := Entry OperatorTask Ask Failure Ans

/-- A run of any number of calls on an empty table. -/
abbrev Run (allowed : Choice Failure Ans → Prop) (service : OperatorBridgeService)
    (requests : List Request) (s : System OperatorTask Ask Failure Ans Reply) : Prop :=
  System.Reaches schema allowed (System.start [] (requests.map (Request.program service))) s

/-! ## What a call does by itself -/

/-- The task is one the call creates. -/
def Creates (service : OperatorBridgeService) (task : OperatorTask) : Request → Prop
  | .submit organizationId userId request =>
      ∃ identity createdAt expiresAt, task = request.row identity organizationId userId
        (service.hash request.fingerprintInput) createdAt expiresAt
  | _ => False

/-- The open transaction has read its time and locked the dispatching row of the claim. -/
def HoldsClaim (claim locked : OperatorTask) (databaseNow : Int) (t : List Happened) : Prop :=
  ∃ pre rest between, HoldsLock pre [⟨.ask .databaseNow, .ok databaseNow⟩] between
    (isDispatching claim) (locked :: rest) t

/-- The update by which a result is persisted. -/
def persisting (claim : OperatorTask) (terminal : TerminalUpdate) (providerName : Option Str)
    (payloadState : LockedPayloadState) : Stmt OperatorTask :=
  .update (fun task => task.id == claim.id) (terminal.persist providerName payloadState)

/-- A statement a call may execute. -/
inductive Executes (service : OperatorBridgeService) (request : Request) (t : List Happened) :
    Stmt OperatorTask → Prop
  | select (p : OperatorTask → Bool) : Unlocked t → Executes service request t (.select p)
  | insert (task : OperatorTask) : Creates service task request → Reading t →
      Executes service request t (.insert task)
  | lock (claim : OperatorTask) : Reading t →
      Executes service request t (lock (isDispatching claim))
  | persist (claim locked : OperatorTask) (terminal : TerminalUpdate) (providerName : Option Str)
      (databaseNow : Int) : HoldsClaim claim locked databaseNow t →
        terminal.status ≠ .dispatching → Executes service request t
          (persisting claim terminal providerName (locked.payloadState databaseNow))
  | delete (due : Int → OperatorTask → Bool) (databaseNow : Int) : Reading t →
      Executes service request t (payloadDeletion due databaseNow)

/-- What a call has written when it commits. -/
inductive Commits (service : OperatorBridgeService) (request : Request) (t : List Happened) : Prop
  | nothing : Reading t → Commits service request t
  | claim (pre reads asks : List Happened) (task : OperatorTask) (rows : List OperatorTask) :
      Wrote pre reads asks (.insert task) rows t → Creates service task request →
        Commits service request t
  | result (pre between asks : List Happened) (claim locked : OperatorTask)
      (rest rows : List OperatorTask) (terminal : TerminalUpdate) (providerName : Option Str)
      (databaseNow : Int) : WroteLocked pre [⟨.ask .databaseNow, .ok databaseNow⟩] between asks
        (isDispatching claim) (locked :: rest)
        (persisting claim terminal providerName (locked.payloadState databaseNow)) rows t →
          terminal.status ≠ .dispatching → Commits service request t
  | deletion (pre reads asks : List Happened) (due : Int → OperatorTask → Bool)
      (databaseNow : Int) (rows : List OperatorTask) :
      Wrote pre reads asks (payloadDeletion due databaseNow) rows t → Commits service request t

/-- The call has committed a task of its own. -/
def Claimed (service : OperatorBridgeService) (request : Request) (t : List Happened) : Prop :=
  ∃ a b pre reads asks task rows, t = a ++ ⟨.commit, .ok ()⟩ :: b ∧
    Wrote pre reads asks (.insert task) rows a ∧ Creates service task request

def Ask.dispatches : Ask → Bool
  | .dispatch _ => true
  | _ => false

def isDispatch : Happened → Bool
  | ⟨.ask x, _⟩ => x.dispatches
  | _ => false

/-- The call has dispatched nothing. -/
def Undispatched (t : List Happened) : Prop := ∀ event ∈ t, isDispatch event = false

/-- What a call may do at each effect. -/
def May (service : OperatorBridgeService) (request : Request) (t : List Happened) :
    Effect OperatorTask Ask → Prop
  | .stmt st => Executes service request t st
  | .commit => Commits service request t
  | .ask (.dispatch _) => Undispatched t ∧ Claimed service request t
  | _ => True

/-! ## How a submission ends -/

/-- An effect that has failed, other than an insert that has lost the race for the key. -/
def isFault : Happened → Bool
  | ⟨.stmt (.insert _), .error .requestKeyConflict⟩ => false
  | ⟨_, .error _⟩ => true
  | _ => false

def Faulted (t : List Happened) : Prop := ∃ event ∈ t, isFault event = true

/-- The call has read a task with its key and its fingerprint. -/
def Found (key : Str × Str) (fingerprint : Str) (t : List Happened) : Prop :=
  ∃ a task rest b, t = a ++ ⟨.stmt (.select (hasKey key)), .ok (task :: rest)⟩ :: b ∧
    Unlocked a ∧ task.requestFingerprint = fingerprint

/-- The last thing the call has done is to read that there is no task with its key. -/
def Missed (key : Str × Str) (t : List Happened) : Prop :=
  ∃ a, t = a ++ [⟨.stmt (.select (hasKey key)), .ok []⟩] ∧ Unlocked a

/-- The task with the key of the call is the one it has asked for, or something has failed. -/
def Resolved (service : OperatorBridgeService) (request : Request) (key : Str × Str)
    (fingerprint : Str) (t : List Happened) : Prop :=
  Claimed service request t ∨ Found key fingerprint t ∨ Faulted t

def conflict : Failure := .conflict "OPERATOR_IDEMPOTENCY_CONFLICT"

/-- How a submission fails. -/
def Fails (service : OperatorBridgeService) (request : Request) (key : Str × Str)
    (fingerprint : Str) (error : Failure) (t : List Happened) : Prop :=
  error = conflict ∨ Missed key t ∨ Resolved service request key fingerprint t

/-- How a submission ends. -/
def Ends (service : OperatorBridgeService) (organizationId userId : Str)
    (submitted : SubmitOperatorTask) (t : List Happened) : Except Failure Reply → Prop
  | .ok _ => Resolved service (.submit organizationId userId submitted)
      (organizationId, submitted.requestId) (service.hash submitted.fingerprintInput) t
  | .error error => Fails service (.submit organizationId userId submitted)
      (organizationId, submitted.requestId) (service.hash submitted.fingerprintInput) error t

section Traces

variable {service : OperatorBridgeService} {request : Request} {key : Str × Str}
variable {fingerprint : Str} {t : List Happened} {event : Happened}

theorem Claimed.append (h : Claimed service request t) (t' : List Happened) :
    Claimed service request (t ++ t') := by
  obtain ⟨a, b, pre, reads, asks, task, rows, rfl, hwrote, hcreates⟩ := h
  exact ⟨a, b ++ t', pre, reads, asks, task, rows, by simp, hwrote, hcreates⟩

theorem Faulted.append (h : Faulted t) (t' : List Happened) : Faulted (t ++ t') := by
  obtain ⟨event, hevent, hfault⟩ := h
  exact ⟨event, List.mem_append_left _ hevent, hfault⟩

theorem Resolved.append (h : Resolved service request key fingerprint t) (t' : List Happened) :
    Resolved service request key fingerprint (t ++ t') := by
  rcases h with h | ⟨a, task, rest, b, rfl, hunlocked, hsame⟩ | h
  · exact .inl (h.append t')
  · exact .inr (.inl ⟨a, task, rest, b ++ t', by simp, hunlocked, hsame⟩)
  · exact .inr (.inr (h.append t'))

theorem resolved_of_fault (h : isFault event = true) :
    Resolved service request key fingerprint (t ++ [event]) :=
  .inr (.inr ⟨event, by simp, h⟩)

theorem Undispatched.snoc (h : Undispatched t) (hevent : isDispatch event = false) :
    Undispatched (t ++ [event]) :=
  List.forall_mem_append.mpr ⟨h, List.forall_mem_singleton.mpr hevent⟩

end Traces

/-! ## Programs -/

section Rules

variable {service : OperatorBridgeService} {request : Request} {t : List Happened} {α : Type}
variable {fail : Failure → List Happened → Prop}

abbrev Holds (service : OperatorBridgeService) (request : Request) (p : Program α)
    (post : α → List Happened → Prop) (fail : Failure → List Happened → Prop)
    (t : List Happened) : Prop :=
  wp (Bracketed (May service request)) p post fail t

theorem Holds.ask {x : Ask} {post : Ans x → List Happened → Prop}
    (hx : x.dispatches = false) (h : ∀ a, post a (t ++ [⟨.ask x, .ok a⟩]))
    (hfail : ∀ error, fail error (t ++ [⟨.ask x, .error error⟩])) :
    Holds service request (Bridge.ask x) post fail t := by
  refine wp_perform.mpr ⟨⟨?_, trivial⟩, h, hfail⟩
  cases x with
  | dispatch input => cases hx
  | _ => trivial

theorem Holds.find {p : OperatorTask → Bool} {post : Option OperatorTask → List Happened → Prop}
    (hunlocked : Unlocked t) (h : ∀ rows, post rows.head? (t ++ [⟨.stmt (.select p), .ok rows⟩]))
    (hfail : ∀ error, fail error (t ++ [⟨.stmt (.select p), .error error⟩])) :
    Holds service request (findTask p) post fail t :=
  wp_bind.mpr (wp_perform.mpr ⟨⟨.select p hunlocked, trivial⟩, h, hfail⟩)

theorem Holds.statement {st : Stmt OperatorTask} {post : List OperatorTask → List Happened → Prop}
    (hopened : Opened t) (hexecutes : Executes service request t st)
    (h : ∀ rows, post rows (t ++ [⟨.stmt st, .ok rows⟩]))
    (hfail : ∀ error, fail error (t ++ [⟨.stmt st, .error error⟩])) :
    Holds service request (Bridge.statement st) post fail t := by
  refine wp_perform.mpr ⟨⟨hexecutes, ?_⟩, h, hfail⟩
  cases st with
  | select p => trivial
  | update p f => exact hopened
  | insert v => exact hopened

theorem Holds.transact {body : Program α} {post : α → List Happened → Prop}
    (hbegin : ∀ error, fail error (t ++ [⟨.begin, .error error⟩]))
    (h : Holds service request body
      (fun a t' => Commits service request t' ∧ post a (t' ++ [⟨.commit, .ok ()⟩]) ∧
        ∀ error, fail error (t' ++ [⟨.commit, .error error⟩]))
      (fun error t' => fail error (t' ++ [⟨.rollback, .ok ()⟩]) ∧
        ∀ error', fail error' (t' ++ [⟨.rollback, .error error'⟩]))
      (t ++ [⟨.begin, .ok ()⟩])) :
    Holds service request (Database.transact body) post fail t := by
  refine wp_transact (fun _ => ⟨⟨trivial, trivial⟩, trivial, trivial⟩) hbegin
    (wp_mono h ?_ fun _ _ h => h)
  exact fun a t' ha => ⟨⟨ha.1, trivial⟩, ha.2⟩

end Rules

section Claims

variable {service : OperatorBridgeService} {request : Request} {t : List Happened}
variable {key : Str × Str} {task : OperatorTask}

theorem failed_mode (session : Session OperatorTask) : session.failed.mode ≠ .active := by
  unfold Session.failed
  split
  · rename_i hidle
    simp [hidle]
  · nofun

/-- A claim that has been resolved, and dispatched nothing yet. -/
def Settled (service : OperatorBridgeService) (request : Request) (key : Str × Str)
    (fingerprint : Str) (claim : DispatchClaim) (t : List Happened) : Prop :=
  Undispatched t ∧ Resolved service request key fingerprint t ∧
    (claim.ownsDispatch = true → Claimed service request t)

/-- What the handler of a failed claim starts from. -/
def Recovers (service : OperatorBridgeService) (request : Request) (key : Str × Str)
    (fingerprint : Str) (error : Failure) (t : List Happened) : Prop :=
  Undispatched t ∧ Unlocked t ∧
    (error = .requestKeyConflict ∨ Fails service request key fingerprint error t)

theorem readClaim_holds {fingerprint : Str} (hunlocked : Unlocked t) (hundispatched : Undispatched t) :
    Holds service request (readClaim key fingerprint)
      (Settled service request key fingerprint) (Fails service request key fingerprint) t := by
  refine wp_bind.mpr (wp_tryCatch.mpr (Holds.find hunlocked (fun rows => ?_) fun error => ?_))
  · refine wp_bind.mpr (wp_expect.mpr ⟨fun existing hhead => ?_, fun hnone => ?_⟩)
    · obtain ⟨rest, rfl⟩ : ∃ rest, rows = existing :: rest := by
        cases rows with
        | nil => cases hhead
        | cons row rest => exact ⟨rest, by rw [Option.some.inj hhead]⟩
      unfold resolveExisting
      split
      · rename_i hsame
        refine ⟨hundispatched.snoc rfl, .inr (.inl ⟨t, existing, rest, [], rfl, hunlocked, hsame⟩), ?_⟩
        exact nofun
      · exact .inl rfl
    · obtain rfl : rows = [] := List.head?_eq_none_iff.mp hnone
      exact .inr (.inl ⟨t, rfl, hunlocked⟩)
  · exact .inr (.inr (resolved_of_fault rfl))

theorem insertClaim_holds (hcreates : Creates service task request)
    (hundispatched : Undispatched t) :
    Holds service request (insertClaim key task)
      (Settled service request key task.requestFingerprint)
      (Recovers service request key task.requestFingerprint) t := by
  -- A transaction that ends in an error other than the lost race has met a fault.
  have fault : ∀ {t' : List Happened} {event : Happened} {error : Failure}, Undispatched t' →
      isDispatch event = false → ((sessionAfter t').next event).mode ≠ .active →
        isFault event = true →
          Recovers service request key task.requestFingerprint error (t' ++ [event]) := by
    intro t' event error hundispatched hevent hmode hfault
    exact ⟨hundispatched.snoc hevent, unlocked_snoc hmode,
      .inr (.inr (.inr (resolved_of_fault hfault)))⟩
  -- A rollback keeps what is known of the error.
  have rolled : ∀ {t' : List Happened} {error : Failure}, Undispatched t' →
      (error = .requestKeyConflict ∨ error = conflict ∨
        Resolved service request key task.requestFingerprint t') →
        Recovers service request key task.requestFingerprint error (t' ++ [⟨.rollback, .ok ()⟩]) ∧
          ∀ error', Recovers service request key task.requestFingerprint error'
            (t' ++ [⟨.rollback, .error error'⟩]) := by
    intro t' error hundispatched herror
    refine ⟨⟨hundispatched.snoc rfl, unlocked_snoc nofun, ?_⟩,
      fun error' => fault hundispatched rfl nofun rfl⟩
    rcases herror with rfl | rfl | hresolved
    · exact .inl rfl
    · exact .inr (.inl rfl)
    · exact .inr (.inr (.inr (hresolved.append _)))
  refine Holds.transact (fun error => fault hundispatched rfl (failed_mode _) rfl) ?_
  have hbegun := reading_begin t
  have hopen : Undispatched (t ++ [⟨.begin, .ok ()⟩]) := hundispatched.snoc rfl
  refine wp_bind.mpr (Holds.find hbegun.unlocked (fun rows => ?_) fun error => ?_)
  swap
  · exact rolled (hopen.snoc rfl) (.inr (.inr (resolved_of_fault rfl)))
  have hread := hbegun.select (hasKey key) rows
  have hseen : Undispatched
      ((t ++ [⟨.begin, .ok ()⟩]) ++ [⟨.stmt (.select (hasKey key)), .ok rows⟩]) := hopen.snoc rfl
  cases rows with
  | cons existing rest =>
      simp only [List.head?_cons]
      unfold resolveExisting
      split
      · rename_i hsame
        have hresolved : Resolved service request key task.requestFingerprint
            ((t ++ [⟨.begin, .ok ()⟩]) ++ [⟨.stmt (.select (hasKey key)), .ok (existing :: rest)⟩]) :=
          .inr (.inl ⟨_, existing, rest, [], rfl, hbegun.unlocked, hsame⟩)
        refine ⟨.nothing hread, ⟨hseen.snoc rfl, hresolved.append _, nofun⟩, ?_⟩
        exact fun error => fault hseen rfl (failed_mode _) rfl
      · exact rolled hseen (.inr (.inl rfl))
  | nil =>
      refine wp_bind.mpr (Holds.statement hread.opened (.insert task hcreates hread)
        (fun rows => ?_) fun error => ?_)
      · obtain ⟨pre, reads, -, hwrote⟩ := hread.write (.insert task) rows
        have hwritten := hseen.snoc
          (rfl : isDispatch (⟨.stmt (.insert task), .ok rows⟩ : Happened) = false)
        refine wp_bind.mpr (Holds.ask rfl (fun _ => ?_) fun error => ?_)
        · have hwrote := hwrote.ask (.recordAudit task.organizationId task.userId
            "OPERATOR_TASK_CREATED" task.id) (.ok ())
          have hclaimed : Claimed service request (_ ++ [⟨.commit, .ok ()⟩]) :=
            ⟨_, [], _, _, _, task, rows, rfl, hwrote, hcreates⟩
          refine ⟨.claim _ _ _ task rows hwrote hcreates,
            ⟨(hwritten.snoc rfl).snoc rfl, .inl hclaimed, fun _ => hclaimed⟩, ?_⟩
          exact fun error => fault (hwritten.snoc rfl) rfl (failed_mode _) rfl
        · exact rolled (hwritten.snoc rfl) (.inr (.inr (resolved_of_fault rfl)))
      · have hfailed := hseen.snoc
          (rfl : isDispatch (⟨.stmt (.insert task), .error error⟩ : Happened) = false)
        cases error with
        | requestKeyConflict => exact rolled hfailed (.inl rfl)
        | transactionAborted | http status response | error message =>
            exact rolled hfailed (.inr (.inr (resolved_of_fault rfl)))

theorem claimTask_holds (hcreates : Creates service task request)
    (hundispatched : Undispatched t) :
    Holds service request (claimTask key task)
      (Settled service request key task.requestFingerprint)
      (Fails service request key task.requestFingerprint) t := by
  refine wp_tryCatch.mpr (wp_mono (insertClaim_holds hcreates hundispatched)
    (fun _ _ h => h) ?_)
  rintro error t' ⟨hundispatched, hunlocked, herror⟩
  cases error with
  | requestKeyConflict => exact readClaim_holds hunlocked hundispatched
  | http status response => exact herror.resolve_left nofun
  | transactionAborted | error message =>
      have hfails := herror.resolve_left nofun
      exact hfails.imp nofun id

end Claims

section Programs

variable {service : OperatorBridgeService} {request : Request} {t : List Happened}

/-- A claimed task is dispatched once, and its dispatch ends in a terminal update. -/
theorem dispatchClaimed_holds {task : OperatorTask} {userId : Str} {submitted : SubmitOperatorTask}
    (hclaimed : Claimed service request t) (hundispatched : Undispatched t) :
    Holds service request (dispatchClaimed task userId submitted)
      (fun terminal _ => terminal.status ≠ .dispatching) (fun _ _ => True) t := by
  refine wp_bind.mpr (Holds.ask rfl (fun startedAt => ?_) fun _ => trivial)
  refine wp_tryCatch.mpr (wp_bind.mpr (wp_expect.mpr ⟨fun prompt _ => ?_, fun _ => ?_⟩))
  · refine wp_bind.mpr (wp_perform.mpr ⟨⟨⟨hundispatched.snoc rfl, hclaimed.append _⟩, trivial⟩,
      fun result => mapDispatchResult_status result, fun error => ?_⟩)
    exact wp_bind.mpr (Holds.ask rfl (fun _ => nofun) fun _ => trivial)
  · exact wp_bind.mpr (Holds.ask rfl (fun _ => nofun) fun _ => trivial)

theorem providerNameOf_holds {pre between : List Happened} {claim locked : OperatorTask}
    {rest : List OperatorTask} {databaseNow : Int} {selectedProviderId : Option Str} {organizationId : Str}
    {post : Option Str → List Happened → Prop}
    (hholds : HoldsLock pre [⟨.ask .databaseNow, .ok databaseNow⟩] between (isDispatching claim)
      (locked :: rest) t)
    (h : ∀ name between t', HoldsLock pre [⟨.ask .databaseNow, .ok databaseNow⟩] between
      (isDispatching claim) (locked :: rest) t' → post name t') :
    Holds service request (providerNameOf selectedProviderId organizationId) post
      (fun _ _ => True) t := by
  unfold providerNameOf
  split
  · exact Holds.ask rfl (fun name => h name _ _ (hholds.ask _ _)) fun _ => trivial
  · exact h none between t hholds

/-- A result is persisted under a lock on the row of its claim. -/
theorem persistTerminalResult_holds {claim : OperatorTask} {terminal : TerminalUpdate}
    (hterminal : terminal.status ≠ .dispatching) :
    Holds service request (persistTerminalResult claim terminal) (fun _ _ => True)
      (fun _ _ => True) t := by
  refine wp_tryCatch.mpr (Holds.transact (fun _ => trivial) ?_)
  refine wp_bind.mpr (Holds.ask rfl (fun databaseNow => ?_) fun _ => ⟨trivial, fun _ => trivial⟩)
  have hreading := (reading_begin t).ask .databaseNow (.ok databaseNow)
  refine wp_bind.mpr (Holds.statement hreading.opened (.lock claim hreading) (fun rows => ?_)
    fun _ => ⟨trivial, fun _ => trivial⟩)
  refine wp_bind.mpr (wp_expect.mpr ⟨fun locked hhead => ?_, fun _ => ⟨trivial, fun _ => trivial⟩⟩)
  obtain ⟨rest, rfl⟩ := List.head?_eq_some_iff.mp hhead
  have hquiet : ∀ event ∈ ([⟨.ask .databaseNow, .ok databaseNow⟩] : List Happened), Quiet event :=
    List.forall_mem_singleton.mpr trivial
  have hlock : HoldsLock t [⟨.ask .databaseNow, .ok databaseNow⟩] [] (isDispatching claim)
      (locked :: rest) _ := holdsLock_start
    (List.append_assoc t [⟨.begin, .ok ()⟩] [⟨.ask .databaseNow, .ok databaseNow⟩]) hquiet rfl
  have hnamed : Holds service request
      (providerNameOf terminal.selectedProviderId claim.organizationId)
      (fun _ t' => ∃ between, HoldsLock t [⟨.ask .databaseNow, .ok databaseNow⟩] between
        (isDispatching claim) (locked :: rest) t') (fun _ _ => True) _ :=
    providerNameOf_holds hlock fun _ between _ h => ⟨between, h⟩
  refine wp_bind.mpr (wp_mono hnamed ?_ fun _ _ _ => ⟨trivial, fun _ => trivial⟩)
  rintro providerName t' ⟨between, hlock⟩
  refine wp_bind.mpr (Holds.statement hlock.opened
    (.persist claim locked terminal providerName databaseNow ⟨t, rest, between, hlock⟩ hterminal)
    (fun rows => ?_) fun _ => ⟨trivial, fun _ => trivial⟩)
  refine wp_bind.mpr (wp_expect.mpr ⟨fun task _ => ?_, fun _ => ⟨trivial, fun _ => trivial⟩⟩)
  refine wp_bind.mpr (Holds.ask rfl (fun _ => ?_) fun _ => ⟨trivial, fun _ => trivial⟩)
  have hwrote := (hlock.write (persisting claim terminal providerName
    (locked.payloadState databaseNow)) rows).ask (.recordAudit task.organizationId task.userId
      (terminalAuditAction task.status) task.id) (.ok ())
  exact ⟨.result _ _ _ _ _ _ _ _ _ _ hwrote hterminal, trivial, fun _ => trivial⟩

/-- A submission keeps its discipline, and ends with the task of its request unless something
has failed. -/
theorem submitTask_holds {organizationId userId : Str} {submitted : SubmitOperatorTask} :
    Holds service (.submit organizationId userId submitted)
      (submitTask service organizationId userId submitted)
      (fun _ => Resolved service (.submit organizationId userId submitted)
        (organizationId, submitted.requestId) (service.hash submitted.fingerprintInput))
      (Fails service (.submit organizationId userId submitted)
        (organizationId, submitted.requestId) (service.hash submitted.fingerprintInput)) [] := by
  have fault : ∀ {t : List Happened} {x : Ask} {error : Failure}, Fails service
      (.submit organizationId userId submitted) (organizationId, submitted.requestId)
      (service.hash submitted.fingerprintInput) error (t ++ [⟨.ask x, .error error⟩]) :=
    .inr (.inr (resolved_of_fault rfl))
  refine wp_bind.mpr (Holds.ask rfl (fun id => ?_) fun _ => fault)
  refine wp_bind.mpr (Holds.ask rfl (fun correlationId => ?_) fun _ => fault)
  refine wp_bind.mpr (Holds.ask rfl (fun workflowRunId => ?_) fun _ => fault)
  refine wp_bind.mpr (Holds.ask rfl (fun workflowStepRunId => ?_) fun _ => fault)
  refine wp_bind.mpr (Holds.ask rfl (fun createdAt => ?_) fun _ => fault)
  refine wp_bind.mpr (wp_mono (claimTask_holds ⟨_, _, _, rfl⟩ ?_) ?_ fun _ _ h => h)
  · simp [Undispatched, isDispatch, Ask.dispatches]
  rintro claim t ⟨hundispatched, hresolved, howns⟩
  split
  · rename_i hclaim
    have hclaimed := howns hclaim
    -- From here on the call has claimed its request, however it ends.
    have hrest : Holds service (.submit organizationId userId submitted)
        (dispatchClaimed claim.task userId submitted >>= fun terminal =>
          persistTerminalResult claim.task terminal >>= fun persisted =>
            Prog.pure (toSubmitResponse persisted)) (fun _ _ => True) (fun _ _ => True) t := by
      refine wp_bind.mpr (wp_mono (dispatchClaimed_holds hclaimed hundispatched) ?_
        fun _ _ _ => trivial)
      exact fun terminal t' hterminal => wp_bind.mpr (persistTerminalResult_holds hterminal)
    refine wp_mono (wp_extends hrest) ?_ ?_
    · rintro response t' ⟨-, later, rfl⟩
      exact .inl (hclaimed.append later)
    · rintro error t' ⟨-, later, rfl⟩
      exact .inr (.inr (.inl (hclaimed.append later)))
  · exact hresolved

theorem submit_ends {organizationId userId : Str} {submitted : SubmitOperatorTask} :
    Holds service (.submit organizationId userId submitted)
      (Request.program service (.submit organizationId userId submitted))
      (fun reply t => Ends service organizationId userId submitted t (.ok reply))
      (fun error t => Ends service organizationId userId submitted t (.error error)) [] :=
  wp_bind.mpr (wp_mono submitTask_holds (fun _ _ h => h) fun _ _ h => h)

theorem getTask_holds {organizationId taskId : Str} :
    Holds service request (getTask organizationId taskId) (fun _ _ => True) (fun _ _ => True) [] :=
  wp_bind.mpr (Holds.find rfl (fun _ => wp_bind.mpr (wp_expect.mpr
    ⟨fun _ _ => trivial, fun _ => trivial⟩)) fun _ => trivial)

theorem deletePayloads_holds {due : Int → OperatorTask → Bool} :
    Holds service request (deletePayloads due) (fun _ _ => True) (fun _ _ => True) t := by
  refine Holds.transact (fun _ => trivial) ?_
  refine wp_bind.mpr (Holds.ask rfl (fun databaseNow => ?_) fun _ => ⟨trivial, fun _ => trivial⟩)
  have hreading := (reading_begin t).ask .databaseNow (.ok databaseNow)
  refine wp_bind.mpr (Holds.statement hreading.opened (.delete due databaseNow hreading)
    (fun rows => ?_) fun _ => ⟨trivial, fun _ => trivial⟩)
  obtain ⟨pre, reads, -, hwrote⟩ := hreading.write (payloadDeletion due databaseNow) rows
  exact ⟨.deletion _ _ _ due databaseNow rows hwrote, trivial, fun _ => trivial⟩

/-- A call keeps its discipline. -/
theorem program_holds (service : OperatorBridgeService) (request : Request) :
    Holds service request (request.program service) (fun _ _ => True) (fun _ _ => True) [] := by
  cases request with
  | submit organizationId userId submitted =>
      exact wp_bind.mpr (wp_mono submitTask_holds (fun _ _ _ => trivial) fun _ _ _ => trivial)
  | getTask organizationId taskId => exact wp_bind.mpr getTask_holds
  | deletePayloads due => exact wp_bind.mpr deletePayloads_holds

end Programs

end Bridge
