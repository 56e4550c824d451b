import VitoPlatform.Library.SingleWrite

/-!
# Transactions that lock what they write

`SELECT … FOR UPDATE` locks the rows it reads: it writes them as they are. A transaction that
locks rows, decides on what it has seen and then writes by one statement decides on the
committed rows of the moment it commits (`Ledger.locked_rows`, `WroteLocked.publishes`).
-/

namespace Database

open Prog

variable {V K X ε α : Type} {Ans : X → Type}

/-- `SELECT … FOR UPDATE`. -/
def lock (p : V → Bool) : Stmt V := .update p id

/-- A transaction has been begun and not ended. -/
def Opened (t : List (Happening V X ε Ans)) : Prop :=
  ∃ pre tx, t = pre ++ ⟨.begin, .ok ()⟩ :: tx ∧ ∀ event ∈ tx, Quiet event

/-- The session holds no lock. -/
def Unlocked (t : List (Happening V X ε Ans)) : Prop := (sessionAfter t).writes = []

/-- `may` holds at each effect, and nothing is written outside of a transaction. -/
def Bracketed (may : List (Happening V X ε Ans) → Effect V X → Prop)
    (t : List (Happening V X ε Ans)) (e : Effect V X) : Prop :=
  may t e ∧
    match e with
    | .stmt (.update _ _) | .stmt (.insert _) => Opened t
    | _ => True

/-- The open transaction has locked `rows` by `p`, and has written nothing since. -/
structure HoldsLock (pre reads between : List (Happening V X ε Ans)) (p : V → Bool) (rows : List V)
    (t : List (Happening V X ε Ans)) : Prop where
  split : t = pre ++ ⟨.begin, .ok ()⟩ :: (reads ++ ⟨.stmt (lock p), .ok rows⟩ :: between)
  quiet : ∀ event ∈ reads ++ ⟨.stmt (lock p), .ok rows⟩ :: between, Quiet event
  noneBefore : reads.flatMap written = []
  noneBetween : between.flatMap written = []

/-- The open transaction has locked `rows` by `p`, and has written by `st` since. -/
structure WroteLocked (pre reads between asks : List (Happening V X ε Ans)) (p : V → Bool)
    (rows : List V) (st : Stmt V) (answer : List V) (t : List (Happening V X ε Ans)) : Prop where
  split : t = pre ++ ⟨.begin, .ok ()⟩ :: (reads ++ ⟨.stmt (lock p), .ok rows⟩ ::
    (between ++ ⟨.stmt st, .ok answer⟩ :: asks))
  quiet : ∀ event ∈ reads ++ ⟨.stmt (lock p), .ok rows⟩ ::
    (between ++ ⟨.stmt st, .ok answer⟩ :: asks), Quiet event
  noneBefore : reads.flatMap written = []
  noneBetween : between.flatMap written = []
  noneAfter : asks.flatMap written = []

section Traces

variable {t pre reads between asks : List (Happening V X ε Ans)} {p : V → Bool}
variable {rows answer : List V} {st : Stmt V}

theorem Reading.opened (h : Reading t) : Opened t := by
  obtain ⟨pre, tx, ht, hquiet, -⟩ := h
  exact ⟨pre, tx, ht, hquiet⟩

theorem Reading.unlocked (h : Reading t) : Unlocked t := by
  obtain ⟨pre, tx, rfl, hquiet, hnone⟩ := h
  rw [Unlocked, sessionAfter_begin hquiet]
  exact hnone

theorem unlocked_snoc {event : Happening V X ε Ans}
    (hmode : ((sessionAfter t).next event).mode ≠ .active) : Unlocked (t ++ [event]) := by
  refine sessionAfter_settled _ ?_
  rwa [sessionAfter_snoc]

theorem HoldsLock.opened (h : HoldsLock pre reads between p rows t) : Opened t :=
  ⟨pre, _, h.split, h.quiet⟩

theorem holdsLock_start (ht : t = pre ++ ⟨.begin, .ok ()⟩ :: reads)
    (hquiet : ∀ event ∈ reads, Quiet event) (hnone : reads.flatMap written = []) :
    HoldsLock pre reads [] p rows (t ++ [⟨.stmt (lock p), .ok rows⟩]) := by
  refine ⟨by simp [ht], ?_, hnone, rfl⟩
  exact List.forall_mem_append.mpr ⟨hquiet, List.forall_mem_singleton.mpr trivial⟩

theorem HoldsLock.ask (h : HoldsLock pre reads between p rows t) (x : X) (a : Except ε (Ans x)) :
    HoldsLock pre reads (between ++ [⟨.ask x, a⟩]) p rows (t ++ [⟨.ask x, a⟩]) := by
  refine ⟨by simp [h.split], ?_, h.noneBefore, by simp [h.noneBetween, written]⟩
  rw [← List.cons_append, ← List.append_assoc]
  exact List.forall_mem_append.mpr ⟨h.quiet, List.forall_mem_singleton.mpr trivial⟩

theorem HoldsLock.write (h : HoldsLock pre reads between p rows t) (st : Stmt V)
    (answer : List V) :
    WroteLocked pre reads between [] p rows st answer (t ++ [⟨.stmt st, .ok answer⟩]) := by
  refine ⟨by simp [h.split], ?_, h.noneBefore, h.noneBetween, rfl⟩
  have hquiet := List.forall_mem_append.mpr ⟨h.quiet,
    List.forall_mem_singleton.mpr (show Quiet (⟨.stmt st, .ok answer⟩ : Happening V X ε Ans)
      from trivial)⟩
  rwa [List.append_assoc, List.cons_append] at hquiet

theorem WroteLocked.ask (h : WroteLocked pre reads between asks p rows st answer t) (x : X)
    (a : Except ε (Ans x)) :
    WroteLocked pre reads between (asks ++ [⟨.ask x, a⟩]) p rows st answer
      (t ++ [⟨.ask x, a⟩]) := by
  refine ⟨by simp [h.split], ?_, h.noneBefore, h.noneBetween, by simp [h.noneAfter, written]⟩
  have hquiet := List.forall_mem_append.mpr ⟨h.quiet,
    List.forall_mem_singleton.mpr (show Quiet (⟨.ask x, a⟩ : Happening V X ε Ans) from trivial)⟩
  simpa using hquiet

end Traces

section Runs

variable [DecidableEq K] {schema : Schema V K ε} {rows last : List V}
variable {past future : List (Entry V X ε Ans)} {en : Entry V X ε Ans}

/-- Writing a row over itself changes nothing. -/
theorem put_self (hkeyed : Keyed schema rows) {w : V}
    (h : find schema rows (schema.key w) = some w) : put schema rows w = rows := by
  rw [put, if_pos (by rw [h]; rfl)]
  refine (List.map_congr_left fun u hu => ?_).trans (List.map_id rows)
  split
  · rename_i hkey
    exact hkeyed.eq_of_key (mem_of_find h) hu hkey.symm
  · rfl

theorem apply_self (hkeyed : Keyed schema rows) {writes : List V}
    (h : ∀ w ∈ writes, find schema rows (schema.key w) = some w) :
    apply schema rows writes = rows := by
  induction writes with
  | nil => rfl
  | cons w writes ih =>
      rw [apply, List.foldl_cons, ← apply, put_self hkeyed (h w List.mem_cons_self)]
      exact ih fun w hw => h w (List.mem_cons_of_mem _ hw)

/-- What a step of bracketed programs publishes, a commit publishes. -/
theorem published_of_bracketed {may : List (Happening V X ε Ans) → Effect V X → Prop}
    (h : Ledger schema rows (past ++ en :: future) last)
    (hbracketed : Bracketed may (own en.call past) en.event.1) :
    en.published = [] ∨ en.event = ⟨.commit, .ok ()⟩ := by
  have hsession := (h.accounted past en future rfl).session
  generalize hevent : en.event = event at hbracketed
  obtain ⟨effect, reply⟩ := event
  have inside : Opened (own en.call past) → Quiet en.event → en.published = [] := by
    rintro ⟨pre, tx, hown, hquiet⟩ hevent
    refine publishes_nil ?_ hevent
    rw [hsession, hown, sessionAfter_begin hquiet]
  cases effect with
  | ask x | begin | rollback =>
      exact .inl (published_nil (by rw [hevent]; nofun) (by rw [hevent]; rfl))
  | commit =>
      cases reply with
      | ok u => exact .inr rfl
      | error error => exact .inl (published_nil (by rw [hevent]; nofun) (by rw [hevent]; rfl))
  | stmt st =>
      cases reply with
      | error error =>
          exact .inl (published_nil (by rw [hevent]; nofun) (by rw [hevent]; cases st <;> rfl))
      | ok answer =>
          cases st with
          | select p => exact .inl (published_nil (by rw [hevent]; nofun) (by rw [hevent]; rfl))
          | update p f => exact .inl (inside hbracketed.2 (by rw [hevent]; trivial))
          | insert v => exact .inl (inside hbracketed.2 (by rw [hevent]; trivial))

/-- The rows a transaction has locked are the committed ones as long as it is open. -/
theorem Ledger.locked_rows {history : List (Entry V X ε Ans)} {i : Nat}
    {pre reads tx : List (Happening V X ε Ans)} {p : V → Bool} {locked : List V}
    (h : Ledger schema rows history last) (hkeyed : Keyed schema rows)
    (hown : own i history =
      pre ++ ⟨.begin, .ok ()⟩ :: (reads ++ ⟨.stmt (lock p), .ok locked⟩ :: tx))
    (hquiet : ∀ event ∈ reads ++ ⟨.stmt (lock p), .ok locked⟩ :: tx, Quiet event)
    (hnone : reads.flatMap written = []) :
    ∀ w ∈ locked, p w = true ∧ find schema last (schema.key w) = some w := by
  obtain ⟨A, e, B, hexec, -⟩ := h.executed hown hquiet
  have hfound := hexec.found
  rw [hnone] at hfound
  obtain ⟨hrows, hwritten⟩ := Prod.mk.inj (Option.some.inj hfound)
  intro w hw
  have hmem : w ∈ e.before.filter p := by
    rw [← hrows, List.map_id] at hw
    exact hw
  have hwrote : w ∈ written e.event := by
    rw [← hwritten, List.map_id]
    exact hmem
  obtain ⟨hbefore, hp⟩ := List.mem_filter.mp hmem
  refine ⟨hp, (hexec.kept w hwrote).trans ?_⟩
  exact ((h.take hexec.split).keyed hkeyed).mem_iff.mp hbefore

/-- Without locks a statement answers from the committed rows. -/
theorem Unlocked.answered {st : Stmt V} {answer : List V} (hown : Unlocked (own en.call past))
    (h : Ledger schema rows (past ++ en :: future) last)
    (hevent : en.event = ⟨.stmt st, .ok answer⟩) :
    eval schema en.before st = some (answer, written en.event) := by
  have haccounted := h.accounted past en future rfl
  obtain ⟨-, hanswer⟩ := haccounted.answer st answer hevent
  rwa [haccounted.session, hown] at hanswer

/-- So it does after a lock. -/
theorem HoldsLock.answered {pre reads between : List (Happening V X ε Ans)} {p : V → Bool}
    {locked answer : List V} {st : Stmt V}
    (hown : HoldsLock pre reads between p locked (own en.call past))
    (h : Ledger schema rows (past ++ en :: future) last) (hkeyed : Keyed schema rows)
    (hevent : en.event = ⟨.stmt st, .ok answer⟩) :
    (∀ w ∈ locked, p w = true ∧ find schema en.before (schema.key w) = some w) ∧
      eval schema en.before st = some (answer, written en.event) := by
  have htake := h.take rfl
  have hlocked := htake.locked_rows hkeyed hown.split hown.quiet hown.noneBefore
  have haccounted := h.accounted past en future rfl
  have hwrites : en.session.writes = locked := by
    rw [haccounted.session, hown.split, sessionAfter_begin hown.quiet, List.flatMap_append,
      List.flatMap_cons, hown.noneBefore, hown.noneBetween]
    exact List.append_nil locked
  obtain ⟨-, hanswer⟩ := haccounted.answer st answer hevent
  rw [hwrites, apply_self (htake.keyed hkeyed) fun w hw => (hlocked w hw).2] at hanswer
  exact ⟨hlocked, hanswer⟩

/-- What is published besides the locked rows is written over committed rows. -/
theorem WroteLocked.publishes {pre reads between asks : List (Happening V X ε Ans)}
    {p : V → Bool} {locked answer : List V} {st : Stmt V}
    (hwrote : WroteLocked pre reads between asks p locked st answer (own en.call past))
    (h : Ledger schema rows (past ++ en :: future) last) (hkeyed : Keyed schema rows)
    (hevent : en.event = ⟨.commit, .ok ()⟩)
    (hkeeps : ∀ p f, st = .update p f → ∀ u, p u = true → schema.key (f u) = schema.key u) :
    en.published = locked ++ written (⟨.stmt st, .ok answer⟩ : Happening V X ε Ans) ∧
      Publishes schema en.before (written (⟨.stmt st, .ok answer⟩ : Happening V X ε Ans)) st := by
  have htake := h.take rfl
  have hassoc : reads ++ ⟨.stmt (lock p), .ok locked⟩ ::
      (between ++ ⟨.stmt st, .ok answer⟩ :: asks) =
      (reads ++ ⟨.stmt (lock p), .ok locked⟩ :: between) ++ ⟨.stmt st, .ok answer⟩ :: asks := by
    rw [List.append_assoc, List.cons_append]
  have hsplit := hwrote.split
  have hquiet := hwrote.quiet
  rw [hassoc] at hsplit hquiet
  have htx : (reads ++ ⟨.stmt (lock p), .ok locked⟩ :: between).flatMap written = locked := by
    rw [List.flatMap_append, List.flatMap_cons, hwrote.noneBefore, hwrote.noneBetween]
    exact List.append_nil locked
  obtain ⟨A, e, B, hexec, -⟩ := htake.executed hsplit hquiet
  have hpublished : en.published =
      locked ++ written (⟨.stmt st, .ok answer⟩ : Happening V X ε Ans) := by
    rw [h.published rfl hevent hsplit hquiet, List.flatMap_append, htx, List.flatMap_cons,
      hwrote.noneAfter, List.append_nil]
  refine ⟨hpublished, ?_⟩
  have hbefore : Keyed schema e.before := (htake.take hexec.split).keyed hkeyed
  have hlocked : ∀ w ∈ locked, find schema e.before (schema.key w) = some w := by
    refine fun w hw => ((htake.take hexec.split).locked_rows hkeyed hexec.own_past ?_
      hwrote.noneBefore w hw).2
    exact fun event hevent => hquiet event (List.mem_append_left _ hevent)
  have hfound := hexec.found
  rw [htx, apply_self hbefore hlocked, hexec.event] at hfound
  have hkept := hexec.kept
  rw [hexec.event] at hkept
  have hafter : e.after = e.before := by
    rw [(htake.accounted _ _ _ hexec.split).after, hexec.silent]
    rfl
  refine (publishes_of_eval hbefore hkeeps hfound).kept hkept fun w hw u hu => ?_
  rcases htake.mem_since hexec.split hu with hu | ⟨b, hb, hu⟩
  · rw [hafter] at hu
    exact .inl hu
  · exact .inr (hexec.locked w (by rwa [hexec.event]) b hb u hu)

end Runs

end Database
