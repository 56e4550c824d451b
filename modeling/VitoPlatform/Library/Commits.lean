import VitoPlatform.Library.Autocommit
import Mathlib.Data.List.Induction

/-!
# Committed transactions

What the history of a run says about one transaction when it commits. The session of a
process is a function of its own events (`sessionAfter`), so the rows a commit publishes are
the ones its statements reported (`Ledger.published`). Between a write and the commit no other
process publishes a row that excludes the written one (`Ledger.locked`): the committed row
under it is still the one the statement found. `Ledger.executed` puts this together for one
statement of a transaction.
-/

namespace Database

variable {V K X ε α : Type} [DecidableEq K] {Ans : X → Type}
variable {schema : Schema V K ε} {allowed : Choice ε Ans → Prop}

/-- The rows a statement reports to have written. -/
def written : Prog.Event (Effect V X) (Answer V Ans) ε → List V
  | ⟨.stmt (.update _ _), .ok rows⟩ => rows
  | ⟨.stmt (.insert _), .ok rows⟩ => rows
  | _ => []

/-- An event that leaves an open transaction open. -/
def Quiet : Prog.Event (Effect V X) (Answer V Ans) ε → Prop
  | ⟨.ask _, _⟩ => True
  | ⟨.stmt _, .ok _⟩ => True
  | _ => False

/-- The session after an event. -/
def Session.next (session : Session V) : Prog.Event (Effect V X) (Answer V Ans) ε → Session V
  | ⟨.ask _, _⟩ => session
  | ⟨.rollback, _⟩ => .idle
  | ⟨.begin, .ok _⟩ => ⟨.active, []⟩
  | ⟨.commit, .ok _⟩ => .idle
  | ⟨.stmt s, .ok rows⟩ =>
      if session.mode = .active then
        ⟨.active, session.writes ++
          written (⟨.stmt s, .ok rows⟩ : Prog.Event (Effect V X) (Answer V Ans) ε)⟩
      else session
  | ⟨_, .error _⟩ => session.failed

/-- The session of a process after its own events. -/
def sessionAfter (t : List (Prog.Event (Effect V X) (Answer V Ans) ε)) : Session V :=
  t.foldl Session.next .idle

/-- The rows an event publishes. -/
def Session.publishes (session : Session V) (event : Prog.Event (Effect V X) (Answer V Ans) ε) :
    List V :=
  match event with
  | ⟨.commit, .ok _⟩ => session.writes
  | event => if session.mode = .idle then written event else []

/-- The rows an entry adds to the committed ones. -/
def Entry.published (en : Entry V X ε Ans) : List V := en.session.publishes en.event

/-- Outside a transaction nothing is locked. -/
def Session.Settled (session : Session V) : Prop := session.mode ≠ .active → session.writes = []

theorem Session.failed_settled {session : Session V} (h : session.Settled) :
    session.failed.Settled := by
  rw [Session.failed]
  split
  · exact h
  · exact fun _ => rfl

theorem Session.next_settled {session : Session V} (h : session.Settled)
    (event : Prog.Event (Effect V X) (Answer V Ans) ε) : (session.next event).Settled := by
  unfold Session.next
  split
  · exact h
  · exact fun _ => rfl
  · exact fun _ => rfl
  · exact fun _ => rfl
  · split
    · exact fun hne => absurd rfl hne
    · exact h
  · exact failed_settled h

theorem sessionAfter_snoc (t : List (Prog.Event (Effect V X) (Answer V Ans) ε))
    (event : Prog.Event (Effect V X) (Answer V Ans) ε) :
    sessionAfter (t ++ [event]) = (sessionAfter t).next event := by
  rw [sessionAfter, List.foldl_append]
  rfl

theorem sessionAfter_settled (t : List (Prog.Event (Effect V X) (Answer V Ans) ε)) :
    (sessionAfter t).Settled := by
  induction t using List.reverseRecOn with
  | nil => exact fun _ => rfl
  | append_singleton t event ih =>
      rw [sessionAfter_snoc]
      exact Session.next_settled ih event

/-- Inside a transaction the locks are the rows its statements reported. -/
theorem sessionAfter_begin {before tx : List (Prog.Event (Effect V X) (Answer V Ans) ε)}
    (hquiet : ∀ event ∈ tx, Quiet event) :
    sessionAfter (before ++ ⟨.begin, .ok ()⟩ :: tx) = ⟨.active, tx.flatMap written⟩ := by
  induction tx using List.reverseRecOn with
  | nil => rw [sessionAfter_snoc]; rfl
  | append_singleton tx event ih =>
      rw [← List.cons_append, ← List.append_assoc, sessionAfter_snoc,
        ih fun e he => hquiet e (List.mem_append_left _ he), List.flatMap_append]
      have hevent := hquiet event (by simp)
      obtain ⟨e, r⟩ := event
      cases e with
      | ask x => simp [Session.next, written]
      | stmt s =>
          cases r with
          | ok rows => simp [Session.next]
          | error error => exact hevent.elim
      | begin => exact hevent.elim
      | commit => exact hevent.elim
      | rollback => exact hevent.elim

/-! ## One answer -/

section Answers

variable {session : Session V} {rows : List V} {choice : Choice ε Ans}

omit [DecidableEq K] in
theorem failed_of_settled (h : session.Settled) (hmode : session.mode = .aborted) :
    session.failed = session := by
  obtain ⟨mode, writes⟩ := session
  obtain rfl : mode = .aborted := hmode
  obtain rfl : writes = [] := h nofun
  rfl

omit [DecidableEq K] in
theorem failed_of_idle (hmode : session.mode = .idle) : session.failed = session := by
  rw [Session.failed, if_pos hmode]

omit [DecidableEq K] in
/-- What a statement writes can be read off its answer. -/
theorem eval_written {view answer writes : List V} {s : Stmt V}
    (h : eval schema view s = some (answer, writes)) :
    writes = written (⟨.stmt s, .ok answer⟩ : Prog.Event (Effect V X) (Answer V Ans) ε) := by
  cases s with
  | select p =>
      cases h
      rfl
  | update p f =>
      cases h
      rfl
  | insert v =>
      rw [eval] at h
      split at h
      · cases h
      · cases h
        rfl

/-- The session after a step is determined by the event of the step. -/
theorem respond_session (h : session.Settled) (e : Effect V X) :
    (respond schema session rows choice e).2.1 =
      session.next ⟨e, (respond schema session rows choice e).1⟩ := by
  cases e with
  | ask x => rfl
  | rollback => rfl
  | begin =>
      cases hfault : choice.fault with
      | none => simp [respond, hfault, Session.next]
      | some error => simp [respond, hfault, Session.next]
  | commit =>
      cases hfault : choice.fault with
      | some error => simp [respond, hfault, Session.next]
      | none =>
          cases hmode : session.mode with
          | active => simp [respond, hfault, hmode, Session.next]
          | idle => simp [respond, hfault, hmode, Session.next, failed_of_idle hmode]
          | aborted => simp [respond, hfault, hmode, Session.next, failed_of_settled h hmode]
  | stmt s =>
      cases hfault : choice.fault with
      | some error => simp [respond, hfault, Session.next]
      | none =>
          cases hmode : session.mode with
          | aborted => simp [respond, hfault, hmode, Session.next, failed_of_settled h hmode]
          | idle =>
              cases heval : eval schema (apply schema rows session.writes) s with
              | none => simp [respond, hfault, hmode, heval, Session.next, failed_of_idle hmode]
              | some r => simp [respond, hfault, hmode, heval, Session.next]
          | active =>
              cases heval : eval schema (apply schema rows session.writes) s with
              | none => simp [respond, hfault, hmode, heval, Session.next]
              | some r =>
                  obtain ⟨answer, writes⟩ := r
                  simp only [respond, hfault, hmode, heval, Session.next, if_true]
                  rw [eval_written heval]

/-- A statement that succeeds answers what it evaluates to, on the committed rows under the
session's own. -/
theorem respond_statement {s : Stmt V} {answer : List V}
    (h : (respond schema session rows choice (.stmt s : Effect V X)).1 = .ok answer) :
    choice.fault = none ∧ session.mode ≠ .aborted ∧
      eval schema (apply schema rows session.writes) s =
        some (answer,
          written (⟨.stmt s, .ok answer⟩ : Prog.Event (Effect V X) (Answer V Ans) ε)) := by
  cases hfault : choice.fault with
  | some error => simp [respond, hfault] at h
  | none =>
      have heval : ∃ writes, session.mode ≠ .aborted ∧
          eval schema (apply schema rows session.writes) s = some (answer, writes) := by
        cases hmode : session.mode with
        | aborted => simp [respond, hfault, hmode] at h
        | idle =>
            cases heval : eval schema (apply schema rows session.writes) s with
            | none => simp [respond, hfault, hmode, heval] at h
            | some r =>
                simp only [respond, hfault, hmode, heval, Except.ok.injEq] at h
                exact ⟨r.2, (fun h => by cases h), by rw [← h]⟩
        | active =>
            cases heval : eval schema (apply schema rows session.writes) s with
            | none => simp [respond, hfault, hmode, heval] at h
            | some r =>
                simp only [respond, hfault, hmode, heval, Except.ok.injEq] at h
                exact ⟨r.2, (fun h => by cases h), by rw [← h]⟩
      obtain ⟨writes, hmode, heval⟩ := heval
      exact ⟨rfl, hmode, eval_written heval ▸ heval⟩

/-- The committed rows after a step are those before it under the ones it publishes. -/
theorem respond_published (e : Effect V X) :
    (respond schema session rows choice e).2.2 =
      apply schema rows
        (session.publishes ⟨e, (respond schema session rows choice e).1⟩) := by
  cases e with
  | ask x => simp [respond, Session.publishes, written, apply]
  | rollback => simp [respond, Session.publishes, written, apply]
  | begin =>
      cases hfault : choice.fault with
      | none => simp [respond, hfault, Session.publishes, written, apply]
      | some error => simp [respond, hfault, Session.publishes, written, apply]
  | commit =>
      cases hfault : choice.fault with
      | some error => simp [respond, hfault, Session.publishes, written, apply]
      | none =>
          cases hmode : session.mode with
          | active => simp [respond, hfault, hmode, Session.publishes]
          | idle => simp [respond, hfault, hmode, Session.publishes, written, apply]
          | aborted => simp [respond, hfault, hmode, Session.publishes, apply]
  | stmt s =>
      cases hanswer : (respond schema session rows choice (.stmt s : Effect V X)).1 with
      | error error =>
          have hnone : (respond schema session rows choice (.stmt s : Effect V X)).2.2 = rows := by
            cases hfault : choice.fault with
            | some error => simp [respond, hfault]
            | none =>
                cases hmode : session.mode with
                | aborted => simp [respond, hfault, hmode]
                | idle =>
                    cases heval : eval schema (apply schema rows session.writes) s with
                    | none => simp [respond, hfault, hmode, heval]
                    | some r => simp [respond, hfault, hmode, heval] at hanswer
                | active =>
                    cases heval : eval schema (apply schema rows session.writes) s with
                    | none => simp [respond, hfault, hmode, heval]
                    | some r => simp [respond, hfault, hmode, heval] at hanswer
          rw [hnone]
          simp [Session.publishes, written, apply]
      | ok answer =>
          obtain ⟨hfault, hmode, heval⟩ := respond_statement hanswer
          cases hidle : session.mode with
          | aborted => exact absurd hidle hmode
          | idle => simp [respond, hfault, hidle, heval, Session.publishes]
          | active =>
              simp only [respond, hfault, hidle, heval, Session.publishes]
              rfl

/-- Whatever a step publishes or writes was locked before or has just been taken. -/
theorem locked_or_touched {e : Effect V X} {w : V} {event : Prog.Event (Effect V X) (Answer V Ans) ε}
    (hevent : event = ⟨e, (respond schema session rows choice e).1⟩)
    (h : w ∈ session.publishes event ∨ w ∈ written event) :
    w ∈ session.writes ∨ choice.fault = none ∧ w ∈ touched schema session rows e := by
  have hwritten : w ∈ written event →
      choice.fault = none ∧ w ∈ touched schema session rows e := by
    intro hw
    cases e with
    | stmt s =>
        cases hanswer : (respond schema session rows choice (.stmt s : Effect V X)).1 with
        | error error =>
            rw [hevent, hanswer] at hw
            cases s <;> exact absurd hw List.not_mem_nil
        | ok answer =>
            obtain ⟨hfault, -, heval⟩ := respond_statement hanswer
            refine ⟨hfault, ?_⟩
            rw [touched, heval]
            rwa [hevent, hanswer] at hw
    | ask x | begin | commit | rollback =>
        rw [hevent] at hw
        exact absurd hw List.not_mem_nil
  obtain h | h := h
  · unfold Session.publishes at h
    split at h
    · exact .inl h
    · split at h
      · exact .inr (hwritten h)
      · exact absurd h List.not_mem_nil
  · exact .inr (hwritten h)

end Answers

/-! ## Whole runs -/

/-- What the past of an entry says about it. -/
structure Accounted (schema : Schema V K ε) (past : List (Entry V X ε Ans))
    (en : Entry V X ε Ans) : Prop where
  session : en.session = sessionAfter (own en.call past)
  after : en.after = apply schema en.before en.published
  answer : ∀ s answer, en.event = ⟨.stmt s, .ok answer⟩ →
    en.session.mode ≠ .aborted ∧
      eval schema (apply schema en.before en.session.writes) s = some (answer, written en.event)
  /-- Nobody else has a lock on what it publishes or writes. -/
  free : ∀ j ≠ en.call, ∀ u ∈ (sessionAfter (own j past)).writes,
    ∀ w, w ∈ en.published ∨ w ∈ written en.event → schema.clash w u = false

section Runs

variable {rows : List V} {progs : List (Prog (Effect V X) (Answer V Ans) ε α)}
variable {s : System V X ε Ans α}

theorem System.Reaches.disjoint
    (h : System.Reaches schema allowed (System.start rows progs) s) :
    Disjoint schema s.procs := by
  induction h with
  | refl => exact disjoint_start
  | step i choice _ _ hstep ih => exact ih.step hstep

/-- The session of a process is that of its own events. -/
theorem System.Reaches.session
    (h : System.Reaches schema allowed (System.start rows progs) s) {i : Nat}
    {p : Process V X ε Ans α} (hp : s.procs[i]? = some p) :
    p.session = sessionAfter (own i s.history) := by
  induction h generalizing i p with
  | refl =>
      simp only [System.start, List.getElem?_map, Option.map_eq_some_iff] at hp
      obtain ⟨_, -, rfl⟩ := hp
      rfl
  | step j choice _ _ hstep ih =>
      obtain ⟨session, e, k, hj, -, rfl⟩ := System.step_eq_some hstep
      simp only at hp ⊢
      rw [own_append]
      rw [List.getElem?_set] at hp
      split at hp
      · rename_i hji
        subst hji
        split at hp
        · cases hp
          obtain rfl : session = _ := ih hj
          rw [respond_session (sessionAfter_settled _)]
          simp [own, sessionAfter_snoc]
        · cases hp
      · rename_i hji
        simpa [own, hji] using ih hp

theorem System.Reaches.accounted
    (h : System.Reaches schema allowed (System.start rows progs) s)
    {before after : List (Entry V X ε Ans)} {en : Entry V X ε Ans}
    (hs : s.history = before ++ en :: after) : Accounted schema before en := by
  induction h generalizing before after with
  | refl => simp [System.start] at hs
  | step i choice hreach _ hstep ih =>
      rename_i t _ _
      have hsession := fun {i p} => hreach.session (i := i) (p := p)
      obtain ⟨session, e, k, hi, hfree, rfl⟩ := System.step_eq_some hstep
      cases after using List.reverseRecOn with
      | append_singleton after last =>
          rw [← List.cons_append, ← List.append_assoc] at hs
          exact ih (List.append_inj' hs rfl).1
      | nil =>
          obtain ⟨rfl, hen⟩ := List.append_inj' hs rfl
          obtain rfl := List.singleton_inj.mp hen
          refine ⟨hsession hi, respond_published e, ?_, ?_⟩
          · intro st answer hevent
            obtain ⟨rfl, hanswer⟩ := Sigma.mk.inj hevent
            obtain ⟨-, hmode, heval⟩ := respond_statement (eq_of_heq hanswer)
            rw [← hevent] at heval
            exact ⟨hmode, heval⟩
          · intro j hj u hu w hw
            cases hq : t.procs[j]? with
            | some q =>
                rw [← hsession hq] at hu
                exact hreach.disjoint.free hi hfree (Ne.symm hj) hq w
                  (locked_or_touched rfl hw) u hu
            | none =>
                -- There is no such process, so it has no events.
                have hrecorded := hreach.recorded
                have hnone : own j t.history = [] := by
                  rw [List.eq_nil_iff_forall_not_mem]
                  intro event hevent
                  obtain ⟨e', he', rfl, -⟩ := mem_own.mp hevent
                  have hlt := hrecorded.call_lt.2 e' he'
                  rw [← hrecorded.call_lt.1] at hlt
                  rw [List.getElem?_eq_none_iff] at hq
                  omega
                rw [hnone] at hu
                exact absurd hu List.not_mem_nil

end Runs

/-! ## One transaction -/

omit [DecidableEq K] in
theorem publishes_nil {session : Session V} {event : Prog.Event (Effect V X) (Answer V Ans) ε}
    (hmode : session.mode = .active) (hquiet : Quiet event) : session.publishes event = [] := by
  unfold Session.publishes
  split
  · exact hquiet.elim
  · rw [if_neg (by simp [hmode])]

/-- Rows that no entry publishes anything under stay as they are. -/
theorem Chained.find_eq {first last : List V} {history : List (Entry V X ε Ans)} {k : K}
    (h : Chained first history last)
    (hstep : ∀ en ∈ history, find schema en.after k = find schema en.before k) :
    find schema last k = find schema first k :=
  h.rel (r := fun a b => find schema b k = find schema a k) (fun _ => rfl)
    (fun _ _ _ hab hbc => hbc.trans hab) hstep

section Transaction

variable {history before after A B : List (Entry V X ε Ans)} {en e : Entry V X ε Ans}
variable {pre tx tx' : List (Prog.Event (Effect V X) (Answer V Ans) ε)}

/-- The history of a run: chained, and every entry accounted for by its past. -/
structure Ledger (schema : Schema V K ε) (rows : List V) (history : List (Entry V X ε Ans))
    (last : List V) : Prop where
  chained : Chained rows history last
  accounted : ∀ before en after, history = before ++ en :: after → Accounted schema before en

variable {first last : List V}

theorem Ledger.find_after (h : Ledger schema first history last)
    (hs : history = before ++ en :: after) {k : K}
    (hk : ∀ w ∈ en.published, schema.key w ≠ k) :
    find schema en.after k = find schema en.before k := by
  rw [(h.accounted _ _ _ hs).after]
  exact find_apply_of_not_mem (by simpa using hk)

/-- A prefix of a history is one. -/
theorem Ledger.take (h : Ledger schema first history last)
    (hs : history = before ++ en :: after) : Ledger schema first before en.before := by
  constructor
  · have hchained := h.chained
    rw [hs, chained_append] at hchained
    obtain ⟨middle, hbefore, rfl, -⟩ := hchained
    exact hbefore
  · intro a e b hab
    exact h.accounted a e (b ++ en :: after) (by rw [hs, hab, List.append_assoc, List.cons_append])

/-- What a transaction has written is locked: until it ends nothing is published that excludes
one of its rows. -/
theorem Ledger.locked (h : Ledger schema first history last) (hs : history = A ++ e :: B)
    (hown : own e.call A = pre ++ ⟨.begin, .ok ()⟩ :: tx)
    (hquiet : ∀ event ∈ tx ++ e.event :: own e.call B, Quiet event) {w : V}
    (hw : w ∈ written e.event) :
    ∀ b ∈ B, ∀ u ∈ b.published, schema.clash u w = false := by
  intro b hb u hu
  obtain ⟨B₁, B₂, rfl⟩ := List.append_of_mem hb
  have hb := h.accounted (A ++ e :: B₁) b B₂ (by rw [hs, List.append_assoc, List.cons_append])
  have hpast : own e.call (A ++ e :: B₁) =
      pre ++ ⟨.begin, .ok ()⟩ :: (tx ++ e.event :: own e.call B₁) := by
    rw [own_append, hown, own_cons_self, List.append_assoc, List.cons_append]
  rw [own_append] at hquiet
  have hsession : sessionAfter (own e.call (A ++ e :: B₁)) =
      ⟨.active, (tx ++ e.event :: own e.call B₁).flatMap written⟩ := by
    rw [hpast]
    refine sessionAfter_begin fun event hevent => hquiet event ?_
    rw [← List.cons_append, ← List.append_assoc]
    exact List.mem_append_left _ hevent
  by_cases hcall : b.call = e.call
  · have hactive : b.session.mode = .active := by rw [hb.session, hcall, hsession]
    have hevent : Quiet b.event := by
      apply hquiet
      rw [← hcall, own_cons_self]
      simp
    rw [Entry.published, publishes_nil hactive hevent] at hu
    exact absurd hu List.not_mem_nil
  · refine hb.free e.call (Ne.symm hcall) w ?_ u (.inl hu)
    rw [hsession]
    simp [hw]

/-- One statement of a transaction, seen from a later step of the process: where it is in the
history, what it found, and what has been kept locked since. -/
structure Executed (schema : Schema V K ε) (past : List (Entry V X ε Ans)) (rows : List V)
    (call : Nat) (pre tx : List (Prog.Event (Effect V X) (Answer V Ans) ε)) (s : Stmt V)
    (answer : List V) (A : List (Entry V X ε Ans)) (e : Entry V X ε Ans)
    (B : List (Entry V X ε Ans)) : Prop where
  split : past = A ++ e :: B
  same : e.call = call
  event : e.event = ⟨.stmt s, .ok answer⟩
  silent : e.published = []
  own_past : own call A = pre ++ ⟨.begin, .ok ()⟩ :: tx
  found : eval schema (apply schema e.before (tx.flatMap written)) s =
    some (answer, written e.event)
  locked : ∀ w ∈ written e.event, ∀ b ∈ B, ∀ u ∈ b.published, schema.clash u w = false
  kept : ∀ w ∈ written e.event,
    find schema rows (schema.key w) = find schema e.before (schema.key w)

theorem Ledger.executed (h : Ledger schema first history last) {i : Nat} {s : Stmt V}
    {answer : List V}
    (hown : own i history = pre ++ ⟨.begin, .ok ()⟩ :: (tx ++ ⟨.stmt s, .ok answer⟩ :: tx'))
    (hquiet : ∀ event ∈ tx ++ ⟨.stmt s, .ok answer⟩ :: tx', Quiet event) :
    ∃ A e B, Executed schema history last i pre tx s answer A e B ∧ own i B = tx' := by
  rw [← List.cons_append, ← List.append_assoc] at hown
  obtain ⟨A, e, B, hs, rfl, hevent, hA, hB⟩ := own_split hown
  rw [← hevent, ← hB] at hquiet
  have hsession : sessionAfter (own e.call A) = ⟨.active, tx.flatMap written⟩ := by
    rw [hA]
    exact sessionAfter_begin fun event he => hquiet event (List.mem_append_left _ he)
  have haccounted := h.accounted A e B hs
  obtain ⟨-, heval⟩ := haccounted.answer s answer hevent
  rw [haccounted.session, hsession] at heval
  have hlocked := fun w (hw : w ∈ written e.event) => h.locked hs hA hquiet hw
  have hsilent : e.published = [] := by
    rw [Entry.published, publishes_nil ?_ (hquiet _ (by simp))]
    rw [haccounted.session, hsession]
  refine ⟨A, e, B, ⟨hs, rfl, hevent, hsilent, hA, heval, hlocked, fun w hw => ?_⟩, hB⟩
  have hchained := h.chained
  rw [hs, chained_append] at hchained
  obtain ⟨_, -, rfl, hchained⟩ := hchained
  have hsame : e.after = e.before := by
    rw [haccounted.after, hsilent]
    rfl
  rw [← hsame]
  refine hchained.find_eq fun b hb => ?_
  obtain ⟨B₁, B₂, rfl⟩ := List.append_of_mem hb
  have hs' : history = (A ++ e :: B₁) ++ b :: B₂ := by
    rw [hs, List.append_assoc, List.cons_append]
  refine h.find_after hs' fun u hu hkey => ?_
  have := hlocked w hw b (by simp) u hu
  rw [schema.clash_of_key u w hkey] at this
  cases this

/-- A statement outside of any transaction finds the committed rows. -/
theorem Ledger.found (h : Ledger schema first history last) {i : Nat} {s : Stmt V}
    {answer : List V} (hown : own i history = pre ++ ⟨.stmt s, .ok answer⟩ :: tx)
    (hpre : (sessionAfter pre).writes = []) :
    ∃ A e B, history = A ++ e :: B ∧ e.call = i ∧ e.event = ⟨.stmt s, .ok answer⟩ ∧
      own i A = pre ∧ own i B = tx ∧
        eval schema e.before s = some (answer, written e.event) := by
  obtain ⟨A, e, B, hs, rfl, hevent, hA, hB⟩ := own_split hown
  have haccounted := h.accounted A e B hs
  obtain ⟨-, heval⟩ := haccounted.answer s answer hevent
  rw [haccounted.session, hA, hpre] at heval
  exact ⟨A, e, B, hs, rfl, hevent, hA, hB, heval⟩

theorem Ledger.keyed (h : Ledger schema first history last) (hfirst : Keyed schema first) :
    Keyed schema last := by
  refine h.chained.invariant (P := fun _ rows => Keyed schema rows) hfirst
    fun past en future hs hrows => ?_
  rw [(h.accounted past en future hs).after]
  exact hrows.apply _

/-- If every update of a transaction leads from a row to a related one, every row it has
written is related to the committed row under it. -/
theorem Ledger.related (h : Ledger schema first history last) (hfirst : Keyed schema first)
    {r : V → V → Prop} (htrans : ∀ a b c, r a b → r b c → r a c) {i : Nat}
    (hown : own i history = pre ++ ⟨.begin, .ok ()⟩ :: tx) (hquiet : ∀ event ∈ tx, Quiet event)
    (hupdate : ∀ p f rows, ⟨.stmt (.update p f), .ok rows⟩ ∈ tx →
      ∀ u, p u = true → r u (f u) ∧ schema.key (f u) = schema.key u) :
    ∀ w ∈ tx.flatMap written, ∀ v, find schema last (schema.key w) = some v → r v w := by
  -- By induction on how much of the transaction has been executed.
  have go : ∀ tx₁ tx₂, tx = tx₁ ++ tx₂ →
      ∀ w ∈ tx₁.flatMap written, ∀ v, find schema last (schema.key w) = some v → r v w := by
    intro tx₁
    induction tx₁ using List.reverseRecOn with
    | nil => exact fun _ _ w hw => absurd hw List.not_mem_nil
    | append_singleton tx₁ event ih =>
        intro tx₂ htx w hw v hv
        rw [List.append_assoc, List.singleton_append] at htx
        have earlier := ih (event :: tx₂) htx
        rw [List.flatMap_append, List.mem_append] at hw
        obtain hw | hw := hw
        · exact earlier w hw v hv
        rw [List.flatMap_singleton] at hw
        obtain ⟨e, answer⟩ := event
        cases e with
        | ask x | begin | commit | rollback => exact absurd hw List.not_mem_nil
        | stmt s =>
            cases answer with
            | error error =>
                exact absurd (hquiet ⟨.stmt s, .error error⟩ (by simp [htx])) id
            | ok rows =>
                obtain ⟨A, e, B, hexec, -⟩ := h.executed (htx ▸ hown) (htx ▸ hquiet)
                have hkeyed : Keyed schema e.before :=
                  (h.take hexec.split).keyed hfirst
                rw [← hexec.event] at hw
                have hkept := hexec.kept w hw
                have hfound := hexec.found
                cases s with
                | select p =>
                    rw [hexec.event] at hw
                    exact absurd hw List.not_mem_nil
                | insert u =>
                    rw [eval] at hfound
                    split at hfound
                    · cases hfound
                    rename_i hclash
                    obtain ⟨-, hwritten⟩ := Prod.mk.inj (Option.some.inj hfound)
                    rw [← hwritten, List.mem_singleton] at hw
                    subst hw
                    rw [hkept] at hv
                    have hview : ∀ x ∈ apply schema e.before (tx₁.flatMap written),
                        schema.clash w x = false := by simpa using hclash
                    have hmissing := not_mem_key_of_clash hview
                    rw [← find_isSome_iff, find_apply, hv] at hmissing
                    simp at hmissing
                | update p f =>
                    rw [eval] at hfound
                    obtain ⟨-, hwritten⟩ := Prod.mk.inj (Option.some.inj hfound)
                    rw [← hwritten] at hw
                    obtain ⟨u, hu, rfl⟩ := List.mem_map.mp hw
                    obtain ⟨hu, hp⟩ := List.mem_filter.mp hu
                    obtain ⟨hrel, hkey⟩ := hupdate p f rows (by rw [htx]; simp) u hp
                    have hseen := (hkeyed.apply _).mem_iff.mp hu
                    rw [find_apply, Option.or_eq_some_iff] at hseen
                    rw [hkey] at hkept hv
                    obtain hseen | ⟨-, hseen⟩ := hseen
                    · have hmem := mem_of_find hseen
                      rw [List.mem_reverse] at hmem
                      exact htrans _ _ _ (earlier u hmem v hv) hrel
                    · rw [hkept, hseen] at hv
                      cases hv
                      exact hrel
  exact go tx [] (by simp)

/-- What a transaction publishes when it commits. -/
theorem Ledger.published (h : Ledger schema first history last)
    (hs : history = before ++ en :: after) (hevent : en.event = ⟨.commit, .ok ()⟩)
    (hown : own en.call before = pre ++ ⟨.begin, .ok ()⟩ :: tx)
    (hquiet : ∀ event ∈ tx, Quiet event) : en.published = tx.flatMap written := by
  rw [Entry.published, hevent]
  change en.session.writes = _
  rw [(h.accounted _ _ _ hs).session, hown, sessionAfter_begin hquiet]

end Transaction

theorem System.Reaches.ledger {rows : List V}
    {progs : List (Prog (Effect V X) (Answer V Ans) ε α)} {s : System V X ε Ans α}
    (h : System.Reaches schema allowed (System.start rows progs) s) :
    Ledger schema rows s.history s.rows :=
  ⟨h.recorded.chained, fun _ _ _ hs => h.accounted hs⟩

end Database
