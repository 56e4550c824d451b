import VitoPlatform.Library.Transactions
import Mathlib.Logic.Relation

/-!
# Reasoning about interleaved programs

What one program does by itself is a property of its own trace: the steps of process `i` in
the history are a trace of the program it started as, and each answer in it is the
database's (`Reaches.trace`, `Reaches.respond`). What programs do to each other goes through the
locks: those of two sessions never clash (`Disjoint`).
-/

namespace Database

variable {V K X ε α : Type} [DecidableEq K] {Ans : X → Type}
variable {schema : Schema V K ε} {allowed : Choice ε Ans → Prop}
variable {start s s' : System V X ε Ans α} {i : Nat} {choice : Choice ε Ans}

/-! ## Steps -/

/-- What one step does. -/
theorem System.step_eq_some (h : s.step schema i choice = some s') :
    ∃ session e k, s.procs[i]? = some ⟨session, .call e k⟩ ∧
      (choice.fault.isSome = true ∨
        unlocked schema (s.procs.eraseIdx i) (touched schema session s.rows e) = true) ∧
      s' =
        { rows := (respond schema session s.rows choice e).2.2
          procs := s.procs.set i ⟨(respond schema session s.rows choice e).2.1,
            k (respond schema session s.rows choice e).1⟩
          history := s.history ++ [⟨i, ⟨e, (respond schema session s.rows choice e).1⟩, session,
            s.rows, (respond schema session s.rows choice e).2.2⟩] } := by
  rw [System.step] at h
  split at h
  · rename_i session e k hi
    split at h
    · rename_i hfree
      refine ⟨session, e, k, hi, by simpa using hfree, ?_⟩
      exact (Option.some.inj h).symm
    · cases h
  · cases h

theorem System.run_reaches {schedule : List (Nat × Choice ε Ans)}
    (hallowed : ∀ c ∈ schedule, allowed c.2) (hreach : System.Reaches schema allowed start s)
    (h : s.run schema schedule = some s') : System.Reaches schema allowed start s' := by
  induction schedule generalizing s with
  | nil =>
      cases h
      exact hreach
  | cons c schedule ih =>
      obtain ⟨i, choice⟩ := c
      rw [System.run] at h
      split at h
      · rename_i next hnext
        exact ih (fun c hc => hallowed c (List.mem_cons_of_mem _ hc))
          (.step i choice hreach (hallowed (i, choice) (by simp)) hnext) h
      · cases h

/-! ## Histories -/

/-- The steps of one process. -/
def own (i : Nat) (history : List (Entry V X ε Ans)) :
    List (Prog.Event (Effect V X) (Answer V Ans) ε) :=
  (history.filter fun en => en.call = i).map (·.event)

theorem own_append (i : Nat) (a b : List (Entry V X ε Ans)) :
    own i (a ++ b) = own i a ++ own i b := by
  rw [own, List.filter_append, List.map_append, own, own]

theorem mem_own {event : Prog.Event (Effect V X) (Answer V Ans) ε}
    {history : List (Entry V X ε Ans)} :
    event ∈ own i history ↔ ∃ en ∈ history, en.call = i ∧ en.event = event := by
  simp [own, and_assoc]

/-- Each entry starts where the previous one ended. -/
def Chained : List V → List (Entry V X ε Ans) → List V → Prop
  | rows, [], last => rows = last
  | rows, en :: history, last => en.before = rows ∧ Chained en.after history last

theorem Chained.snoc {rows last : List V} {history : List (Entry V X ε Ans)}
    {en : Entry V X ε Ans} (h : Chained rows history last) (hen : en.before = last) :
    Chained rows (history ++ [en]) en.after := by
  induction history generalizing rows with
  | nil => exact ⟨hen.trans h.symm, rfl⟩
  | cons e history ih => exact ⟨h.1, ih h.2⟩

theorem chained_append {rows last : List V} {a b : List (Entry V X ε Ans)} :
    Chained rows (a ++ b) last ↔ ∃ middle, Chained rows a middle ∧ Chained middle b last := by
  induction a generalizing rows with
  | nil => simp [Chained]
  | cons e a ih =>
      simp only [List.cons_append, Chained, ih]
      exact ⟨fun ⟨h, m, ha, hb⟩ => ⟨m, ⟨h, ha⟩, hb⟩, fun ⟨m, ⟨h, ha⟩, hb⟩ => ⟨h, m, ha, hb⟩⟩

/-- What holds at the start of a chain and is kept by each of its entries holds at its end. -/
theorem Chained.invariant {P : List (Entry V X ε Ans) → List V → Prop} {rows last : List V}
    {history : List (Entry V X ε Ans)} (h : Chained rows history last) (hstart : P [] rows)
    (hstep : ∀ past en future, history = past ++ en :: future → P past en.before →
      P (past ++ [en]) en.after) : P history last := by
  have go : ∀ (future past : List (Entry V X ε Ans)) (rows : List V), history = past ++ future →
      Chained rows future last → P past rows → P history last := by
    intro future
    induction future with
    | nil =>
        rintro past rows rfl rfl hP
        rwa [List.append_nil]
    | cons en future ih =>
        rintro past rows hs ⟨rfl, hfuture⟩ hP
        refine ih (past ++ [en]) en.after ?_ hfuture (hstep past en future hs hP)
        rw [hs, List.append_assoc, List.singleton_append]
  exact go history [] rows rfl h hstart

/-- A reflexive and transitive relation that every step respects relates the ends. -/
theorem Chained.rel {r : List V → List V → Prop} (refl : ∀ a, r a a)
    (trans : ∀ a b c, r a b → r b c → r a c) {rows last : List V}
    {history : List (Entry V X ε Ans)} (h : Chained rows history last)
    (hstep : ∀ en ∈ history, r en.before en.after) : r rows last := by
  induction history generalizing rows with
  | nil => exact h ▸ refl rows
  | cons e history ih =>
      refine trans _ _ _ ?_ (ih h.2 fun en hen => hstep en (List.mem_cons_of_mem _ hen))
      rw [← h.1]
      exact hstep e (by simp)

section Recorded

variable {rows : List V} {progs : List (Prog (Effect V X) (Answer V Ans) ε α)}

/-- The history of a run is a chain of the database's own answers, and holds a trace of each
program. -/
structure Recorded (schema : Schema V K ε) (allowed : Choice ε Ans → Prop) (rows : List V)
    (progs : List (Prog (Effect V X) (Answer V Ans) ε α)) (s : System V X ε Ans α) : Prop where
  chained : Chained rows s.history s.rows
  respond : ∀ en ∈ s.history, ∃ choice session', allowed choice ∧
    Database.respond schema en.session en.before choice en.event.1 =
      (en.event.2, session', en.after)
  trace : ∀ i p, s.procs[i]? = some p →
    ∃ p₀, progs[i]? = some p₀ ∧ Prog.Trace p₀ (own i s.history) p.prog
  call_lt : s.procs.length = progs.length ∧ ∀ en ∈ s.history, en.call < progs.length

theorem System.Reaches.recorded
    (h : System.Reaches schema allowed (System.start rows progs) s) :
    Recorded schema allowed rows progs s := by
  induction h with
  | refl =>
      refine ⟨rfl, by simp [System.start], ?_, by simp [System.start]⟩
      intro i p hp
      simp only [System.start, List.getElem?_map, Option.map_eq_some_iff] at hp
      obtain ⟨p₀, hp₀, rfl⟩ := hp
      exact ⟨p₀, hp₀, .nil _⟩
  | step i choice _ hallowed hstep ih =>
      obtain ⟨session, e, k, hi, -, rfl⟩ := System.step_eq_some hstep
      refine ⟨ih.chained.snoc rfl, ?_, ?_, ?_⟩
      · intro en hen
        rcases List.mem_append.mp hen with hen | hen
        · exact ih.respond en hen
        · rw [List.mem_singleton.mp hen]
          exact ⟨choice, _, hallowed, rfl⟩
      · intro j p hp
        rw [List.getElem?_set] at hp
        split at hp
        · rename_i hij
          subst hij
          split at hp
          · cases hp
            obtain ⟨p₀, hp₀, htrace⟩ := ih.trace i _ hi
            refine ⟨p₀, hp₀, ?_⟩
            rw [own_append]
            simpa [own] using htrace.snoc _
          · cases hp
        · rename_i hij
          obtain ⟨p₀, hp₀, htrace⟩ := ih.trace j p hp
          refine ⟨p₀, hp₀, ?_⟩
          rw [own_append]
          simpa [own, hij] using htrace
      · refine ⟨by rw [List.length_set]; exact ih.call_lt.1, ?_⟩
        intro en hen
        rcases List.mem_append.mp hen with hen | hen
        · exact ih.call_lt.2 en hen
        · rw [List.mem_singleton.mp hen, ← ih.call_lt.1]
          exact (List.getElem?_eq_some_iff.mp hi).1

end Recorded

/-! ## Locks -/

/-- No two sessions hold a lock on the same row. -/
def Disjoint (schema : Schema V K ε) (procs : List (Process V X ε Ans α)) : Prop :=
  ∀ (i j : Nat) (p q : Process V X ε Ans α), i ≠ j → procs[i]? = some p → procs[j]? = some q →
    ∀ w ∈ p.session.writes, ∀ u ∈ q.session.writes, schema.clash w u = false

omit [DecidableEq K] in
theorem unlocked_of_step {procs : List (Process V X ε Ans α)} {writes : List V}
    (h : unlocked schema (procs.eraseIdx i) writes = true) {j : Nat} {q : Process V X ε Ans α}
    (hij : i ≠ j) (hq : procs[j]? = some q) :
    ∀ w ∈ writes, ∀ u ∈ q.session.writes, schema.clash w u = false := by
  intro w hw u hu
  have hmem : q ∈ procs.eraseIdx i := List.mem_eraseIdx_iff_getElem?.mpr ⟨j, Ne.symm hij, hq⟩
  simp only [unlocked, List.all_eq_true, Bool.not_eq_true'] at h
  exact h q hmem u hu w hw

/-- A session's locks after a step were its own before or were just taken. -/
theorem respond_writes {session : Session V} {rows : List V} {e : Effect V X} {w : V}
    (h : w ∈ (respond schema session rows choice e).2.1.writes) :
    w ∈ session.writes ∨ (choice.fault = none ∧ w ∈ touched schema session rows e) := by
  have hfailed : w ∈ session.failed.writes → w ∈ session.writes := by
    rw [Session.failed]
    split
    · exact id
    · exact fun h => absurd h List.not_mem_nil
  cases e with
  | ask x => exact .inl h
  | rollback => exact absurd h List.not_mem_nil
  | begin =>
      rw [respond] at h
      split at h
      · exact .inl (hfailed h)
      · exact absurd h List.not_mem_nil
  | commit =>
      rw [respond] at h
      split at h
      · exact .inl (hfailed h)
      · exact absurd h List.not_mem_nil
      · exact .inl h
  | stmt s =>
      rw [respond] at h
      rw [touched]
      split at h
      · exact .inl (hfailed h)
      · exact .inl h
      · split at h
        · exact .inl h
        · exact .inl h
      · split at h
        · exact .inl (hfailed h)
        · rename_i hfault _ _ _ _ heval
          rcases List.mem_append.mp h with h | h
          · exact .inl h
          · refine .inr ⟨hfault, ?_⟩
            rw [heval]
            exact h

section Locks

variable {rows : List V} {progs : List (Prog (Effect V X) (Answer V Ans) ε α)}

/-- What a step writes is free of the locks of the other sessions. -/
theorem Disjoint.free (h : Disjoint schema s.procs) {session : Session V} {e : Effect V X}
    {k : Except ε (Answer V Ans e) → Prog (Effect V X) (Answer V Ans) ε α}
    (hi : s.procs[i]? = some ⟨session, .call e k⟩)
    (hfree : choice.fault.isSome = true ∨
      unlocked schema (s.procs.eraseIdx i) (touched schema session s.rows e) = true)
    {j : Nat} {q : Process V X ε Ans α} (hij : i ≠ j) (hq : s.procs[j]? = some q) :
    ∀ w, (w ∈ session.writes ∨
      choice.fault = none ∧ w ∈ touched schema session s.rows e) →
        ∀ u ∈ q.session.writes, schema.clash w u = false := by
  rintro w (hw | ⟨hfault, hw⟩) u hu
  · exact h i j _ q hij hi hq w hw u hu
  · refine unlocked_of_step (hfree.resolve_left ?_) hij hq w hw u hu
    simp [hfault]

/-- The locks stay disjoint. -/
theorem Disjoint.step (h : Disjoint schema s.procs) (hstep : s.step schema i choice = some s') :
    Disjoint schema s'.procs := by
  obtain ⟨session, e, k, hi, hfree, rfl⟩ := System.step_eq_some hstep
  -- No lock of another session is on a row this step writes.
  have apart : ∀ j q, i ≠ j → s.procs[j]? = some q →
      ∀ w ∈ (respond schema session s.rows choice e).2.1.writes, ∀ u ∈ q.session.writes,
        schema.clash w u = false :=
    fun j q hij hq w hw => h.free hi hfree hij hq w (respond_writes hw)
  intro a b p q hab hp hq w hw u hu
  rw [List.getElem?_set] at hp hq
  split at hp
  · rename_i hia
    subst hia
    rw [if_neg hab] at hq
    split at hp
    · cases hp
      exact apart b q hab hq w hw u hu
    · cases hp
  · split at hq
    · rename_i hib
      subst hib
      split at hq
      · cases hq
        rw [schema.clash_comm]
        exact apart a p (Ne.symm hab) hp u hu w hw
      · cases hq
    · exact h a b p q hab hp hq w hw u hu

omit [DecidableEq K] in
theorem disjoint_start :
    Disjoint schema (System.start rows progs : System V X ε Ans α).procs := by
  intro a b p q _ hp _ w hw
  simp only [System.start, List.getElem?_map, Option.map_eq_some_iff] at hp
  obtain ⟨_, -, rfl⟩ := hp
  exact absurd hw List.not_mem_nil

end Locks

end Database
