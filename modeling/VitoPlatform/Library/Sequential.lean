import VitoPlatform.Library.Transactions

/-!
# Programs by themselves

`Returns` says that a program, alone with the database in an environment that always makes the
same choice, comes to its end and returns a value. It composes along the program, and each such
execution is a run of the system that consists of this program (`Returns.run`).
-/

namespace Database

variable {V K X ε α β : Type} [DecidableEq K] {Ans : X → Type}

/-- From a session and committed rows a program returns a value, in a session and rows. -/
inductive Returns (schema : Schema V K ε) (choice : Choice ε Ans) :
    Prog (Effect V X) (Answer V Ans) ε α → Session V → List V → α → Session V → List V → Prop
  | pure (a : α) (session : Session V) (rows : List V) :
      Returns schema choice (.pure a) session rows a session rows
  | call {e k session rows a session' rows'} :
      Returns schema choice (k (respond schema session rows choice e).1)
        (respond schema session rows choice e).2.1 (respond schema session rows choice e).2.2
        a session' rows' →
      Returns schema choice (.call e k) session rows a session' rows'

namespace Returns

variable {schema : Schema V K ε} {choice : Choice ε Ans}
variable {p : Prog (Effect V X) (Answer V Ans) ε α} {session session' session'' : Session V}
variable {rows rows' rows'' : List V} {a : α} {b : β}

theorem bind {f : α → Prog (Effect V X) (Answer V Ans) ε β}
    (first : Returns schema choice p session rows a session' rows')
    (second : Returns schema choice (f a) session' rows' b session'' rows'') :
    Returns schema choice (p >>= f) session rows b session'' rows'' := by
  induction first with
  | pure a session rows => exact second
  | call _ ih => exact .call (ih second)

theorem tryCatch {handler : ε → Prog (Effect V X) (Answer V Ans) ε α}
    (h : Returns schema choice p session rows a session' rows') :
    Returns schema choice (p.tryCatch handler) session rows a session' rows' := by
  induction h with
  | pure a session rows => exact .pure a session rows
  | call _ ih => exact .call ih

/-- An effect that the database answers. -/
theorem perform {e : Effect V X} {r : Answer V Ans e}
    (h : respond schema session rows choice e = (.ok r, session', rows')) :
    Returns schema choice (Prog.perform e) session rows r session' rows' := by
  refine .call ?_
  rw [h]
  exact .pure r session' rows'

theorem expect {value : Option α} {error : ε} (h : value = some a) :
    Returns schema choice (Prog.expect value error : Prog (Effect V X) (Answer V Ans) ε α)
      session rows a session rows := by
  rw [h]
  exact .pure a session rows

/-! ## Effects -/

theorem ask {x : X} {answer : Ans x} (h : choice.answers x = .ok answer) :
    Returns schema choice (Prog.perform (Effect.ask x)) session rows answer session rows := by
  refine .perform ?_
  rw [respond, h]

theorem begin (h : choice.fault = none) :
    Returns schema choice (Prog.perform (Effect.begin (V := V) (X := X))) .idle rows ()
      ⟨.active, []⟩ rows := by
  refine .perform ?_
  simp only [respond, h]

theorem commit (h : choice.fault = none) {writes : List V} :
    Returns schema choice (Prog.perform (Effect.commit (V := V) (X := X))) ⟨.active, writes⟩ rows ()
      .idle (apply schema rows writes) := by
  refine .perform ?_
  simp only [respond, h]

/-- A statement of a transaction. -/
theorem statement (h : choice.fault = none) {writes answer written : List V} {st : Stmt V}
    (heval : eval schema (apply schema rows writes) st = some (answer, written)) :
    Returns schema choice (Prog.perform (Effect.stmt (V := V) (X := X) st)) ⟨.active, writes⟩ rows
      answer ⟨.active, writes ++ written⟩ rows := by
  refine .perform ?_
  simp only [respond, h, heval]

/-- A read before anything is written, in a transaction or outside of any. -/
theorem select (h : choice.fault = none) (hmode : session.mode ≠ .aborted)
    (hwrites : session.writes = []) (p : V → Bool) :
    Returns schema choice (Prog.perform (Effect.stmt (V := V) (X := X) (.select p))) session rows
      (rows.filter p) session rows := by
  obtain ⟨mode, writes⟩ := session
  obtain rfl : writes = [] := hwrites
  refine .perform ?_
  cases mode with
  | aborted => exact absurd rfl hmode
  | idle | active => simp [respond, h, eval, apply]

/-! ## Runs -/

/-- What a program does alone is a run of the system of this program. -/
theorem run (h : Returns schema choice p session rows a session' rows')
    (history : List (Entry V X ε Ans)) :
    ∃ n s, System.run schema ⟨rows, [⟨session, p⟩], history⟩ (List.replicate n (0, choice)) =
        some s ∧ s.rows = rows' := by
  induction h generalizing history with
  | pure a session rows => exact ⟨0, _, rfl, rfl⟩
  | @call e k session rows a session' rows' _ ih =>
      obtain ⟨n, s, hs, hrows⟩ := ih (history ++
        [⟨0, ⟨e, (respond schema session rows choice e).1⟩, session, rows,
          (respond schema session rows choice e).2.2⟩])
      refine ⟨n + 1, s, ?_, hrows⟩
      rw [List.replicate_succ, System.run, System.step]
      simp only [List.getElem?_cons_zero, List.eraseIdx_cons_zero, unlocked, List.all_nil,
        Bool.or_true, if_true, List.set_cons_zero]
      exact hs

end Returns

end Database
