import VitoPlatform.Library.Interleaving

/-!
# Histories of programs, and programs without transactions

What a program's own trace says about the history of a run, and what the history of programs
that open no transaction looks like: every session stays idle, so each statement is a
transaction of its own and changes the table by exactly its effect.
-/

namespace Database

variable {V K X ε α : Type} [DecidableEq K] {Ans : X → Type}
variable {schema : Schema V K ε} {allowed : Choice ε Ans → Prop}
variable {rows : List V} {progs : List (Prog (Effect V X) (Answer V Ans) ε α)}
variable {s : System V X ε Ans α} {i : Nat}

/-! ## Own traces in a history -/

/-- An event of a process is an entry of the history, with its own past before it. -/
theorem own_split {history : List (Entry V X ε Ans)}
    {a b : List (Prog.Event (Effect V X) (Answer V Ans) ε)}
    {event : Prog.Event (Effect V X) (Answer V Ans) ε} (h : own i history = a ++ event :: b) :
    ∃ before en after, history = before ++ en :: after ∧ en.call = i ∧ en.event = event ∧
      own i before = a ∧ own i after = b := by
  induction history generalizing a with
  | nil => simp [own] at h
  | cons en history ih =>
      rw [← List.singleton_append, own_append] at h
      by_cases hen : en.call = i
      · have hone : own i [en] = [en.event] := by simp [own, hen]
        rw [hone, List.singleton_append] at h
        cases a with
        | nil =>
            obtain ⟨hevent, hb⟩ := List.cons.inj h
            exact ⟨[], en, history, rfl, hen, hevent, rfl, hb⟩
        | cons e a =>
            obtain ⟨he, ha⟩ := List.cons.inj h
            obtain ⟨before, found, after, rfl, hcall, hevent, hbefore, hafter⟩ := ih ha
            refine ⟨en :: before, found, after, rfl, hcall, hevent, ?_, hafter⟩
            rw [← List.singleton_append, own_append, hone, hbefore, he, List.singleton_append]
      · have hone : own i [en] = [] := by simp [own, hen]
        rw [hone, List.nil_append] at h
        obtain ⟨before, found, after, rfl, hcall, hevent, hbefore, hafter⟩ := ih h
        refine ⟨en :: before, found, after, rfl, hcall, hevent, ?_, hafter⟩
        rw [← List.singleton_append, own_append, hone, hbefore, List.nil_append]

/-- The first event of a process is an entry of the history, with nothing of it before. -/
theorem own_head {history : List (Entry V X ε Ans)}
    {event : Prog.Event (Effect V X) (Answer V Ans) ε}
    {b : List (Prog.Event (Effect V X) (Answer V Ans) ε)} (h : own i history = event :: b) :
    ∃ before en after, history = before ++ en :: after ∧ en.call = i ∧ en.event = event ∧
      own i before = [] ∧ own i after = b :=
  own_split (a := []) h

theorem own_cons_self {en : Entry V X ε Ans} {history : List (Entry V X ε Ans)} :
    own en.call (en :: history) = en.event :: own en.call history := by
  simp [own]

/-- Two different entries of a list stand in one of two orders. -/
theorem exists_two_splits {β : Type} {l : List β} {a b : β} (ha : a ∈ l) (hb : b ∈ l)
    (hne : a ≠ b) :
    ∃ x y z, l = x ++ a :: y ++ b :: z ∨ l = x ++ b :: y ++ a :: z := by
  obtain ⟨x, w, rfl⟩ := List.append_of_mem ha
  rcases List.mem_append.mp hb with hb | hb
  · obtain ⟨u, v, rfl⟩ := List.append_of_mem hb
    exact ⟨u, v, w, .inr rfl⟩
  · have hb : b ∈ w := (List.mem_cons.mp hb).resolve_left (Ne.symm hne)
    obtain ⟨u, v, rfl⟩ := List.append_of_mem hb
    exact ⟨x, u, v, .inl (by simp)⟩

namespace Recorded

variable {guard : List (Prog.Event (Effect V X) (Answer V Ans) ε) → Effect V X → Prop}

/-- Every step of a process was let pass by the guard of its program. -/
theorem guarded (h : Recorded schema allowed rows progs s)
    {before after : List (Entry V X ε Ans)} {en : Entry V X ε Ans}
    (hs : s.history = before ++ en :: after) {p : Prog (Effect V X) (Answer V Ans) ε α}
    {post : α → List (Prog.Event (Effect V X) (Answer V Ans) ε) → Prop}
    {fail : ε → List (Prog.Event (Effect V X) (Answer V Ans) ε) → Prop}
    (hp : progs[en.call]? = some p) (hwp : Prog.wp guard p post fail []) :
    guard (own en.call before) en.event.1 := by
  have hlt : en.call < s.procs.length := by
    rw [h.call_lt.1]
    exact h.call_lt.2 en (by simp [hs])
  obtain ⟨p₀, hp₀, trace⟩ := h.trace en.call _ (List.getElem?_eq_getElem hlt)
  rw [hp] at hp₀
  cases hp₀
  have hown : own en.call s.history = own en.call before ++ en.event :: own en.call after := by
    rw [hs, own_append, own_cons_self]
  exact trace.guarded_event hwp hown

/-- A process that has ended meets what its program guarantees of its end. -/
theorem ended (h : Recorded schema allowed rows progs s)
    {p : Prog (Effect V X) (Answer V Ans) ε α} (hp : progs[i]? = some p)
    {final : List (Prog.Event (Effect V X) (Answer V Ans) ε) → Except ε α → Prop}
    (hwp : Prog.wp guard p (fun a t => final t (.ok a)) (fun error t => final t (.error error))
      []) {process : Process V X ε Ans α} {outcome : Except ε α}
    (hi : s.procs[i]? = some process) (houtcome : process.prog.outcome = some outcome) :
    final (own i s.history) outcome := by
  obtain ⟨p₀, hp₀, trace⟩ := h.trace i _ hi
  rw [hp] at hp₀
  cases hp₀
  cases hprog : process.prog with
  | pure a =>
      rw [hprog] at houtcome trace
      cases houtcome
      exact trace.returns hwp
  | throw error =>
      rw [hprog] at houtcome trace
      cases houtcome
      exact trace.throws hwp
  | call e k =>
      rw [hprog] at houtcome
      cases houtcome

/-- A relation that every step respects relates the table before any step to the last one. -/
theorem rel_last (h : Recorded schema allowed rows progs s) {r : List V → List V → Prop}
    (refl : ∀ a, r a a) (trans : ∀ a b c, r a b → r b c → r a c)
    (hstep : ∀ en ∈ s.history, r en.before en.after) {before after : List (Entry V X ε Ans)}
    {en : Entry V X ε Ans} (hs : s.history = before ++ en :: after) :
    r en.after s.rows := by
  have hchained := h.chained
  rw [hs, chained_append] at hchained
  obtain ⟨_, -, -, hafter⟩ := hchained
  exact hafter.rel refl trans fun e he => hstep e (by simp [hs, he])

/-- It also relates the table after a step to the one before any later step. -/
theorem rel_later (h : Recorded schema allowed rows progs s) {r : List V → List V → Prop}
    (refl : ∀ a, r a a) (trans : ∀ a b c, r a b → r b c → r a c)
    (hstep : ∀ en ∈ s.history, r en.before en.after)
    {before between after : List (Entry V X ε Ans)} {en en' : Entry V X ε Ans}
    (hs : s.history = before ++ en :: between ++ en' :: after) :
    r en.after en'.before := by
  have hchained := h.chained
  rw [hs, chained_append] at hchained
  obtain ⟨_, hchained, rfl, -⟩ := hchained
  rw [chained_append] at hchained
  obtain ⟨_, -, -, hbetween⟩ := hchained
  refine hbetween.rel refl trans fun e he => hstep e ?_
  simp [hs, he]

/-- A property of tables that every step keeps holds of every table of the run. -/
theorem invariant (h : Recorded schema allowed rows progs s) {inv : List V → Prop}
    (hrows : inv rows) (hstep : ∀ en ∈ s.history, inv en.before → inv en.after) :
    (∀ en ∈ s.history, inv en.before) ∧ inv s.rows := by
  have go : ∀ {history : List (Entry V X ε Ans)} {first last : List V},
      Chained first history last → inv first →
        (∀ en ∈ history, inv en.before → inv en.after) →
          (∀ en ∈ history, inv en.before) ∧ inv last := by
    intro history
    induction history with
    | nil =>
        rintro first last hchained hfirst -
        exact ⟨fun _ hen => absurd hen List.not_mem_nil, hchained ▸ hfirst⟩
    | cons e history ih =>
        intro first last hchained hfirst hstep
        have hbefore : inv e.before := hchained.1 ▸ hfirst
        obtain ⟨hall, hlast⟩ := ih hchained.2 (hstep e (by simp) hbefore)
          fun en hen => hstep en (List.mem_cons_of_mem _ hen)
        refine ⟨fun en hen => ?_, hlast⟩
        rcases List.mem_cons.mp hen with rfl | hen
        · exact hbefore
        · exact hall en hen
  exact go h.chained hrows hstep

end Recorded

/-! ## Statements outside transactions -/

/-- Where no transaction is begun, every session is idle. -/
theorem System.Reaches.idle (h : System.Reaches schema allowed (System.start rows progs) s)
    (hbegin : ∀ en ∈ s.history, en.event.1 ≠ .begin) :
    (∀ p ∈ s.procs, p.session = .idle) ∧ ∀ en ∈ s.history, en.session = .idle := by
  induction h with
  | refl =>
      refine ⟨fun p hp => ?_, fun en hen => absurd hen List.not_mem_nil⟩
      simp only [System.start, List.mem_map] at hp
      obtain ⟨_, -, rfl⟩ := hp
      rfl
  | step i choice _ _ hstep ih =>
      obtain ⟨session, e, k, hi, -, rfl⟩ := System.step_eq_some hstep
      obtain ⟨hprocs, hentries⟩ := ih fun en hen => hbegin en (by simp [hen])
      have hne : e ≠ .begin := by
        have := hbegin _ (List.mem_append_right _ (List.mem_singleton.mpr rfl))
        exact this
      obtain rfl : session = .idle := hprocs _ (List.mem_of_getElem? hi)
      have stays : ∀ rows, (respond schema .idle rows choice e).2.1 = Session.idle := by
        intro rows
        cases e with
        | begin => exact absurd rfl hne
        | rollback => rfl
        | ask x => rfl
        | commit =>
            rw [respond]
            cases choice.fault with
            | none => rfl
            | some error => rfl
        | stmt st =>
            rw [respond]
            cases choice.fault with
            | some error => rfl
            | none =>
                simp only [Session.idle]
                split
                · rfl
                · rfl
      refine ⟨fun p hp => ?_, fun en hen => ?_⟩
      · rcases List.mem_or_eq_of_mem_set hp with hp | rfl
        · exact hprocs p hp
        · exact stays _
      · rcases List.mem_append.mp hen with hen | hen
        · exact hentries en hen
        · rw [List.mem_singleton.mp hen]

section Statements

variable {choice : Choice ε Ans} {before after : List V} {session' : Session V}

theorem respond_insert {v : V} {answer : Except ε (List V)}
    (h : respond schema .idle before choice (.stmt (.insert v) : Effect V X) =
      (answer, session', after)) :
    (answer = .ok [v] ∧ (∀ u ∈ before, schema.clash v u = false) ∧
        after = apply schema before [v]) ∨
      ∃ error, answer = .error error ∧ after = before ∧
        (choice.fault = none →
          error = schema.uniqueViolation ∧ ∃ u ∈ before, schema.clash v u = true) := by
  rw [respond] at h
  cases hfault : choice.fault with
  | some error =>
      rw [hfault] at h
      cases h
      exact .inr ⟨error, rfl, rfl, fun hnone => by cases hnone⟩
  | none =>
      rw [hfault] at h
      by_cases hclash : before.any (schema.clash v) = true
      · have heval : eval schema (apply schema before Session.idle.writes) (.insert v) = none :=
          if_pos hclash
        simp only [Session.idle] at h heval
        rw [heval] at h
        cases h
        exact .inr ⟨_, rfl, rfl, fun _ => ⟨rfl, by simpa using hclash⟩⟩
      · have heval : eval schema (apply schema before Session.idle.writes) (.insert v) =
            some ([v], [v]) := if_neg hclash
        simp only [Session.idle] at h heval
        rw [heval] at h
        cases h
        exact .inl ⟨rfl, by simpa using hclash, rfl⟩

theorem respond_update {p : V → Bool} {f : V → V} {answer : Except ε (List V)}
    (h : respond schema .idle before choice (.stmt (.update p f) : Effect V X) =
      (answer, session', after)) :
    (answer = .ok ((before.filter p).map f) ∧
        after = apply schema before ((before.filter p).map f)) ∨
      ∃ error, answer = .error error ∧ after = before ∧ choice.fault = some error := by
  rw [respond] at h
  cases hfault : choice.fault with
  | some error =>
      rw [hfault] at h
      cases h
      exact .inr ⟨error, rfl, rfl, rfl⟩
  | none =>
      rw [hfault] at h
      cases h
      exact .inl ⟨rfl, rfl⟩

theorem respond_select {p : V → Bool} {answer : Except ε (List V)}
    (h : respond schema .idle before choice (.stmt (.select p) : Effect V X) =
      (answer, session', after)) :
    after = before ∧
      (answer = .ok (before.filter p) ∨ ∃ error, answer = .error error ∧
        choice.fault = some error) := by
  rw [respond] at h
  cases hfault : choice.fault with
  | some error =>
      rw [hfault] at h
      cases h
      exact ⟨rfl, .inr ⟨error, rfl, rfl⟩⟩
  | none =>
      rw [hfault] at h
      cases h
      exact ⟨rfl, .inl rfl⟩

end Statements

/-- The database itself answered this step, without a failure of its own. -/
def Faultless (schema : Schema V K ε) (en : Entry V X ε Ans) : Prop :=
  ∃ choice session', choice.fault = none ∧
    respond schema en.session en.before choice en.event.1 = (en.event.2, session', en.after)

end Database
