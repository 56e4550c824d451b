import VitoPlatform.Library.Commits

/-!
# Transactions of one write

Many services write by one statement at a time: a transaction reads, executes one update or
insert, asks for this and that, and commits; or the statement stands alone. Such a write is
atomic in a strong sense. The row it was computed from is locked until the commit, so it is
still the committed row when the new one is published: `WrittenAt` says this of a step of a run,
`System.Reaches.writtenAt` that every step which publishes anything is of this kind.

`Disciplined` is the guard by which a program is shown to write so; a condition `may` on each
effect comes along, to say what else is known when it is performed.
-/

namespace Database

open Prog

variable {V K X ε α β : Type} {Ans : X → Type}

/-- What happened in a program. -/
abbrev Happening (V X ε : Type) (Ans : X → Type) := Prog.Event (Effect V X) (Answer V Ans) ε

/-- `$transaction`: what throws in it is rolled back. -/
def transact (body : Prog (Effect V X) (Answer V Ans) ε α) :
    Prog (Effect V X) (Answer V Ans) ε α := do
  let _ ← perform (Effect.begin (V := V) (X := X))
  let a ← body.tryCatch fun error => do
    let _ ← perform (Effect.rollback (V := V) (X := X))
    .throw error
  let _ ← perform (Effect.commit (V := V) (X := X))
  Prog.pure a

/-- A transaction has been begun, and nothing has been written in it. -/
def Reading (t : List (Happening V X ε Ans)) : Prop :=
  ∃ pre tx, t = pre ++ ⟨.begin, .ok ()⟩ :: tx ∧ (∀ event ∈ tx, Quiet event) ∧
    tx.flatMap written = []

/-- `st` is the only statement of the open transaction that has written; before the
transaction there was `pre`, before the statement `reads`, after it `asks`. -/
structure Wrote (pre reads asks : List (Happening V X ε Ans)) (st : Stmt V) (answer : List V)
    (t : List (Happening V X ε Ans)) : Prop where
  split : t = pre ++ ⟨.begin, .ok ()⟩ :: (reads ++ ⟨.stmt st, .ok answer⟩ :: asks)
  quiet : ∀ event ∈ reads ++ ⟨.stmt st, .ok answer⟩ :: asks, Quiet event
  before : reads.flatMap written = []
  after : asks.flatMap written = []

/-- A transaction that may commit: it has written by one statement at most. -/
def Committable (t : List (Happening V X ε Ans)) : Prop :=
  Reading t ∨ ∃ pre reads asks st answer, Wrote pre reads asks st answer t

/-- A statement of its own, or the first that writes in a transaction. -/
def Unwritten (t : List (Happening V X ε Ans)) : Prop :=
  Reading t ∨ (sessionAfter t).mode = .idle

/-- `may` holds at each effect, and each transaction writes by one statement at most. -/
def Disciplined (may : List (Happening V X ε Ans) → Effect V X → Prop)
    (t : List (Happening V X ε Ans)) (e : Effect V X) : Prop :=
  may t e ∧
    match e with
    | .stmt (.update _ _) | .stmt (.insert _) => Unwritten t
    | .commit => Committable t
    | _ => True

section Traces

variable {t pre reads asks : List (Happening V X ε Ans)} {event : Happening V X ε Ans}
variable {st : Stmt V} {answer : List V}

theorem reading_begin (t : List (Happening V X ε Ans)) : Reading (t ++ [⟨.begin, .ok ()⟩]) :=
  ⟨t, [], rfl, fun _ h => absurd h List.not_mem_nil, rfl⟩

theorem Reading.snoc (h : Reading t) (hquiet : Quiet event) (hwritten : written event = []) :
    Reading (t ++ [event]) := by
  obtain ⟨pre, tx, rfl, htx, hnone⟩ := h
  refine ⟨pre, tx ++ [event], by simp, ?_, by simp [hnone, hwritten]⟩
  intro e he
  rcases List.mem_append.mp he with he | he
  · exact htx e he
  · rw [List.mem_singleton.mp he]
    exact hquiet

theorem Reading.ask (h : Reading t) (x : X) (a : Except ε (Ans x)) :
    Reading (t ++ [⟨.ask x, a⟩]) :=
  h.snoc trivial rfl

theorem Reading.select (h : Reading t) (p : V → Bool) (rows : List V) :
    Reading (t ++ [⟨.stmt (.select p), .ok rows⟩]) :=
  h.snoc trivial rfl

theorem Reading.write (h : Reading t) (st : Stmt V) (answer : List V) :
    ∃ pre reads, t = pre ++ ⟨.begin, .ok ()⟩ :: reads ∧
      Wrote pre reads [] st answer (t ++ [⟨.stmt st, .ok answer⟩]) := by
  obtain ⟨pre, tx, rfl, htx, hnone⟩ := h
  refine ⟨pre, tx, rfl, by simp, ?_, hnone, rfl⟩
  intro e he
  rcases List.mem_append.mp he with he | he
  · exact htx e he
  · rw [List.mem_singleton.mp he]
    trivial

theorem Wrote.snoc (h : Wrote pre reads asks st answer t) (hquiet : Quiet event)
    (hwritten : written event = []) :
    Wrote pre reads (asks ++ [event]) st answer (t ++ [event]) := by
  refine ⟨by simp [h.split], ?_, h.before, by simp [h.after, hwritten]⟩
  intro e he
  rw [← List.cons_append, ← List.append_assoc] at he
  rcases List.mem_append.mp he with he | he
  · exact h.quiet e he
  · rw [List.mem_singleton.mp he]
    exact hquiet

theorem Wrote.ask (h : Wrote pre reads asks st answer t) (x : X) (a : Except ε (Ans x)) :
    Wrote pre reads (asks ++ [⟨.ask x, a⟩]) st answer (t ++ [⟨.ask x, a⟩]) :=
  h.snoc trivial rfl

theorem Wrote.select (h : Wrote pre reads asks st answer t) (p : V → Bool) (rows : List V) :
    Wrote pre reads (asks ++ [⟨.stmt (.select p), .ok rows⟩]) st answer
      (t ++ [⟨.stmt (.select p), .ok rows⟩]) :=
  h.snoc trivial rfl

theorem Wrote.committable (h : Wrote pre reads asks st answer t) : Committable t :=
  .inr ⟨pre, reads, asks, st, answer, h⟩

end Traces

/-! ## Rules -/

section Rules

variable {t : List (Happening V X ε Ans)}
variable {fail : ε → List (Happening V X ε Ans) → Prop}

theorem wp_transact {body : Prog (Effect V X) (Answer V Ans) ε α}
    {guard : List (Happening V X ε Ans) → Effect V X → Prop}
    {post : α → List (Happening V X ε Ans) → Prop}
    (hguard : ∀ t, guard t .begin ∧ guard t .rollback)
    (hbegin : ∀ error, fail error (t ++ [⟨.begin, .error error⟩]))
    (h : wp guard body
      (fun a t' => guard t' .commit ∧ post a (t' ++ [⟨.commit, .ok ()⟩]) ∧
        ∀ error, fail error (t' ++ [⟨.commit, .error error⟩]))
      (fun error t' => fail error (t' ++ [⟨.rollback, .ok ()⟩]) ∧
        ∀ error', fail error' (t' ++ [⟨.rollback, .error error'⟩]))
      (t ++ [⟨.begin, .ok ()⟩])) :
    wp guard (transact body) post fail t := by
  refine wp_bind.mpr (wp_perform.mpr ⟨(hguard t).1, fun _ => ?_, hbegin⟩)
  refine wp_bind.mpr (wp_tryCatch.mpr (wp_mono h ?_ ?_))
  · rintro a t' ⟨hcommit, hpost, hfail⟩
    exact wp_bind.mpr (wp_perform.mpr ⟨hcommit, fun _ => hpost, hfail⟩)
  · intro error t' hfail
    exact wp_bind.mpr (wp_perform.mpr ⟨(hguard t').2, fun _ => hfail.1, hfail.2⟩)

end Rules

/-! ## Runs -/

section Runs

variable [DecidableEq K] {schema : Schema V K ε} {allowed : Choice ε Ans → Prop}
variable {rows : List V} {progs : List (Prog (Effect V X) (Answer V Ans) ε α)}
variable {s : System V X ε Ans α} {past future : List (Entry V X ε Ans)} {en : Entry V X ε Ans}

theorem mem_put {v w : V} (h : v ∈ put schema rows w) : v ∈ rows ∨ v = w := by
  unfold put at h
  split at h
  · obtain ⟨u, hu, rfl⟩ := List.mem_map.mp h
    split
    · exact .inr rfl
    · exact .inl hu
  · rcases List.mem_append.mp h with h | h
    · exact .inl h
    · exact .inr (List.mem_singleton.mp h)

theorem mem_apply {writes : List V} {v : V} (h : v ∈ apply schema rows writes) :
    v ∈ rows ∨ v ∈ writes := by
  induction writes generalizing rows with
  | nil => exact .inl h
  | cons w writes ih =>
      rcases ih h with h | h
      · rcases mem_put h with h | rfl
        · exact .inl h
        · exact .inr List.mem_cons_self
      · exact .inr (List.mem_cons_of_mem _ h)

/-- What a statement publishes, on the rows it is published over: the images of committed rows,
or a row that excludes none of them. -/
def Publishes (schema : Schema V K ε) (before : List V) (published : List V) : Stmt V → Prop
  | .select _ => published = []
  | .update p f => ∀ w ∈ published, ∃ u, find schema before (schema.key u) = some u ∧
      p u = true ∧ w = f u ∧ schema.key w = schema.key u
  | .insert v => published = [v] ∧ ∀ u ∈ before, schema.clash v u = false

/-- The step `en` publishes what one statement of its call has written: `e` is the step that
executed the statement, on the same rows as far as they are written, and nobody else has
published them since. -/
structure WrittenAt (schema : Schema V K ε) (past : List (Entry V X ε Ans))
    (en : Entry V X ε Ans) (st : Stmt V) (answer : List V) (A : List (Entry V X ε Ans))
    (e : Entry V X ε Ans) : Prop where
  split : ∃ B, past ++ [en] = A ++ e :: B
  same : e.call = en.call
  event : e.event = ⟨.stmt st, .ok answer⟩
  published : en.published = written e.event
  kept : ∀ w ∈ en.published,
    find schema en.before (schema.key w) = find schema e.before (schema.key w)
  answered : eval schema e.before st = some (answer, written e.event)
  publishes : Publishes schema en.before en.published st

/-- What came before the statement came before the step. -/
theorem WrittenAt.past_eq {st : Stmt V} {answer : List V} {A : List (Entry V X ε Ans)}
    {e : Entry V X ε Ans} (h : WrittenAt schema past en st answer A e) : ∃ C, past = A ++ C := by
  obtain ⟨B, hsplit⟩ := h.split
  obtain ⟨C, hpast⟩ : A <+: past := by
    refine List.prefix_of_prefix_length_le ⟨_, hsplit.symm⟩ (List.prefix_append past [en]) ?_
    have hlength := congrArg List.length hsplit
    simp only [List.length_append, List.length_cons, List.length_nil] at hlength
    omega
  exact ⟨C, hpast.symm⟩

theorem publishes_of_eval (hkeyed : Keyed schema rows) {st : Stmt V} {answer writes : List V}
    (hkeeps : ∀ p f, st = .update p f → ∀ u, p u = true → schema.key (f u) = schema.key u)
    (h : eval schema rows st = some (answer, writes)) : Publishes schema rows writes st := by
  cases st with
  | select p =>
      show writes = []
      exact ((Prod.mk.inj (Option.some.inj h)).2).symm
  | update p f =>
      intro w hw
      rw [← (Prod.mk.inj (Option.some.inj h)).2] at hw
      obtain ⟨u, hu, rfl⟩ := List.mem_map.mp hw
      obtain ⟨hu, hp⟩ := List.mem_filter.mp hu
      exact ⟨u, hkeyed.mem_iff.mp hu, hp, rfl, hkeeps p f rfl u hp⟩
  | insert v =>
      rw [eval] at h
      split at h
      · cases h
      rename_i hclash
      exact ⟨((Prod.mk.inj (Option.some.inj h)).2).symm, by simpa using hclash⟩

/-- Over rows on which nothing has been published that excludes what a statement writes, the
statement publishes what it has written before. -/
theorem Publishes.kept {before after published : List V} {st : Stmt V}
    (h : Publishes schema before published st)
    (hkept : ∀ w ∈ published,
      find schema after (schema.key w) = find schema before (schema.key w))
    (hfree : ∀ w ∈ published, ∀ u ∈ after, u ∈ before ∨ schema.clash u w = false) :
    Publishes schema after published st := by
  cases st with
  | select p => exact h
  | update p f =>
      intro w hw
      obtain ⟨u, hu, hp, hwu, hkey⟩ := h w hw
      have hfound := hkept w hw
      rw [hkey] at hfound
      exact ⟨u, hfound.trans hu, hp, hwu, hkey⟩
  | insert v =>
      obtain ⟨rfl, hclash⟩ := h
      refine ⟨rfl, fun u hu => ?_⟩
      rcases hfree v (by simp) u hu with hu | hu
      · exact hclash u hu
      · exact (schema.clash_comm v u).trans hu

/-- A row of a later table was there, or has been published since. -/
theorem Ledger.mem_since {first last : List V} {history A B : List (Entry V X ε Ans)}
    {e : Entry V X ε Ans} (h : Ledger schema first history last) (hs : history = A ++ e :: B)
    {u : V} (hu : u ∈ last) : u ∈ e.after ∨ ∃ b ∈ B, u ∈ b.published := by
  have hchained := h.chained
  rw [hs, chained_append] at hchained
  obtain ⟨_, -, rfl, hchained⟩ := hchained
  refine hchained.invariant
    (P := fun B' rows => u ∈ rows → u ∈ e.after ∨ ∃ b ∈ B', u ∈ b.published)
    (fun hu => .inl hu) ?_ hu
  intro M b N hM ih hb
  have hb' : history = (A ++ e :: M) ++ b :: N := by
    rw [hs, hM, List.append_assoc, List.cons_append]
  rw [(h.accounted _ _ _ hb').after] at hb
  rcases mem_apply hb with hb | hb
  · rcases ih hb with h | ⟨c, hc, hu⟩
    · exact .inl h
    · exact .inr ⟨c, List.mem_append_left _ hc, hu⟩
  · exact .inr ⟨b, by simp, hb⟩

/-- After a step, a row is the one it was or one the step has published. -/
theorem Ledger.find_step {first last : List V} {history : List (Entry V X ε Ans)}
    (h : Ledger schema first history last) (hs : history = past ++ en :: future) (k : K) :
    find schema en.after k = find schema en.before k ∨
      ∃ w ∈ en.published, schema.key w = k ∧ find schema en.after k = some w := by
  rw [(h.accounted past en future hs).after, find_apply]
  cases hfound : find schema en.published.reverse k with
  | none => exact .inl (Option.none_or ..)
  | some w => exact .inr ⟨w, List.mem_reverse.mp (mem_of_find hfound), find_key hfound, rfl⟩

/-- After a step that publishes a row, one that it publishes is found under the key. -/
theorem Ledger.find_published {first last : List V} {history : List (Entry V X ε Ans)}
    (h : Ledger schema first history last) (hs : history = past ++ en :: future) {w : V}
    (hw : w ∈ en.published) :
    ∃ w' ∈ en.published, schema.key w' = schema.key w ∧
      find schema en.after (schema.key w) = some w' := by
  rw [(h.accounted past en future hs).after, find_apply]
  cases hfound : find schema en.published.reverse (schema.key w) with
  | none =>
      have hmissing : ¬ (find schema en.published.reverse (schema.key w)).isSome := by
        rw [hfound]
        nofun
      rw [find_isSome_iff] at hmissing
      exact absurd (List.mem_map_of_mem (List.mem_reverse.mpr hw)) hmissing
  | some w' => exact ⟨w', List.mem_reverse.mp (mem_of_find hfound), find_key hfound, rfl⟩

/-- What holds after a step and is kept by every later one holds in the end. -/
theorem Ledger.since {first last : List V} {history A B : List (Entry V X ε Ans)}
    {e : Entry V X ε Ans} {P : List V → Prop} (h : Ledger schema first history last)
    (hs : history = A ++ e :: B) (hstart : P e.after)
    (hstep : ∀ M b N, B = M ++ b :: N → P b.before → P b.after) : P last := by
  have hchained := h.chained
  rw [hs, chained_append] at hchained
  obtain ⟨_, -, rfl, hchained⟩ := hchained
  exact hchained.invariant (P := fun _ rows => P rows) hstart hstep

/-- A commit publishes what the one statement of its transaction has written. -/
theorem Wrote.published {last : List V} {pre reads asks : List (Happening V X ε Ans)} {st : Stmt V}
    {answer : List V} (hwrote : Wrote pre reads asks st answer (own en.call past))
    (h : Ledger schema rows (past ++ en :: future) last) (hevent : en.event = ⟨.commit, .ok ()⟩) :
    en.published = written (⟨.stmt st, .ok answer⟩ : Happening V X ε Ans) := by
  rw [h.published rfl hevent hwrote.split hwrote.quiet, List.flatMap_append, List.flatMap_cons,
    hwrote.before, hwrote.after]
  simp

section Steps

variable {may : Nat → List (Happening V X ε Ans) → Effect V X → Prop}

/-- The condition of a disciplined program holds at each of its steps. -/
theorem System.Reaches.disciplined (h : System.Reaches schema allowed (System.start rows progs) s)
    (hprogs : ∀ i p, progs[i]? = some p →
      wp (Disciplined (may i)) p (fun _ _ => True) (fun _ _ => True) [])
    (hs : s.history = past ++ en :: future) :
    Disciplined (may en.call) (own en.call past) en.event.1 := by
  have hrecorded := h.recorded
  have hlt : en.call < progs.length := hrecorded.call_lt.2 en (by simp [hs])
  have hp : progs[en.call]? = some progs[en.call] := List.getElem?_eq_getElem hlt
  exact hrecorded.guarded hs hp (hprogs en.call _ hp)

omit [DecidableEq K] in
theorem published_nil (hcommit : ∀ u, en.event ≠ ⟨.commit, .ok u⟩)
    (hwritten : written en.event = []) : en.published = [] := by
  unfold Entry.published Session.publishes
  split
  · rename_i u hevent
    exact absurd hevent (hcommit u)
  · rw [hwritten, ite_self]

variable {last : List V} {st : Stmt V} {answer : List V}

/-- A statement that stands alone is published as it is executed. -/
theorem Unwritten.publishes (hown : Unwritten (own en.call past))
    (h : Ledger schema rows (past ++ en :: future) last) (hkeyed : Keyed schema rows)
    (hevent : en.event = ⟨.stmt st, .ok answer⟩)
    (hkeeps : ∀ p f, st = .update p f → ∀ u, p u = true → schema.key (f u) = schema.key u) :
    en.published = [] ∨ WrittenAt schema past en st answer past en := by
  have haccounted := h.accounted past en future rfl
  have hsession := haccounted.session
  rcases hown with ⟨pre, tx, hown, hquiet, -⟩ | hidle
  · refine .inl (publishes_nil ?_ (by rw [hevent]; trivial))
    rw [hsession, hown, sessionAfter_begin hquiet]
  have hwrites : en.session.writes = [] := by
    rw [hsession]
    exact sessionAfter_settled _ (by simp [hidle])
  have hpublished : en.published = written en.event := by
    unfold Entry.published
    rw [hevent]
    exact if_pos (by rw [hsession, hidle])
  obtain ⟨-, hanswer⟩ := haccounted.answer st answer hevent
  rw [hwrites] at hanswer
  refine .inr ⟨⟨[], rfl⟩, rfl, hevent, hpublished, fun _ _ => rfl, hanswer, ?_⟩
  rw [hpublished]
  exact publishes_of_eval ((h.take rfl).keyed hkeyed) hkeeps hanswer

/-- A transaction that has written by one statement publishes it as if it were executed now. -/
theorem Wrote.writtenAt {pre reads asks : List (Happening V X ε Ans)}
    (hwrote : Wrote pre reads asks st answer (own en.call past))
    (h : Ledger schema rows (past ++ en :: future) last) (hkeyed : Keyed schema rows)
    (hevent : en.event = ⟨.commit, .ok ()⟩)
    (hkeeps : ∀ p f, st = .update p f → ∀ u, p u = true → schema.key (f u) = schema.key u) :
    ∃ A e, WrittenAt schema past en st answer A e := by
  have htake := h.take rfl
  obtain ⟨A, e, B, hexec, -⟩ := htake.executed hwrote.split hwrote.quiet
  have hpublished : en.published = written e.event := by
    rw [hexec.event]
    exact hwrote.published h hevent
  have hanswer := hexec.found
  rw [hwrote.before] at hanswer
  have hkept := hexec.kept
  rw [← hpublished] at hkept
  have hafter : e.after = e.before := by
    rw [(htake.accounted _ _ _ hexec.split).after, hexec.silent]
    rfl
  refine ⟨A, e, ⟨B ++ [en], by simp [hexec.split]⟩, hexec.same, hexec.event, hpublished, hkept,
    hanswer, ?_⟩
  have hbefore : Publishes schema e.before en.published st := by
    rw [hpublished]
    exact publishes_of_eval ((htake.take hexec.split).keyed hkeyed) hkeeps hanswer
  refine hbefore.kept hkept fun w hw u hu => ?_
  rcases htake.mem_since hexec.split hu with hu | ⟨b, hb, hu⟩
  · rw [hafter] at hu
    exact .inl hu
  · rw [hpublished] at hw
    exact .inr (hexec.locked w hw b hb u hu)

theorem Committable.publishes (hown : Committable (own en.call past))
    (h : Ledger schema rows (past ++ en :: future) last) (hkeyed : Keyed schema rows)
    (hevent : en.event = ⟨.commit, .ok ()⟩)
    (hkeeps : ∀ A e B p f answer, past = A ++ e :: B → e.call = en.call →
      e.event = ⟨.stmt (.update p f), .ok answer⟩ →
        ∀ u, p u = true → schema.key (f u) = schema.key u) :
    en.published = [] ∨ ∃ st answer A e, WrittenAt schema past en st answer A e := by
  rcases hown with ⟨pre, tx, hown, hquiet, hnone⟩ | ⟨pre, reads, asks, st, answer, hwrote⟩
  · exact .inl ((h.published rfl hevent hown hquiet).trans hnone)
  refine .inr ⟨st, answer, hwrote.writtenAt h hkeyed hevent ?_⟩
  rintro p f rfl
  have hsplit := hwrote.split
  rw [← List.cons_append, ← List.append_assoc] at hsplit
  obtain ⟨A, e, B, hpast, hsame, hstmt, -, -⟩ := own_split hsplit
  exact hkeeps A e B p f answer hpast hsame hstmt

/-- A step of disciplined programs publishes nothing, or what one statement has written. -/
theorem System.Reaches.writtenAt (h : System.Reaches schema allowed (System.start rows progs) s)
    (hkeyed : Keyed schema rows)
    (hprogs : ∀ i p, progs[i]? = some p →
      wp (Disciplined (may i)) p (fun _ _ => True) (fun _ _ => True) [])
    (hkeeps : ∀ i t p f, may i t (.stmt (.update p f)) →
      ∀ u, p u = true → schema.key (f u) = schema.key u)
    (hs : s.history = past ++ en :: future) :
    en.published = [] ∨ ∃ st answer A e, WrittenAt schema past en st answer A e ∧
      may en.call (own en.call A) (.stmt st) := by
  have hdisciplined := h.disciplined hprogs hs
  have hledger := h.ledger
  rw [hs] at hledger
  -- The condition holds where the statement was executed.
  have condition : ∀ {A e B st answer}, past ++ [en] = A ++ e :: B → e.call = en.call →
      e.event = ⟨.stmt st, .ok answer⟩ → may en.call (own en.call A) (.stmt st) := by
    intro A e B st answer hsplit hsame hevent
    have hs' : s.history = A ++ e :: (B ++ future) := by
      rw [hs, ← List.singleton_append, ← List.append_assoc, hsplit, List.append_assoc,
        List.cons_append]
    have hmay := (h.disciplined hprogs hs').1
    rwa [hevent, hsame] at hmay
  suffices hwritten : en.published = [] ∨ ∃ st answer A e, WrittenAt schema past en st answer A e by
    rcases hwritten with hnone | ⟨st, answer, A, e, hwritten⟩
    · exact .inl hnone
    · obtain ⟨B, hsplit⟩ := hwritten.split
      exact .inr ⟨st, answer, A, e, hwritten, condition hsplit hwritten.same hwritten.event⟩
  have alone : ∀ {st answer}, en.event = ⟨.stmt st, .ok answer⟩ → Unwritten (own en.call past) →
      en.published = [] ∨ ∃ st answer A e, WrittenAt schema past en st answer A e := by
    intro st answer hevent hunwritten
    refine (hunwritten.publishes hledger hkeyed hevent ?_).imp_right fun h => ⟨_, _, _, _, h⟩
    rintro p f rfl
    exact hkeeps _ _ p f (condition rfl rfl hevent)
  generalize hevent : en.event = event at hdisciplined
  obtain ⟨effect, reply⟩ := event
  cases effect with
  | ask x | begin | rollback =>
      exact .inl (published_nil (by rw [hevent]; nofun) (by rw [hevent]; rfl))
  | stmt st =>
      cases reply with
      | error error =>
          exact .inl (published_nil (by rw [hevent]; nofun) (by rw [hevent]; cases st <;> rfl))
      | ok answer =>
          cases st with
          | select p => exact .inl (published_nil (by rw [hevent]; nofun) (by rw [hevent]; rfl))
          | update p f => exact alone hevent hdisciplined.2
          | insert v => exact alone hevent hdisciplined.2
  | commit =>
      cases reply with
      | error error => exact .inl (published_nil (by rw [hevent]; nofun) (by rw [hevent]; rfl))
      | ok u =>
          refine Committable.publishes hdisciplined.2 hledger hkeyed hevent ?_
          intro A e B p f answer hsplit hsame hstmt
          have hsplit' : past ++ [en] = A ++ e :: (B ++ [en]) := by
            rw [hsplit]
            simp
          exact hkeeps _ _ p f (condition hsplit' hsame hstmt)

end Steps

end Runs

end Database
