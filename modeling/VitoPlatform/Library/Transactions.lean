import VitoPlatform.Library.Interaction

/-!
# Programs over a database at READ COMMITTED

A table is a list of rows with keys and unique constraints. A program reads and writes it by
statements, alone or inside a transaction. Every statement is atomic and sees the committed
rows under the session's own uncommitted writes; a row a session has written stays locked
until its transaction ends; whatever else a program asks for is answered arbitrarily.

`System.step` is one step of any number of such programs over one table. It is a function of
the process that moves and of what the environment chooses, so a schedule can be evaluated.
The history records every step with the committed rows before and after it: a property of
runs is a property of their histories.
-/

namespace Database

/-- How rows are identified, which rows exclude each other, and the errors of the database
itself. -/
structure Schema (V K ε : Type) where
  key : V → K
  /-- A unique constraint forbids both rows in one table. -/
  clash : V → V → Bool
  clash_of_key : ∀ u v, key u = key v → clash u v = true
  clash_comm : ∀ u v, clash u v = clash v u
  uniqueViolation : ε
  transactionAborted : ε

/-- A statement. An update leaves keys and unique columns as they are. -/
inductive Stmt (V : Type) where
  | select (p : V → Bool)
  | update (p : V → Bool) (f : V → V)
  | insert (v : V)

inductive Effect (V X : Type) where
  | begin
  | commit
  | rollback
  | stmt (s : Stmt V)
  /-- Anything outside the database. -/
  | ask (x : X)

/-- A statement answers the rows it selected, updated or inserted. -/
@[reducible] def Answer (V : Type) {X : Type} (Ans : X → Type) : Effect V X → Type
  | .begin | .commit | .rollback => Unit
  | .stmt _ => List V
  | .ask x => Ans x

inductive Mode where
  | idle
  | active
  /-- A statement of the transaction failed: nothing but a rollback is left. -/
  | aborted
  deriving DecidableEq

structure Session (V : Type) where
  mode : Mode
  /-- The rows written by the open transaction, latest last. -/
  writes : List V

namespace Session

def idle {V : Type} : Session V := ⟨.idle, []⟩

end Session

section Tables

variable {V K ε : Type} [DecidableEq K] (schema : Schema V K ε)

def find (rows : List V) (k : K) : Option V := rows.find? fun v => schema.key v = k

/-- Write one row over the row with its key, or add it. -/
def put (rows : List V) (v : V) : List V :=
  if (find schema rows (schema.key v)).isSome then
    rows.map fun u => if schema.key u = schema.key v then v else u
  else rows ++ [v]

def apply (rows writes : List V) : List V := writes.foldl (put schema) rows

/-- The answer and the writes of a statement on what it sees; `none` when a unique
constraint is violated. -/
def eval (view : List V) : Stmt V → Option (List V × List V)
  | .select p => some (view.filter p, [])
  | .update p f => some ((view.filter p).map f, (view.filter p).map f)
  | .insert v => if view.any (schema.clash v) then none else some ([v], [v])

/-- No two rows have the same key. -/
def Keyed (rows : List V) : Prop := (rows.map schema.key).Nodup

instance (rows : List V) : Decidable (Keyed schema rows) :=
  inferInstanceAs (Decidable (rows.map schema.key).Nodup)

variable {schema} {rows writes : List V} {v w : V} {k : K}

theorem find_key (h : find schema rows k = some v) : schema.key v = k := by
  simpa using List.find?_some h

theorem mem_of_find (h : find schema rows k = some v) : v ∈ rows := List.mem_of_find?_eq_some h

theorem find_isSome_iff : (find schema rows k).isSome ↔ k ∈ rows.map schema.key := by
  simp [find, List.find?_isSome]

theorem find_put (rows : List V) (v : V) (k : K) :
    find schema (put schema rows v) k =
      if schema.key v = k then some v else find schema rows k := by
  rw [put]
  split
  · rename_i h
    have hkey : ∀ u, schema.key (if schema.key u = schema.key v then v else u) = schema.key u := by
      intro u
      split
      · rename_i h
        exact h.symm
      · rfl
    rw [find, List.find?_map]
    simp only [Function.comp_def, hkey]
    change (find schema rows k).map _ = _
    split
    · rename_i hk
      subst hk
      obtain ⟨u, hu⟩ := Option.isSome_iff_exists.mp h
      rw [hu, Option.map_some, if_pos (find_key hu)]
    · rename_i hk
      cases hu : find schema rows k with
      | none => rfl
      | some u =>
          have hne : schema.key u ≠ schema.key v := fun he => hk (he.symm.trans (find_key hu))
          rw [Option.map_some, if_neg hne]
  · rename_i h
    rw [Option.not_isSome_iff_eq_none] at h
    rw [find, List.find?_append]
    change (find schema rows k).or _ = _
    split
    · rename_i hk
      subst hk
      simp [h]
    · rename_i hk
      simp [hk]

/-- A later write hides an earlier one, and any write hides the row it is about. -/
theorem find_apply (rows writes : List V) (k : K) :
    find schema (apply schema rows writes) k =
      (find schema writes.reverse k).or (find schema rows k) := by
  induction writes generalizing rows with
  | nil => rfl
  | cons w writes ih =>
      rw [apply, List.foldl_cons, ← apply, ih, find_put, List.reverse_cons]
      simp only [find, List.find?_append, Option.or_assoc]
      congr 1
      split
      · rename_i hk
        simp [hk]
      · rename_i hk
        simp [hk]

theorem find_apply_of_not_mem (h : k ∉ writes.map schema.key) :
    find schema (apply schema rows writes) k = find schema rows k := by
  have hnone : find schema writes.reverse k = none := by
    rw [← Option.not_isSome_iff_eq_none, find_isSome_iff]
    simpa using h
  rw [find_apply, hnone, Option.none_or]

theorem map_key_put (rows : List V) (v : V) :
    (put schema rows v).map schema.key =
      if schema.key v ∈ rows.map schema.key then rows.map schema.key
      else rows.map schema.key ++ [schema.key v] := by
  rw [put]
  simp only [find_isSome_iff]
  split
  · rw [List.map_map]
    refine List.map_congr_left fun u _ => ?_
    simp only [Function.comp_def]
    split
    · rename_i h
      exact h.symm
    · rfl
  · rw [List.map_append, List.map_singleton]

theorem Keyed.put (h : Keyed schema rows) (v : V) : Keyed schema (put schema rows v) := by
  rw [Keyed, map_key_put]
  split
  · exact h
  · rename_i hv
    exact List.nodup_append.mpr ⟨h, by simp, fun a ha b hb => by
      rw [List.mem_singleton.mp hb]
      rintro rfl
      exact hv ha⟩

theorem Keyed.apply (h : Keyed schema rows) (writes : List V) :
    Keyed schema (apply schema rows writes) := by
  induction writes generalizing rows with
  | nil => exact h
  | cons w writes ih => exact ih (h.put w)

/-- A row is in the table exactly when it is what its key leads to. -/
theorem Keyed.mem_iff (h : Keyed schema rows) :
    v ∈ rows ↔ find schema rows (schema.key v) = some v := by
  refine ⟨fun hv => ?_, mem_of_find⟩
  induction rows with
  | nil => cases hv
  | cons u rows ih =>
      rw [find, List.find?_cons]
      rw [Keyed, List.map_cons, List.nodup_cons] at h
      rcases List.mem_cons.mp hv with rfl | hv
      · simp
      · have hne : schema.key u ≠ schema.key v := fun he =>
          h.1 (he ▸ List.mem_map_of_mem hv)
        simp only [hne, decide_false]
        exact ih h.2 hv

theorem Keyed.eq_of_key (h : Keyed schema rows) (hv : v ∈ rows) (hw : w ∈ rows)
    (he : schema.key v = schema.key w) : v = w := by
  have hfound := h.mem_iff.mp hv
  rw [he, h.mem_iff.mp hw] at hfound
  exact (Option.some.inj hfound).symm

/-- A condition that fixes the key selects at most the row under that key. -/
theorem Keyed.filter_eq {p : V → Bool} (h : Keyed schema rows)
    (hp : ∀ v, p v = true → schema.key v = k) :
    rows.filter p = (find schema rows k).toList.filter p := by
  induction rows with
  | nil => rfl
  | cons u rows ih =>
      rw [Keyed, List.map_cons, List.nodup_cons] at h
      rw [find, List.find?_cons]
      by_cases hu : schema.key u = k
      · have hrest : rows.filter p = [] := by
          rw [List.filter_eq_nil_iff]
          intro v hv hpv
          exact h.1 (hu.trans (hp v hpv).symm ▸ List.mem_map_of_mem hv)
        simp [hu, List.filter_cons, hrest]
      · have hpu : p u = false := by
          rw [Bool.eq_false_iff]
          exact fun hpu => hu (hp u hpu)
        simp only [hu, decide_false, List.filter_cons, hpu]
        exact ih h.2

/-- The rows after an update are the updated images of the rows before it. -/
theorem Keyed.mem_apply_update {p : V → Bool} {f : V → V} (h : Keyed schema rows)
    (hf : ∀ u, schema.key (f u) = schema.key u) :
    v ∈ Database.apply schema rows ((rows.filter p).map f) ↔
      ∃ u ∈ rows, v = if p u then f u else u := by
  have written : ∀ {w}, w ∈ ((rows.filter p).map f).reverse ↔
      ∃ u ∈ rows, p u = true ∧ w = f u := by
    intro w
    simp only [List.mem_reverse, List.mem_map, List.mem_filter, and_assoc, eq_comm]
  have hkeyed := h.apply ((rows.filter p).map f)
  rw [hkeyed.mem_iff, find_apply, Option.or_eq_some_iff]
  constructor
  · rintro (hfound | ⟨hnone, hfound⟩)
    · obtain ⟨u, hu, hp, rfl⟩ := written.mp (mem_of_find hfound)
      exact ⟨u, hu, by rw [if_pos hp]⟩
    · refine ⟨v, mem_of_find hfound, ?_⟩
      split
      · rename_i hp
        have hmem : f v ∈ ((rows.filter p).map f).reverse :=
          written.mpr ⟨v, mem_of_find hfound, hp, rfl⟩
        have hsome : (find schema ((rows.filter p).map f).reverse (schema.key v)).isSome := by
          rw [find_isSome_iff, ← hf v]
          exact List.mem_map_of_mem hmem
        rw [hnone] at hsome
        cases hsome
      · rfl
  · rintro ⟨u, hu, rfl⟩
    have image : ∀ w, find schema ((rows.filter p).map f).reverse (schema.key u) = some w →
        p u = true ∧ w = f u := by
      intro w hfound
      obtain ⟨u', hu', hp, rfl⟩ := written.mp (mem_of_find hfound)
      have hkey := find_key hfound
      rw [hf] at hkey
      obtain rfl := h.eq_of_key hu' hu hkey
      exact ⟨hp, rfl⟩
    split
    · rename_i hp
      rw [hf]
      left
      have hsome : (find schema ((rows.filter p).map f).reverse (schema.key u)).isSome := by
        rw [find_isSome_iff, ← hf u]
        exact List.mem_map_of_mem (written.mpr ⟨u, hu, hp, rfl⟩)
      obtain ⟨w, hw⟩ := Option.isSome_iff_exists.mp hsome
      rw [hw, (image w hw).2]
    · rename_i hp
      right
      refine ⟨?_, h.mem_iff.mp hu⟩
      cases hfound : find schema ((rows.filter p).map f).reverse (schema.key u) with
      | none => rfl
      | some w => exact absurd (image w hfound).1 hp

theorem apply_insert (h : schema.key v ∉ rows.map schema.key) :
    Database.apply schema rows [v] = rows ++ [v] := by
  rw [Database.apply, List.foldl_cons, List.foldl_nil, Database.put, if_neg]
  rwa [find_isSome_iff]

/-- The constraints hold: each key is there once, and no two rows exclude each other. -/
structure Unique (schema : Schema V K ε) (rows : List V) : Prop where
  keyed : Keyed schema rows
  apart : ∀ u ∈ rows, ∀ v ∈ rows, schema.clash u v = true → u = v

omit [DecidableEq K] in
theorem not_mem_key_of_clash (h : ∀ u ∈ rows, schema.clash v u = false) :
    schema.key v ∉ rows.map schema.key := by
  intro hv
  obtain ⟨u, hu, hkey⟩ := List.mem_map.mp hv
  have := h u hu
  rw [schema.clash_of_key v u hkey.symm] at this
  cases this

theorem Unique.insert (h : Unique schema rows) (hv : ∀ u ∈ rows, schema.clash v u = false) :
    Unique schema (Database.apply schema rows [v]) := by
  refine ⟨h.keyed.apply [v], ?_⟩
  rw [apply_insert (not_mem_key_of_clash hv)]
  intro a ha b hb hab
  rw [List.mem_append, List.mem_singleton] at ha hb
  rcases ha with ha | rfl
  · rcases hb with hb | rfl
    · exact h.apart a ha b hb hab
    · rw [schema.clash_comm, hv a ha] at hab
      cases hab
  · rcases hb with hb | rfl
    · rw [hv b hb] at hab
      cases hab
    · rfl

/-- An update that leaves the constrained columns as they are keeps the constraints. -/
theorem Unique.update {p : V → Bool} {f : V → V} (h : Unique schema rows)
    (hkey : ∀ u, schema.key (f u) = schema.key u)
    (hclash : ∀ u v, schema.clash (f u) v = schema.clash u v) :
    Unique schema (Database.apply schema rows ((rows.filter p).map f)) := by
  have kept : ∀ u v, schema.clash (if p u then f u else u) v = schema.clash u v := by
    intro u v
    split
    · exact hclash u v
    · rfl
  refine ⟨h.keyed.apply _, ?_⟩
  intro a ha b hb hab
  obtain ⟨u, hu, rfl⟩ := (h.keyed.mem_apply_update hkey).mp ha
  obtain ⟨v, hv, rfl⟩ := (h.keyed.mem_apply_update hkey).mp hb
  rw [kept, schema.clash_comm, kept, schema.clash_comm] at hab
  rw [h.apart u hu v hv hab]

end Tables

/-- What the environment decides at one step: a failure, and the answer to anything asked
outside the database. -/
structure Choice {X : Type} (ε : Type) (Ans : X → Type) where
  fault : Option ε
  answers : (x : X) → Except ε (Ans x)

section Machine

variable {V K X ε : Type} [DecidableEq K] {Ans : X → Type}

/-- A failed statement aborts the transaction it is in. -/
def Session.failed (session : Session V) : Session V :=
  if session.mode = .idle then session else ⟨.aborted, []⟩

/-- The answer to an effect, the session after it, and the committed rows after it. -/
def respond (schema : Schema V K ε) (session : Session V) (rows : List V)
    (choice : Choice ε Ans) :
    (e : Effect V X) → Except ε (Answer V Ans e) × Session V × List V
  | .ask x => (choice.answers x, session, rows)
  | .rollback => (.ok (), .idle, rows)
  | .begin =>
      match choice.fault with
      | some error => (.error error, session.failed, rows)
      | none => (.ok (), ⟨.active, []⟩, rows)
  | .commit =>
      match choice.fault, session.mode with
      | some error, _ => (.error error, session.failed, rows)
      | none, .active => (.ok (), .idle, apply schema rows session.writes)
      | none, _ => (.error schema.transactionAborted, session, rows)
  | .stmt s =>
      match choice.fault, session.mode with
      | some error, _ => (.error error, session.failed, rows)
      | none, .aborted => (.error schema.transactionAborted, session, rows)
      | none, .idle =>
          match eval schema (apply schema rows session.writes) s with
          | none => (.error schema.uniqueViolation, session, rows)
          | some (answer, writes) => (.ok answer, session, apply schema rows writes)
      | none, .active =>
          match eval schema (apply schema rows session.writes) s with
          | none => (.error schema.uniqueViolation, session.failed, rows)
          | some (answer, writes) => (.ok answer, ⟨.active, session.writes ++ writes⟩, rows)

/-- The rows an effect writes, which have to be free of other sessions' locks. -/
def touched (schema : Schema V K ε) (session : Session V) (rows : List V) :
    Effect V X → List V
  | .stmt s =>
      match eval schema (apply schema rows session.writes) s with
      | some (_, writes) => writes
      | none => []
  | _ => []

/-- One step of a run: who moved, what it asked and was answered, and the committed rows
around it. -/
structure Entry (V X ε : Type) (Ans : X → Type) where
  call : Nat
  event : Prog.Event (Effect V X) (Answer V Ans) ε
  session : Session V
  before : List V
  after : List V

structure Process (V X ε : Type) (Ans : X → Type) (α : Type) where
  session : Session V
  prog : Prog (Effect V X) (Answer V Ans) ε α

structure System (V X ε : Type) (Ans : X → Type) (α : Type) where
  rows : List V
  procs : List (Process V X ε Ans α)
  history : List (Entry V X ε Ans)

/-- No other session has an uncommitted write that excludes one of `writes`. -/
def unlocked {α : Type} (schema : Schema V K ε) (others : List (Process V X ε Ans α))
    (writes : List V) : Bool :=
  others.all fun q => q.session.writes.all fun u => writes.all fun w => !schema.clash w u

variable {α : Type}

/-- All programs start outside a transaction. -/
def System.start (rows : List V) (progs : List (Prog (Effect V X) (Answer V Ans) ε α)) :
    System V X ε Ans α where
  rows := rows
  procs := progs.map fun p => ⟨.idle, p⟩
  history := []

/-- Process `i` performs its next effect; `none` when it has ended or has to wait. -/
def System.step (schema : Schema V K ε) (s : System V X ε Ans α) (i : Nat)
    (choice : Choice ε Ans) : Option (System V X ε Ans α) :=
  match s.procs[i]? with
  | some ⟨session, .call e k⟩ =>
      if choice.fault.isSome ||
          unlocked schema (s.procs.eraseIdx i) (touched schema session s.rows e) then
        let (r, session', rows') := respond schema session s.rows choice e
        some
          { rows := rows'
            procs := s.procs.set i ⟨session', k r⟩
            history := s.history ++ [⟨i, ⟨e, r⟩, session, s.rows, rows'⟩] }
      else none
  | _ => none

/-- A run of the system in an environment that makes `allowed` choices. -/
inductive System.Reaches (schema : Schema V K ε)
    (allowed : Choice ε Ans → Prop) (start : System V X ε Ans α) :
    System V X ε Ans α → Prop
  | refl : Reaches schema allowed start start
  | step {s s' : System V X ε Ans α} (i : Nat) (choice : Choice ε Ans) :
      Reaches schema allowed start s → allowed choice →
        s.step schema i choice = some s' → Reaches schema allowed start s'

/-- Run a schedule. -/
def System.run (schema : Schema V K ε) (s : System V X ε Ans α) :
    List (Nat × Choice ε Ans) → Option (System V X ε Ans α)
  | [] => some s
  | (i, choice) :: rest =>
      match s.step schema i choice with
      | some s' => s'.run schema rest
      | none => none

end Machine

end Database
