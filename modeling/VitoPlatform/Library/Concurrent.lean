import VitoPlatform.Library.Machine
import Mathlib.Logic.Relation

/-!
# Programs over a shared store

A program acts on a store in atomic steps and ends with a value or an error. At each step the
environment makes a choice; a step without an effect has to wait. Any number of programs run
over one store, one step after another, in any order and as far as they come: a program that is
not scheduled again has crashed.

`Safe` is rely and guarantee. It says of one program, from one store, that each of its steps
keeps an invariant and does only what the program guarantees, whatever the others do in between
within what it relies on. When every program is safe and what each guarantees is what the others
rely on, every run keeps the invariant (`Run.safe`). A condition on steps can be assumed, which
makes the results relative to the runs all of whose steps meet it.
-/

namespace Concurrent

open Relation

/-- A program over the store `S`, with the choices `C`, failing with `ε`, returning `α`. -/
inductive Proc (S C ε α : Type) where
  | done (value : α)
  | throw (error : ε)
  | act (effect : C → S → Option S) (next : C → S → Proc S C ε α)

namespace Proc

variable {S C ε α β : Type}

def bind : Proc S C ε α → (α → Proc S C ε β) → Proc S C ε β
  | .done a, f => f a
  | .throw error, _ => .throw error
  | .act effect next, f => .act effect fun c s => bind (next c s) f

instance : Monad (Proc S C ε) where
  pure := .done
  bind := bind

/-- Run `p`, and `handler` on its error. -/
def tryCatch : Proc S C ε α → (ε → Proc S C ε α) → Proc S C ε α
  | .done a, _ => .done a
  | .throw error, handler => handler error
  | .act effect next, handler => .act effect fun c s => tryCatch (next c s) handler

/-- One step that fails or returns a value. -/
def atomic (f : C → S → Except ε α × S) : Proc S C ε α :=
  .act (fun c s => some (f c s).2) fun c s =>
    match (f c s).1 with
    | .ok a => .done a
    | .error error => .throw error

/-- Go on only if the condition holds. -/
def require (condition : Bool) (error : ε) : Proc S C ε Unit :=
  if condition then .done () else .throw error

/-- The value of an option, or an error. -/
def expect (value : Option α) (error : ε) : Proc S C ε α :=
  match value with
  | some a => .done a
  | none => .throw error

end Proc

/-! ## Systems -/

/-- A store, and programs at the point they have reached. -/
structure System (S C ε α : Type) where
  store : S
  procs : List (Proc S C ε α)

variable {S C ε α β : Type}

/-- Program `input.1` makes a step with the choice `input.2`, if it can. -/
def System.step (s : System S C ε α) (input : Nat × C) : Bool × System S C ε α :=
  match s.procs[input.1]? with
  | some (.act effect next) =>
      match effect input.2 s.store with
      | some store => (true, ⟨store, s.procs.set input.1 (next input.2 s.store)⟩)
      | none => (false, s)
  | _ => (false, s)

abbrev Move (S C ε α : Type) := Machine.Move (System S C ε α) (Nat × C) Bool

abbrev Run (store : S) (procs : List (Proc S C ε α)) (moves : List (Move S C ε α))
    (s : System S C ε α) : Prop :=
  Machine.Run (Machine.Follows System.step) ⟨store, procs⟩ moves s

/-- What one move does. -/
theorem step_cases {m : Move S C ε α} (h : Machine.Follows System.step m) :
    (m.output = false ∧ m.after = m.before) ∨
      ∃ effect next store, m.output = true ∧ m.before.procs[m.input.1]? = some (.act effect next) ∧
        effect m.input.2 m.before.store = some store ∧
          m.after = ⟨store, m.before.procs.set m.input.1 (next m.input.2 m.before.store)⟩ := by
  obtain ⟨before, input, output, after⟩ := m
  have hstep : before.step input = (output, after) := h
  unfold System.step at hstep
  split at hstep
  · rename_i effect next hproc
    split at hstep
    · rename_i store heffect
      obtain ⟨rfl, rfl⟩ := Prod.mk.inj hstep
      exact .inr ⟨effect, next, store, rfl, hproc, heffect, rfl⟩
    · obtain ⟨rfl, rfl⟩ := Prod.mk.inj hstep
      exact .inl ⟨rfl, rfl⟩
  · obtain ⟨rfl, rfl⟩ := Prod.mk.inj hstep
    exact .inl ⟨rfl, rfl⟩

/-! ## Rely and guarantee -/

/-- What a program is judged by: the invariant of the store, what the others do to it, what is
assumed of the steps of the program itself, and what it does. -/
structure Contract (S : Type) where
  inv : S → Prop
  rely : S → S → Prop
  cond : S → S → Prop
  guar : S → S → Prop

/-- The others make any number of steps. -/
def Contract.Others (contract : Contract S) (s t : S) : Prop :=
  ReflTransGen (fun a b => contract.rely a b ∧ contract.inv b) s t

/-- The program keeps its contract from here on, and ends in `post` or `fail`. -/
def Safe (contract : Contract S) :
    Proc S C ε α → S → (α → S → Prop) → (ε → S → Prop) → Prop
  | .done a, s, post, _ => ∀ t, contract.Others s t → post a t
  | .throw error, s, _, fail => ∀ t, contract.Others s t → fail error t
  | .act effect next, s, post, fail =>
      ∀ t, contract.Others s t → ∀ c u, effect c t = some u → contract.cond t u →
        contract.inv u ∧ contract.guar t u ∧ Safe contract (next c t) u post fail

section Rules

variable {contract : Contract S} {p : Proc S C ε α} {s t : S}
variable {post post' : α → S → Prop} {fail fail' : ε → S → Prop}

/-- Safety is kept by the steps of others. -/
theorem Safe.others (h : Safe contract p s post fail) (hst : contract.Others s t) :
    Safe contract p t post fail := by
  cases p with
  | done a => exact fun u hu => h u (hst.trans hu)
  | throw error => exact fun u hu => h u (hst.trans hu)
  | act effect next => exact fun u hu => h u (hst.trans hu)

theorem Safe.mono (h : Safe contract p s post fail) (hpost : ∀ a t, post a t → post' a t)
    (hfail : ∀ error t, fail error t → fail' error t) : Safe contract p s post' fail' := by
  induction p generalizing s with
  | done a => exact fun t ht => hpost a t (h t ht)
  | throw error => exact fun t ht => hfail error t (h t ht)
  | act effect next ih =>
      intro t ht c u hu hcond
      obtain ⟨hinv, hguar, hnext⟩ := h t ht c u hu hcond
      exact ⟨hinv, hguar, ih c t hnext⟩

theorem Safe.bind {q : Proc S C ε β} {f : β → Proc S C ε α}
    (h : Safe contract q s (fun b t => Safe contract (f b) t post fail) fail) :
    Safe contract (q >>= f) s post fail := by
  change Safe contract (q.bind f) s post fail
  induction q generalizing s with
  | done b => exact h s .refl
  | throw error => exact h
  | act effect next ih =>
      intro t ht c u hu hcond
      obtain ⟨hinv, hguar, hnext⟩ := h t ht c u hu hcond
      exact ⟨hinv, hguar, ih c t hnext⟩

theorem Safe.tryCatch {handler : ε → Proc S C ε α}
    (h : Safe contract p s post fun error t => Safe contract (handler error) t post fail) :
    Safe contract (p.tryCatch handler) s post fail := by
  induction p generalizing s with
  | done a => exact h
  | throw error => exact h s .refl
  | act effect next ih =>
      intro t ht c u hu hcond
      obtain ⟨hinv, hguar, hnext⟩ := h t ht c u hu hcond
      exact ⟨hinv, hguar, ih c t hnext⟩

/-- What the others keep holds however many steps they make. -/
theorem Contract.Others.stable {A : S → Prop} (h : contract.Others s t) (hinv : contract.inv s)
    (hA : A s) (stable : ∀ a b, contract.inv a → A a → contract.rely a b → A b) :
    contract.inv t ∧ A t := by
  induction h with
  | refl => exact ⟨hinv, hA⟩
  | tail _ hstep ih => exact ⟨hstep.2, stable _ _ ih.1 ih.2 hstep.1⟩

theorem Safe.done {a : α} (A : S → Prop) (hinv : contract.inv s) (hA : A s)
    (stable : ∀ a b, contract.inv a → A a → contract.rely a b → A b)
    (hpost : ∀ t, contract.inv t → A t → post a t) :
    Safe contract (.done a : Proc S C ε α) s post fail := by
  intro t ht
  obtain ⟨hinv, hA⟩ := ht.stable hinv hA stable
  exact hpost t hinv hA

/-- One step, from an assertion that the others keep. -/
theorem Safe.act {effect : C → S → Option S} {next : C → S → Proc S C ε α} (A : S → Prop)
    (hinv : contract.inv s) (hA : A s)
    (stable : ∀ a b, contract.inv a → A a → contract.rely a b → A b)
    (step : ∀ t c u, contract.inv t → A t → effect c t = some u → contract.cond t u →
      contract.inv u ∧ contract.guar t u ∧ Safe contract (next c t) u post fail) :
    Safe contract (.act effect next) s post fail := by
  intro t ht c u hu hcond
  obtain ⟨hinv, hA⟩ := ht.stable hinv hA stable
  exact step t c u hinv hA hu hcond

/-- A step that answers. -/
theorem Safe.atomic {f : C → S → Except ε α × S} (A : S → Prop)
    (hinv : contract.inv s) (hA : A s)
    (stable : ∀ a b, contract.inv a → A a → contract.rely a b → A b)
    (step : ∀ t c, contract.inv t → A t → contract.cond t (f c t).2 →
      contract.inv (f c t).2 ∧ contract.guar t (f c t).2 ∧
        (∀ a, (f c t).1 = .ok a →
          Safe contract (.done a : Proc S C ε α) (f c t).2 post fail) ∧
        ∀ error, (f c t).1 = .error error →
          Safe contract (.throw error : Proc S C ε α) (f c t).2 post fail) :
    Safe contract (Proc.atomic f) s post fail := by
  refine Safe.act A hinv hA stable fun t c u hinv hA hu hcond => ?_
  obtain rfl := Option.some.inj hu
  obtain ⟨hinv, hguar, hok, herror⟩ := step t c hinv hA hcond
  refine ⟨hinv, hguar, ?_⟩
  split
  · rename_i a ha
    exact hok a ha
  · rename_i error herr
    exact herror error herr

/-- A step that answers, and what is done with the answer. -/
theorem Safe.atomic_bind {f : C → S → Except ε β × S} {k : β → Proc S C ε α} (A : S → Prop)
    (hinv : contract.inv s) (hA : A s)
    (stable : ∀ a b, contract.inv a → A a → contract.rely a b → A b)
    (step : ∀ t c, contract.inv t → A t → contract.cond t (f c t).2 →
      contract.inv (f c t).2 ∧ contract.guar t (f c t).2 ∧
        (∀ a, (f c t).1 = .ok a → Safe contract (k a) (f c t).2 post fail) ∧
        ∀ error, (f c t).1 = .error error →
          Safe contract (.throw error : Proc S C ε α) (f c t).2 post fail) :
    Safe contract (Proc.atomic f >>= k) s post fail := by
  refine Safe.bind (Safe.atomic A hinv hA stable fun t c hinv hA hcond => ?_)
  obtain ⟨hinv, hguar, hok, herror⟩ := step t c hinv hA hcond
  exact ⟨hinv, hguar, fun a ha u hu => (hok a ha).others hu, fun error he => herror error he⟩

theorem Proc.bind_done (p : Proc S C ε α) : p >>= Proc.done = p := by
  change p.bind Proc.done = p
  induction p with
  | done a => rfl
  | throw error => rfl
  | act effect next ih =>
      rw [Proc.bind]
      congr 1
      funext c s
      exact ih c s

theorem safe_done {a : α} (h : ∀ t, post a t) :
    Safe contract (.done a : Proc S C ε α) s post fail :=
  fun t _ => h t

theorem safe_throw {error : ε} (h : ∀ t, fail error t) :
    Safe contract (.throw error : Proc S C ε α) s post fail :=
  fun t _ => h t

theorem Safe.require_bind {condition : Bool} {error : ε} {k : Unit → Proc S C ε α}
    (hok : condition = true → Safe contract (k ()) s post fail)
    (herror : condition = false → Safe contract (.throw error : Proc S C ε α) s post fail) :
    Safe contract (Proc.require condition error >>= k) s post fail := by
  unfold Proc.require
  cases condition with
  | true => exact hok rfl
  | false => exact herror rfl

theorem Safe.expect_bind {value : Option β} {error : ε} {k : β → Proc S C ε α}
    (hok : ∀ b, value = some b → Safe contract (k b) s post fail)
    (herror : value = none → Safe contract (.throw error : Proc S C ε α) s post fail) :
    Safe contract (Proc.expect value error >>= k) s post fail := by
  unfold Proc.expect
  cases value with
  | some b => exact hok b rfl
  | none => exact herror rfl

end Rules

/-! ## Runs -/

section Runs

variable {store : S} {procs : List (Proc S C ε α)} {moves : List (Move S C ε α)}
variable {s : System S C ε α} {inv : S → Prop} {contract : Nat → Contract S}

/-- Every program keeps its contract from here on, and ends as it has to. -/
def AllEnd (contract : Nat → Contract S) (post : Nat → α → S → Prop) (fail : Nat → ε → S → Prop)
    (s : System S C ε α) : Prop :=
  ∀ i p, s.procs[i]? = some p → Safe (contract i) p s.store (post i) (fail i)

/-- Every program keeps its contract from here on. -/
def AllSafe (contract : Nat → Contract S) (s : System S C ε α) : Prop :=
  ∀ i p, s.procs[i]? = some p →
    Safe (contract i) p s.store (fun _ _ => True) (fun _ _ => True)

/-- What holds of a store once a program has ended. -/
def Proc.EndsIn (p : Proc S C ε α) (post : α → S → Prop) (fail : ε → S → Prop) (s : S) : Prop :=
  match p with
  | .done a => post a s
  | .throw error => fail error s
  | .act _ _ => True

variable {post : Nat → α → S → Prop} {fail : Nat → ε → S → Prop}

theorem AllEnd.endsIn (h : AllEnd contract post fail s) {i : Nat} {p : Proc S C ε α}
    (hp : s.procs[i]? = some p) : p.EndsIn (post i) (fail i) s.store := by
  have hsafe := h i p hp
  cases p with
  | done a => exact hsafe s.store .refl
  | throw error => exact hsafe s.store .refl
  | act effect next => trivial

/-- What a move of a safe program does, and that all programs stay safe. -/
theorem AllEnd.move {m : Move S C ε α} (h : AllEnd contract post fail m.before)
    (hm : Machine.Follows System.step m) (hinv : ∀ i, (contract i).inv = inv)
    (hrely : ∀ i j s t, i ≠ j → inv s → (contract i).cond s t → (contract i).guar s t →
      (contract j).rely s t)
    (hbefore : inv m.before.store)
    (hcond : m.output = true → (contract m.input.1).cond m.before.store m.after.store) :
    AllEnd contract post fail m.after ∧ inv m.after.store ∧
      (m.output = true → (contract m.input.1).guar m.before.store m.after.store) := by
  rcases step_cases hm with ⟨houtput, hafter⟩ | ⟨effect, next, store, houtput, hproc, heffect, hafter⟩
  · rw [hafter]
    exact ⟨h, hbefore, by rw [houtput]; nofun⟩
  · have hcond := hcond houtput
    rw [hafter] at hcond ⊢
    obtain ⟨hstore, hguar, hnext⟩ := h _ _ hproc _ .refl _ _ heffect hcond
    rw [hinv] at hstore
    refine ⟨fun j p hp => ?_, hstore, fun _ => hguar⟩
    by_cases hj : j = m.input.1
    · subst hj
      rw [List.getElem?_set_self (List.getElem?_eq_some_iff.mp hproc).1] at hp
      obtain rfl := Option.some.inj hp
      exact hnext
    · rw [List.getElem?_set_ne (Ne.symm hj)] at hp
      refine (h j p hp).others (.single ⟨?_, ?_⟩)
      · exact hrely _ j _ _ (Ne.symm hj) hbefore hcond hguar
      · rw [hinv]
        exact hstore

/-- A run of safe programs keeps the invariant, every move does what its program guarantees, and
the programs end as they have to. -/
theorem Run.ends (h : Run store procs moves s) (hsafe : AllEnd contract post fail ⟨store, procs⟩)
    (hinv : ∀ i, (contract i).inv = inv)
    (hrely : ∀ i j s t, i ≠ j → inv s → (contract i).cond s t → (contract i).guar s t →
      (contract j).rely s t)
    (hstore : inv store)
    (hcond : ∀ m ∈ moves, m.output = true →
      (contract m.input.1).cond m.before.store m.after.store) :
    AllEnd contract post fail s ∧ inv s.store ∧
      ∀ m ∈ moves, inv m.before.store ∧ inv m.after.store ∧
        (m.output = true → (contract m.input.1).guar m.before.store m.after.store) := by
  refine h.invariant
    (P := fun past s => (∀ m ∈ past, m.output = true →
        (contract m.input.1).cond m.before.store m.after.store) →
      AllEnd contract post fail s ∧ inv s.store ∧
        ∀ m ∈ past, inv m.before.store ∧ inv m.after.store ∧
          (m.output = true → (contract m.input.1).guar m.before.store m.after.store))
    (fun _ => ⟨hsafe, hstore, nofun⟩) ?_ hcond
  intro past m ih hm hcond
  obtain ⟨hcondPast, hcondLast⟩ := List.forall_mem_append.mp hcond
  obtain ⟨hall, hbefore, hpast⟩ := ih hcondPast
  obtain ⟨hall, hafter, hguar⟩ :=
    hall.move hm hinv hrely hbefore (hcondLast m (List.mem_singleton_self m))
  refine ⟨hall, hafter, List.forall_mem_append.mpr ⟨hpast, ?_⟩⟩
  exact List.forall_mem_singleton.mpr ⟨hbefore, hafter, hguar⟩

/-- A run of safe programs keeps the invariant, and every move does what its program
guarantees. -/
theorem Run.safe (h : Run store procs moves s) (hsafe : AllSafe contract ⟨store, procs⟩)
    (hinv : ∀ i, (contract i).inv = inv)
    (hrely : ∀ i j s t, i ≠ j → inv s → (contract i).cond s t → (contract i).guar s t →
      (contract j).rely s t)
    (hstore : inv store)
    (hcond : ∀ m ∈ moves, m.output = true →
      (contract m.input.1).cond m.before.store m.after.store) :
    inv s.store ∧ ∀ m ∈ moves, inv m.before.store ∧ inv m.after.store ∧
      (m.output = true → (contract m.input.1).guar m.before.store m.after.store) := by
  have hends : AllEnd contract (fun _ _ _ => True) (fun _ _ _ => True) ⟨store, procs⟩ := hsafe
  exact (Run.ends h hends hinv hrely hstore hcond).2

/-- One program after another: no program makes a step after a later one has. -/
def Sequential (moves : List (Move S C ε α)) : Prop :=
  moves.Pairwise fun m m' => m.input.1 ≤ m'.input.1

instance : Decidable (Sequential moves) :=
  inferInstanceAs (Decidable (moves.Pairwise fun m m' => m.input.1 ≤ m'.input.1))

/-- A program that has not moved is as it was. -/
theorem Run.procs_of_idle (h : Run store procs moves s) {i : Nat}
    (hi : ∀ m ∈ moves, m.input.1 ≠ i) : s.procs[i]? = procs[i]? := by
  refine h.invariant
    (P := fun past s => (∀ m ∈ past, m.input.1 ≠ i) → s.procs[i]? = procs[i]?) (fun _ => rfl) ?_ hi
  intro past m ih hm hi
  obtain ⟨hpast, hlast⟩ := List.forall_mem_append.mp hi
  rcases step_cases hm with ⟨-, hafter⟩ | ⟨effect, next, t, -, -, -, hafter⟩
  · rw [hafter]
    exact ih hpast
  · rw [hafter, List.getElem?_set_ne (hlast m (List.mem_singleton_self m))]
    exact ih hpast

/-- The last program to have moved is safe. -/
def LastSafe (contract : Nat → Contract S) (past : List (Move S C ε α)) (s : System S C ε α) :
    Prop :=
  ∀ i p, (∀ m ∈ past, m.input.1 ≤ i) → (∃ m ∈ past, m.input.1 = i) → s.procs[i]? = some p →
    Safe (contract i) p s.store (fun _ _ => True) (fun _ _ => True)

/-- The next move of a sequential run. -/
theorem LastSafe.move {past : List (Move S C ε α)} {m : Move S C ε α}
    (h : LastSafe contract past m.before) (hm : Machine.Follows System.step m)
    (hcurrent : ∀ m' ∈ past, m'.input.1 ≤ m.input.1)
    (hstart : (∀ m' ∈ past, m'.input.1 ≠ m.input.1) → ∀ p, m.before.procs[m.input.1]? = some p →
      Safe (contract m.input.1) p m.before.store (fun _ _ => True) (fun _ _ => True))
    (hinv : ∀ i, (contract i).inv = inv) (hbefore : inv m.before.store)
    (hcond : m.output = true → (contract m.input.1).cond m.before.store m.after.store) :
    LastSafe contract (past ++ [m]) m.after ∧ inv m.after.store ∧
      (m.output = true → (contract m.input.1).guar m.before.store m.after.store) := by
  have hsafe : ∀ p, m.before.procs[m.input.1]? = some p →
      Safe (contract m.input.1) p m.before.store (fun _ _ => True) (fun _ _ => True) := by
    intro p hp
    by_cases hmoved : ∃ m' ∈ past, m'.input.1 = m.input.1
    · exact h _ p hcurrent hmoved hp
    · exact hstart (fun m' hm' he => hmoved ⟨m', hm', he⟩) p hp
  -- Whoever comes after the one that moves has not moved yet.
  have hlast : ∀ i, (∀ m' ∈ past ++ [m], m'.input.1 ≤ i) →
      (∃ m' ∈ past ++ [m], m'.input.1 = i) → i = m.input.1 := by
    rintro i hle ⟨m', hm', rfl⟩
    refine Nat.le_antisymm ?_ (hle m (List.mem_append_right _ (List.mem_singleton_self m)))
    rcases List.mem_append.mp hm' with hm' | hm'
    · exact hcurrent m' hm'
    · exact Nat.le_of_eq (by rw [List.mem_singleton.mp hm'])
  rcases step_cases hm with ⟨houtput, hafter⟩ | ⟨effect, next, t, houtput, hproc, heffect, hafter⟩
  · rw [hafter]
    refine ⟨fun i p hle hmoved hp => ?_, hbefore, by rw [houtput]; nofun⟩
    obtain rfl := hlast i hle hmoved
    exact hsafe p hp
  · have hcond := hcond houtput
    rw [hafter] at hcond ⊢
    obtain ⟨hstore, hguar, hnext⟩ := hsafe _ hproc _ .refl _ _ heffect hcond
    rw [hinv] at hstore
    refine ⟨fun i p hle hmoved hp => ?_, hstore, fun _ => hguar⟩
    obtain rfl := hlast i hle hmoved
    rw [List.getElem?_set_self (List.getElem?_eq_some_iff.mp hproc).1] at hp
    obtain rfl := Option.some.inj hp
    exact hnext

/-- In a sequential run a program that is safe from any store that meets the invariant does at
every move what it guarantees. What it relies on does not matter. -/
theorem Run.safe_sequential (h : Run store procs moves s) (hsequential : Sequential moves)
    (hsafe : ∀ i p, procs[i]? = some p → ∀ s, inv s →
      Safe (contract i) p s (fun _ _ => True) (fun _ _ => True))
    (hinv : ∀ i, (contract i).inv = inv) (hstore : inv store)
    (hcond : ∀ m ∈ moves, m.output = true →
      (contract m.input.1).cond m.before.store m.after.store) :
    inv s.store ∧ ∀ m ∈ moves, inv m.before.store ∧ inv m.after.store ∧
      (m.output = true → (contract m.input.1).guar m.before.store m.after.store) := by
  have hrun : LastSafe contract moves s ∧ inv s.store ∧ ∀ m ∈ moves, inv m.before.store ∧
      inv m.after.store ∧
        (m.output = true → (contract m.input.1).guar m.before.store m.after.store) := by
    induction h with
    | nil => exact ⟨fun i p _ ⟨m, hm, _⟩ => absurd hm List.not_mem_nil, hstore, nofun⟩
    | @snoc past m hrun hm ih =>
        obtain ⟨hsequentialPast, -, hlast⟩ := List.pairwise_append.mp hsequential
        obtain ⟨hcondPast, hcondLast⟩ := List.forall_mem_append.mp hcond
        obtain ⟨hlastSafe, hbefore, hpast⟩ := ih hsequentialPast hcondPast
        obtain ⟨hlastSafe, hafter, hguar⟩ := hlastSafe.move hm
          (fun m' hm' => hlast m' hm' m (List.mem_singleton_self m))
          (fun hidle p hp => hsafe _ p (Run.procs_of_idle hrun hidle ▸ hp) _ hbefore)
          hinv hbefore (hcondLast m (List.mem_singleton_self m))
        refine ⟨hlastSafe, hafter, List.forall_mem_append.mpr ⟨hpast, ?_⟩⟩
        exact List.forall_mem_singleton.mpr ⟨hbefore, hafter, hguar⟩
  exact hrun.2

end Runs

end Concurrent
