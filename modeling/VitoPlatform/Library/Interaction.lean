import Mathlib.Data.List.Basic

/-!
# Programs that interact with an environment

A program is a tree of effects: it ends with a value, ends with an error, or performs an
effect and continues with the answer, which may itself be an error. Nothing is said about
how effects are answered, so a property of all traces of a program holds against every
environment.

`wp` is the weakest precondition over traces. Its guard is checked at every effect the program
performs, given the trace so far; `Trace.guarded` and `Trace.returns` turn a proof of `wp` into
statements about every partial run.
-/

/-- A program over the effects `E`, answered in `R`, failing with `ε`, returning `α`. -/
inductive Prog (E : Type) (R : E → Type) (ε : Type) (α : Type) where
  | pure (a : α)
  | throw (error : ε)
  | call (e : E) (k : Except ε (R e) → Prog E R ε α)

namespace Prog

variable {E : Type} {R : E → Type} {ε α β : Type}

def bind : Prog E R ε α → (α → Prog E R ε β) → Prog E R ε β
  | .pure a, f => f a
  | .throw error, _ => .throw error
  | .call e k, f => .call e fun r => bind (k r) f

/-- Run `p`, and `handler` on its error. -/
def tryCatch : Prog E R ε α → (ε → Prog E R ε α) → Prog E R ε α
  | .pure a, _ => .pure a
  | .throw error, handler => handler error
  | .call e k, handler => .call e fun r => tryCatch (k r) handler

instance : Monad (Prog E R ε) where
  pure := .pure
  bind := bind

/-- Perform one effect. -/
def perform (e : E) : Prog E R ε (R e) :=
  .call e fun
    | .ok a => .pure a
    | .error error => .throw error

/-- Go on only if the condition holds. -/
def require (condition : Bool) (error : ε) : Prog E R ε Unit :=
  if condition then .pure () else .throw error

/-- The value of an option, or an error. -/
def expect (value : Option α) (error : ε) : Prog E R ε α :=
  match value with
  | some a => .pure a
  | none => .throw error

/-- An effect with its answer. -/
abbrev Event (E : Type) (R : E → Type) (ε : Type) := Σ e : E, Except ε (R e)

/-- `Trace p t q`: answering effects as `t` says takes `p` to `q`. -/
inductive Trace : Prog E R ε α → List (Event E R ε) → Prog E R ε α → Prop
  | nil (p) : Trace p [] p
  | cons {e k r t q} : Trace (k r) t q → Trace (.call e k) (⟨e, r⟩ :: t) q

/-- The weakest precondition: `guard` holds at every effect, `post` and `fail` at the
end, each of the trace that led there. -/
def wp (guard : List (Event E R ε) → E → Prop) :
    Prog E R ε α → (α → List (Event E R ε) → Prop) → (ε → List (Event E R ε) → Prop) →
      List (Event E R ε) → Prop
  | .pure a, post, _, t => post a t
  | .throw error, _, fail, t => fail error t
  | .call e k, post, fail, t =>
      guard t e ∧ ∀ r, wp guard (k r) post fail (t ++ [⟨e, r⟩])

section Rules

variable {guard : List (Event E R ε) → E → Prop}
variable {post post' : α → List (Event E R ε) → Prop}
variable {fail fail' : ε → List (Event E R ε) → Prop}
variable {t : List (Event E R ε)}

@[simp] theorem wp_pure {a : α} : wp guard (.pure a) post fail t ↔ post a t := Iff.rfl

@[simp] theorem wp_pure' {a : α} :
    wp guard (Pure.pure a : Prog E R ε α) post fail t ↔ post a t := Iff.rfl

@[simp] theorem wp_throw {error : ε} :
    wp guard (.throw error : Prog E R ε α) post fail t ↔ fail error t := Iff.rfl

@[simp] theorem wp_bind {p : Prog E R ε β} {f : β → Prog E R ε α} :
    wp guard (p >>= f) post fail t ↔
      wp guard p (fun b t => wp guard (f b) post fail t) fail t := by
  change wp guard (bind p f) post fail t ↔ _
  induction p generalizing t with
  | pure b => rfl
  | throw error => rfl
  | call e k ih =>
      simp only [bind, wp]
      exact and_congr_right fun _ => forall_congr' fun r => ih r

theorem wp_tryCatch {p : Prog E R ε α} {handler : ε → Prog E R ε α} :
    wp guard (p.tryCatch handler) post fail t ↔
      wp guard p post (fun error t => wp guard (handler error) post fail t) t := by
  induction p generalizing t with
  | pure a => rfl
  | throw error => rfl
  | call e k ih =>
      simp only [tryCatch, wp]
      exact and_congr_right fun _ => forall_congr' fun r => ih r

theorem wp_perform {e : E} {post : R e → List (Event E R ε) → Prop} :
    wp guard (perform e) post fail t ↔
      guard t e ∧ (∀ a, post a (t ++ [⟨e, .ok a⟩])) ∧
        ∀ error, fail error (t ++ [⟨e, .error error⟩]) := by
  simp only [perform, wp]
  refine and_congr_right fun _ => ⟨fun h => ⟨fun a => h (.ok a), fun x => h (.error x)⟩, ?_⟩
  rintro ⟨hok, herror⟩ (x | a)
  · exact herror x
  · exact hok a

@[simp] theorem wp_require {condition : Bool} {error : ε}
    {post : Unit → List (Event E R ε) → Prop} :
    wp guard (require condition error) post fail t ↔
      (condition = true → post () t) ∧ (condition = false → fail error t) := by
  cases condition with
  | true => simp [require]
  | false => simp [require]

@[simp] theorem wp_expect {value : Option α} {error : ε} :
    wp guard (expect value error) post fail t ↔
      (∀ a, value = some a → post a t) ∧ (value = none → fail error t) := by
  cases value with
  | none => simp [expect]
  | some a => simp [expect]

theorem wp_mono {p : Prog E R ε α} (h : wp guard p post fail t)
    (hpost : ∀ a t, post a t → post' a t)
    (hfail : ∀ error t, fail error t → fail' error t) :
    wp guard p post' fail' t := by
  induction p generalizing t with
  | pure a => exact hpost a t h
  | throw error => exact hfail error t h
  | call e k ih => exact ⟨h.1, fun r => ih r (h.2 r)⟩

/-- A guard may be exchanged for one that lets more pass. -/
theorem wp_guard_mono {guard' : List (Event E R ε) → E → Prop} {p : Prog E R ε α}
    (h : wp guard p post fail t) (hguard : ∀ t e, guard t e → guard' t e) :
    wp guard' p post fail t := by
  induction p generalizing t with
  | pure a => exact h
  | throw error => exact h
  | call e k ih => exact ⟨hguard t e h.1, fun r => ih r (h.2 r)⟩

/-- What holds at every end holds after every run. -/
theorem wp_always {p : Prog E R ε α} (hguard : ∀ t e, guard t e) (hpost : ∀ a t, post a t)
    (hfail : ∀ error t, fail error t) : wp guard p post fail t := by
  induction p generalizing t with
  | pure a => exact hpost a t
  | throw error => exact hfail error t
  | call e k ih => exact ⟨hguard t e, fun r => ih r⟩

/-- The trace of an end extends the one of the beginning. -/
theorem wp_extends {p : Prog E R ε α} (h : wp guard p post fail t) :
    wp guard p (fun a t' => post a t' ∧ t <+: t') (fun error t' => fail error t' ∧ t <+: t') t := by
  induction p generalizing t with
  | pure a => exact ⟨h, List.prefix_rfl⟩
  | throw error => exact ⟨h, List.prefix_rfl⟩
  | call e k ih =>
      refine ⟨h.1, fun r => wp_mono (ih r (h.2 r)) ?_ ?_⟩
      · exact fun a t' h => ⟨h.1, (List.prefix_append t _).trans h.2⟩
      · exact fun error t' h => ⟨h.1, (List.prefix_append t _).trans h.2⟩

/-- A program reached by a trace keeps its precondition. -/
theorem Trace.wp {p q : Prog E R ε α} {s : List (Event E R ε)} (trace : Trace p s q) :
    ∀ {t}, wp guard p post fail t → wp guard q post fail (t ++ s) := by
  induction trace with
  | nil p =>
      intro t h
      rwa [List.append_nil]
  | cons _ ih =>
      intro t h
      have := ih (h.2 _)
      rwa [List.append_assoc, List.singleton_append] at this

/-- The guard holds wherever a run performs an effect. -/
theorem Trace.guarded {p : Prog E R ε α} {s : List (Event E R ε)} {e : E}
    {k : Except ε (R e) → Prog E R ε α} (trace : Trace p s (.call e k))
    (h : Prog.wp guard p post fail []) : guard s e :=
  (trace.wp h).1

/-- The postcondition holds of every value a run returns. -/
theorem Trace.returns {p : Prog E R ε α} {s : List (Event E R ε)} {a : α}
    (trace : Trace p s (.pure a)) (h : Prog.wp guard p post fail []) : post a s :=
  trace.wp h

theorem Trace.throws {p : Prog E R ε α} {s : List (Event E R ε)} {error : ε}
    (trace : Trace p s (.throw error)) (h : Prog.wp guard p post fail []) : fail error s :=
  trace.wp h

end Rules

/-! ### Values that are returned -/

/-- A run may end with any error; of a value that it returns `post` holds. -/
abbrev leads (guard : List (Event E R ε) → E → Prop) (p : Prog E R ε α)
    (post : α → List (Event E R ε) → Prop) (t : List (Event E R ε)) : Prop :=
  wp guard p post (fun _ _ => True) t

section Leads

variable {guard : List (Event E R ε) → E → Prop} {post : β → List (Event E R ε) → Prop}
variable {t : List (Event E R ε)}

/-- An effect and what comes after it. -/
theorem leads_perform {e : E} {k : R e → Prog E R ε β} (hguard : guard t e)
    (h : ∀ a, leads guard (k a) post (t ++ [⟨e, .ok a⟩])) :
    leads guard (perform e >>= k) post t :=
  wp_bind.mpr (wp_perform.mpr ⟨hguard, h, fun _ => trivial⟩)

theorem leads_expect {value : Option α} {error : ε} {k : α → Prog E R ε β}
    (h : ∀ a, value = some a → leads guard (k a) post t) :
    leads guard (expect value error >>= k) post t :=
  wp_bind.mpr (wp_expect.mpr ⟨h, fun _ => trivial⟩)

theorem leads_require {condition : Bool} {error : ε} {k : Unit → Prog E R ε β}
    (h : condition = true → leads guard (k ()) post t) :
    leads guard (require condition error >>= k) post t :=
  wp_bind.mpr (wp_require.mpr ⟨h, fun _ => trivial⟩)

/-- A program and what comes after it. -/
theorem leads_bind {p : Prog E R ε α} {k : α → Prog E R ε β}
    {middle : α → List (Event E R ε) → Prop} (hp : leads guard p middle t)
    (h : ∀ a t, middle a t → leads guard (k a) post t) : leads guard (p >>= k) post t :=
  wp_bind.mpr (wp_mono hp h fun _ _ _ => trivial)

end Leads

theorem Trace.append {p q r : Prog E R ε α} {s t : List (Event E R ε)} (first : Trace p s q)
    (second : Trace q t r) : Trace p (s ++ t) r := by
  induction first with
  | nil p => exact second
  | cons _ ih => exact .cons (ih second)

/-- One more answered effect. -/
theorem Trace.snoc {p : Prog E R ε α} {s : List (Event E R ε)} {e : E}
    {k : Except ε (R e) → Prog E R ε α} (trace : Trace p s (.call e k)) (r : Except ε (R e)) :
    Trace p (s ++ [⟨e, r⟩]) (k r) :=
  trace.append (.cons (.nil _))

/-- Every event of a run was an effect the guard let pass, given what came before it. -/
theorem Trace.guarded_event {p q : Prog E R ε α} {s : List (Event E R ε)}
    {guard : List (Event E R ε) → E → Prop} {post : α → List (Event E R ε) → Prop}
    {fail : ε → List (Event E R ε) → Prop} (trace : Trace p s q)
    (h : Prog.wp guard p post fail []) {before after : List (Event E R ε)}
    {event : Event E R ε} (hs : s = before ++ event :: after) : guard before event.1 := by
  have go : ∀ {p q : Prog E R ε α} {s : List (Event E R ε)}, Trace p s q →
      ∀ {t before}, Prog.wp guard p post fail t → s = before ++ event :: after →
        guard (t ++ before) event.1 := by
    intro p q s trace
    induction trace with
    | nil p =>
        intro t before _ hs
        simp at hs
    | cons _ ih =>
        intro t before h hs
        cases before with
        | nil =>
            obtain ⟨rfl, -⟩ := List.cons.inj hs
            rw [List.append_nil]
            exact h.1
        | cons b before =>
            obtain ⟨hhead, htail⟩ := List.cons.inj hs
            have := ih (h.2 _) htail
            rw [hhead] at this
            rwa [List.append_assoc, List.singleton_append] at this
  exact go trace h hs

/-- Answer every effect by `env`, up to the first effect that `stop` accepts. -/
def runUntil (env : (e : E) → Except ε (R e)) (stop : E → Bool) :
    Prog E R ε α → List (Event E R ε) × Prog E R ε α
  | .pure a => ([], .pure a)
  | .throw error => ([], .throw error)
  | .call e k =>
      if stop e then ([], .call e k)
      else
        let (t, q) := runUntil env stop (k (env e))
        (⟨e, env e⟩ :: t, q)

theorem trace_runUntil (env : (e : E) → Except ε (R e)) (stop : E → Bool)
    (p : Prog E R ε α) : Trace p (p.runUntil env stop).1 (p.runUntil env stop).2 := by
  induction p with
  | pure a => exact .nil _
  | throw error => exact .nil _
  | call e k ih =>
      rw [runUntil]
      split
      · exact .nil _
      · exact .cons (ih (env e))

/-- Every answer of such a run is the one `env` gives. -/
theorem mem_runUntil {env : (e : E) → Except ε (R e)} {stop : E → Bool} {p : Prog E R ε α}
    {e : E} {r : Except ε (R e)} (h : ⟨e, r⟩ ∈ (p.runUntil env stop).1) : r = env e := by
  induction p with
  | pure a => cases h
  | throw error => cases h
  | call e' k ih =>
      rw [runUntil] at h
      split at h
      · cases h
      · rcases List.mem_cons.mp h with h | h
        · cases h
          rfl
        · exact ih _ h

/-- How a program that has ended has ended. -/
def outcome : Prog E R ε α → Option (Except ε α)
  | .pure a => some (.ok a)
  | .throw error => some (.error error)
  | .call _ _ => none

/-- The effect a program performs next. -/
def next : Prog E R ε α → Option E
  | .call e _ => some e
  | _ => none

theorem next_eq_some {p : Prog E R ε α} {e : E} (h : p.next = some e) : ∃ k, p = .call e k := by
  cases p with
  | pure a => cases h
  | throw error => cases h
  | call e' k =>
      cases h
      exact ⟨k, rfl⟩

/-! ### Runs against an environment -/

section Runs

variable {env : (e : E) → Except ε (R e)} {stop : E → Bool} {a : α} {error : ε}

/-- What comes after a program that has come to its value. -/
theorem runUntil_bind {p : Prog E R ε α} {k : α → Prog E R ε β}
    (h : (p.runUntil env stop).2 = .pure a) :
    ((p >>= k).runUntil env stop).2 = ((k a).runUntil env stop).2 := by
  change ((bind p k).runUntil env stop).2 = _
  induction p with
  | pure b =>
      cases h
      rfl
  | throw error => cases h
  | call e k' ih =>
      rw [runUntil] at h
      rw [bind, runUntil]
      split at h
      · cases h
      · rename_i hstop
        rw [if_neg hstop]
        exact ih (env e) h

theorem runUntil_perform {e : E} {a : R e} {k : R e → Prog E R ε β} (hstop : stop e = false)
    (h : env e = .ok a) :
    ((perform e >>= k).runUntil env stop).2 = ((k a).runUntil env stop).2 := by
  refine runUntil_bind ?_
  simp [perform, runUntil, hstop, h]

theorem runUntil_expect {value : Option α} {k : α → Prog E R ε β} (h : value = some a) :
    ((expect value error >>= k).runUntil env stop).2 = ((k a).runUntil env stop).2 := by
  subst h
  exact runUntil_bind rfl

theorem runUntil_require {condition : Bool} {k : Unit → Prog E R ε β} (h : condition = true) :
    ((require condition error >>= k).runUntil env stop).2 = ((k ()).runUntil env stop).2 := by
  subst h
  exact runUntil_bind rfl

/-- A condition that is not met ends the run. -/
theorem runUntil_require_false {condition : Bool} {k : Unit → Prog E R ε β}
    (h : condition = false) :
    ((require condition error >>= k).runUntil env stop).2 = .throw error := by
  subst h
  rfl

/-- The run ends before an effect that `stop` accepts. -/
theorem next_runUntil {e : E} {k : R e → Prog E R ε β} (hstop : stop e = true) :
    ((perform e >>= k).runUntil env stop).2.next = some e := by
  change ((bind (perform e) k).runUntil env stop).2.next = some e
  simp [perform, bind, runUntil, hstop, next]

end Runs

end Prog
