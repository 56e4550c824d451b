import VitoPlatform.Persistence.Calls

/-!
# The checks of a call

A check of a request has no step: it has ended before it begins, with a value or an error. What a
call does after its checks is judged where they have passed.
-/

namespace Services

open Concurrent

variable {S α β : Type}

/-- A program without steps. -/
def Ended : Program S α → Prop
  | .act _ _ => False
  | .done _ | .throw _ => True

theorem ended_pure (a : α) : Ended (pure a : Program S α) := trivial

theorem ended_require (condition : Bool) (error : HttpError) :
    Ended (Proc.require condition error : Program S Unit) := by
  unfold Proc.require
  cases condition with
  | true => trivial
  | false => trivial

theorem ended_expect (value : Option α) (error : HttpError) :
    Ended (Proc.expect value error : Program S α) := by
  cases value with
  | some a => trivial
  | none => trivial

theorem Ended.bind {p : Program S β} {k : β → Program S α} (h : Ended p) (hk : ∀ b, Ended (k b)) :
    Ended (p >>= k) := by
  cases p with
  | done b => exact hk b
  | throw error => trivial
  | act effect next => exact h.elim

theorem require_bind_eq_done {condition : Bool} {error : HttpError} {k : Unit → Program S α}
    {a : α} : Proc.require condition error >>= k = .done a ↔ condition = true ∧ k () = .done a := by
  unfold Proc.require
  cases condition with
  | true => exact ⟨fun h => ⟨rfl, h⟩, fun h => h.2⟩
  | false =>
      constructor
      · intro h
        cases h
      · rintro ⟨h, -⟩
        cases h

theorem require_eq_done {condition : Bool} {error : HttpError} :
    (Proc.require condition error : Program S Unit) = .done () ↔ condition = true := by
  unfold Proc.require
  cases condition with
  | true => exact ⟨fun _ => rfl, fun _ => rfl⟩
  | false =>
      constructor
      · intro h
        cases h
      · intro h
        cases h

theorem expect_bind_eq_done {value : Option β} {error : HttpError} {k : β → Program S α} {a : α} :
    Proc.expect value error >>= k = .done a ↔ ∃ b, value = some b ∧ k b = .done a := by
  cases value with
  | some b =>
      constructor
      · exact fun h => ⟨b, rfl, h⟩
      · rintro ⟨_, ⟨⟩, h⟩
        exact h
  | none =>
      constructor
      · intro h
        cases h
      · rintro ⟨_, h, -⟩
        cases h

namespace Steps

variable {steps : Steps S} {i : Nat} {s : S} {post : α → S → Prop} {fail : HttpError → S → Prop}

/-- What comes after the checks, where they have passed. -/
theorem checked_bind {p : Program S β} {k : β → Program S α} (h : Ended p) (hs : steps.inv s)
    (next : ∀ b, p = .done b → steps.Safe i (k b) s post) : steps.Safe i (p >>= k) s post := by
  cases p with
  | done b => exact next b rfl
  | throw error => exact fails hs
  | act effect next => exact h.elim

/-- Reading keeps an assertion. -/
theorem query_last {f : S → α} (A : S → Prop) (stable : steps.Stable i A) (hs : steps.inv s)
    (hA : A s) : steps.Safe i (query f) s fun _ t => steps.inv t ∧ A t := by
  rw [← Proc.bind_done (query f)]
  exact query_bind A stable hs hA fun t ht hA => ends A stable ht hA fun u hu hA => ⟨hu, hA⟩

/-- A part that answers as it likes, and its handler. -/
theorem tryCatch_bind {p : Program S α} {handler : HttpError → Program S α}
    (h : steps.Safe i p s post)
    (hhandler : ∀ error t, steps.inv t → steps.Safe i (handler error) t post) :
    steps.Safe i (p.tryCatch handler) s post :=
  Safe.tryCatch (h.mono (fun _ _ h => h) fun error t ht => hhandler error t ht)

namespace SafeTo

/-- A step that may fail before it has any effect, or with an error of its own. -/
theorem step_bind {f : Choice → S → Except HttpError β × S} {k : β → Program S α} (A : S → Prop)
    (stable : steps.Stable i A) (hs : steps.inv s) (hA : A s)
    (hfault : ∀ t, steps.inv t → A t → fail .database t)
    (step : ∀ t c, steps.inv t → A t → steps.does i t (f c t).2 ∧
      (∀ a, (f c t).1 = .ok a → steps.inv (f c t).2 →
        steps.SafeTo i (k a) (f c t).2 post fail) ∧
      ∀ error, (f c t).1 = .error error → steps.inv (f c t).2 →
        steps.SafeTo i (.throw error : Program S α) (f c t).2 post fail) :
    steps.SafeTo i (change f >>= k) s post fail := by
  refine Safe.change_bind A hs hA stable.rely (steps.refl i)
    (fun t ht hA => throws A stable ht hA hfault) ?_
  intro t c _ ht hA _
  obtain ⟨hdoes, hok, herror⟩ := step t c ht hA
  have hafter := steps.keeps hdoes ht
  exact ⟨hafter, hdoes, fun a ha => hok a ha hafter, fun error he => herror error he hafter⟩

/-- What a query answers is so. -/
theorem query_now {f : S → β} {k : β → Program S α} (A : S → Prop) (stable : steps.Stable i A)
    (hs : steps.inv s) (hA : A s) (hfault : ∀ t, steps.inv t → A t → fail .database t)
    (next : ∀ t, steps.inv t → A t → steps.SafeTo i (k (f t)) t post fail) :
    steps.SafeTo i (query f >>= k) s post fail := by
  refine step_bind A stable hs hA hfault fun t c ht hA => ⟨steps.refl i t, ?_, ?_⟩
  · rintro _ ⟨⟩ _
    exact next t ht hA
  · intro error herror
    cases herror

/-- A part of a call, and what comes after it. -/
theorem part_bind {p : Program S β} {k : β → Program S α} {mid : β → S → Prop}
    (h : steps.SafeTo i p s mid fail) (next : ∀ b t, mid b t → steps.SafeTo i (k b) t post fail) :
    steps.SafeTo i (p >>= k) s post fail :=
  Safe.bind (h.mono (fun b t hmid => next b t hmid) fun _ _ h => h)

/-- What a call answers, under a name. -/
theorem map {p : Program S β} {f : β → α} {mid : β → S → Prop} (h : steps.SafeTo i p s mid fail)
    (hpost : ∀ b t, mid b t → post (f b) t) :
    steps.SafeTo i (p >>= fun b => pure (f b)) s post fail := by
  change Concurrent.Safe (steps.contract i) (p.bind fun b => .done (f b)) s post fail
  induction p generalizing s with
  | done b => exact fun t ht => hpost b t (h t ht)
  | throw error => exact h
  | act effect next ih =>
      intro t ht c u hu hcond
      obtain ⟨hinv, hguar, hnext⟩ := h t ht c u hu hcond
      exact ⟨hinv, hguar, ih c t hnext⟩

/-- The last step of a call, if it can fail only before it has any effect. -/
theorem change_last {f : Choice → S → Except HttpError α × S} (A : S → Prop)
    (stable : steps.Stable i A) (hs : steps.inv s) (hA : A s)
    (hfail : ∀ error t, steps.inv t → A t → fail error t)
    (step : ∀ t c, steps.inv t → A t → steps.does i t (f c t).2 ∧
      (∀ a, (f c t).1 = .ok a → steps.inv (f c t).2 →
        steps.SafeTo i (.done a) (f c t).2 post fail) ∧
      ∀ error, (f c t).1 = .error error → A (f c t).2) :
    steps.SafeTo i (change f) s post fail := by
  rw [← Proc.bind_done (change f)]
  exact change_bind A stable hs hA hfail step

theorem checked_bind {p : Program S β} {k : β → Program S α} (A : S → Prop)
    (stable : steps.Stable i A) (h : Ended p) (hs : steps.inv s) (hA : A s)
    (hfail : ∀ error t, steps.inv t → A t → fail error t)
    (next : ∀ b, p = .done b → steps.SafeTo i (k b) s post fail) :
    steps.SafeTo i (p >>= k) s post fail := by
  cases p with
  | done b => exact next b rfl
  | throw error => exact throws A stable hs hA (hfail error)
  | act effect next => exact h.elim

end SafeTo

/-- How the calls of a run end, whatever they return. -/
theorem run_answers {store : S} {procs : List (Program S α)}
    {moves : List (Concurrent.Move S Choice HttpError α)} {system : System S Choice HttpError α}
    {post : Nat → α → S → Prop} {fail : Nat → HttpError → S → Prop}
    (h : Concurrent.Run store procs moves system)
    (hrely : ∀ i j s t, i ≠ j → steps.does i s t → steps.rely j s t)
    (hsafe : ∀ i p, procs[i]? = some p → steps.SafeTo i p store (post i) (fail i))
    (hs : steps.inv store) :
    steps.inv system.store ∧ ∀ i (p : Program S α), system.procs[i]? = some p →
      p.EndsIn (post i) (fail i) system.store := by
  have hinv : ∀ i, (steps.contract i).inv = steps.inv := fun _ => rfl
  have hends : AllEnd steps.contract post fail ⟨store, procs⟩ := hsafe
  obtain ⟨hall, hstore, -⟩ := Concurrent.Run.ends h hends hinv
    (fun i j s t hij _ _ hdoes => hrely i j s t hij hdoes) hs fun _ _ _ => trivial
  exact ⟨hstore, fun i p hp => hall.endsIn hp⟩

end Steps

end Services
