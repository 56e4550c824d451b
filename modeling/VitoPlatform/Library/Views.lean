import Mathlib.Data.List.Find

/-!
# Programs confined to a part of the state

A `Handler` is a program that runs by itself: it answers or fails, and leaves a state. A `View`
divides the state into the part of one party and the part of all others. `Confined` says that a
handler leaves the part of the others as it is, and that its answer and what it does to its own
part depend on its own part only. The preconditions of the two runs compared are the same, and the
rules compose them along the program.
-/

/-- A program over the state `S` that fails with `ε` or answers an `α`. -/
def Handler (S ε α : Type) : Type := S → Except ε α × S

namespace Handler

variable {S ε α β : Type}

def bind (m : Handler S ε α) (f : α → Handler S ε β) : Handler S ε β := fun s =>
  match m s with
  | (.ok a, s') => f a s'
  | (.error error, s') => (.error error, s')

instance : Monad (Handler S ε) where
  pure a := fun s => (.ok a, s)
  bind := bind

def fail (error : ε) : Handler S ε α := fun s => (.error error, s)

/-- A value computed without the state. -/
def lift (value : Except ε α) : Handler S ε α := fun s => (value, s)

/-- Go on only if the condition holds. -/
def require (condition : Bool) (error : ε) : Handler S ε Unit :=
  lift (if condition then .ok () else .error error)

/-- The value of an option, or an error. -/
def expect (value : Option α) (error : ε) : Handler S ε α :=
  lift (match value with
    | some a => .ok a
    | none => .error error)

/-- What can be read from the state. -/
def look (f : S → α) : Handler S ε α := fun s => (.ok (f s), s)

/-- A program that leaves no change if it fails. -/
def transaction (m : Handler S ε α) : Handler S ε α := fun s =>
  match m s with
  | (.ok a, s') => (.ok a, s')
  | (.error error, _) => (.error error, s)

/-- A program that fails with another error. -/
def mapError (f : ε → ε) (m : Handler S ε α) : Handler S ε α := fun s =>
  match m s with
  | (.ok a, s') => (.ok a, s')
  | (.error error, s') => (.error (f error), s')

section Equations

variable {m : Handler S ε α} {f : α → Handler S ε β} {s s' : S} {a : α} {error : ε}

theorem pure_eq : (pure a : Handler S ε α) s = (.ok a, s) := rfl

theorem bind_eq : m >>= f = bind m f := rfl

theorem bind_ok (h : m s = (.ok a, s')) : (m >>= f) s = f a s' := by
  change bind m f s = _
  rw [bind, h]

theorem bind_error (h : m s = (.error error, s')) : (m >>= f) s = (.error error, s') := by
  change bind m f s = _
  rw [bind, h]

theorem bind_assoc {γ : Type} {g : β → Handler S ε γ} :
    m >>= f >>= g = m >>= fun a => f a >>= g := by
  funext s
  rcases hms : m s with ⟨result, s'⟩
  cases result with
  | error error => rw [bind_error hms, bind_error (bind_error hms)]
  | ok a =>
      rw [bind_ok hms]
      rcases hfa : f a s' with ⟨result, s''⟩
      cases result with
      | error error => rw [bind_error hfa, bind_error ((bind_ok hms).trans hfa)]
      | ok b => rw [bind_ok hfa, bind_ok ((bind_ok hms).trans hfa)]

theorem transaction_ok (h : m s = (.ok a, s')) : transaction m s = (.ok a, s') := by
  rw [transaction, h]

end Equations

/-! ## Errors that a program does not end with -/

/-- The program does not end with the error. -/
def Avoids (error : ε) (m : Handler S ε α) : Prop := ∀ s, (m s).1 ≠ .error error

namespace Avoids

variable {error other : ε} {m : Handler S ε α} {f : α → Handler S ε β}

theorem pure {a : α} : Avoids error (Pure.pure a : Handler S ε α) := fun _ => nofun

theorem lift {value : Except ε α} (h : value ≠ .error error) :
    Avoids error (Handler.lift value : Handler S ε α) := fun _ => h

theorem require {condition : Bool} (h : other ≠ error) :
    Avoids error (Handler.require condition other : Handler S ε Unit) := by
  refine lift ?_
  split
  · nofun
  · exact fun heq => h (Except.error.inj heq)

theorem expect {value : Option α} (h : other ≠ error) :
    Avoids error (Handler.expect value other : Handler S ε α) := by
  refine lift ?_
  split
  · nofun
  · exact fun heq => h (Except.error.inj heq)

theorem bind (hm : Avoids error m) (hf : ∀ a, Avoids error (f a)) : Avoids error (m >>= f) := by
  intro s
  have h := hm s
  rcases hms : m s with ⟨result, s'⟩
  rw [hms] at h
  cases result with
  | error other =>
      rw [bind_error hms]
      exact fun heq => h (congrArg Except.error (Except.error.inj heq))
  | ok a =>
      rw [bind_ok hms]
      exact hf a s'

theorem transaction (hm : Avoids error m) : Avoids error (Handler.transaction m) := by
  intro s
  have h := hm s
  rw [Handler.transaction]
  split
  · nofun
  · rename_i hms
    rw [hms] at h
    exact h

end Avoids

end Handler

/-- The part of one party, and the part of all others. -/
structure View (S M O : Type) where
  mine : S → M
  others : S → O

namespace Handler

variable {S M O ε α β : Type}

/-- From the states that meet a precondition, the program leaves the others' part as it is, does
the same on equal parts of its own, and answers under a postcondition. -/
structure Confined (view : View S M O) (pre : S → Prop) (m : Handler S ε α)
    (post : α → S → Prop) : Prop where
  others : ∀ s, pre s → view.others (m s).2 = view.others s
  same : ∀ s t, pre s → pre t → view.mine s = view.mine t →
    (m s).1 = (m t).1 ∧ view.mine (m s).2 = view.mine (m t).2
  answers : ∀ s a, pre s → (m s).1 = .ok a → post a (m s).2

namespace Confined

variable {view : View S M O} {pre pre' : S → Prop} {m : Handler S ε α}
variable {post post' : α → S → Prop} {done : β → S → Prop}

theorem consequence (h : Confined view pre m post) (hpre : ∀ s, pre' s → pre s)
    (hpost : ∀ a s, post a s → post' a s) : Confined view pre' m post' where
  others s hs := h.others s (hpre s hs)
  same s t hs ht := h.same s t (hpre s hs) (hpre t ht)
  answers s a hs hok := hpost a _ (h.answers s a (hpre s hs) hok)

theorem weaken (h : Confined view pre m post) (hpre : ∀ s, pre' s → pre s) :
    Confined view pre' m post :=
  h.consequence hpre fun _ _ h => h

/-- What a precondition says about anything else than the state. -/
theorem given {fact : Prop} (hpre : ∀ s, pre s → fact) (h : fact → Confined view pre m post) :
    Confined view pre m post := by
  by_cases hfact : fact
  · exact h hfact
  · exact
      { others := fun s hs => absurd (hpre s hs) hfact
        same := fun s _ hs => absurd (hpre s hs) hfact
        answers := fun s _ hs => absurd (hpre s hs) hfact }

theorem bind {f : α → Handler S ε β} (hm : Confined view pre m post)
    (hf : ∀ a, Confined view (post a) (f a) done) : Confined view pre (m >>= f) done where
  others s hs := by
    have hothers := hm.others s hs
    have hanswers := fun a => hm.answers s a hs
    rcases hms : m s with ⟨result, s'⟩
    simp only [hms] at hothers hanswers
    cases result with
    | error error =>
        rw [bind_error hms]
        exact hothers
    | ok a =>
        rw [bind_ok hms]
        exact ((hf a).others s' (hanswers a rfl)).trans hothers
  same s t hs ht hmine := by
    obtain ⟨hresult, hmine'⟩ := hm.same s t hs ht hmine
    have hanswers := fun a => hm.answers s a hs
    have hanswers' := fun a => hm.answers t a ht
    rcases hms : m s with ⟨result, s'⟩
    rcases hmt : m t with ⟨result', t'⟩
    simp only [hms, hmt] at hresult hmine' hanswers hanswers'
    subst hresult
    cases result with
    | error error =>
        rw [bind_error hms, bind_error hmt]
        exact ⟨rfl, hmine'⟩
    | ok a =>
        rw [bind_ok hms, bind_ok hmt]
        exact (hf a).same s' t' (hanswers a rfl) (hanswers' a rfl) hmine'
  answers s b hs hok := by
    have hanswers := fun a => hm.answers s a hs
    rcases hms : m s with ⟨result, s'⟩
    simp only [hms] at hanswers
    cases result with
    | error error =>
        rw [bind_error hms] at hok
        cases hok
    | ok a =>
        rw [bind_ok hms] at hok ⊢
        exact (hf a).answers s' b (hanswers a rfl) hok

theorem pure {a : α} (h : ∀ s, pre s → post a s) :
    Confined view pre (Pure.pure a : Handler S ε α) post where
  others _ _ := rfl
  same _ _ _ _ hmine := ⟨rfl, hmine⟩
  answers s b hs hok := by
    cases hok
    exact h s hs

theorem lift {value : Except ε α} :
    Confined view pre (Handler.lift value) fun a s => pre s ∧ value = .ok a where
  others _ _ := rfl
  same _ _ _ _ hmine := ⟨rfl, hmine⟩
  answers _ _ hs hok := ⟨hs, hok⟩

theorem fail {error : ε} : Confined view pre (Handler.fail error) post where
  others _ _ := rfl
  same _ _ _ _ hmine := ⟨rfl, hmine⟩
  answers _ _ _ := nofun

theorem require {condition : Bool} {error : ε} :
    Confined view pre (Handler.require condition error) fun _ s => pre s ∧ condition = true := by
  refine lift.consequence (fun _ h => h) fun _ s ⟨hs, hok⟩ => ⟨hs, ?_⟩
  split at hok
  · assumption
  · cases hok

theorem expect {value : Option α} {error : ε} :
    Confined view pre (Handler.expect value error) fun a s => pre s ∧ value = some a := by
  refine lift.consequence (fun _ h => h) fun a s ⟨hs, hok⟩ => ⟨hs, ?_⟩
  split at hok
  · rw [Except.ok.inj hok]
  · cases hok

/-- A reading that equal parts of one's own determine. -/
theorem look {f : S → α}
    (h : ∀ s t, pre s → pre t → view.mine s = view.mine t → f s = f t) :
    Confined view pre (Handler.look f : Handler S ε α) fun a s => pre s ∧ f s = a where
  others _ _ := rfl
  same s t hs ht hmine := ⟨congrArg Except.ok (h s t hs ht hmine), hmine⟩
  answers _ _ hs hok := ⟨hs, Except.ok.inj hok⟩

theorem transaction (h : Confined view pre m post) :
    Confined view pre (Handler.transaction m) post where
  others s hs := by
    have hothers := h.others s hs
    rw [Handler.transaction]
    split
    · rename_i hms
      rw [hms] at hothers
      exact hothers
    · rfl
  same s t hs ht hmine := by
    obtain ⟨hresult, hmine'⟩ := h.same s t hs ht hmine
    rcases hms : m s with ⟨result, s'⟩
    rcases hmt : m t with ⟨result', t'⟩
    simp only [hms, hmt] at hresult hmine'
    subst hresult
    rw [Handler.transaction, Handler.transaction, hms, hmt]
    cases result with
    | error error => exact ⟨rfl, hmine⟩
    | ok a => exact ⟨rfl, hmine'⟩
  answers s a hs hok := by
    have hanswers := fun a => h.answers s a hs
    rcases hms : m s with ⟨result, s'⟩
    rw [Handler.transaction, hms] at hok ⊢
    simp only [hms] at hanswers
    cases result with
    | error error => cases hok
    | ok b => exact hanswers a hok

theorem mapError {f : ε → ε} (h : Confined view pre m post) :
    Confined view pre (Handler.mapError f m) post where
  others s hs := by
    have hothers := h.others s hs
    rw [Handler.mapError]
    split
    all_goals
      rename_i hms
      rw [hms] at hothers
      exact hothers
  same s t hs ht hmine := by
    obtain ⟨hresult, hmine'⟩ := h.same s t hs ht hmine
    rcases hms : m s with ⟨result, s'⟩
    rcases hmt : m t with ⟨result', t'⟩
    simp only [hms, hmt] at hresult hmine'
    subst hresult
    rw [Handler.mapError, Handler.mapError, hms, hmt]
    cases result with
    | error error => exact ⟨rfl, hmine'⟩
    | ok a => exact ⟨rfl, hmine'⟩
  answers s a hs hok := by
    have hanswers := fun a => h.answers s a hs
    rcases hms : m s with ⟨result, s'⟩
    rw [Handler.mapError, hms] at hok ⊢
    simp only [hms] at hanswers
    cases result with
    | error error => cases hok
    | ok b => exact hanswers a hok

end Confined

end Handler

/-! ## Rows of one owner -/

namespace List

variable {α : Type} {p own : α → Bool} {rows : List α}

/-- The rows that a condition finds belong to the owner. -/
theorem find?_owned (h : ∀ a ∈ rows, p a = true → own a = true) :
    rows.find? p = (rows.filter own).find? p := by
  rw [find?_filter]
  refine find?_congr fun a ha => ?_
  cases hp : p a with
  | false => simp
  | true => simp [h a ha hp]

theorem filter_owned (h : ∀ a ∈ rows, p a = true → own a = true) :
    rows.filter p = (rows.filter own).filter p := by
  rw [filter_filter]
  refine filter_congr fun a ha => ?_
  cases hp : p a with
  | false => rfl
  | true => rw [h a ha hp]; rfl

/-- A change of the elements that a condition does not see. -/
theorem filter_map_of_same {f : α → α} (h : ∀ a ∈ rows, p (f a) = p a) :
    (rows.map f).filter p = (rows.filter p).map f := by
  rw [filter_map]
  congr 1
  exact filter_congr h

theorem any_owned (h : ∀ a ∈ rows, p a = true → own a = true) :
    rows.any p = (rows.filter own).any p := by
  rw [← isSome_find?, ← isSome_find?, find?_owned h]

end List
