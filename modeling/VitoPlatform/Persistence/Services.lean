import VitoPlatform.Library.Concurrent
import VitoPlatform.Library.Text

/-!
# Services over the database

What the services share: the fields of a request body, the errors they answer with, and their
steps. A statement of the database is one step, and so is what a transaction writes, at its
commit. Any of them may fail, which leaves the store as it is. A generated identifier and the
time are chosen by the environment.
-/

namespace Services

open Text Concurrent

/-- A field of a request body: not there, `null`, or a value. -/
inductive DtoField (α : Type) where
  | absent
  | null
  | value (a : α)
  deriving DecidableEq

namespace DtoField

variable {α : Type}

/-- The value, if there is one. -/
def value? : DtoField α → Option α
  | .value a => some a
  | .absent | .null => none

/-- A column that cannot be null, after it has been set to a field. -/
def set (field : DtoField α) (old : α) : α := field.value?.getD old

/-- A column that can be null, after it has been set to a field. -/
def setNullable (field : DtoField α) (old : Option α) : Option α :=
  match field with
  | .absent => old
  | .null => none
  | .value a => some a

@[simp] theorem set_absent (old : α) : (absent : DtoField α).set old = old := rfl

@[simp] theorem set_value (a old : α) : (value a).set old = a := rfl

@[simp] theorem setNullable_absent (old : Option α) : absent.setNullable old = old := rfl

@[simp] theorem setNullable_null (old : Option α) : null.setNullable old = none := rfl

@[simp] theorem setNullable_value (a : α) (old : Option α) :
    (value a).setNullable old = some a := rfl

theorem setNullable_of_ne_absent {field : DtoField α} (h : field ≠ .absent) (old : Option α) :
    field.setNullable old = field.value? := by
  cases field with
  | absent => exact absurd rfl h
  | null | value => rfl

/-- Where a column has its value from. -/
theorem setNullable_eq_some {field : DtoField α} {old : Option α} {a : α}
    (h : field.setNullable old = some a) :
    field.value? = some a ∨ field = .absent ∧ old = some a := by
  cases field with
  | absent => exact .inr ⟨rfl, h⟩
  | null => cases h
  | value b => exact .inl h

end DtoField

inductive HttpError where
  | badRequest (message : String)
  | unauthorized (message : String)
  | forbidden (message : String)
  | notFound (message : String)
  | conflict (message : String)
  | unprocessable (message : String)
  /-- Whatever the database or the client of the database throws. -/
  | database

/-- What the environment decides at a step. -/
structure Choice where
  fault : Bool
  /-- A generated identifier. -/
  id : Str
  now : Int

abbrev Program (S α : Type) := Proc S Choice HttpError α

variable {S α β : Type}

/-- A step that may fail before it has any effect. -/
def change (f : Choice → S → Except HttpError α × S) : Program S α :=
  Proc.atomic fun c s => if c.fault then (.error .database, s) else f c s

/-- A step that reads. -/
def query (f : S → α) : Program S α := change fun _ s => (.ok (f s), s)

section Rules

variable {contract : Contract S} {s : S} {post : α → S → Prop} {fail : HttpError → S → Prop}

/-- A step that may fail, and what is done with the answer. -/
theorem Safe.change_bind {f : Choice → S → Except HttpError β × S} {k : β → Program S α}
    (A : S → Prop) (hinv : contract.inv s) (hA : A s)
    (stable : ∀ a b, contract.inv a → A a → contract.rely a b → A b)
    (hrefl : ∀ a, contract.guar a a)
    (hfault : ∀ t, contract.inv t → A t →
      Safe contract (.throw .database : Program S α) t post fail)
    (step : ∀ t c, c.fault = false → contract.inv t → A t → contract.cond t (f c t).2 →
      contract.inv (f c t).2 ∧ contract.guar t (f c t).2 ∧
        (∀ a, (f c t).1 = .ok a → Safe contract (k a) (f c t).2 post fail) ∧
        ∀ error, (f c t).1 = .error error →
          Safe contract (.throw error : Program S α) (f c t).2 post fail) :
    Safe contract (change f >>= k) s post fail := by
  refine Safe.atomic_bind A hinv hA stable fun t c hinv hA hcond => ?_
  cases hc : c.fault with
  | false =>
      simp only [hc, Bool.false_eq_true, if_false] at hcond ⊢
      exact step t c hc hinv hA hcond
  | true =>
      simp only [if_true]
      refine ⟨hinv, hrefl t, nofun, fun error he => ?_⟩
      cases he
      exact hfault t hinv hA

end Rules

end Services
