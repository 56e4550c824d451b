import VitoPlatform.Library.Text

/-!
# JSON values

What a JSON column holds, and the checks by which a script reads it: each answers nothing
where the value is missing or of another kind. A number is the rational it denotes.
-/

open Text

inductive Json where
  | null
  | bool (value : Bool)
  | number (value : Rat)
  | string (value : Str)
  | array (items : List Json)
  | object (fields : List (Str × Json))

namespace Json

mutual

def decEq : (a b : Json) → Decidable (a = b)
  | .null, .null => isTrue rfl
  | .bool a, .bool b => decidable_of_iff (a = b) (by simp)
  | .number a, .number b => decidable_of_iff (a = b) (by simp)
  | .string a, .string b => decidable_of_iff (a = b) (by simp)
  | .array a, .array b => @decidable_of_iff _ (a = b) (by simp) (decEqItems a b)
  | .object a, .object b => @decidable_of_iff _ (a = b) (by simp) (decEqFields a b)
  | .null, .bool _ | .null, .number _ | .null, .string _ | .null, .array _ | .null, .object _
  | .bool _, .null | .bool _, .number _ | .bool _, .string _ | .bool _, .array _
  | .bool _, .object _ | .number _, .null | .number _, .bool _ | .number _, .string _
  | .number _, .array _ | .number _, .object _ | .string _, .null | .string _, .bool _
  | .string _, .number _ | .string _, .array _ | .string _, .object _ | .array _, .null
  | .array _, .bool _ | .array _, .number _ | .array _, .string _ | .array _, .object _
  | .object _, .null | .object _, .bool _ | .object _, .number _ | .object _, .string _
  | .object _, .array _ => isFalse nofun

def decEqItems : (a b : List Json) → Decidable (a = b)
  | [], [] => isTrue rfl
  | x :: xs, y :: ys =>
      @decidable_of_iff _ (x = y ∧ xs = ys) (by simp)
        (@instDecidableAnd _ _ (decEq x y) (decEqItems xs ys))
  | [], _ :: _ | _ :: _, [] => isFalse nofun

def decEqFields : (a b : List (Str × Json)) → Decidable (a = b)
  | [], [] => isTrue rfl
  | (k, x) :: xs, (l, y) :: ys =>
      @decidable_of_iff _ (k = l ∧ x = y ∧ xs = ys) (by simp [and_assoc])
        (@instDecidableAnd _ _ inferInstance
          (@instDecidableAnd _ _ (decEq x y) (decEqFields xs ys)))
  | [], _ :: _ | _ :: _, [] => isFalse nofun

end

instance : DecidableEq Json := decEq

/-- `objectValue(value)?.name`. -/
def member (value : Option Json) (name : Str) : Option Json :=
  match value with
  | some (.object fields) => fields.lookup name
  | _ => none

/-- The value, if it is a string. -/
def text (value : Option Json) : Option Str :=
  match value with
  | some (.string value) => some value
  | _ => none

theorem text_eq_some {value : Option Json} {s : Str} :
    text value = some s ↔ value = some (.string s) := by
  cases value with
  | none => simp [text]
  | some value => cases value <;> simp [text]

end Json
