import Mathlib.Data.List.Basic
import VitoPlatform.Library.Json

/-!
# The text of a JSON value

`JSON.stringify`: the members of an object stand in the order in which the object has them. How a
number is written is a parameter. A value is read back from its text whatever follows
(`append_stringify_injective`): no part of a string, an array or an object can be taken for its
end, and a number ends where a value can end. Two values with one text are therefore the same,
the order of their members included.
-/

namespace Json

open Text

def hexDigit (n : Nat) : Char := Char.ofNat (if n < 10 then 48 + n else 87 + n)

/-- A character in the text of a string. -/
def quoteChar (c : Char) : Str :=
  if c = '"' then ['\\', '"']
  else if c = '\\' then ['\\', '\\']
  else if c = '\x08' then ['\\', 'b']
  else if c = '\x0c' then ['\\', 'f']
  else if c = '\n' then ['\\', 'n']
  else if c = '\r' then ['\\', 'r']
  else if c = '\t' then ['\\', 't']
  else if c.toNat < 0x20 then
    ['\\', 'u', '0', '0', hexDigit (c.toNat / 16), hexDigit (c.toNat % 16)]
  else [c]

def quote (text : Str) : Str := '"' :: (text.flatMap quoteChar ++ ['"'])

mutual

def stringify (numberText : Rat → Str) : Json → Str
  | .null => "null".toList
  | .bool true => "true".toList
  | .bool false => "false".toList
  | .number value => numberText value
  | .string value => quote value
  | .array items => '[' :: itemsText numberText true items
  | .object fields => '{' :: fieldsText numberText true fields

/-- The items and the end of an array, with a comma before each item but the first. -/
def itemsText (numberText : Rat → Str) (first : Bool) : List Json → Str
  | [] => [']']
  | item :: items =>
      (if first then [] else [',']) ++ stringify numberText item ++
        itemsText numberText false items

/-- The members and the end of an object. -/
def fieldsText (numberText : Rat → Str) (first : Bool) : List (Str × Json) → Str
  | [] => ['}']
  | (key, value) :: fields =>
      (if first then [] else [',']) ++ quote key ++ ':' :: stringify numberText value ++
        fieldsText numberText false fields

end

/-! ## Strings -/

/-- The character whose text a text starts with, and what follows it. -/
def readChar : Str → Option (Char × Str)
  | '\\' :: 'u' :: '0' :: '0' :: high :: low :: rest =>
      let value (digit : Char) : Nat :=
        if digit.toNat < 58 then digit.toNat - 48 else digit.toNat - 87
      some (Char.ofNat (value high * 16 + value low), rest)
  | '\\' :: 'b' :: rest => some ('\x08', rest)
  | '\\' :: 'f' :: rest => some ('\x0c', rest)
  | '\\' :: 'n' :: rest => some ('\n', rest)
  | '\\' :: 'r' :: rest => some ('\r', rest)
  | '\\' :: 't' :: rest => some ('\t', rest)
  | '\\' :: c :: rest => some (c, rest)
  | c :: rest => some (c, rest)
  | [] => none

theorem readChar_control : ∀ n < 32,
    readChar ['\\', 'u', '0', '0', hexDigit (n / 16), hexDigit (n % 16)] =
      some (Char.ofNat n, []) := by decide

theorem readChar_append_control {high low : Char} {rest : Str} {c : Char}
    (h : readChar ['\\', 'u', '0', '0', high, low] = some (c, [])) :
    readChar (['\\', 'u', '0', '0', high, low] ++ rest) = some (c, rest) := by
  obtain ⟨rfl⟩ := h
  rfl

theorem readChar_quoteChar (c : Char) (rest : Str) :
    readChar (quoteChar c ++ rest) = some (c, rest) := by
  unfold quoteChar
  split_ifs with hquote hbackslash hb hf hn hr ht hcontrol
  · rw [hquote]; rfl
  · rw [hbackslash]; rfl
  · rw [hb]; rfl
  · rw [hf]; rfl
  · rw [hn]; rfl
  · rw [hr]; rfl
  · rw [ht]; rfl
  · have h := readChar_control c.toNat hcontrol
    rw [Char.ofNat_toNat] at h
    exact readChar_append_control h
  · rw [List.singleton_append]
    unfold readChar
    split <;> simp_all

theorem quoteChar_ne (c : Char) (rest rest' : Str) : quoteChar c ++ rest ≠ '"' :: rest' := by
  intro h
  have hread := readChar_quoteChar c rest
  rw [h] at hread
  obtain ⟨rfl, rfl⟩ : '"' = c ∧ rest' = rest := by simpa [readChar] using hread
  cases h

/-- A string ends at the first quotation mark that no backslash precedes. -/
theorem append_quote_injective {a b rest rest' : Str} (h : quote a ++ rest = quote b ++ rest') :
    a = b ∧ rest = rest' := by
  have hbody : a.flatMap quoteChar ++ '"' :: rest = b.flatMap quoteChar ++ '"' :: rest' := by
    simpa [quote] using h
  clear h
  induction a generalizing b with
  | nil =>
      cases b with
      | nil => exact ⟨rfl, (List.cons.inj hbody).2⟩
      | cons d b =>
          rw [List.flatMap_cons, List.append_assoc] at hbody
          exact absurd hbody.symm (quoteChar_ne d _ _)
  | cons c a ih =>
      cases b with
      | nil =>
          rw [List.flatMap_cons, List.append_assoc] at hbody
          exact absurd hbody (quoteChar_ne c _ _)
      | cons d b =>
          rw [List.flatMap_cons, List.flatMap_cons, List.append_assoc, List.append_assoc] at hbody
          have hread := readChar_quoteChar c (a.flatMap quoteChar ++ '"' :: rest)
          rw [hbody, readChar_quoteChar] at hread
          obtain ⟨rfl, htail⟩ : d = c ∧ _ = _ := by simpa using hread
          obtain ⟨rfl, hrest⟩ := ih htail.symm
          exact ⟨rfl, hrest⟩

/-! ## Values -/

/-- What can follow a value. -/
def Closes (rest : Str) : Prop := ∀ c ∈ rest.head?, c = ',' ∨ c = ']' ∨ c = '}'

theorem closes_nil : Closes [] := nofun

/-- A number is written as no other number is, starts as no other value does and contains nothing
that can follow it. -/
structure Legible (numberText : Rat → Str) : Prop where
  injective : Function.Injective numberText
  starts : ∀ value, ∃ c rest, numberText value = c :: rest ∧
    c ≠ 'n' ∧ c ≠ 't' ∧ c ≠ 'f' ∧ c ≠ '"' ∧ c ≠ '[' ∧ c ≠ '{'
  continues : ∀ value, ∀ c ∈ numberText value, ¬ (c = ',' ∨ c = ']' ∨ c = '}')

inductive Kind where
  | null
  | bool (value : Bool)
  | number
  | string
  | array
  | object

def kind : Json → Kind
  | .null => .null
  | .bool value => .bool value
  | .number _ => .number
  | .string _ => .string
  | .array _ => .array
  | .object _ => .object

/-- What the first character of a value tells. -/
def kindOf (c : Char) : Kind :=
  if c = 'n' then .null
  else if c = 't' then .bool true
  else if c = 'f' then .bool false
  else if c = '"' then .string
  else if c = '[' then .array
  else if c = '{' then .object
  else .number

section Values

variable {numberText : Rat → Str}

theorem closes_itemsText (items : List Json) (rest : Str) :
    Closes (itemsText numberText false items ++ rest) := by
  cases items with
  | nil => exact fun c hc => .inr (.inl (Option.some.inj hc).symm)
  | cons item items =>
      rw [itemsText]
      exact fun c hc => .inl (Option.some.inj hc).symm

theorem closes_fieldsText (fields : List (Str × Json)) (rest : Str) :
    Closes (fieldsText numberText false fields ++ rest) := by
  cases fields with
  | nil => exact fun c hc => .inr (.inr (Option.some.inj hc).symm)
  | cons field fields =>
      rw [fieldsText]
      exact fun c hc => .inl (Option.some.inj hc).symm

variable (hnumbers : Legible numberText)

include hnumbers

theorem starts_stringify (v : Json) : ∃ c rest, stringify numberText v = c :: rest ∧
    kindOf c = kind v ∧ ¬ (c = ',' ∨ c = ']' ∨ c = '}') := by
  match v with
  | .null => exact ⟨'n', "ull".toList, by rw [stringify]; rfl, rfl, by decide⟩
  | .bool true => exact ⟨'t', "rue".toList, by rw [stringify]; rfl, rfl, by decide⟩
  | .bool false => exact ⟨'f', "alse".toList, by rw [stringify]; rfl, rfl, by decide⟩
  | .string value => exact ⟨'"', _, by rw [stringify, quote], rfl, by decide⟩
  | .array items => exact ⟨'[', _, by rw [stringify], rfl, by decide⟩
  | .object fields => exact ⟨'{', _, by rw [stringify], rfl, by decide⟩
  | .number value =>
      obtain ⟨c, rest, htext, hn, ht, hf, hquote, hbracket, hbrace⟩ := hnumbers.starts value
      refine ⟨c, rest, by rw [stringify, htext], ?_, ?_⟩
      · rw [kindOf, if_neg hn, if_neg ht, if_neg hf, if_neg hquote, if_neg hbracket, if_neg hbrace]
        rfl
      · exact hnumbers.continues value c (by rw [htext]; exact List.mem_cons_self)

theorem kind_eq {v w : Json} {rest rest' : Str}
    (h : stringify numberText v ++ rest = stringify numberText w ++ rest') : kind v = kind w := by
  obtain ⟨c, s, hv, hkind, -⟩ := starts_stringify hnumbers v
  obtain ⟨c', s', hw, hkind', -⟩ := starts_stringify hnumbers w
  rw [hv, hw] at h
  rw [← hkind, ← hkind', (List.cons.inj h).1]

theorem items_ne_nil (first : Bool) (v : Json) (a : List Json) (rest rest' : Str) :
    itemsText numberText first (v :: a) ++ rest ≠ itemsText numberText first [] ++ rest' := by
  intro h
  rw [itemsText, itemsText] at h
  cases first with
  | false => cases (List.cons.inj h).1
  | true =>
      obtain ⟨c, s, hv, -, hopen⟩ := starts_stringify hnumbers v
      rw [if_pos rfl, hv] at h
      exact hopen (.inr (.inl (List.cons.inj h).1))

/-- A number ends where nothing more can belong to it. -/
theorem append_number_injective {p q : Rat} {rest rest' : Str} (hrest : Closes rest)
    (hrest' : Closes rest') (h : numberText p ++ rest = numberText q ++ rest') :
    p = q ∧ rest = rest' := by
  have hspan {value : Rat} {rest : Str} (hrest : Closes rest) :
      (numberText value ++ rest).takeWhile
        (fun c => !decide (c = ',' ∨ c = ']' ∨ c = '}')) = numberText value := by
    rw [List.takeWhile_append_of_pos fun c hc => by simpa using hnumbers.continues value c hc]
    cases rest with
    | nil => exact List.append_nil _
    | cons c rest =>
        have hc : c = ',' ∨ c = ']' ∨ c = '}' := hrest c rfl
        rw [List.takeWhile_cons_of_neg (by rw [decide_eq_true hc]; decide), List.append_nil]
  have htext : numberText p = numberText q := by rw [← hspan hrest, h, hspan hrest']
  exact ⟨hnumbers.injective htext, List.append_cancel_left (htext ▸ h)⟩

mutual

/-- A value ends where its text does, whatever follows. -/
theorem append_stringify_injective {rest rest' : Str} (hrest : Closes rest)
    (hrest' : Closes rest') (v w : Json)
    (h : stringify numberText v ++ rest = stringify numberText w ++ rest') :
    v = w ∧ rest = rest' := by
  have hkind := kind_eq hnumbers h
  match v, w, hkind with
  | .null, .null, _ => exact ⟨rfl, List.append_cancel_left h⟩
  | .bool a, .bool b, hkind =>
      obtain rfl : a = b := by cases hkind; rfl
      exact ⟨rfl, List.append_cancel_left h⟩
  | .number p, .number q, _ =>
      rw [stringify, stringify] at h
      obtain ⟨rfl, hends⟩ := append_number_injective hnumbers hrest hrest' h
      exact ⟨rfl, hends⟩
  | .string a, .string b, _ =>
      rw [stringify, stringify] at h
      obtain ⟨rfl, hends⟩ := append_quote_injective h
      exact ⟨rfl, hends⟩
  | .array a, .array b, _ =>
      rw [stringify, stringify] at h
      obtain ⟨rfl, hends⟩ := append_itemsText_injective true a b (List.cons.inj h).2
      exact ⟨rfl, hends⟩
  | .object a, .object b, _ =>
      rw [stringify, stringify] at h
      obtain ⟨rfl, hends⟩ := append_fieldsText_injective true a b (List.cons.inj h).2
      exact ⟨rfl, hends⟩

theorem append_itemsText_injective {rest rest' : Str} (first : Bool) (a b : List Json)
    (h : itemsText numberText first a ++ rest = itemsText numberText first b ++ rest') :
    a = b ∧ rest = rest' := by
  match a, b with
  | [], [] => exact ⟨rfl, by simpa [itemsText] using h⟩
  | [], w :: b => exact absurd h.symm (items_ne_nil hnumbers first w b rest' rest)
  | v :: a, [] => exact absurd h (items_ne_nil hnumbers first v a rest rest')
  | v :: a, w :: b =>
      rw [itemsText, itemsText, List.append_assoc, List.append_assoc, List.append_assoc,
        List.append_assoc, List.append_right_inj] at h
      obtain ⟨rfl, htails⟩ := append_stringify_injective (closes_itemsText a rest)
        (closes_itemsText b rest') v w h
      obtain ⟨rfl, hends⟩ := append_itemsText_injective false a b htails
      exact ⟨rfl, hends⟩

theorem append_fieldsText_injective {rest rest' : Str} (first : Bool) (a b : List (Str × Json))
    (h : fieldsText numberText first a ++ rest = fieldsText numberText first b ++ rest') :
    a = b ∧ rest = rest' := by
  match a, b with
  | [], [] => exact ⟨rfl, by simpa [fieldsText] using h⟩
  | [], (l, w) :: b => cases first <;> simp [fieldsText, quote] at h
  | (k, v) :: a, [] => cases first <;> simp [fieldsText, quote] at h
  | (k, v) :: a, (l, w) :: b =>
      rw [fieldsText, fieldsText] at h
      simp only [List.append_assoc, List.cons_append, List.append_right_inj] at h
      obtain ⟨rfl, hvalues⟩ := append_quote_injective h
      obtain ⟨rfl, htails⟩ := append_stringify_injective (closes_fieldsText a rest)
        (closes_fieldsText b rest') v w (List.cons.inj hvalues).2
      obtain ⟨rfl, hends⟩ := append_fieldsText_injective false a b htails
      exact ⟨rfl, hends⟩

end

/-- A value is determined by its text. -/
theorem stringify_injective : Function.Injective (stringify numberText) := fun v w h =>
  (append_stringify_injective hnumbers closes_nil closes_nil v w (by rw [h])).1

end Values

end Json
