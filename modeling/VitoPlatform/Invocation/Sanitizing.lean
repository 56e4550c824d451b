import VitoPlatform.Invocation.Redaction

/-!
# What sanitizing metadata keeps and removes

A place in a tree of metadata is a path of keys and indices. `sanitizeProviderExecutionMetadata`
replaces what lies under a secret key and the texts that look like a secret, and keeps every
other leaf where it is, but for one key: an assignment to `__proto__` creates no property, so
what lies under a key of that name is lost.
-/

namespace Invocation

open Text Replacement

/-! ## Places in a tree -/

inductive PathStep where
  | key (key : Units)
  | item (index : Nat)
  deriving DecidableEq

/-- The property or element one step down. -/
def Value.child : Value → PathStep → Option Value
  | .object entries, .key key => (entries.find? (·.1 == key)).map (·.2)
  | .array items, .item index => items[index]?
  | _, _ => none

/-- What stands in the tree at the end of the path. -/
def Value.at : List PathStep → Value → Option Value
  | [], value => some value
  | step :: rest, value => (value.child step).bind (Value.at rest)

/-- Neither an object nor an array. -/
def Value.isLeaf : Value → Bool
  | .object _ | .array _ => false
  | _ => true

def proto : Units := lit "__proto__"

/-- A leaf that is no secret and does not lie under a secret key. -/
structure Harmless (path : List PathStep) (leaf : Value) : Prop where
  isLeaf : leaf.isLeaf = true
  keys : ∀ key, .key key ∈ path → isSecretKey key = false
  text : ∀ text, leaf = .string text → isSecretValue text = false

/-- The output is the sanitized form of the metadata. -/
structure Sanitized (entries output : List (Units × Value)) : Prop where
  keys : ∀ path key value, (Value.object output).at (path ++ [.key key]) = some value →
    isSecretKey key = true → value = .string redacted
  texts : ∀ path text, (Value.object output).at path = some (.string text) →
    isSecretValue text = false
  preserves : ∀ path leaf, (Value.object entries).at path = some leaf → Harmless path leaf →
    (Value.object output).at path = some leaf
  idempotent : sanitizeProviderExecutionMetadata (.object output) = output

/-! ## One step down -/

theorem find_sanitizeEntries_eq (key : Units) (entries : List (Units × Value)) :
    (sanitizeEntries entries).find? (·.1 == key) =
      if key = proto then none
      else (entries.find? (·.1 == key)).map fun entry => (entry.1, sanitizeValue key entry.2) := by
  induction entries with
  | nil => simp [sanitizeEntries]
  | cons entry entries ih =>
      obtain ⟨name, value⟩ := entry
      rw [sanitizeEntries]
      by_cases hskip : name = lit "__proto__"
      · rw [if_pos hskip, ih]
        by_cases hkey : key = proto
        · rw [if_pos hkey, if_pos hkey]
        · have hother : (name == key) = false := by
            rw [beq_eq_false_iff_ne, hskip]
            exact fun h => hkey h.symm
          rw [if_neg hkey, if_neg hkey, List.find?_cons]
          simp only [hother]
      · rw [if_neg hskip, List.find?_cons]
        cases hname : name == key with
        | true =>
            rw [beq_iff_eq] at hname
            have hkey : key ≠ proto := hname ▸ hskip
            simp [hname, hkey]
        | false =>
            simp only [ih, List.find?_cons, hname]

theorem sanitizeItems_eq_map (key : Units) (items : List Value) :
    sanitizeItems key items = items.map (sanitizeValue key) := by
  induction items with
  | nil => rfl
  | cons value items ih => rw [sanitizeItems, List.map_cons, ih]

/-- The key under which the value of a step is sanitized: the elements of an array are
sanitized under the key of the array. -/
def under (key : Units) : PathStep → Units
  | .key key' => key'
  | .item _ => key

variable {key : Units} {value leaf : Value} {step : PathStep} {path : List PathStep}

theorem sanitizeValue_secret (hkey : isSecretKey key = true) :
    sanitizeValue key value = .string redacted := by
  cases value <;> simp [sanitizeValue, hkey]

theorem child_sanitizeValue (hkey : isSecretKey key = false) (hstep : step ≠ .key proto) :
    (sanitizeValue key value).child step =
      (value.child step).map (sanitizeValue (under key step)) := by
  cases value with
  | object entries =>
      cases step with
      | key name =>
          have hname : name ≠ proto := fun h => hstep (h ▸ rfl)
          simp [sanitizeValue, hkey, Value.child, find_sanitizeEntries_eq, hname, under,
            Function.comp_def]
      | item index => simp [sanitizeValue, hkey, Value.child]
  | array items =>
      cases step with
      | key name => simp [sanitizeValue, hkey, Value.child]
      | item index => simp [sanitizeValue, hkey, Value.child, sanitizeItems_eq_map, under]
  | string text =>
      cases step <;> by_cases htext : isSecretValue text <;>
        simp [sanitizeValue, hkey, Value.child, htext]
  | _ => cases step <;> simp [sanitizeValue, hkey, Value.child]

/-- A property of the output has another name than `__proto__`, and no secret is an object. -/
theorem child_sanitizeValue_none (h : isSecretKey key = true ∨ step = .key proto) :
    (sanitizeValue key value).child step = none := by
  by_cases hkey : isSecretKey key = true
  · rw [sanitizeValue_secret hkey]
    rfl
  · obtain h | rfl := h
    · exact (hkey h).elim
    · rw [Bool.not_eq_true] at hkey
      cases value with
      | object entries => simp [sanitizeValue, hkey, Value.child, find_sanitizeEntries_eq]
      | string text =>
          by_cases htext : isSecretValue text <;>
            simp [sanitizeValue, hkey, Value.child, htext]
      | _ => simp [sanitizeValue, hkey, Value.child]

/-- A value one step down the output is the sanitized value one step down the input. -/
theorem child_sanitizeValue_some {value' : Value}
    (h : (sanitizeValue key value).child step = some value') :
    isSecretKey key = false ∧ step ≠ .key proto ∧
      ∃ v, value.child step = some v ∧ value' = sanitizeValue (under key step) v := by
  by_cases hnone : isSecretKey key = true ∨ step = .key proto
  · rw [child_sanitizeValue_none hnone] at h
    cases h
  · obtain ⟨hkey, hstep⟩ := not_or.mp hnone
    rw [Bool.not_eq_true] at hkey
    rw [child_sanitizeValue hkey hstep] at h
    obtain ⟨v, hv, rfl⟩ := Option.map_eq_some_iff.mp h
    exact ⟨hkey, hstep, v, hv, rfl⟩

/-! ## Down a path -/

theorem redacted_not_secret : isSecretValue redacted = false := by decide +kernel

/-- What a path leads to in the output is the sanitized value it leads to in the input. -/
theorem at_sanitizeValue {value' : Value} (h : (sanitizeValue key value).at path = some value') :
    .key proto ∉ path ∧ ∃ key' v, value.at path = some v ∧ value' = sanitizeValue key' v := by
  induction path generalizing key value with
  | nil =>
      cases h
      exact ⟨List.not_mem_nil, key, value, rfl, rfl⟩
  | cons step rest ih =>
      rw [Value.at, Option.bind_eq_some_iff] at h
      obtain ⟨child, hchild, hrest⟩ := h
      obtain ⟨-, hstep, v, hv, rfl⟩ := child_sanitizeValue_some hchild
      obtain ⟨hproto, key', w, hw, rfl⟩ := ih hrest
      refine ⟨?_, key', w, ?_, rfl⟩
      · rw [List.mem_cons, not_or]
        exact ⟨hstep.symm, hproto⟩
      · rw [Value.at, hv]
        exact hw

/-- Every text of the output is the replacement or a text that is no secret. -/
theorem text_sanitizeValue {text : Units} (h : sanitizeValue key value = .string text) :
    isSecretValue text = false := by
  by_cases hkey : isSecretKey key = true
  · rw [sanitizeValue_secret hkey] at h
    cases h
    exact redacted_not_secret
  · rw [Bool.not_eq_true] at hkey
    cases value with
    | string text' =>
        by_cases htext : isSecretValue text' = true
        · simp only [sanitizeValue, hkey, htext, Bool.false_eq_true, if_true, if_false] at h
          cases h
          exact redacted_not_secret
        · rw [Bool.not_eq_true] at htext
          simp only [sanitizeValue, hkey, htext, Bool.false_eq_true, if_false] at h
          cases h
          exact htext
    | _ => simp [sanitizeValue, hkey] at h

/-- What stands under a secret key of the output is the replacement. -/
theorem secret_sanitizeValue {name : Units} {value' : Value} (hname : isSecretKey name = true)
    (h : (sanitizeValue key value).at (path ++ [.key name]) = some value') :
    value' = .string redacted := by
  induction path generalizing key value with
  | nil =>
      rw [List.nil_append, Value.at, Option.bind_eq_some_iff] at h
      obtain ⟨child, hchild, hrest⟩ := h
      obtain ⟨-, -, v, -, rfl⟩ := child_sanitizeValue_some hchild
      cases hrest
      exact sanitizeValue_secret hname
  | cons step rest ih =>
      rw [List.cons_append, Value.at, Option.bind_eq_some_iff] at h
      obtain ⟨child, hchild, hrest⟩ := h
      obtain ⟨-, -, v, -, rfl⟩ := child_sanitizeValue_some hchild
      exact ih hrest

/-- A harmless leaf is preserved, if `__proto__` is no step of its path. -/
theorem harmless_sanitizeValue (hkey : isSecretKey key = false) (h : value.at path = some leaf)
    (harmless : Harmless path leaf) (hproto : .key proto ∉ path) :
    (sanitizeValue key value).at path = some leaf := by
  induction path generalizing key value with
  | nil =>
      cases h
      rw [Value.at]
      cases leaf with
      | string text => simp [sanitizeValue, hkey, harmless.text text rfl]
      | object entries => cases harmless.isLeaf
      | array items => cases harmless.isLeaf
      | _ => simp [sanitizeValue, hkey]
  | cons step rest ih =>
      rw [Value.at, Option.bind_eq_some_iff] at h
      obtain ⟨child, hchild, hrest⟩ := h
      obtain ⟨hstep, hproto⟩ := not_or.mp fun h => hproto (List.mem_cons.mpr h)
      have hunder : isSecretKey (under key step) = false := by
        cases step with
        | key name => exact harmless.keys name (List.mem_cons_self ..)
        | item index => exact hkey
      have harmless' : Harmless rest leaf :=
        ⟨harmless.isLeaf, fun name hname => harmless.keys name (List.mem_cons_of_mem _ hname), harmless.text⟩
      rw [Value.at, child_sanitizeValue hkey (Ne.symm hstep), hchild]
      exact ih hunder hrest harmless' hproto

/-! ## Twice -/

mutual

theorem sanitizeValue_twice (key : Units) : ∀ value : Value,
    sanitizeValue key (sanitizeValue key value) = sanitizeValue key value
  | .string text => by
      by_cases hkey : isSecretKey key = true
      · rw [sanitizeValue_secret hkey, sanitizeValue_secret hkey]
      · rw [Bool.not_eq_true] at hkey
        by_cases htext : isSecretValue text = true <;>
          simp [sanitizeValue, hkey, htext, redacted_not_secret]
  | .object entries => by
      by_cases hkey : isSecretKey key = true
      · rw [sanitizeValue_secret hkey, sanitizeValue_secret hkey]
      · simp [sanitizeValue, hkey, sanitizeEntries_twice entries]
  | .array items => by
      by_cases hkey : isSecretKey key = true
      · rw [sanitizeValue_secret hkey, sanitizeValue_secret hkey]
      · simp [sanitizeValue, hkey, sanitizeItems_twice key items]
  | .undefined | .null | .primitive _ => by
      by_cases hkey : isSecretKey key = true
      · rw [sanitizeValue_secret hkey, sanitizeValue_secret hkey]
      · simp [sanitizeValue, hkey]

theorem sanitizeItems_twice (key : Units) : ∀ items : List Value,
    sanitizeItems key (sanitizeItems key items) = sanitizeItems key items
  | [] => rfl
  | value :: rest => by
      simp only [sanitizeItems, sanitizeValue_twice key value, sanitizeItems_twice key rest]

theorem sanitizeEntries_twice : ∀ entries : List (Units × Value),
    sanitizeEntries (sanitizeEntries entries) = sanitizeEntries entries
  | [] => rfl
  | (key, value) :: rest => by
      rw [sanitizeEntries]
      by_cases hkey : key = lit "__proto__"
      · rw [if_pos hkey]
        exact sanitizeEntries_twice rest
      · rw [if_neg hkey, sanitizeEntries, if_neg hkey, sanitizeValue_twice key value,
          sanitizeEntries_twice rest]

end

/-! ## Main result -/

/-- No harmless leaf lies under a key `__proto__`. -/
def NothingUnderProto (entries : List (Units × Value)) : Prop :=
  ∀ path leaf, (Value.object entries).at path = some leaf → Harmless path leaf →
    .key proto ∉ path

theorem isSecretKey_nil : isSecretKey [] = false := by decide +kernel

/-- Sanitizing an object is sanitizing it as a value under a key that is no secret. -/
theorem object_sanitizeEntries (entries : List (Units × Value)) :
    .object (sanitizeProviderExecutionMetadata (.object entries)) =
      sanitizeValue [] (.object entries) := by
  simp [sanitizeValue, sanitizeProviderExecutionMetadata, isSecretKey_nil]

/-- The output is sanitized exactly if the input has nothing to keep under `__proto__`. -/
theorem sanitizeProviderExecutionMetadata_sanitized (entries : List (Units × Value)) :
    Sanitized entries (sanitizeProviderExecutionMetadata (.object entries)) ↔
      NothingUnderProto entries := by
  constructor
  · intro sanitized path leaf h harmless
    have hout := sanitized.preserves path leaf h harmless
    rw [object_sanitizeEntries] at hout
    exact (at_sanitizeValue hout).1
  · intro hproto
    refine ⟨fun path key value h hkey => ?_, fun path text h => ?_, fun path leaf h harmless => ?_,
      sanitizeEntries_twice entries⟩
    · rw [object_sanitizeEntries] at h
      exact secret_sanitizeValue hkey h
    · rw [object_sanitizeEntries] at h
      obtain ⟨-, key, v, -, hvalue⟩ := at_sanitizeValue h
      exact text_sanitizeValue hvalue.symm
    · rw [object_sanitizeEntries]
      exact harmless_sanitizeValue isSecretKey_nil h harmless (hproto path leaf h harmless)

/-- A number under `__proto__` is lost. -/
theorem not_sanitized :
    ¬ Sanitized [(proto, .primitive (lit "5"))]
      (sanitizeProviderExecutionMetadata (.object [(proto, .primitive (lit "5"))])) := by
  intro sanitized
  have harmless : Harmless [.key proto] (.primitive (lit "5")) := by
    refine ⟨rfl, fun key hkey => ?_, fun text h => by cases h⟩
    cases List.mem_singleton.mp hkey
    decide +kernel
  have hout := sanitized.preserves [.key proto] (.primitive (lit "5")) rfl harmless
  rw [object_sanitizeEntries] at hout
  exact (at_sanitizeValue hout).1 (List.mem_cons_self ..)

end Invocation
