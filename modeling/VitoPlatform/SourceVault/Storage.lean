import VitoPlatform.Invocation.Redaction
import VitoPlatform.Library.FileStore
import VitoPlatform.Library.ObjectStores
import VitoPlatform.Library.PosixPath
import VitoPlatform.SourceVault.Archive

/-!
# Object storage

The port of the vault to its objects, and what isolation of the sources means for a run of calls to
an adapter of it (`Isolated`). An adapter that stores, reads and removes objects under the keys of
its inputs is isolated on every run of regular calls (`Adapts.isolated`).
-/

namespace SourceVault

open Text Invocation PosixPath ObjectStores

structure PutObjectInput where
  organizationId : Str
  sourceId : Str
  filename : Str
  mimeType : Str
  body : Octets

structure StoredObject where
  storageUri : Str
  byteSize : Nat
  etag : Option Str
  deriving DecidableEq

/-- The code of a failed system call, or an error with a message. -/
inductive StorageError where
  | code (code : FileStore.ErrorCode)
  | error (message : Units)
  deriving DecidableEq

abbrev Attempt := Except StorageError

structure ObjectStoragePort where
  State : Type
  putImmutable : PutObjectInput → State → Attempt StoredObject × State
  existsAt : Str → State → Attempt Bool × State
  get : Str → State → Attempt Octets × State
  delete : Str → State → Attempt Unit × State

/-! ## Names of objects -/

/-- The class `[a-zA-Z0-9._-]`. -/
def isSafe (c : Char) : Bool := c.isAlphanum || c == '.' || c == '_' || c == '-'

/-- A code unit in a file name: `replace(/[^a-zA-Z0-9._-]/g, '_')`. -/
def safeUnit (u : UInt16) : Char := if isSafe (Char.ofNat u.toNat) then Char.ofNat u.toNat else '_'

def sanitizeSegment (value : Str) : Str :=
  let safe := ((units value).map safeUnit).take 240
  if safe = [] then "unnamed".toList else safe

/-- An identifier of letters, digits and `-`. -/
def IsPlain (id : Str) : Prop := ∀ c ∈ id, (c.isAlphanum || c == '-') = true

instance : DecidablePred IsPlain := fun id =>
  decidable_of_iff ((id.all fun c => c.isAlphanum || c == '-') = true) List.all_eq_true

theorem isSafe_safeUnit (u : UInt16) : isSafe (safeUnit u) = true := by
  rw [safeUnit]
  split
  · assumption
  · rfl

theorem isSafe_sanitizeSegment {value : Str} : ∀ c ∈ sanitizeSegment value, isSafe c = true := by
  rw [sanitizeSegment]
  split
  · exact forall_mem_of_all (by decide)
  · intro c hc
    obtain ⟨u, -, rfl⟩ := List.mem_map.mp (List.mem_of_mem_take hc)
    exact isSafe_safeUnit u

theorem sanitizeSegment_ne_nil (value : Str) : sanitizeSegment value ≠ [] := by
  rw [sanitizeSegment]
  split
  · exact List.cons_ne_nil _ _
  · assumption

theorem isSafe_range {c : Char} (h : isSafe c = true) : c.toNat < 128 := by
  have hrange : (((65 ≤ c.toNat ∧ c.toNat ≤ 90 ∨ 97 ≤ c.toNat ∧ c.toNat ≤ 122) ∨
      48 ≤ c.toNat ∧ c.toNat ≤ 57) ∨ c = '.') ∨ c = '_' ∨ c = '-' := by
    simpa [isSafe, isAlphanum_iff, or_assoc] using h
  obtain (h | rfl) | rfl | rfl := hrange
  · omega
  · decide
  · decide
  · decide

theorem toNat_unit {n : Nat} (h : n < 0x10000) : (UInt16.ofNat n).toNat = n :=
  UInt16.toNat_ofNat_of_lt h

theorem map_safeUnit {text : Str} (h : ∀ c ∈ text, isSafe c = true) :
    (units text).map safeUnit = text := by
  induction text with
  | nil => rfl
  | cons c text ih =>
      have hc := h c List.mem_cons_self
      have hrange := isSafe_range hc
      have hunits : unitsOfChar c = [UInt16.ofNat c.toNat] := if_pos (by omega)
      have hchar : Char.ofNat (UInt16.ofNat c.toNat).toNat = c := by
        rw [toNat_unit (by omega), Char.ofNat_toNat]
      have hsafe : safeUnit (UInt16.ofNat c.toNat) = c := by
        rw [safeUnit, hchar, if_pos hc]
      rw [units, List.flatMap_cons, hunits, List.singleton_append, List.map_cons, hsafe]
      exact congrArg _ (ih fun d hd => h d (List.mem_cons_of_mem c hd))

/-- A short text of safe characters is its own name. -/
theorem sanitizeSegment_self {text : Str} (h : ∀ c ∈ text, isSafe c = true) (hne : text ≠ [])
    (hlength : text.length ≤ 240) : sanitizeSegment text = text := by
  simp only [sanitizeSegment, map_safeUnit h, List.take_of_length_le hlength, if_neg hne]

theorem safeUnit_eq_dot {u : UInt16} (h : safeUnit u = '.') : u = 46 := by
  rw [safeUnit] at h
  split at h
  · by_cases hvalid : u.toNat.isValidChar
    · have hnat := congrArg Char.toNat h
      rw [Char.ofNat, dif_pos hvalid] at hnat
      exact UInt16.toNat_inj.mp hnat
    · rw [Char.ofNat, dif_neg hvalid] at h
      cases h
  · cases h

theorem units_eq_dots {n : Nat} : ∀ {text : Str}, units text = List.replicate n 46 →
    text = List.replicate n '.' := by
  induction n with
  | zero =>
      intro text h
      cases text with
      | nil => rfl
      | cons c text =>
          have hne : unitsOfChar c ≠ [] := by
            rw [unitsOfChar]
            split <;> exact List.cons_ne_nil _ _
          exact absurd (List.append_eq_nil_iff.mp h).1 hne
  | succ n ih =>
      intro text h
      cases text with
      | nil => cases h
      | cons c text =>
          have hlt : c.toNat < 0x110000 := by
            obtain h | h := c.valid
            · exact Nat.lt_trans h (by decide)
            · exact h.2
          rw [units, List.flatMap_cons, List.replicate_succ] at h
          by_cases hc : c.toNat < 0x10000
          · rw [unitsOfChar, if_pos hc, List.singleton_append] at h
            obtain ⟨hhead, htail⟩ := List.cons.inj h
            have hnat := congrArg UInt16.toNat hhead
            rw [toNat_unit hc] at hnat
            have hdot : c = '.' := Char.toNat_inj.mp hnat
            rw [hdot, ih htail, List.replicate_succ]
          · rw [unitsOfChar, if_neg hc] at h
            have hhigh : (UInt16.ofNat (0xD800 + (c.toNat - 0x10000) / 0x400)).toNat = 46 :=
              congrArg UInt16.toNat (List.cons.inj h).1
            rw [toNat_unit (by omega)] at hhigh
            omega

/-- Only dots become a few dots. -/
theorem sanitizeSegment_eq_dots {value : Str} {n : Nat} (hn : n < 240)
    (h : sanitizeSegment value = List.replicate n '.') : value = List.replicate n '.' := by
  rw [sanitizeSegment] at h
  split at h
  · have hmem : 'u' ∈ List.replicate n '.' := by
      rw [← h]
      exact List.mem_cons_self
    exact absurd (List.eq_of_mem_replicate hmem) (by decide)
  · have hlength := congrArg List.length h
    rw [List.length_take, List.length_replicate] at hlength
    rw [List.take_of_length_le (by omega)] at h
    refine units_eq_dots (List.eq_replicate_iff.mpr ⟨?_, fun u hu => ?_⟩)
    · rw [← List.length_map safeUnit, h, List.length_replicate]
    · refine safeUnit_eq_dot (List.eq_of_mem_replicate ?_ (n := n))
      rw [← h]
      exact List.mem_map_of_mem hu

theorem isName_sanitizeSegment {value : Str} (hdot : value ≠ dot) (hdotDot : value ≠ dotDot) :
    IsName (sanitizeSegment value) :=
  ⟨sanitizeSegment_ne_nil value,
    fun hslash => absurd (isSafe_sanitizeSegment _ hslash) (by decide),
    fun h => hdot (sanitizeSegment_eq_dots (n := 1) (by decide) h),
    fun h => hdotDot (sanitizeSegment_eq_dots (n := 2) (by decide) h)⟩

theorem IsPlain.isSafe {id : Str} (h : IsPlain id) : ∀ c ∈ id, isSafe c = true := by
  intro c hc
  have hplain := h c hc
  rw [SourceVault.isSafe]
  cases halphanum : c.isAlphanum with
  | true => rfl
  | false =>
      rw [halphanum] at hplain
      rw [Bool.false_or] at hplain
      rw [hplain, Bool.or_true]

/-- An identifier is a name. -/
theorem IsPlain.isName {id : Str} (h : IsPlain id) (hne : id ≠ []) : IsName id :=
  ⟨hne, fun hslash => absurd (h _ hslash) (by decide),
    fun heq => absurd (h '.' (heq ▸ List.mem_cons_self)) (by decide),
    fun heq => absurd (h '.' (heq ▸ List.mem_cons_self)) (by decide)⟩

/-- The identifiers of an input are made of letters, digits and `-`. -/
structure PutObjectInput.Identified (input : PutObjectInput) : Prop where
  organization : IsPlain input.organizationId
  source : IsPlain input.sourceId

/-- The identifiers are not cut or replaced, and the file name is no dot segment. -/
structure PutObjectInput.Ordinary (input : PutObjectInput) : Prop where
  organization : input.organizationId ≠ [] ∧ input.organizationId.length ≤ 240
  source : input.sourceId ≠ [] ∧ input.sourceId.length ≤ 240
  filename : input.filename ≠ dot ∧ input.filename ≠ dotDot

/-- The names of the place of an object. -/
def PutObjectInput.names (input : PutObjectInput) : List Str :=
  ["raw".toList, sanitizeSegment input.organizationId, sanitizeSegment input.sourceId,
    sanitizeSegment input.filename]

/-- The directories of the place of an object. -/
def PutObjectInput.directories (input : PutObjectInput) : List Str :=
  ["raw".toList, sanitizeSegment input.organizationId, sanitizeSegment input.sourceId]

theorem PutObjectInput.names_eq {input : PutObjectInput} (hid : input.Identified)
    (hinput : input.Ordinary) : input.names =
      ["raw".toList, input.organizationId, input.sourceId, sanitizeSegment input.filename] := by
  rw [PutObjectInput.names,
    sanitizeSegment_self hid.organization.isSafe hinput.organization.1 hinput.organization.2,
    sanitizeSegment_self hid.source.isSafe hinput.source.1 hinput.source.2]

theorem PutObjectInput.isName_names {input : PutObjectInput} (hid : input.Identified)
    (hinput : input.Ordinary) : ∀ n ∈ input.names, IsName n := by
  rw [PutObjectInput.names_eq hid hinput]
  intro n hn
  simp only [List.mem_cons, List.not_mem_nil, or_false] at hn
  obtain rfl | rfl | rfl | rfl := hn
  · decide
  · exact hid.organization.isName hinput.organization.1
  · exact hid.source.isName hinput.source.1
  · exact isName_sanitizeSegment hinput.filename.1 hinput.filename.2

/-- The place of an input tells its organization and its source. -/
theorem PutObjectInput.apart {input other : PutObjectInput} (hid : input.Identified)
    (hinput : input.Ordinary) (hid' : other.Identified) (hother : other.Ordinary)
    (h : input.names = other.names) :
    other.organizationId = input.organizationId ∧ other.sourceId = input.sourceId := by
  rw [PutObjectInput.names_eq hid hinput, PutObjectInput.names_eq hid' hother] at h
  simp only [List.cons.injEq] at h
  exact ⟨h.2.1.symm, h.2.2.1.symm⟩

/-! ## Runs -/

inductive Call where
  | putImmutable (input : PutObjectInput)
  | existsAt (storageUri : Str)
  | get (storageUri : Str)
  | delete (storageUri : Str)

inductive Answer where
  | stored (object : StoredObject)
  | found (found : Bool)
  | body (body : Octets)
  | deleted
  | failed (error : StorageError)
  deriving DecidableEq

namespace ObjectStoragePort

variable (port : ObjectStoragePort)

def answer {α : Type} (result : α → Answer) : Attempt α → Answer
  | .ok value => result value
  | .error error => .failed error

def call : Call → port.State → Answer × port.State
  | .putImmutable input, state =>
      let (attempt, state) := port.putImmutable input state
      (answer .stored attempt, state)
  | .existsAt uri, state =>
      let (attempt, state) := port.existsAt uri state
      (answer .found attempt, state)
  | .get uri, state =>
      let (attempt, state) := port.get uri state
      (answer .body attempt, state)
  | .delete uri, state =>
      let (attempt, state) := port.delete uri state
      (answer (fun _ => .deleted) attempt, state)

/-- The state after some calls. -/
def reach (start : port.State) (calls : List Call) : port.State :=
  calls.foldl (fun state call => (port.call call state).2) start

/-- What a call is answered after some others. -/
def answerAfter (start : port.State) (calls : List Call) (call : Call) : Answer :=
  (port.call call (port.reach start calls)).1

end ObjectStoragePort

/-- The objects of a store under their keys, the key of a URI, the key that an input is stored
under, and the keys strictly below the place of a source. -/
structure View (port : ObjectStoragePort) where
  Key : Type
  [decidableEq : DecidableEq Key]
  objects : port.State → Key → Option Octets
  keyOf : Str → Option Key
  place : PutObjectInput → Key
  Below : Str → Str → Key → Prop

attribute [instance] View.decidableEq

/-- The sources are isolated on a run. -/
structure Isolated (port : ObjectStoragePort) (view : View port) (start : port.State)
    (calls : List Call) : Prop where
  /-- Every object of the run lies strictly below the place of its source, by a put for it. -/
  below : ∀ before after, calls = before ++ after → ∀ key body,
    view.objects start key = none → view.objects (port.reach start before) key = some body →
      ∃ input, .putImmutable input ∈ before ∧ input.body = body ∧
        view.Below input.organizationId input.sourceId key
  /-- A put never overwrites an object. -/
  keeps : ∀ before input after, calls = before ++ .putImmutable input :: after → ∀ key body,
    view.objects (port.reach start before) key = some body →
      view.objects (port.reach start (before ++ [.putImmutable input])) key = some body
  /-- A put fails only where an earlier one for the same source has left an object. -/
  fails : ∀ before input after, calls = before ++ .putImmutable input :: after → ∀ error,
    port.answerAfter start before (.putImmutable input) = .failed error →
      ∃ other, .putImmutable other ∈ before ∧ other.organizationId = input.organizationId ∧
        other.sourceId = input.sourceId ∧
        view.objects (port.reach start before) (view.place input) = some other.body
  /-- The URI that a put returns gives the stored bytes until it is deleted. -/
  reads : ∀ before input between after object,
    calls = before ++ .putImmutable input :: between ++ .get object.storageUri :: after →
    port.answerAfter start before (.putImmutable input) = .stored object →
    (∀ uri, .delete uri ∈ between → view.keyOf uri ≠ view.keyOf object.storageUri) →
      port.answerAfter start (before ++ .putImmutable input :: between)
        (.get object.storageUri) = .body input.body
  /-- A delete removes the object of its URI, and no other one. -/
  deletes : ∀ before uri after, calls = before ++ .delete uri :: after → ∀ key,
    view.objects (port.reach start (before ++ [.delete uri])) key =
      if view.keyOf uri = some key then none
      else view.objects (port.reach start before) key

/-! ## Adapters that store under the keys of their inputs -/

/-- What regular calls do while an invariant of the states holds. -/
structure Adapts (port : ObjectStoragePort) (view : View port) (Inv : port.State → Prop)
    (Regular : Call → Prop) : Prop where
  put : ∀ input state, Regular (.putImmutable input) → Inv state →
    Inv (port.putImmutable input state).2 ∧
      ((∃ object, view.keyOf object.storageUri = some (view.place input) ∧
        view.objects state (view.place input) = none ∧
        (port.putImmutable input state).1 = .ok object ∧
        view.objects (port.putImmutable input state).2 =
          Function.update (view.objects state) (view.place input) (some input.body)) ∨
      (view.objects state (view.place input)).isSome = true ∧
        (∃ error, (port.putImmutable input state).1 = .error error) ∧
        view.objects (port.putImmutable input state).2 = view.objects state)
  existsAt : ∀ uri state, Regular (.existsAt uri) → Inv state →
    Inv (port.existsAt uri state).2 ∧
      view.objects (port.existsAt uri state).2 = view.objects state
  get : ∀ uri state, Regular (.get uri) → Inv state →
    Inv (port.get uri state).2 ∧ view.objects (port.get uri state).2 = view.objects state
  reads : ∀ uri state key body, Regular (.get uri) → Inv state → view.keyOf uri = some key →
    view.objects state key = some body → (port.get uri state).1 = .ok body
  delete : ∀ uri state, Regular (.delete uri) → Inv state →
    Inv (port.delete uri state).2 ∧
      view.objects (port.delete uri state).2 = (view.keyOf uri).elim (view.objects state)
        fun key => Function.update (view.objects state) key none
  below : ∀ input, Regular (.putImmutable input) →
    view.Below input.organizationId input.sourceId (view.place input)
  apart : ∀ input other, Regular (.putImmutable input) → Regular (.putImmutable other) →
    view.place input = view.place other →
      other.organizationId = input.organizationId ∧ other.sourceId = input.sourceId

/-- What a call does to the objects. -/
def View.event {port : ObjectStoragePort} (view : View port) : Call → port.State →
    Event view.Key Octets
  | .putImmutable input, state =>
      if (view.objects state (view.place input)).isSome = true then .refused (view.place input)
      else .stored (view.place input) input.body
  | .existsAt _, _ => .silent
  | .get _, _ => .silent
  | .delete uri, _ =>
      match view.keyOf uri with
      | none => .silent
      | some key => .removed key

def View.system {port : ObjectStoragePort} (view : View port) :
    System port.State Call view.Key Octets where
  step call state := (port.call call state).2
  objects := view.objects
  event := view.event

namespace Adapts

variable {port : ObjectStoragePort} {view : View port} {Inv : port.State → Prop}
  {Regular : Call → Prop} {start : port.State} {calls : List Call}

theorem inv (h : Adapts port view Inv Regular) (call : Call) (state : port.State)
    (hcall : Regular call) (hstate : Inv state) : Inv (port.call call state).2 := by
  cases call with
  | putImmutable input => exact (h.put input state hcall hstate).1
  | existsAt uri => exact (h.existsAt uri state hcall hstate).1
  | get uri => exact (h.get uri state hcall hstate).1
  | delete uri => exact (h.delete uri state hcall hstate).1

theorem moves (h : Adapts port view Inv Regular) (call : Call) (state : port.State)
    (hcall : Regular call) (hstate : Inv state) :
    (view.event call state).Moves (view.objects state) (view.objects (port.call call state).2) := by
  cases call with
  | putImmutable input =>
      obtain ⟨object, -, hnone, -, hafter⟩ | ⟨hsome, -, hafter⟩ :=
        (h.put input state hcall hstate).2
      · have hevent : view.event (.putImmutable input) state =
            .stored (view.place input) input.body := by
          rw [View.event, hnone]
          rfl
        rw [hevent]
        exact ⟨hnone, hafter⟩
      · have hevent : view.event (.putImmutable input) state = .refused (view.place input) := by
          rw [View.event, if_pos hsome]
        rw [hevent]
        exact ⟨hsome, hafter⟩
  | existsAt uri => exact (h.existsAt uri state hcall hstate).2
  | get uri => exact (h.get uri state hcall hstate).2
  | delete uri =>
      have hafter := (h.delete uri state hcall hstate).2
      show (match view.keyOf uri with
        | none => Event.silent
        | some key => Event.removed key).Moves _ _
      cases hkey : view.keyOf uri with
      | none =>
          rw [hkey] at hafter
          exact hafter
      | some key =>
          rw [hkey] at hafter
          exact hafter

theorem lawful (h : Adapts port view Inv Regular) : Lawful view.system Inv Regular :=
  ⟨h.inv, h.moves⟩

/-- An object of the run has been stored by a put for it. -/
theorem stored (h : Adapts port view Inv Regular) (hstart : Inv start)
    (hcalls : ∀ call ∈ calls, Regular call) {key : view.Key} {body : Octets}
    (hnone : view.objects start key = none)
    (hbody : view.objects (port.reach start calls) key = some body) :
    ∃ input, .putImmutable input ∈ calls ∧ view.place input = key ∧ input.body = body := by
  obtain ⟨first, call, rest, rfl, hevent⟩ := h.lawful.origin hstart hcalls hnone hbody
  cases call with
  | putImmutable input =>
      refine ⟨input, List.mem_append_right _ List.mem_cons_self, ?_⟩
      have hput :
          (if (view.objects (view.system.reach start first) (view.place input)).isSome = true then
            Event.refused (view.place input)
          else .stored (view.place input) input.body) = .stored key body := hevent
      split at hput
      · cases hput
      · cases hput
        exact ⟨rfl, rfl⟩
  | existsAt uri => cases hevent
  | get uri => cases hevent
  | delete uri =>
      have hdelete : (match view.keyOf uri with
        | none => Event.silent
        | some other => Event.removed other) = .stored key body := hevent
      split at hdelete <;> cases hdelete

/-- A put fails where an earlier one for the same source has left an object. -/
theorem put_failed (h : Adapts port view Inv Regular) (hstart : Inv start)
    (hcalls : ∀ call ∈ calls, Regular call) {input : PutObjectInput}
    (hinput : Regular (.putImmutable input)) (hnone : view.objects start (view.place input) = none)
    {error : StorageError}
    (hfailed : port.answerAfter start calls (.putImmutable input) = .failed error) :
    ∃ other, .putImmutable other ∈ calls ∧ other.organizationId = input.organizationId ∧
      other.sourceId = input.sourceId ∧
      view.objects (port.reach start calls) (view.place input) = some other.body := by
  obtain ⟨object, -, -, hok, -⟩ | ⟨hsome, -, -⟩ :=
    (h.put input _ hinput (h.lawful.inv hstart hcalls)).2
  · have hstored : port.answerAfter start calls (.putImmutable input) = .stored object :=
      congrArg (ObjectStoragePort.answer Answer.stored) hok
    rw [hfailed] at hstored
    cases hstored
  · obtain ⟨body, hbody⟩ := Option.isSome_iff_exists.mp hsome
    obtain ⟨other, hmem, hplace, rfl⟩ := h.stored hstart hcalls hnone hbody
    obtain ⟨horganization, hsource⟩ := h.apart input other hinput (hcalls _ hmem) hplace.symm
    exact ⟨other, hmem, horganization, hsource, hbody⟩

/-- After a put that returned an object, its bytes are under its key. -/
theorem put_stored (h : Adapts port view Inv Regular) {state : port.State} (hstate : Inv state)
    {input : PutObjectInput} (hinput : Regular (.putImmutable input)) {object : StoredObject}
    (hstored : (port.call (.putImmutable input) state).1 = .stored object) :
    view.keyOf object.storageUri = some (view.place input) ∧
      view.objects (port.call (.putImmutable input) state).2 (view.place input) =
        some input.body := by
  obtain ⟨other, hkey, -, hok, hafter⟩ | ⟨-, ⟨error, herror⟩, -⟩ :=
    (h.put input state hinput hstate).2
  · have hother : (port.call (.putImmutable input) state).1 = .stored other :=
      congrArg (ObjectStoragePort.answer Answer.stored) hok
    rw [hstored] at hother
    obtain rfl : object = other := Answer.stored.inj hother
    refine ⟨hkey, ?_⟩
    show view.objects (port.putImmutable input state).2 _ = _
    rw [hafter, Function.update_self]
  · have hfailed : (port.call (.putImmutable input) state).1 = .failed error :=
      congrArg (ObjectStoragePort.answer Answer.stored) herror
    rw [hstored] at hfailed
    cases hfailed

theorem event_removed {call : Call} {state : port.State} {key : view.Key}
    (h : view.event call state = .removed key) :
    ∃ uri, call = .delete uri ∧ view.keyOf uri = some key := by
  cases call with
  | putImmutable input =>
      rw [View.event] at h
      split at h <;> cases h
  | existsAt uri => cases h
  | get uri => cases h
  | delete uri =>
      refine ⟨uri, rfl, ?_⟩
      cases hkey : view.keyOf uri with
      | none =>
          rw [View.event, hkey] at h
          cases h
      | some other =>
          rw [View.event, hkey] at h
          rw [Event.removed.inj h]

/-- The bytes of a put can be read by its URI until this is deleted. -/
theorem put_read (h : Adapts port view Inv Regular) {state : port.State} (hstate : Inv state)
    {input : PutObjectInput} (hinput : Regular (.putImmutable input)) {object : StoredObject}
    (hstored : (port.call (.putImmutable input) state).1 = .stored object)
    (hcalls : ∀ call ∈ calls, Regular call) (hget : Regular (.get object.storageUri))
    (hkept : ∀ uri, .delete uri ∈ calls → view.keyOf uri ≠ view.keyOf object.storageUri) :
    port.answerAfter (port.call (.putImmutable input) state).2 calls (.get object.storageUri) =
      .body input.body := by
  obtain ⟨hkey, hbody⟩ := h.put_stored hstate hinput hstored
  have hafter := h.inv _ _ hinput hstate
  have hstill : view.objects (port.reach (port.call (.putImmutable input) state).2 calls)
      (view.place input) = some input.body := by
    refine h.lawful.kept hafter hcalls (fun call hmem other hremoved => ?_) hbody
    obtain ⟨uri, rfl, huri⟩ := event_removed hremoved
    exact hkept uri hmem (huri.trans hkey.symm)
  exact congrArg (ObjectStoragePort.answer Answer.body)
    (h.reads _ _ _ _ hget (h.lawful.inv hafter hcalls) hkey hstill)

theorem delete_objects (h : Adapts port view Inv Regular) {state : port.State} (hstate : Inv state)
    {uri : Str} (hdelete : Regular (.delete uri)) (key : view.Key) :
    view.objects (port.call (.delete uri) state).2 key =
      if view.keyOf uri = some key then none else view.objects state key := by
  show view.objects (port.delete uri state).2 key = _
  rw [(h.delete uri state hdelete hstate).2]
  cases hkey : view.keyOf uri with
  | none => rfl
  | some other =>
      by_cases hother : other = key
      · subst hother
        rw [if_pos rfl]
        exact Function.update_self _ _ _
      · rw [if_neg fun heq => hother (Option.some.inj heq)]
        exact Function.update_of_ne (Ne.symm hother) _ _

/-- An adapter isolates the sources on every run of regular calls. -/
theorem isolated (h : Adapts port view Inv Regular) (hstart : Inv start)
    (hfresh : ∀ input, Regular (.putImmutable input) →
      view.objects start (view.place input) = none)
    (hcalls : ∀ call ∈ calls, Regular call) : Isolated port view start calls := by
  have hbefore : ∀ {before after : List Call}, calls = before ++ after →
      ∀ call ∈ before, Regular call := fun heq call hmem =>
    hcalls call (heq ▸ List.mem_append_left _ hmem)
  have hnext : ∀ {before after : List Call} {call : Call}, calls = before ++ call :: after →
      Regular call := fun heq =>
    hcalls _ (heq ▸ List.mem_append_right _ List.mem_cons_self)
  have hinv : ∀ {before after : List Call}, calls = before ++ after →
      Inv (port.reach start before) := fun heq => h.lawful.inv hstart (hbefore heq)
  refine ⟨?_, ?_, ?_, ?_, ?_⟩
  · intro before after heq key body hnone hbody
    obtain ⟨input, hmem, rfl, hinput⟩ := h.stored hstart (hbefore heq) hnone hbody
    exact ⟨input, hmem, hinput, h.below input (hbefore heq _ hmem)⟩
  · intro before input after heq key body hbody
    rw [ObjectStoragePort.reach, List.foldl_append]
    refine (h.moves _ _ (hnext heq) (hinv heq)).kept (fun hremoved => ?_) hbody
    obtain ⟨uri, hcall, -⟩ := event_removed hremoved
    cases hcall
  · intro before input after heq error hfailed
    exact h.put_failed hstart (hbefore heq) (hnext heq) (hfresh input (hnext heq)) hfailed
  · intro before input between after object heq hstored hkept
    rw [List.append_assoc, List.cons_append] at heq
    have hrest : calls = (before ++ .putImmutable input :: between) ++
        .get object.storageUri :: after := by
      rw [heq, List.append_assoc, List.cons_append]
    have hbetween : ∀ call ∈ between, Regular call := fun call hmem =>
      hbefore hrest call (List.mem_append_right _ (List.mem_cons_of_mem _ hmem))
    rw [ObjectStoragePort.answerAfter, ObjectStoragePort.reach, List.foldl_append]
    exact h.put_read (hinv heq) (hnext heq) hstored hbetween (hnext hrest) hkept
  · intro before uri after heq key
    rw [ObjectStoragePort.reach, List.foldl_append]
    exact h.delete_objects (hinv heq) (hnext heq) key

end Adapts

end SourceVault
