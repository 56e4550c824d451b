import Mathlib.Data.List.Induction
import Mathlib.Logic.Function.Basic

/-!
# Stores of immutable objects

A system with objects under keys. What a call does to them is one of four events: an object is
stored where there was none, a key is refused since it has one, a key is removed, or nothing
happens. Over a run, an object stays as it is until its key is removed (`Lawful.kept`), and every
object has been stored by a call of the run (`Lawful.origin`).
-/

namespace ObjectStores

variable {S C K B : Type}

inductive Event (K B : Type) where
  | stored (key : K) (body : B)
  | refused (key : K)
  | removed (key : K)
  | silent

/-- What an event does to the objects. -/
def Event.Moves [DecidableEq K] : Event K B → (K → Option B) → (K → Option B) → Prop
  | stored key body, before, after =>
      before key = none ∧ after = Function.update before key (some body)
  | refused key, before, after => (before key).isSome = true ∧ after = before
  | removed key, before, after => after = Function.update before key none
  | silent, before, after => after = before

structure System (S C K B : Type) where
  step : C → S → S
  objects : S → K → Option B
  event : C → S → Event K B

def System.reach (system : System S C K B) (start : S) (calls : List C) : S :=
  calls.foldl (fun state call => system.step call state) start

theorem System.reach_append (system : System S C K B) (start : S) (first second : List C) :
    system.reach start (first ++ second) = system.reach (system.reach start first) second :=
  List.foldl_append

variable [DecidableEq K] {before after : K → Option B} {key : K} {body : B}

theorem Event.Moves.kept {event : Event K B} (h : event.Moves before after)
    (hremoved : event ≠ .removed key) (hbody : before key = some body) :
    after key = some body := by
  cases event with
  | stored other otherBody =>
      obtain ⟨hnone, rfl⟩ := h
      have hne : key ≠ other := fun heq => by
        rw [heq, hnone] at hbody
        cases hbody
      rwa [Function.update_of_ne hne]
  | refused other =>
      obtain ⟨-, rfl⟩ := h
      exact hbody
  | removed other =>
      obtain rfl : after = Function.update before other none := h
      have hne : key ≠ other := fun heq => hremoved (congrArg Event.removed heq.symm)
      rwa [Function.update_of_ne hne]
  | silent =>
      obtain rfl : after = before := h
      exact hbody

theorem Event.Moves.origin {event : Event K B} (h : event.Moves before after)
    (hbody : after key = some body) : before key = some body ∨ event = .stored key body := by
  cases event with
  | stored other otherBody =>
      obtain ⟨-, rfl⟩ := h
      by_cases hkey : key = other
      · subst hkey
        rw [Function.update_self] at hbody
        exact .inr (congrArg _ (Option.some.inj hbody))
      · rw [Function.update_of_ne hkey] at hbody
        exact .inl hbody
  | refused other =>
      obtain ⟨-, rfl⟩ := h
      exact .inl hbody
  | removed other =>
      obtain rfl : after = Function.update before other none := h
      by_cases hkey : key = other
      · rw [hkey, Function.update_self] at hbody
        cases hbody
      · rw [Function.update_of_ne hkey] at hbody
        exact .inl hbody
  | silent =>
      obtain rfl : after = before := h
      exact .inl hbody

/-- Each regular call keeps the invariant, and does to the objects what its event says. -/
structure Lawful (system : System S C K B) (Inv : S → Prop) (Regular : C → Prop) : Prop where
  keeps : ∀ call state, Regular call → Inv state → Inv (system.step call state)
  moves : ∀ call state, Regular call → Inv state →
    (system.event call state).Moves (system.objects state)
      (system.objects (system.step call state))

namespace Lawful

variable {system : System S C K B} {Inv : S → Prop} {Regular : C → Prop} {start : S}
  {calls : List C}

theorem inv (h : Lawful system Inv Regular) (hstart : Inv start)
    (hcalls : ∀ call ∈ calls, Regular call) : Inv (system.reach start calls) := by
  induction calls generalizing start with
  | nil => exact hstart
  | cons call calls ih =>
      exact ih (h.keeps call start (hcalls call List.mem_cons_self) hstart)
        fun other hother => hcalls other (List.mem_cons_of_mem call hother)

/-- An object stays as it is while its key is not removed. -/
theorem kept (h : Lawful system Inv Regular) (hstart : Inv start)
    (hcalls : ∀ call ∈ calls, Regular call)
    (hremoved : ∀ call ∈ calls, ∀ state, system.event call state ≠ .removed key)
    (hbody : system.objects start key = some body) :
    system.objects (system.reach start calls) key = some body := by
  induction calls generalizing start with
  | nil => exact hbody
  | cons call calls ih =>
      have hcall := hcalls call List.mem_cons_self
      refine ih (h.keeps call start hcall hstart)
        (fun other hother => hcalls other (List.mem_cons_of_mem call hother))
        (fun other hother => hremoved other (List.mem_cons_of_mem call hother)) ?_
      exact (h.moves call start hcall hstart).kept (hremoved call List.mem_cons_self start) hbody

/-- An object that was not there has been stored by a call. -/
theorem origin (h : Lawful system Inv Regular) (hstart : Inv start)
    (hcalls : ∀ call ∈ calls, Regular call) (hnone : system.objects start key = none)
    (hbody : system.objects (system.reach start calls) key = some body) :
    ∃ first call rest, calls = first ++ call :: rest ∧
      system.event call (system.reach start first) = .stored key body := by
  induction calls using List.reverseRecOn generalizing body with
  | nil =>
      have hstill : system.objects start key = some body := hbody
      rw [hnone] at hstill
      cases hstill
  | append_singleton calls call ih =>
      have hcalls' : ∀ other ∈ calls, Regular other := fun other hother =>
        hcalls other (List.mem_append_left _ hother)
      have hcall := hcalls call (List.mem_append_right _ List.mem_cons_self)
      rw [System.reach_append] at hbody
      obtain hold | hstored := (h.moves call _ hcall (h.inv hstart hcalls')).origin hbody
      · obtain ⟨first, other, rest, rfl, hevent⟩ := ih hcalls' hold
        refine ⟨first, other, rest ++ [call], ?_, hevent⟩
        rw [List.append_assoc, List.cons_append]
      · exact ⟨calls, call, [], rfl, hstored⟩

end Lawful

end ObjectStores
