import Mathlib.Data.List.Induction

/-!
# Machines

A machine makes one move after another: an input, what it puts out, and the states around it. A
run is a chain of permitted moves. What holds at the start and is kept by every permitted move
holds at the end (`Run.invariant`), and a run can be cut at any of its moves (`Run.cut`).
-/

namespace Machine

structure Move (S I O : Type) where
  before : S
  input : I
  output : O
  after : S

/-- A chain of permitted moves from one state to another. -/
inductive Run {S I O : Type} (permitted : Move S I O → Prop) (s : S) :
    List (Move S I O) → S → Prop
  | nil : Run permitted s [] s
  | snoc {moves : List (Move S I O)} {move : Move S I O} :
      Run permitted s moves move.before → permitted move →
        Run permitted s (moves ++ [move]) move.after

variable {S I O : Type} {permitted : Move S I O → Prop} {s t : S}
variable {moves A B : List (Move S I O)} {move : Move S I O}

/-- What every permitted move keeps, given the moves before it, holds at the end of a run. -/
theorem Run.invariant {P : List (Move S I O) → S → Prop} (h : Run permitted s moves t)
    (hstart : P [] s)
    (hstep : ∀ past move, P past move.before → permitted move → P (past ++ [move]) move.after) :
    P moves t := by
  induction h with
  | nil => exact hstart
  | snoc _ hpermitted ih => exact hstep _ _ ih hpermitted

theorem run_append : Run permitted s (A ++ B) t ↔ ∃ u, Run permitted s A u ∧ Run permitted u B t := by
  constructor
  · intro h
    induction B using List.reverseRecOn generalizing t with
    | nil =>
        rw [List.append_nil] at h
        exact ⟨t, h, .nil⟩
    | append_singleton B move ih =>
        rw [← List.append_assoc] at h
        generalize hmoves : A ++ B ++ [move] = moves at h
        cases h with
        | nil => simp at hmoves
        | snoc h hpermitted =>
            obtain ⟨rfl, hmove⟩ := List.append_inj' hmoves rfl
            obtain rfl := List.singleton_inj.mp hmove
            obtain ⟨u, hA, hB⟩ := ih h
            exact ⟨u, hA, .snoc hB hpermitted⟩
  · rintro ⟨u, hA, hB⟩
    induction hB with
    | nil => rwa [List.append_nil]
    | snoc _ hpermitted ih =>
        rw [← List.append_assoc]
        exact .snoc ih hpermitted

/-- A run is cut at one of its moves. -/
theorem Run.cut (h : Run permitted s (A ++ move :: B) t) :
    Run permitted s A move.before ∧ permitted move ∧ Run permitted move.after B t := by
  rw [← List.singleton_append, ← List.append_assoc] at h
  obtain ⟨u, hA, hB⟩ := run_append.mp h
  generalize hmoves : A ++ [move] = moves at hA
  cases hA with
  | nil => simp at hmoves
  | snoc hA hpermitted =>
      obtain ⟨rfl, hmove⟩ := List.append_inj' hmoves rfl
      obtain rfl := List.singleton_inj.mp hmove
      exact ⟨hA, hpermitted, hB⟩

section Functions

variable {f : S → I → O × S}

/-- The move is the one of the function. -/
def Follows (f : S → I → O × S) (move : Move S I O) : Prop :=
  f move.before move.input = (move.output, move.after)

/-- What holds of whatever the function does holds of the moves that follow it. -/
theorem Follows.of_forall {P : Move S I O → Prop} (h : Follows f move)
    (hP : ∀ s i, P ⟨s, i, (f s i).1, (f s i).2⟩) : P move := by
  obtain ⟨before, input, output, after⟩ := move
  have hf : f before input = (output, after) := h
  have hmove := hP before input
  rwa [hf] at hmove

/-- The moves of a function on a list of inputs, and where they end. -/
def execute (f : S → I → O × S) (s : S) : List I → List (Move S I O) × S
  | [] => ([], s)
  | i :: inputs =>
      let rest := execute f (f s i).2 inputs
      (⟨s, i, (f s i).1, (f s i).2⟩ :: rest.1, rest.2)

theorem run_execute (f : S → I → O × S) (s : S) (inputs : List I) :
    Run (Follows f) s (execute f s inputs).1 (execute f s inputs).2 := by
  induction inputs generalizing s with
  | nil => exact .nil
  | cons i inputs ih =>
      have hfirst : Run (Follows f) s ([] ++ [⟨s, i, (f s i).1, (f s i).2⟩]) (f s i).2 :=
        .snoc .nil rfl
      exact run_append.mpr ⟨_, hfirst, ih (f s i).2⟩

theorem mem_execute_input {inputs : List I} (h : move ∈ (execute f s inputs).1) :
    move.input ∈ inputs := by
  induction inputs generalizing s with
  | nil => cases h
  | cons i inputs ih =>
      rcases List.mem_cons.mp h with rfl | h
      · exact List.mem_cons_self
      · exact List.mem_cons_of_mem _ (ih h)

end Functions

end Machine
