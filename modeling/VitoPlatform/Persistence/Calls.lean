import VitoPlatform.Persistence.Services

/-!
# Calls by what their steps do

The steps of a group of calls are described by a relation on stores, which keeps an invariant. A
call is safe if each of its steps is one of these, whatever may happen in between; then every move
of a run of safe calls is one of these (`Steps.run_does`), and what all of them keep holds in every
state that a run reaches (`Steps.MovesDo.induction`). In a sequential run nothing happens in between
(`Steps.sequential_does`).

What a call has read was so once (`Steps.Earlier`), and is still so if what happens in between
keeps it, the call's own records of its reads included.
-/

namespace Services

open Text Concurrent

/-- What a step of call `i` can do, what can happen between its steps, what it records of its
reads, and an invariant. -/
structure Steps (S : Type) where
  inv : S → Prop
  does : Nat → S → S → Prop
  rely : Nat → S → S → Prop
  records : Nat → S → S → Prop
  refl : ∀ i s, does i s s
  keeps : ∀ {i s t}, does i s t → inv s → inv t
  between : ∀ {i s t}, rely i s t ∨ records i s t → inv s → inv t

variable {S α β : Type}

namespace Steps

variable (steps : Steps S)

def contract (i : Nat) : Contract S where
  inv := steps.inv
  rely := steps.rely i
  cond _ _ := True
  guar := steps.does i

/-- Every step from here on is such a step, and the call ends in `post`. -/
abbrev Safe (i : Nat) (p : Program S α) (s : S) (post : α → S → Prop) : Prop :=
  Concurrent.Safe (steps.contract i) p s post fun _ s => steps.inv s

/-- What holds whatever happens in between. -/
def Stable (i : Nat) (A : S → Prop) : Prop :=
  ∀ s t, steps.inv s → A s → steps.rely i s t ∨ steps.records i s t → A t

/-- It was so, and since then nothing has happened but what can happen in between. -/
def Earlier (i : Nat) (F : S → Prop) (t : S) : Prop :=
  ∃ s, steps.inv s ∧ F s ∧
    Relation.ReflTransGen (fun a b => steps.rely i a b ∨ steps.records i a b) s t

variable {steps} {i : Nat} {s t : S} {post : α → S → Prop} {A F G : S → Prop}

theorem stable_true : steps.Stable i fun _ => True := fun _ _ _ _ _ => trivial

theorem Stable.and (hA : steps.Stable i A) (hF : steps.Stable i F) :
    steps.Stable i fun s => A s ∧ F s := fun s t hs h hbetween =>
  ⟨hA s t hs h.1 hbetween, hF s t hs h.2 hbetween⟩

theorem earlier (hs : steps.inv s) (hF : F s) : steps.Earlier i F s := ⟨s, hs, hF, .refl⟩

theorem earlier_stable : steps.Stable i (steps.Earlier i F) :=
  fun _ _ _ ⟨r, hr, hF, hrs⟩ hbetween => ⟨r, hr, hF, hrs.tail hbetween⟩

/-- What has been read and implies something stable implies it now. -/
theorem Earlier.now (h : steps.Earlier i F t) (hFG : ∀ s, steps.inv s → F s → G s)
    (hG : steps.Stable i G) : G t := by
  obtain ⟨s, hs, hF, hst⟩ := h
  have hboth : steps.inv t ∧ G t := by
    induction hst with
    | refl => exact ⟨hs, hFG s hs hF⟩
    | tail _ hstep ih => exact ⟨steps.between hstep ih.1, hG _ _ ih.1 ih.2 hstep⟩
  exact hboth.2

theorem Stable.rely (h : steps.Stable i A) :
    ∀ a b, steps.inv a → A a → steps.rely i a b → A b :=
  fun a b ha hA hrely => h a b ha hA (.inl hrely)

theorem fails (hs : steps.inv s) {error : HttpError} :
    steps.Safe i (.throw error : Program S α) s post := by
  intro t ht
  exact (ht.stable hs trivial stable_true.rely).1

/-- The end of a part of a call. -/
theorem ends {a : α} (A : S → Prop) (stable : steps.Stable i A) (hs : steps.inv s) (hA : A s)
    (hpost : ∀ t, steps.inv t → A t → post a t) : steps.Safe i (.done a : Program S α) s post :=
  Safe.done A hs hA stable.rely hpost

theorem returns {a : α} (hpost : ∀ t, post a t) :
    steps.Safe i (.done a : Program S α) s post :=
  safe_done hpost

/-- One step, from an assertion that the other calls keep. -/
theorem change_bind {f : Choice → S → Except HttpError β × S} {k : β → Program S α}
    (A : S → Prop) (stable : steps.Stable i A) (hs : steps.inv s) (hA : A s)
    (step : ∀ t c, steps.inv t → A t → steps.does i t (f c t).2 ∧
      ∀ a, (f c t).1 = .ok a → steps.inv (f c t).2 → steps.Safe i (k a) (f c t).2 post) :
    steps.Safe i (change f >>= k) s post := by
  refine Safe.change_bind A hs hA stable.rely (steps.refl i) (fun t ht _ => fails ht) ?_
  intro t c _ ht hA _
  obtain ⟨hdoes, hnext⟩ := step t c ht hA
  have hafter := steps.keeps hdoes ht
  exact ⟨hafter, hdoes, fun a ha => hnext a ha hafter, fun _ _ => fails hafter⟩

/-- The last step of a call. -/
theorem change_last {f : Choice → S → Except HttpError α × S} (A : S → Prop)
    (stable : steps.Stable i A) (hs : steps.inv s) (hA : A s)
    (step : ∀ t c, steps.inv t → A t → steps.does i t (f c t).2) :
    steps.Safe i (change f) s fun _ _ => True := by
  rw [← Proc.bind_done (change f)]
  exact change_bind A stable hs hA fun t c ht hA =>
    ⟨step t c ht hA, fun _ _ _ => returns fun _ => trivial⟩

/-- A part of a call that only keeps an assertion, and what comes after it. -/
theorem part_bind {p : Program S β} {k : β → Program S α} {mid : β → S → Prop}
    (h : steps.Safe i p s mid) (next : ∀ b t, mid b t → steps.Safe i (k b) t post) :
    steps.Safe i (p >>= k) s post :=
  Safe.bind (h.mono (fun b t hmid => next b t hmid) fun _ _ h => h)

theorem query_bind {f : S → β} {k : β → Program S α} (A : S → Prop) (stable : steps.Stable i A)
    (hs : steps.inv s) (hA : A s)
    (next : ∀ t, steps.inv t → A t → steps.Safe i (k (f t)) t post) :
    steps.Safe i (query f >>= k) s post := by
  refine change_bind A stable hs hA fun t c ht hA => ⟨steps.refl i t, fun a ha _ => ?_⟩
  cases ha
  exact next t ht hA

/-- What a query has answered was so. -/
theorem query_read {f : S → β} {k : β → Program S α} (A : S → Prop) (stable : steps.Stable i A)
    (hs : steps.inv s) (hA : A s)
    (next : ∀ b t, steps.inv t → A t → steps.Earlier i (fun s => f s = b) t →
      steps.Safe i (k b) t post) : steps.Safe i (query f >>= k) s post :=
  query_bind A stable hs hA fun t ht hA => next (f t) t ht hA (earlier ht rfl)

/-- A step that records what it reads. -/
theorem record_bind {f : S → β} {g : S → S} {k : β → Program S α} (A : S → Prop)
    (stable : steps.Stable i A) (hs : steps.inv s) (hA : A s)
    (hrecords : ∀ t, steps.inv t → steps.does i t (g t) ∧ steps.records i t (g t))
    (next : ∀ t, steps.inv t → A t → steps.inv (g t) → A (g t) →
      steps.Safe i (k (f t)) (g t) post) :
    steps.Safe i ((change fun _ s => (.ok (f s), g s)) >>= k) s post := by
  refine change_bind A stable hs hA fun t c ht hA => ⟨(hrecords t ht).1, fun a ha hafter => ?_⟩
  cases ha
  exact next t ht hA hafter (stable t (g t) ht hA (.inr (hrecords t ht).2))

theorem require_bind {condition : Bool} {error : HttpError} {k : Unit → Program S α}
    (hs : steps.inv s) (hok : condition = true → steps.Safe i (k ()) s post) :
    steps.Safe i (Proc.require condition error >>= k) s post :=
  Safe.require_bind hok fun _ => fails hs

theorem expect_bind {value : Option β} {error : HttpError} {k : β → Program S α}
    (hs : steps.inv s) (hok : ∀ b, value = some b → steps.Safe i (k b) s post) :
    steps.Safe i (Proc.expect value error >>= k) s post :=
  Safe.expect_bind hok fun _ => fails hs

/-- What a call returns is not looked at. -/
theorem discard {p : Program S β} (h : steps.Safe i p s fun _ _ => True) :
    steps.Safe i (p >>= fun _ => pure () : Program S Unit) s fun _ _ => True :=
  Safe.bind (h.mono (fun _ _ _ => returns fun _ => trivial) fun _ _ h => h)

/-! ## Calls that end in a certain state -/

variable (steps) in
/-- Every step from here on is such a step, and the call ends in `post` or in `fail`. -/
abbrev SafeTo (i : Nat) (p : Program S α) (s : S) (post : α → S → Prop)
    (fail : HttpError → S → Prop) : Prop :=
  Concurrent.Safe (steps.contract i) p s post fail

namespace SafeTo

variable {fail : HttpError → S → Prop}

theorem returns {a : α} (A : S → Prop) (stable : steps.Stable i A) (hs : steps.inv s) (hA : A s)
    (hpost : ∀ t, steps.inv t → A t → post a t) :
    steps.SafeTo i (.done a : Program S α) s post fail :=
  Safe.done A hs hA stable.rely hpost

theorem throws {error : HttpError} (A : S → Prop) (stable : steps.Stable i A) (hs : steps.inv s)
    (hA : A s) (hfail : ∀ t, steps.inv t → A t → fail error t) :
    steps.SafeTo i (.throw error : Program S α) s post fail := by
  intro t ht
  obtain ⟨ht, hA⟩ := ht.stable hs hA stable.rely
  exact hfail t ht hA

/-- A step that fails before it has any effect. -/
theorem change_bind {f : Choice → S → Except HttpError β × S} {k : β → Program S α} (A : S → Prop)
    (stable : steps.Stable i A) (hs : steps.inv s) (hA : A s)
    (hfail : ∀ error t, steps.inv t → A t → fail error t)
    (step : ∀ t c, steps.inv t → A t → steps.does i t (f c t).2 ∧
      (∀ a, (f c t).1 = .ok a → steps.inv (f c t).2 →
        steps.SafeTo i (k a) (f c t).2 post fail) ∧
      ∀ error, (f c t).1 = .error error → A (f c t).2) :
    steps.SafeTo i (change f >>= k) s post fail := by
  refine Safe.change_bind A hs hA stable.rely (steps.refl i)
    (fun t ht hA => throws A stable ht hA (hfail _)) ?_
  intro t c _ ht hA _
  obtain ⟨hdoes, hok, herror⟩ := step t c ht hA
  have hafter := steps.keeps hdoes ht
  refine ⟨hafter, hdoes, fun a ha => hok a ha hafter, fun error he => ?_⟩
  exact throws A stable hafter (herror error he) (hfail error)

theorem query_bind {f : S → β} {k : β → Program S α} (A : S → Prop) (stable : steps.Stable i A)
    (hs : steps.inv s) (hA : A s) (hfail : ∀ error t, steps.inv t → A t → fail error t)
    (next : ∀ b t, steps.inv t → A t → steps.Earlier i (fun s => f s = b) t →
      steps.SafeTo i (k b) t post fail) : steps.SafeTo i (query f >>= k) s post fail := by
  refine change_bind A stable hs hA hfail fun t c ht hA => ⟨steps.refl i t, ?_, nofun⟩
  rintro _ ⟨⟩ _
  exact next (f t) t ht hA (earlier ht rfl)

theorem expect_bind {value : Option β} {error : HttpError} {k : β → Program S α} (A : S → Prop)
    (stable : steps.Stable i A) (hs : steps.inv s) (hA : A s)
    (hfail : ∀ t, steps.inv t → A t → fail error t)
    (hok : ∀ b, value = some b → steps.SafeTo i (k b) s post fail) :
    steps.SafeTo i (Proc.expect value error >>= k) s post fail :=
  Safe.expect_bind hok fun _ => throws A stable hs hA hfail

end SafeTo

section Runs

variable {procs : List (Program S Unit)} {store : S}
variable {moves : List (Concurrent.Move S Choice HttpError Unit)}
variable {system : System S Choice HttpError Unit}

/-- Every move is a step of its call. -/
def MovesDo (steps : Steps S) (moves : List (Concurrent.Move S Choice HttpError Unit)) : Prop :=
  ∀ m ∈ moves, steps.inv m.before.store ∧ steps.inv m.after.store ∧
    steps.does m.input.1 m.before.store m.after.store

/-- A move that changes nothing is a step, too. -/
theorem movesDo_of_guar (h : Concurrent.Run store procs moves system)
    (hguar : ∀ m ∈ moves, steps.inv m.before.store ∧ steps.inv m.after.store ∧
      (m.output = true → steps.does m.input.1 m.before.store m.after.store)) :
    MovesDo steps moves := by
  intro m hm
  obtain ⟨hbefore, hafter, hdoes⟩ := hguar m hm
  refine ⟨hbefore, hafter, ?_⟩
  obtain ⟨A, B, rfl⟩ := List.append_of_mem hm
  rcases step_cases h.cut.2.1 with ⟨-, hidle⟩ | ⟨_, _, _, houtput, -⟩
  · rw [hidle]
    exact steps.refl _ _
  · exact hdoes houtput

/-- The moves of a run of safe calls. -/
theorem run_does (h : Concurrent.Run store procs moves system)
    (hrely : ∀ i j s t, i ≠ j → steps.does i s t → steps.rely j s t)
    (hsafe : ∀ i p, procs[i]? = some p → steps.Safe i p store fun _ _ => True)
    (hs : steps.inv store) : MovesDo steps moves := by
  have hall : AllSafe steps.contract ⟨store, procs⟩ := fun i p hp =>
    (hsafe i p hp).mono (fun _ _ _ => trivial) fun _ _ _ => trivial
  have hinv : ∀ i, (steps.contract i).inv = steps.inv := fun _ => rfl
  refine movesDo_of_guar h (Concurrent.Run.safe h hall hinv ?_ hs fun _ _ _ => trivial).2
  intro i j s t hij _ _ hdoes
  exact hrely i j s t hij hdoes

/-- How the calls of a run end. -/
theorem run_ends {post : Nat → Unit → S → Prop} {fail : Nat → HttpError → S → Prop}
    (h : Concurrent.Run store procs moves system)
    (hrely : ∀ i j s t, i ≠ j → steps.does i s t → steps.rely j s t)
    (hsafe : ∀ i p, procs[i]? = some p → steps.SafeTo i p store (post i) (fail i))
    (hs : steps.inv store) :
    MovesDo steps moves ∧ ∀ i (p : Program S Unit), system.procs[i]? = some p →
      p.EndsIn (post i) (fail i) system.store := by
  have hinv : ∀ i, (steps.contract i).inv = steps.inv := fun _ => rfl
  have hends : AllEnd steps.contract post fail ⟨store, procs⟩ := hsafe
  obtain ⟨hall, -, hguar⟩ := Concurrent.Run.ends h hends hinv
    (fun i j s t hij _ _ hdoes => hrely i j s t hij hdoes) hs fun _ _ _ => trivial
  exact ⟨movesDo_of_guar h hguar, fun i p hp => hall.endsIn hp⟩

/-- The moves of a sequential run of calls that are safe by themselves. -/
theorem sequential_does (h : Concurrent.Run store procs moves system)
    (hsequential : Sequential moves)
    (hsafe : ∀ i p, procs[i]? = some p → ∀ s, steps.inv s → steps.Safe i p s fun _ _ => True)
    (hs : steps.inv store) : MovesDo steps moves := by
  have hinv : ∀ i, (steps.contract i).inv = steps.inv := fun _ => rfl
  refine movesDo_of_guar h
    (Concurrent.Run.safe_sequential h hsequential (fun i p hp s hs => ?_) hinv hs
      fun _ _ _ => trivial).2
  exact (hsafe i p hp s hs).mono (fun _ _ _ => trivial) fun _ _ _ => trivial

/-- What every step keeps, given the moves before it, holds at the end of a run. -/
theorem MovesDo.induction {P : List (Concurrent.Move S Choice HttpError Unit) → S → Prop}
    (hdoes : MovesDo steps moves) (h : Concurrent.Run store procs moves system)
    (hstart : P [] store)
    (hstep : ∀ past m, P past m.before.store → m ∈ moves → steps.inv m.before.store →
      steps.does m.input.1 m.before.store m.after.store → P (past ++ [m]) m.after.store) :
    P moves system.store := by
  refine Machine.Run.invariant (P := fun past s => past ⊆ moves → P past s.store) h
    (fun _ => hstart) ?_ (List.Subset.refl _)
  intro past m ih _ hsubset
  have hm : m ∈ moves := hsubset (List.mem_append_right _ (List.mem_singleton_self m))
  obtain ⟨hbefore, -, hstepped⟩ := hdoes m hm
  exact hstep past m (ih fun m' hm' => hsubset (List.mem_append_left _ hm')) hm hbefore hstepped

end Runs

end Steps

end Services
