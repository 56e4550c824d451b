import VitoPlatform.SourceVault.Sources

/-!
# What the calls of the vault do to it

The sources and the objects of a vault belong together (`Sound`), and every step of a call keeps
that and leaves the uploads of the other calls alone (`Does`). A source never changes but for its
validation status, and is never removed (`Grows`).
-/

namespace SourceVault.Sources

open Text Concurrent Services

/-- An adapter that serves the URIs of what it has stored, and deletes objects that are there. -/
structure Adapter (port : ObjectStoragePort) where
  view : View port
  Inv : port.State → Prop
  Regular : SourceVault.Call → Prop
  adapts : Adapts port view Inv Regular
  serves : ∀ uri input, Regular (.putImmutable input) → view.keyOf uri = some (view.place input) →
    Regular (.existsAt uri) ∧ Regular (.get uri) ∧ Regular (.delete uri)
  deletes : ∀ uri key body state, Regular (.delete uri) → Inv state → view.keyOf uri = some key →
    view.objects state key = some body → (port.delete uri state).1 = .ok ()

variable {port : ObjectStoragePort} {adapter : Adapter port} {digest : Digest}

/-! ## Sources -/

/-- Every source stays as it is, but for its status. -/
def Grows (rows rows' : List Source) : Prop :=
  ∀ row ∈ rows, ∃ row' ∈ rows', row'.superseded = row.superseded

theorem Grows.refl (rows : List Source) : Grows rows rows := fun row h => ⟨row, h, rfl⟩

/-- A source is among the rows, but for its status. -/
def Listed (rows : List Source) (source : Source) : Prop :=
  ∃ row ∈ rows, row.superseded = source.superseded

theorem Listed.grows {rows rows' : List Source} {source : Source} (h : Listed rows source)
    (hgrows : Grows rows rows') : Listed rows' source := by
  obtain ⟨row, hrow, hsame⟩ := h
  obtain ⟨row', hrow', hsame'⟩ := hgrows row hrow
  exact ⟨row', hrow', hsame'.trans hsame⟩

/-- The organization and the digest of a source. -/
def Source.hash (source : Source) : Str × Str := (source.organizationId, source.sha256)

/-- The version of a source that supersedes another one, or none. -/
def IsNext (rows : List Source) (organizationId : Str) (supersedesSourceId : Option Str)
    (version : Nat) : Prop :=
  match given supersedesSourceId with
  | none => version = 1
  | some id => ∃ row ∈ rows, row.id = id ∧ row.organizationId = organizationId ∧
      version = row.version + 1

theorem IsNext.grows {rows rows' : List Source} {organizationId : Str}
    {supersedesSourceId : Option Str} {version : Nat}
    (h : IsNext rows organizationId supersedesSourceId version) (hgrows : Grows rows rows') :
    IsNext rows' organizationId supersedesSourceId version := by
  unfold IsNext at h ⊢
  cases hid : given supersedesSourceId with
  | none =>
      rw [hid] at h
      exact h
  | some id =>
      rw [hid] at h
      obtain ⟨row, hrow, hrowId, horganization, hversion⟩ := h
      obtain ⟨row', hrow', hsame⟩ := hgrows row hrow
      exact ⟨row', hrow', (congrArg Source.id hsame).trans hrowId,
        (congrArg Source.organizationId hsame).trans horganization,
        hversion.trans (congrArg (fun source => source.version + 1) hsame).symm⟩

/-- The version of a source follows the one that it supersedes. -/
def Follows (rows : List Source) (source : Source) : Prop :=
  IsNext rows source.organizationId source.supersedesSourceId source.version

theorem Follows.same {rows : List Source} {source other : Source} (h : Follows rows source)
    (hsame : other.superseded = source.superseded) : Follows rows other := by
  have hsupersedes : other.supersedesSourceId = source.supersedesSourceId :=
    (congrArg Source.supersedesSourceId hsame).trans rfl
  have horganization : other.organizationId = source.organizationId :=
    (congrArg Source.organizationId hsame).trans rfl
  have hversion : other.version = source.version :=
    (congrArg Source.version hsame).trans rfl
  unfold Follows at h ⊢
  rw [hsupersedes, horganization, hversion]
  exact h

/-- Every source follows the one that it supersedes, which is marked as superseded. -/
structure Lined (rows : List Source) : Prop where
  named : ∀ row ∈ rows, row.supersedesSourceId ≠ some []
  follows : ∀ row ∈ rows, Follows rows row
  marked : ∀ row ∈ rows, ∀ old ∈ rows, given row.supersedesSourceId = some old.id →
    old.validationStatus = .superseded

/-! ## Uploads -/

/-- What a session has stored. -/
def Vault.ofSession (s : Vault port) (session : Nat) : List Upload :=
  s.uploads.filter (·.session = session)

/-- The object of an upload is there. -/
def Adapter.Holds (adapter : Adapter port) (objects : port.State) (upload : Upload) : Prop :=
  ∃ key, adapter.view.keyOf upload.uri = some key ∧
    adapter.view.objects objects key = some upload.body

/-- The source of an upload, if there is one, is that of its object. -/
def Upload.Registered (digest : Digest) (rows : List Source) (upload : Upload) : Prop :=
  ∀ id ∈ upload.source, ∃ row ∈ rows, row.id = id ∧ row.storageUri = upload.uri ∧
    row.sha256 = digest.sha256Hex upload.body

/-- The sources and the objects of a vault belong together. -/
structure Sound (adapter : Adapter port) (digest : Digest) (s : Vault port) : Prop where
  objects : adapter.Inv s.objects
  ids : (s.sources.map Source.id).Nodup
  hashes : (s.sources.map Source.hash).Nodup
  lined : Lined s.sources
  readable : ∀ row ∈ s.sources,
    adapter.Regular (.existsAt row.storageUri) ∧ adapter.Regular (.get row.storageUri)
  held : ∀ upload ∈ s.uploads, adapter.Holds s.objects upload
  served : ∀ upload ∈ s.uploads, adapter.Regular (.delete upload.uri)
  apart : (s.uploads.map fun upload => adapter.view.keyOf upload.uri).Nodup
  registered : ∀ upload ∈ s.uploads, upload.Registered digest s.sources

/-- An upload that has become a source has been one before, or the source is new. -/
def Fresh (s t : Vault port) : Prop :=
  ∀ upload ∈ t.uploads, ∀ id ∈ upload.source, upload ∈ s.uploads ∨
    ∀ row ∈ s.sources, row.id ≠ id

theorem Fresh.of_subset {s t : Vault port} (h : ∀ upload ∈ t.uploads, upload ∈ s.uploads) :
    Fresh s t := fun upload hupload _ _ => .inl (h upload hupload)

/-- What a step of a call does. -/
structure Does (adapter : Adapter port) (digest : Digest) (i : Nat) (s t : Vault port) : Prop where
  sound : Sound adapter digest s → Sound adapter digest t
  grows : Grows s.sources t.sources
  others : ∀ j, j ≠ i → t.ofSession j = s.ofSession j
  fresh : Fresh s t

variable {i : Nat} {s t : Vault port}

theorem Does.refl (i : Nat) (s : Vault port) : Does adapter digest i s s :=
  ⟨fun h => h, Grows.refl _, fun _ _ => rfl, Fresh.of_subset fun _ h => h⟩

theorem Upload.Registered.grows {rows rows' : List Source} {upload : Upload}
    (h : upload.Registered digest rows) (hgrows : Grows rows rows') :
    upload.Registered digest rows' := by
  intro id hid
  obtain ⟨row, hrow, hrowId, huri, hhash⟩ := h id hid
  obtain ⟨row', hrow', hsame⟩ := hgrows row hrow
  exact ⟨row', hrow', (congrArg Source.id hsame).trans hrowId,
    (congrArg Source.storageUri hsame).trans huri, (congrArg Source.sha256 hsame).trans hhash⟩

/-! ## Steps on the objects -/

/-- A step that leaves the objects as they are. -/
theorem does_objects {objects : port.State} (hinv : adapter.Inv objects)
    (hobjects : adapter.view.objects objects = adapter.view.objects s.objects) :
    Does adapter digest i s { s with objects := objects } where
  sound hs :=
    { hs with
      objects := hinv
      held := fun upload hupload => by
        obtain ⟨key, hkey, hbody⟩ := hs.held upload hupload
        exact ⟨key, hkey, (congrFun hobjects key).trans hbody⟩ }
  grows := Grows.refl _
  others _ _ := rfl
  fresh := Fresh.of_subset fun _ h => h

/-- An object is stored where there was none. -/
theorem does_put {objects : port.State} {uri : Str} {body : Octets} {key : adapter.view.Key}
    (hinv : adapter.Inv objects) (hkey : adapter.view.keyOf uri = some key)
    (hnone : adapter.view.objects s.objects key = none)
    (hobjects : adapter.view.objects objects =
      Function.update (adapter.view.objects s.objects) key (some body))
    (hserved : adapter.Regular (.delete uri)) :
    Does adapter digest i s
      { s with objects := objects, uploads := s.uploads ++ [⟨i, uri, body, none⟩] } where
  sound hs := by
    -- No upload has its object where this one is stored.
    have hother : ∀ upload ∈ s.uploads, adapter.view.keyOf upload.uri ≠ some key := by
      intro upload hupload hsame
      obtain ⟨other, hother, hbody⟩ := hs.held upload hupload
      rw [hsame] at hother
      rw [← Option.some.inj hother, hnone] at hbody
      cases hbody
    exact
      { hs with
        objects := hinv
        held := by
          refine List.forall_mem_append.mpr ⟨fun upload hupload => ?_, ?_⟩
          · obtain ⟨other, hotherKey, hbody⟩ := hs.held upload hupload
            have hne : other ≠ key := fun heq => hother upload hupload (heq ▸ hotherKey)
            refine ⟨other, hotherKey, ?_⟩
            rw [hobjects, Function.update_of_ne hne, hbody]
          · refine List.forall_mem_singleton.mpr ⟨key, hkey, ?_⟩
            rw [hobjects, Function.update_self]
        served := List.forall_mem_append.mpr
          ⟨hs.served, List.forall_mem_singleton.mpr hserved⟩
        apart := by
          rw [List.map_append, List.map_singleton, hkey]
          refine List.nodup_append.mpr ⟨hs.apart, List.nodup_singleton _, ?_⟩
          rintro _ hupload _ hnew rfl
          obtain ⟨upload, hupload, hsame⟩ := List.mem_map.mp hupload
          exact hother upload hupload (hsame.trans (List.mem_singleton.mp hnew))
        registered := by
          refine List.forall_mem_append.mpr ⟨hs.registered, List.forall_mem_singleton.mpr ?_⟩
          intro id hid
          cases hid }
  grows := Grows.refl _
  others j hj := by
    have hnew : ([⟨i, uri, body, none⟩] : List Upload).filter (·.session = j) = [] := by
      simp [Ne.symm hj]
    rw [Vault.ofSession, List.filter_append, hnew, List.append_nil]
    rfl
  fresh upload hupload id hid := by
    obtain hold | hnew := List.mem_append.mp hupload
    · exact .inl hold
    · rw [List.mem_singleton.mp hnew] at hid
      cases hid

/-- A session deletes what it has stored. -/
theorem does_delete {objects : port.State} {upload : Upload} {key : adapter.view.Key}
    (hinv : adapter.Inv objects) (hown : s.ofSession i = [upload])
    (hkey : adapter.view.keyOf upload.uri = some key)
    (hobjects : adapter.view.objects objects =
      Function.update (adapter.view.objects s.objects) key none) :
    Does adapter digest i s
      { s with objects := objects, uploads := s.uploads.filter (·.session ≠ i) } where
  sound hs := by
    have hmem : upload ∈ s.uploads := by
      have hmem : upload ∈ s.ofSession i := by
        rw [hown]
        exact List.mem_singleton_self upload
      exact (List.mem_filter.mp hmem).1
    have hsession : upload.session = i := by
      have hmem : upload ∈ s.ofSession i := by
        rw [hown]
        exact List.mem_singleton_self upload
      simpa using (List.mem_filter.mp hmem).2
    have hsubset : ∀ other ∈ s.uploads.filter (·.session ≠ i), other ∈ s.uploads :=
      fun other hother => (List.mem_filter.mp hother).1
    exact
      { hs with
        objects := hinv
        held := by
          intro other hother
          obtain ⟨hother, hne⟩ := List.mem_filter.mp hother
          obtain ⟨otherKey, hotherKey, hbody⟩ := hs.held other hother
          have hdistinct : other ≠ upload := by
            rintro rfl
            simp [hsession] at hne
          -- Two uploads have their objects apart.
          have hapart : otherKey ≠ key := by
            rintro rfl
            exact hdistinct (List.inj_on_of_nodup_map hs.apart hother hmem
              (hotherKey.trans hkey.symm))
          refine ⟨otherKey, hotherKey, ?_⟩
          rw [hobjects, Function.update_of_ne hapart, hbody]
        served := fun other hother => hs.served other (hsubset other hother)
        apart := hs.apart.sublist (List.filter_sublist.map _)
        registered := fun other hother => hs.registered other (hsubset other hother) }
  grows := Grows.refl _
  others j hj := by
    rw [Vault.ofSession, List.filter_filter]
    refine List.filter_congr fun other _ => ?_
    by_cases hother : other.session = j
    · simp [hother, hj]
    · simp [hother]
  fresh := Fresh.of_subset fun other hother => (List.mem_filter.mp hother).1

/-! ## The creation of a source -/

/-- A source, marked if a new one supersedes it. -/
def Source.mark (new source : Source) : Source :=
  if given new.supersedesSourceId = some source.id then source.superseded else source

section Mark

variable (new source : Source)

@[simp] theorem Source.mark_superseded : (new.mark source).superseded = source.superseded := by
  unfold Source.mark
  split <;> rfl

@[simp] theorem Source.mark_id : (new.mark source).id = source.id :=
  (congrArg Source.id (Source.mark_superseded new source)).trans rfl

@[simp] theorem Source.mark_hash : (new.mark source).hash = source.hash :=
  (congrArg Source.hash (Source.mark_superseded new source)).trans rfl

@[simp] theorem Source.mark_sha256 : (new.mark source).sha256 = source.sha256 :=
  (congrArg Source.sha256 (Source.mark_superseded new source)).trans rfl

@[simp] theorem Source.mark_storageUri : (new.mark source).storageUri = source.storageUri :=
  (congrArg Source.storageUri (Source.mark_superseded new source)).trans rfl

@[simp] theorem Source.mark_supersedesSourceId :
    (new.mark source).supersedesSourceId = source.supersedesSourceId :=
  (congrArg Source.supersedesSourceId (Source.mark_superseded new source)).trans rfl

end Mark

theorem Source.mark_status {new source : Source} (h : source.validationStatus = .superseded) :
    (new.mark source).validationStatus = .superseded := by
  unfold Source.mark
  split
  · rfl
  · exact h

theorem Vault.insertSource_eq (s : Vault port) (row : Source) :
    s.insertSource row = (s.sources ++ [row]).map row.mark := by
  unfold Vault.insertSource Source.mark
  cases hid : given row.supersedesSourceId with
  | none => simp
  | some id => simp only [Tables.write, Option.some.injEq, eq_comm]

theorem Vault.isNew_iff {row : Source} : s.isNew row = true ↔ ∀ source ∈ s.sources,
    source.id ≠ row.id ∧ source.sourceId ≠ row.sourceId ∧
      (source.organizationId = row.organizationId → source.sha256 ≠ row.sha256) := by
  simp [Vault.isNew, imp_iff_not_or]

theorem grows_insertSource (row : Source) : Grows s.sources (s.insertSource row) := by
  intro source hsource
  rw [Vault.insertSource_eq]
  exact ⟨row.mark source, List.mem_map_of_mem (List.mem_append_left _ hsource),
    Source.mark_superseded row source⟩

theorem listed_insertSource (row : Source) : Listed (s.insertSource row) row := by
  rw [Vault.insertSource_eq]
  exact ⟨row.mark row, List.mem_map_of_mem (List.mem_append_right _ (List.mem_singleton_self row)),
    Source.mark_superseded row row⟩

/-- A new source keeps the line, and marks the one that it supersedes. -/
theorem Lined.insertSource {row : Source} (h : Lined s.sources) (hnew : s.isNew row = true)
    (hnamed : row.supersedesSourceId ≠ some []) (hfollows : Follows s.sources row) :
    Lined (s.insertSource row) where
  named := by
    intro source hsource
    rw [Vault.insertSource_eq] at hsource
    obtain ⟨old, hold, rfl⟩ := List.mem_map.mp hsource
    rw [Source.mark_supersedesSourceId]
    obtain hold | hold := List.mem_append.mp hold
    · exact h.named old hold
    · rw [List.mem_singleton.mp hold]
      exact hnamed
  follows := by
    intro source hsource
    rw [Vault.insertSource_eq] at hsource
    obtain ⟨old, hold, rfl⟩ := List.mem_map.mp hsource
    have hfollowsOld : Follows s.sources old := by
      obtain hold | hold := List.mem_append.mp hold
      · exact h.follows old hold
      · rw [List.mem_singleton.mp hold]
        exact hfollows
    have hfollows' : Follows (s.insertSource row) old := hfollowsOld.grows (grows_insertSource row)
    exact hfollows'.same (Source.mark_superseded row old)
  marked := by
    intro source hsource old hold hsupersedes
    rw [Vault.insertSource_eq] at hsource hold
    obtain ⟨a, ha, rfl⟩ := List.mem_map.mp hsource
    obtain ⟨b, hb, rfl⟩ := List.mem_map.mp hold
    rw [Source.mark_supersedesSourceId, Source.mark_id] at hsupersedes
    obtain ha | ha := List.mem_append.mp ha
    · -- What an old source supersedes is an old one.
      have hfollowsOld := h.follows a ha
      rw [Follows, IsNext, hsupersedes] at hfollowsOld
      obtain ⟨pred, hpred, hpredId, -⟩ := hfollowsOld
      obtain hb | hb := List.mem_append.mp hb
      · exact Source.mark_status (h.marked a ha b hb hsupersedes)
      · rw [List.mem_singleton.mp hb] at hpredId
        exact absurd hpredId (Vault.isNew_iff.mp hnew pred hpred).1
    · rw [List.mem_singleton.mp ha] at hsupersedes
      rw [Source.mark, if_pos hsupersedes]
      rfl

/-- The uploads after the creation of a source. -/
def Vault.uploadsAfter (s : Vault port) (session : Nat) (uri : Option Str) (id : Str) :
    List Upload :=
  if uri.isSome then Tables.write Upload.session s.uploads session (Upload.registered id)
  else s.uploads

theorem mem_uploadsAfter {uri : Option Str} {id : Str} {upload : Upload}
    (h : upload ∈ s.uploadsAfter i uri id) : upload ∈ s.uploads ∨
      ∃ old ∈ s.ofSession i, uri.isSome = true ∧ upload = old.registered id := by
  unfold Vault.uploadsAfter at h
  split at h
  · rename_i huri
    obtain ⟨old, hold, rfl⟩ := Tables.mem_write.mp h
    split
    · rename_i hsession
      exact .inr ⟨old, List.mem_filter.mpr ⟨hold, decide_eq_true hsession⟩, huri, rfl⟩
    · exact .inl hold
  · exact .inl h

theorem map_uploadsAfter {β : Type} (f : Upload → β)
    (hf : ∀ id upload, f (upload.registered id) = f upload) (uri : Option Str) (id : Str) :
    (s.uploadsAfter i uri id).map f = s.uploads.map f := by
  unfold Vault.uploadsAfter
  split
  · exact Tables.map_write_of_same (hf id)
  · rfl

theorem ofSession_uploadsAfter (uri : Option Str) (id : Str) (j : Nat) :
    (s.uploadsAfter i uri id).filter (·.session = j) =
      if uri.isSome = true ∧ j = i then (s.ofSession j).map (Upload.registered id)
      else s.ofSession j := by
  unfold Vault.uploadsAfter Vault.ofSession
  by_cases huri : uri.isSome = true
  · have hsame : ((fun upload : Upload => decide (upload.session = j)) ∘ fun upload =>
        if upload.session = i then upload.registered id else upload) =
          fun upload => decide (upload.session = j) := by
      funext upload
      rw [Function.comp_apply]
      split <;> rfl
    rw [if_pos huri, Tables.write, List.filter_map, hsame]
    by_cases hj : j = i
    · rw [if_pos ⟨huri, hj⟩]
      refine List.map_congr_left fun upload hupload => if_pos ?_
      rw [of_decide_eq_true (List.mem_filter.mp hupload).2, hj]
    · rw [if_neg (fun h => hj h.2)]
      refine (List.map_congr_left fun upload hupload => if_neg ?_).trans (List.map_id _)
      rw [of_decide_eq_true (List.mem_filter.mp hupload).2]
      exact hj
  · rw [if_neg huri, if_neg (fun h => huri h.1)]

/-- A session creates a source, for what it has stored or without an upload. -/
theorem does_create {uri : Option Str} {row : Source} (hnew : s.isNew row = true)
    (hnamed : row.supersedesSourceId ≠ some [])
    (hfollows : Follows s.sources row)
    (hreadable : adapter.Regular (.existsAt row.storageUri) ∧ adapter.Regular (.get row.storageUri))
    (hupload : uri.isSome = true → ∀ upload ∈ s.ofSession i, upload.uri = row.storageUri ∧
      row.sha256 = digest.sha256Hex upload.body) :
    Does adapter digest i s
      { s with sources := s.insertSource row, uploads := s.uploadsAfter i uri row.id } where
  sound hs := by
    have hnewRow := Vault.isNew_iff.mp hnew
    exact
      { objects := hs.objects
        ids := by
          rw [Vault.insertSource_eq, List.map_map]
          have hid : Source.id ∘ row.mark = Source.id :=
            funext fun source => Source.mark_id row source
          rw [hid, List.map_append, List.map_singleton]
          refine List.nodup_append.mpr ⟨hs.ids, List.nodup_singleton _, ?_⟩
          rintro _ hold _ hrow rfl
          obtain ⟨source, hsource, hsame⟩ := List.mem_map.mp hold
          exact (hnewRow source hsource).1 (hsame.trans (List.mem_singleton.mp hrow))
        hashes := by
          rw [Vault.insertSource_eq, List.map_map]
          have hhash : Source.hash ∘ row.mark = Source.hash :=
            funext fun source => Source.mark_hash row source
          rw [hhash, List.map_append, List.map_singleton]
          refine List.nodup_append.mpr ⟨hs.hashes, List.nodup_singleton _, ?_⟩
          rintro _ hold _ hrow rfl
          obtain ⟨source, hsource, hsame⟩ := List.mem_map.mp hold
          obtain ⟨horganization, hsha⟩ :=
            Prod.mk.inj (hsame.trans (List.mem_singleton.mp hrow))
          exact (hnewRow source hsource).2.2 horganization hsha
        lined := hs.lined.insertSource hnew hnamed hfollows
        readable := by
          intro source hsource
          rw [Vault.insertSource_eq] at hsource
          obtain ⟨old, hold, rfl⟩ := List.mem_map.mp hsource
          rw [Source.mark_storageUri]
          obtain hold | hold := List.mem_append.mp hold
          · exact hs.readable old hold
          · rw [List.mem_singleton.mp hold]
            exact hreadable
        held := by
          intro upload hmem
          obtain hold | ⟨old, hold, -, rfl⟩ := mem_uploadsAfter hmem
          · exact hs.held upload hold
          · exact hs.held old (List.mem_filter.mp hold).1
        served := by
          intro upload hmem
          obtain hold | ⟨old, hold, -, rfl⟩ := mem_uploadsAfter hmem
          · exact hs.served upload hold
          · exact hs.served old (List.mem_filter.mp hold).1
        apart := by
          rw [map_uploadsAfter _ fun _ _ => rfl]
          exact hs.apart
        registered := by
          intro upload hmem
          obtain hold | ⟨old, hold, huri, rfl⟩ := mem_uploadsAfter hmem
          · exact (hs.registered upload hold).grows (grows_insertSource row)
          · rintro id ⟨⟩
            obtain ⟨hold, hsha⟩ := hupload huri old hold
            obtain ⟨listed, hlisted, hsame⟩ := listed_insertSource (s := s) row
            exact ⟨listed, hlisted, (congrArg Source.id hsame).trans rfl,
              (congrArg Source.storageUri hsame).trans hold.symm,
              (congrArg Source.sha256 hsame).trans hsha⟩ }
  grows := grows_insertSource row
  others j hj := by
    rw [Vault.ofSession, ofSession_uploadsAfter, if_neg (fun h => hj h.2)]
  fresh upload hmem id hid := by
    obtain hold | ⟨old, -, -, rfl⟩ := mem_uploadsAfter hmem
    · exact .inl hold
    · obtain rfl : row.id = id := Option.some.inj hid
      exact .inr fun source hsource => (Vault.isNew_iff.mp hnew source hsource).1

end SourceVault.Sources
