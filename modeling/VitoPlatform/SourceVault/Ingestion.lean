import VitoPlatform.SourceVault.Registrations

/-!
# Registrations and uploads among other calls

Every step of a call does only what `Does` says, and a registration or an upload leaves of its
session what it answers: an upload that has become a source keeps its object, and one that is a
duplicate leaves none.
-/

namespace SourceVault.Sources

open Text Concurrent Services

variable {port : ObjectStoragePort} {adapter : Adapter port} {digest : Digest}

/-- What the other calls do. -/
structure Relies (adapter : Adapter port) (digest : Digest) (i : Nat) (s t : Vault port) :
    Prop where
  sound : Sound adapter digest s → Sound adapter digest t
  grows : Grows s.sources t.sources
  own : t.ofSession i = s.ofSession i
  fresh : Fresh s t

/-- The steps of the calls of a vault. -/
def vaultSteps (adapter : Adapter port) (digest : Digest) : Steps (Vault port) where
  inv := Sound adapter digest
  does := Does adapter digest
  rely := Relies adapter digest
  records _ _ _ := False
  refl := Does.refl
  keeps h := h.sound
  between h := h.elim Relies.sound False.elim

variable {i : Nat} {s t : Vault port} {own : List Upload} {organizationId id : Str}
  {dto : RegisterSourceDto} {uri : Option Str}

theorem Relies.of_does {j : Nat} (hij : i ≠ j) (h : Does adapter digest i s t) :
    Relies adapter digest j s t :=
  ⟨h.sound, h.grows, h.others j hij.symm, h.fresh⟩

/-! ## Assertions that the other calls keep -/

theorem stable_own : (vaultSteps adapter digest).Stable i fun t => t.ofSession i = own :=
  fun _ _ _ hown hbetween => hbetween.elim (fun h => h.own.trans hown) False.elim

theorem stable_listed {source : Source} :
    (vaultSteps adapter digest).Stable i fun t => Listed t.sources source :=
  fun _ _ _ hlisted hbetween => hbetween.elim (fun h => hlisted.grows h.grows) False.elim

theorem Grows.trans {rows rows' rows'' : List Source} (h : Grows rows rows')
    (h' : Grows rows' rows'') : Grows rows rows'' := by
  intro row hrow
  obtain ⟨row', hrow', hsame⟩ := h row hrow
  obtain ⟨row'', hrow'', hsame'⟩ := h' row' hrow'
  exact ⟨row'', hrow'', hsame'.trans hsame⟩

theorem stable_grows {rows : List Source} :
    (vaultSteps adapter digest).Stable i fun t => Grows rows t.sources :=
  fun _ _ _ hgrows hbetween => hbetween.elim (fun h => hgrows.trans h.grows) False.elim

theorem stable_isNext {supersedesSourceId : Option Str} {version : Nat} :
    (vaultSteps adapter digest).Stable i fun t =>
      IsNext t.sources organizationId supersedesSourceId version :=
  fun _ _ _ hnext hbetween => hbetween.elim (fun h => hnext.grows h.grows) False.elim

/-! ## Statements -/

theorem listed_of_findFirst {source : Source} (h : s.findFirst organizationId id = some source) :
    source ∈ s.sources ∧ source.id = id ∧ source.organizationId = organizationId := by
  have hfound := List.find?_some h
  rw [decide_eq_true_eq] at hfound
  exact ⟨List.mem_of_find?_eq_some h, hfound⟩

theorem listed_of_findUnique {sha256 : Str} {source : Source}
    (h : s.findUnique organizationId sha256 = some source) :
    source ∈ s.sources ∧ source.hash = (organizationId, sha256) := by
  have hfound := List.find?_some h
  rw [decide_eq_true_eq] at hfound
  exact ⟨List.mem_of_find?_eq_some h, Prod.ext hfound.1 hfound.2⟩

theorem Listed.of_mem {rows : List Source} {source : Source} (h : source ∈ rows) :
    Listed rows source := ⟨source, h, rfl⟩

theorem create_cases (s : Vault port) (session : Nat) (uri : Option Str) (row : Source) :
    s.create session uri row = (.ok none, s) ∨ s.create session uri row = (.error .database, s) ∨
      s.isNew row = true ∧ row.supersedesSourceId ≠ some [] ∧
        s.create session uri row = (.ok (some row), { s with
          sources := s.insertSource row
          uploads := s.uploadsAfter session uri row.id }) := by
  unfold Vault.create
  cases hnew : s.isNew row with
  | false => exact .inl rfl
  | true =>
      cases hrefers : s.refers row with
      | false => exact .inr (.inl rfl)
      | true =>
          refine .inr (.inr ⟨rfl, fun hempty => ?_, rfl⟩)
          rw [Vault.refers, hempty] at hrefers
          cases hrefers

/-! ## Registrations -/

/-- What a registration leaves of its session. -/
structure Registers (adapter : Adapter port) (digest : Digest) (i : Nat) (own : List Upload)
    (organizationId : Str) (dto : RegisterSourceDto) (uri : Option Str) (result : Registration)
    (t : Vault port) : Prop where
  sound : Sound adapter digest t
  listed : Listed t.sources result.source
  hash : result.source.hash = (organizationId, dto.sha256.map Char.toLower)
  duplicate : result.duplicate = true → t.ofSession i = own
  created : result.duplicate = false → result.source.storageUri = dto.storageUri ∧
    t.ofSession i =
      if uri.isSome then own.map (Upload.registered result.source.id) else own

/-- A registration or a part of it fails with the uploads of its session as they were. -/
def Unchanged (adapter : Adapter port) (digest : Digest) (i : Nat) (own : List Upload)
    (_ : HttpError) (t : Vault port) : Prop :=
  Sound adapter digest t ∧ t.ofSession i = own

theorem registers_duplicate {source : Source} (hs : Sound adapter digest s)
    (hown : s.ofSession i = own) (hlisted : Listed s.sources source)
    (hhash : source.hash = (organizationId, dto.sha256.map Char.toLower)) :
    (vaultSteps adapter digest).SafeTo i (.done ⟨true, source⟩ : Program (Vault port) Registration)
      s (Registers adapter digest i own organizationId dto uri)
      (Unchanged adapter digest i own) := by
  refine Steps.SafeTo.returns _ (stable_own.and stable_listed) hs ⟨hown, hlisted⟩ ?_
  rintro t ht ⟨hown, hlisted⟩
  exact ⟨ht, hlisted, hhash, fun _ => hown, (fun h => by cases h)⟩

theorem nextVersion_safe (supersedesSourceId : Option Str) (hs : Sound adapter digest s)
    (hown : s.ofSession i = own) :
    (vaultSteps adapter digest).SafeTo i (nextVersion organizationId supersedesSourceId) s
      (fun version t => Sound adapter digest t ∧ t.ofSession i = own ∧
        IsNext t.sources organizationId supersedesSourceId version)
      (Unchanged adapter digest i own) := by
  have hfail : ∀ (error : HttpError) t, Sound adapter digest t → t.ofSession i = own →
      Unchanged adapter digest i own error t := fun _ _ ht hown => ⟨ht, hown⟩
  unfold nextVersion
  cases hid : given supersedesSourceId with
  | none =>
      refine Steps.SafeTo.returns _ stable_own hs hown fun t ht hown => ⟨ht, hown, ?_⟩
      rw [IsNext, hid]
  | some id =>
      refine Steps.SafeTo.query_now _ stable_own hs hown (hfail _) fun t ht hown => ?_
      refine Steps.SafeTo.expect_bind _ stable_own ht hown (hfail _) fun source hsource => ?_
      obtain ⟨hmem, hsourceId, horganization⟩ := listed_of_findFirst hsource
      have hnext : IsNext t.sources organizationId supersedesSourceId (source.version + 1) := by
        rw [IsNext, hid]
        exact ⟨source, hmem, hsourceId, horganization, rfl⟩
      exact Steps.SafeTo.returns _ (stable_own.and stable_isNext) ht ⟨hown, hnext⟩
        fun u hu h => ⟨hu, h⟩

theorem assertParent_safe {A : Vault port → Prop} (stable : (vaultSteps adapter digest).Stable i A)
    {fail : HttpError → Vault port → Prop} (parentSourceId : Option Str)
    (hs : Sound adapter digest s) (hA : A s)
    (hfail : ∀ error t, Sound adapter digest t → A t → fail error t) :
    (vaultSteps adapter digest).SafeTo i (assertParent organizationId parentSourceId) s
      (fun _ t => Sound adapter digest t ∧ A t) fail := by
  unfold assertParent
  cases given parentSourceId with
  | none => exact Steps.SafeTo.returns _ stable hs hA fun t ht hA => ⟨ht, hA⟩
  | some id =>
      refine Steps.SafeTo.query_now _ stable hs hA (hfail _) fun t ht hA => ?_
      rw [← Proc.bind_done (Proc.require _ _)]
      exact Steps.SafeTo.checked_bind _ stable (ended_require _ _) ht hA hfail
        fun _ _ => Steps.SafeTo.returns _ stable ht hA fun u hu hA => ⟨hu, hA⟩

theorem duplicateAfterRace_safe (hs : Sound adapter digest s) (hown : s.ofSession i = own) :
    (vaultSteps adapter digest).SafeTo i
      (duplicateAfterRace organizationId (dto.sha256.map Char.toLower)) s
      (Registers adapter digest i own organizationId dto uri)
      (Unchanged adapter digest i own) := by
  have hfail : ∀ (error : HttpError) t, Sound adapter digest t → t.ofSession i = own →
      Unchanged adapter digest i own error t := fun _ _ ht hown => ⟨ht, hown⟩
  unfold duplicateAfterRace
  refine Steps.SafeTo.query_now _ stable_own hs hown (hfail _) fun t ht hown => ?_
  refine Steps.SafeTo.expect_bind _ stable_own ht hown (hfail _) fun source hsource => ?_
  obtain ⟨hmem, hhash⟩ := listed_of_findUnique hsource
  exact registers_duplicate ht hown (.of_mem hmem) hhash

/-- A registration creates one source, or finds one with the same digest. -/
theorem register_safe (override : Option Str) (hs : Sound adapter digest s)
    (hown : s.ofSession i = own)
    (hreadable : adapter.Regular (.existsAt dto.storageUri) ∧
      adapter.Regular (.get dto.storageUri))
    (hupload : uri.isSome = true → ∀ upload ∈ own, upload.uri = dto.storageUri ∧
      dto.sha256.map Char.toLower = digest.sha256Hex upload.body) :
    (vaultSteps adapter digest).SafeTo i (register digest i organizationId dto override uri) s
      (Registers adapter digest i own organizationId dto uri)
      (Unchanged adapter digest i own) := by
  have hfail : ∀ (error : HttpError) t, Sound adapter digest t → t.ofSession i = own →
      Unchanged adapter digest i own error t := fun _ _ ht hown => ⟨ht, hown⟩
  unfold register
  refine Steps.SafeTo.query_now _ stable_own hs hown (hfail _) fun t ht hown => ?_
  cases hfound : t.findUnique organizationId (dto.sha256.map Char.toLower) with
  | some source =>
      obtain ⟨hmem, hhash⟩ := listed_of_findUnique hfound
      exact registers_duplicate ht hown (.of_mem hmem) hhash
  | none =>
      refine Steps.SafeTo.part_bind (nextVersion_safe dto.supersedesSourceId ht hown) ?_
      rintro version u ⟨hu, hboth⟩
      have hstable : (vaultSteps adapter digest).Stable i fun t => t.ofSession i = own ∧
          IsNext t.sources organizationId dto.supersedesSourceId version :=
        stable_own.and stable_isNext
      refine Steps.SafeTo.part_bind (assertParent_safe hstable dto.parentSourceId hu hboth
        fun error t ht hboth => ⟨ht, hboth.1⟩) ?_
      rintro - v ⟨hv, hboth⟩
      refine Steps.SafeTo.change_bind _ hstable hv hboth (fun error t ht hboth => ⟨ht, hboth.1⟩) ?_
      rintro w c hw ⟨hown, hnext⟩
      generalize hrow : dto.source organizationId (dto.sha256.map Char.toLower) c.id
        (override.getD (createHumanSourceId (digest.year c.now) c.id)) version = row
      obtain hnone | herror | ⟨hnew, hnamed, hcreated⟩ := create_cases w i uri row
      · rw [hnone]
        refine ⟨Does.refl _ _, ?_, (fun error herror => by cases herror)⟩
        rintro _ ⟨⟩ hafter
        exact duplicateAfterRace_safe hafter hown
      · rw [herror]
        exact ⟨Does.refl _ _, (fun created hok => by cases hok), fun _ _ => ⟨hown, hnext⟩⟩
      · rw [hcreated]
        subst hrow
        refine ⟨does_create hnew hnamed hnext hreadable ?_, ?_,
          (fun error herror => by cases herror)⟩
        · rw [hown]
          intro huri upload hmem
          exact hupload huri upload hmem
        · rintro _ ⟨⟩ hafter
          refine Steps.SafeTo.returns _ (stable_own.and stable_listed) hafter
            ⟨ofSession_uploadsAfter uri c.id i, listed_insertSource _⟩ ?_
          rintro v hv ⟨hown', hlisted⟩
          refine ⟨hv, hlisted, rfl, (fun h => by cases h), fun _ => ⟨rfl, ?_⟩⟩
          rw [hown']
          by_cases huri : uri.isSome = true
          · rw [if_pos ⟨huri, rfl⟩, if_pos huri, hown]
            rfl
          · rw [if_neg (fun h => huri h.1), if_neg huri, hown]

/-! ## Uploads -/

/-- What an upload leaves of its session. -/
structure Uploads (adapter : Adapter port) (digest : Digest) (i : Nat) (organizationId : Str)
    (file : UploadedSourceFile) (result : Registration) (t : Vault port) : Prop where
  sound : Sound adapter digest t
  listed : Listed t.sources result.source
  hash : result.source.hash = (organizationId, digest.sha256Hex file.buffer)
  duplicate : result.duplicate = true → t.ofSession i = []
  created : result.duplicate = false → t.ofSession i =
    [⟨i, result.source.storageUri, file.buffer, some result.source.id⟩]

/-- An upload that fails has not become a source. -/
def Unregistered (adapter : Adapter port) (digest : Digest) (i : Nat) (_ : HttpError)
    (t : Vault port) : Prop :=
  Sound adapter digest t ∧ ∀ upload ∈ t.ofSession i, upload.source = none

theorem mem_of_ofSession {upload : Upload} (h : s.ofSession i = [upload]) :
    upload ∈ s.uploads := by
  have hmem : upload ∈ s.ofSession i := by
    rw [h]
    exact List.mem_singleton_self upload
  exact (List.mem_filter.mp hmem).1

/-- A session deletes the object that it has stored, or fails and leaves it. -/
theorem deleteObject_safe {upload : Upload} (hs : Sound adapter digest s)
    (hown : s.ofSession i = [upload]) :
    (vaultSteps adapter digest).SafeTo i (deleteObject i upload.uri) s
      (fun _ t => Sound adapter digest t ∧ t.ofSession i = [] ∧ Grows s.sources t.sources)
      (Unchanged adapter digest i [upload]) := by
  unfold deleteObject
  refine Steps.SafeTo.change_last _ (stable_own.and stable_grows) hs ⟨hown, Grows.refl _⟩
    (fun _ _ ht h => ⟨ht, h.1⟩) ?_
  rintro t c ht ⟨hown, hgrows⟩
  have hmem := mem_of_ofSession hown
  obtain ⟨key, hkey, hbody⟩ := ht.held upload hmem
  have hregular := ht.served upload hmem
  have hok := adapter.deletes upload.uri key upload.body t.objects hregular ht.objects hkey hbody
  obtain ⟨hinv, hobjects⟩ := adapter.adapts.delete upload.uri t.objects hregular ht.objects
  rw [hkey] at hobjects
  simp only [hok]
  refine ⟨does_delete hinv hown hkey hobjects, ?_, (fun error herror => by cases herror)⟩
  rintro _ - hafter
  have hempty : (t.uploads.filter (·.session ≠ i)).filter (·.session = i) = [] := by
    rw [List.filter_filter]
    simp
  exact Steps.SafeTo.returns _ (stable_own.and stable_grows) hafter ⟨hempty, hgrows⟩
    fun u hu h => ⟨hu, h⟩

/-- What has been stored becomes a source, or is deleted. -/
theorem registerStored_safe {file : UploadedSourceFile} {upload : UploadSourceDto} {sourceId : Str}
    {storageUri : Str} (hs : Sound adapter digest s)
    (hown : s.ofSession i = [⟨i, storageUri, file.buffer, none⟩])
    (hreadable : adapter.Regular (.existsAt storageUri) ∧ adapter.Regular (.get storageUri)) :
    (vaultSteps adapter digest).SafeTo i
      (registerStored digest i organizationId file upload sourceId storageUri) s
      (Uploads adapter digest i organizationId file)
      (Unchanged adapter digest i [⟨i, storageUri, file.buffer, none⟩]) := by
  unfold registerStored
  refine Steps.SafeTo.part_bind (register_safe _ hs hown hreadable ?_) ?_
  · intro _ stored hstored
    rw [List.mem_singleton.mp hstored]
    exact ⟨rfl, digest.lower file.buffer⟩
  · intro result t ht
    have hhash : result.source.hash = (organizationId, digest.sha256Hex file.buffer) := by
      rw [ht.hash]
      exact congrArg _ (digest.lower file.buffer)
    cases hduplicate : result.duplicate with
    | true =>
        refine Steps.SafeTo.part_bind (deleteObject_safe ht.sound (ht.duplicate hduplicate)) ?_
        rintro - u ⟨hu, hown, hgrows⟩
        refine Steps.SafeTo.returns _ (stable_own.and stable_listed) hu
          ⟨hown, ht.listed.grows hgrows⟩ ?_
        rintro v hv ⟨hown, hlisted⟩
        refine ⟨hv, hlisted, hhash, fun _ => hown, fun h => ?_⟩
        rw [hduplicate] at h
        cases h
    | false =>
        obtain ⟨huri, hown⟩ := ht.created hduplicate
        refine Steps.SafeTo.returns _ (stable_own.and stable_listed) ht.sound
          ⟨hown, ht.listed⟩ ?_
        rintro u hu ⟨hown, hlisted⟩
        refine ⟨hu, hlisted, hhash, fun h => ?_, fun _ => ?_⟩
        · rw [hduplicate] at h
          cases h
        · rw [hown, huri]
          rfl

theorem discardStored_safe {upload : Upload} (error : HttpError)
    {post : Registration → Vault port → Prop} (hs : Sound adapter digest s)
    (hown : s.ofSession i = [upload]) (hsource : upload.source = none) :
    (vaultSteps adapter digest).SafeTo i (discardStored i upload.uri error) s post
      (Unregistered adapter digest i) := by
  have hstable : (vaultSteps adapter digest).Stable i fun t =>
      ∀ upload ∈ t.ofSession i, upload.source = none := by
    intro t u _ hnone hbetween
    obtain h | h := hbetween
    · rw [h.own]
      exact hnone
    · exact h.elim
  have hthrow : ∀ t, Sound adapter digest t → (∀ upload ∈ t.ofSession i, upload.source = none) →
      (vaultSteps adapter digest).SafeTo i (.throw error : Program (Vault port) Registration) t
        post (Unregistered adapter digest i) := fun t ht hnone =>
    Steps.SafeTo.throws _ hstable ht hnone fun u hu hnone => ⟨hu, hnone⟩
  have hdiscard : (vaultSteps adapter digest).SafeTo i
      ((deleteObject i upload.uri).tryCatch fun _ => pure () : Program (Vault port) Unit) s
      (fun _ t => Sound adapter digest t ∧ ∀ upload ∈ t.ofSession i, upload.source = none)
      (Unregistered adapter digest i) := by
    refine Safe.tryCatch ((deleteObject_safe hs hown).mono ?_ ?_)
    · rintro - t ⟨ht, hempty, -⟩
      rw [hempty]
      exact ⟨ht, List.forall_mem_nil _⟩
    · rintro other t ⟨ht, hown⟩
      refine Steps.SafeTo.returns _ hstable ht ?_ fun u hu hnone => ⟨hu, hnone⟩
      rw [hown]
      exact List.forall_mem_singleton.mpr hsource
  exact Steps.SafeTo.part_bind hdiscard fun _ t ht => hthrow t ht.1 ht.2

/-- An upload ends with a source that has its object, or with a duplicate and no object; if it
fails, it has not become a source. -/
theorem ingestUpload_safe {file : UploadedSourceFile} {upload : UploadSourceDto}
    (hregular : ∀ now id, adapter.Regular (.putImmutable
      (file.object organizationId (createHumanSourceId (digest.year now) id))))
    (hs : Sound adapter digest s) (hown : s.ofSession i = []) :
    (vaultSteps adapter digest).SafeTo i (ingestUpload digest i organizationId file upload) s
      (Uploads adapter digest i organizationId file) (Unregistered adapter digest i) := by
  have hfail : ∀ (error : HttpError) t, Sound adapter digest t → t.ofSession i = [] →
      Unregistered adapter digest i error t := by
    intro error t ht hown
    rw [Unregistered, hown]
    exact ⟨ht, List.forall_mem_nil _⟩
  unfold ingestUpload
  refine Steps.SafeTo.query_now _ stable_own hs hown (hfail _) fun t ht hown => ?_
  cases hfound : t.findUnique organizationId (digest.sha256Hex file.buffer) with
  | some source =>
      obtain ⟨hmem, hhash⟩ := listed_of_findUnique hfound
      refine Steps.SafeTo.returns _ (stable_own.and stable_listed) ht
        ⟨hown, Listed.of_mem hmem⟩ ?_
      rintro u hu ⟨hown, hlisted⟩
      exact ⟨hu, hlisted, hhash, fun _ => hown, (fun h => by cases h)⟩
  | none =>
      refine Steps.SafeTo.change_bind _ stable_own ht hown hfail ?_
      intro u c hu hown
      have hput := hregular c.now c.id
      generalize hinput : file.object organizationId
        (createHumanSourceId (digest.year c.now) c.id) = input at hput
      obtain ⟨hinv, hcases⟩ := adapter.adapts.put input u.objects hput hu.objects
      obtain ⟨object, hkey, hnone, hok, hobjects⟩ | ⟨-, ⟨error, herror⟩, hobjects⟩ := hcases
      · obtain ⟨hexists, hget, hdelete⟩ := adapter.serves object.storageUri input hput hkey
        have hbody : input.body = file.buffer := by
          rw [← hinput]
          rfl
        rw [hbody] at hobjects
        simp only [hinput, hok]
        refine ⟨does_put hinv hkey hnone hobjects hdelete, ?_,
          (fun error herror => by cases herror)⟩
        rintro _ ⟨⟩ hafter
        have hstored : (u.uploads ++ [(⟨i, object.storageUri, file.buffer, none⟩ : Upload)]).filter
            (·.session = i) = [⟨i, object.storageUri, file.buffer, none⟩] := by
          have hold : u.uploads.filter (·.session = i) = [] := hown
          rw [List.filter_append, hold]
          simp
        refine Safe.tryCatch ((registerStored_safe hafter hstored ⟨hexists, hget⟩).mono
          (fun _ _ h => h) ?_)
        rintro error v ⟨hv, hown⟩
        exact discardStored_safe error hv hown rfl
      · simp only [hinput, herror]
        exact ⟨does_objects hinv hobjects, (fun _ hok => by cases hok), fun _ _ => hown⟩

end SourceVault.Sources
