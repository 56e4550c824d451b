import VitoPlatform.SourceVault.Ingestion

/-!
# Contents and lineages among other calls

The content of a source is what its upload has stored (`getContent_safe`). The lineage of a source
goes back without a gap to the first version, whatever is registered while its loop runs
(`lineage_safe`).
-/

namespace SourceVault.Sources

open Text Concurrent Services

variable {port : ObjectStoragePort} {adapter : Adapter port} {digest : Digest} {i : Nat}
  {s t : Vault port} {organizationId id : Str} {source : Source}

/-- The row of a source that is listed. -/
theorem Listed.eq_of_id (h : Listed s.sources source) (hs : Sound adapter digest s) {row : Source}
    (hrow : row ∈ s.sources) (hid : row.id = source.id) : row.superseded = source.superseded := by
  obtain ⟨listed, hlisted, hsame⟩ := h
  have hlistedId : listed.id = source.id := (congrArg Source.id hsame).trans rfl
  rw [List.inj_on_of_nodup_map hs.ids hrow hlisted (hid.trans hlistedId.symm)]
  exact hsame

/-! ## Contents -/

/-- The uploads that have become a certain source stay the same. -/
theorem stable_uploads (P : Upload → Prop) : (vaultSteps adapter digest).Stable i fun t =>
    Listed t.sources source ∧ ∀ upload ∈ t.uploads, source.id ∈ upload.source → P upload := by
  rintro t u - ⟨hlisted, hP⟩ (hrelies | hfalse)
  · refine ⟨hlisted.grows hrelies.grows, fun upload hupload hsource => ?_⟩
    obtain hold | hnew := hrelies.fresh upload hupload _ hsource
    · exact hP upload hold hsource
    · obtain ⟨row, hrow, hsame⟩ := hlisted
      exact absurd ((congrArg Source.id hsame).trans rfl) (hnew row hrow)
  · exact hfalse.elim

/-- The upload of a listed source has its URI and its digest. -/
theorem Sound.upload_source (hs : Sound adapter digest s) (hlisted : Listed s.sources source)
    {upload : Upload} (hupload : upload ∈ s.uploads) (hsource : source.id ∈ upload.source) :
    source.storageUri = upload.uri ∧ source.sha256 = digest.sha256Hex upload.body := by
  obtain ⟨row, hrow, hid, huri, hsha⟩ := hs.registered upload hupload _ hsource
  have hsame := hlisted.eq_of_id hs hrow hid
  exact ⟨(congrArg Source.storageUri hsame).symm.trans huri,
    (congrArg Source.sha256 hsame).symm.trans hsha⟩

theorem Sound.readable_listed (hs : Sound adapter digest s) (hlisted : Listed s.sources source) :
    adapter.Regular (.existsAt source.storageUri) ∧ adapter.Regular (.get source.storageUri) := by
  obtain ⟨row, hrow, hsame⟩ := hlisted
  have huri : row.storageUri = source.storageUri := (congrArg Source.storageUri hsame).trans rfl
  rw [← huri]
  exact hs.readable row hrow

/-- What a content call answers: the bytes of every upload that has become the source. -/
structure Reads (digest : Digest) (organizationId id : Str) (result : Source × Octets)
    (t : Vault port) : Prop where
  listed : Listed t.sources result.1
  source : result.1.id = id
  organization : result.1.organizationId = organizationId
  digest : digest.sha256Hex result.2 = result.1.sha256
  body : ∀ upload ∈ t.uploads, id ∈ upload.source → upload.body = result.2

/-- The check of the digest fails only where no upload has become the source. -/
def Unreadable (id : Str) (error : HttpError) (t : Vault port) : Prop :=
  (∃ message, error = .conflict message) → ∀ upload ∈ t.uploads, id ∉ upload.source

theorem unreadable_of_ne {error : HttpError} (h : ∀ message, error ≠ .conflict message) :
    Unreadable id error t := by
  rintro ⟨message, rfl⟩
  exact absurd rfl (h message)

theorem unreadable_database (t : Vault port) : Unreadable id .database t :=
  unreadable_of_ne fun _ h => by cases h

theorem unreadable_notFound (message : String) (t : Vault port) :
    Unreadable id (.notFound message) t := unreadable_of_ne fun _ h => by cases h

theorem existsAt_safe (hs : Sound adapter digest s) (hlisted : Listed s.sources source) :
    (vaultSteps adapter digest).SafeTo i (existsAt source.storageUri) s
      (fun _ t => Sound adapter digest t ∧ Listed t.sources source) (Unreadable id) := by
  unfold existsAt
  rw [← Proc.bind_done (change _)]
  refine Steps.SafeTo.step_bind _ stable_listed hs hlisted (fun t _ _ => unreadable_database t) ?_
  intro t c ht hlisted
  obtain ⟨hinv, hobjects⟩ :=
    adapter.adapts.existsAt source.storageUri t.objects (ht.readable_listed hlisted).1 ht.objects
  cases hresult : (port.existsAt source.storageUri t.objects).1 with
  | error error =>
      simp only [hresult]
      refine ⟨does_objects hinv hobjects, (fun _ h => by cases h), ?_⟩
      rintro _ ⟨⟩ hafter
      exact Steps.SafeTo.throws _ stable_listed hafter hlisted fun u _ _ => unreadable_database u
  | ok found =>
      simp only [hresult]
      refine ⟨does_objects hinv hobjects, ?_, (fun _ h => by cases h)⟩
      rintro _ ⟨⟩ hafter
      exact Steps.SafeTo.returns _ stable_listed hafter hlisted fun u hu h => ⟨hu, h⟩

/-- An object that is read is what every upload of the source has stored. -/
theorem getObject_safe (hs : Sound adapter digest s) (hlisted : Listed s.sources source) :
    (vaultSteps adapter digest).SafeTo i (getObject source.storageUri) s
      (fun buffer t => Sound adapter digest t ∧ Listed t.sources source ∧
        ∀ upload ∈ t.uploads, source.id ∈ upload.source → upload.body = buffer)
      (Unreadable id) := by
  unfold getObject
  rw [← Proc.bind_done (change _)]
  refine Steps.SafeTo.step_bind _ stable_listed hs hlisted (fun t _ _ => unreadable_database t) ?_
  intro t c ht hlisted
  have hregular := (ht.readable_listed hlisted).2
  obtain ⟨hinv, hobjects⟩ :=
    adapter.adapts.get source.storageUri t.objects hregular ht.objects
  cases hresult : (port.get source.storageUri t.objects).1 with
  | error error =>
      simp only [hresult]
      refine ⟨does_objects hinv hobjects, (fun _ h => by cases h), ?_⟩
      rintro _ ⟨⟩ hafter
      exact Steps.SafeTo.throws _ stable_listed hafter hlisted fun u _ _ => unreadable_database u
  | ok buffer =>
      simp only [hresult]
      refine ⟨does_objects hinv hobjects, ?_, (fun _ h => by cases h)⟩
      rintro _ ⟨⟩ hafter
      refine Steps.SafeTo.returns _ (stable_uploads fun upload => upload.body = buffer) hafter
        ⟨hlisted, fun upload hupload hsource => ?_⟩ fun u hu h => ⟨hu, h⟩
      obtain ⟨huri, -⟩ := ht.upload_source hlisted hupload hsource
      obtain ⟨key, hkey, hbody⟩ := ht.held upload hupload
      rw [← huri] at hkey
      have hread := adapter.adapts.reads source.storageUri t.objects key upload.body hregular
        ht.objects hkey hbody
      rw [hresult] at hread
      exact (Except.ok.inj hread).symm

theorem getContent_safe (hs : Sound adapter digest s) :
    (vaultSteps adapter digest).SafeTo i (getContent digest organizationId id) s
      (Reads digest organizationId id) (Unreadable id) := by
  unfold getContent
  refine Steps.SafeTo.query_now _ Steps.stable_true hs trivial (fun u _ _ => unreadable_database u)
    fun t ht _ => ?_
  refine Steps.SafeTo.expect_bind _ Steps.stable_true ht trivial
    (fun u _ _ => unreadable_notFound _ u)
    fun source hsource => ?_
  obtain ⟨hmem, rfl, horganization⟩ := listed_of_findFirst hsource
  refine Steps.SafeTo.part_bind (existsAt_safe ht (Listed.of_mem hmem)) ?_
  rintro available u ⟨hu, hlisted⟩
  refine Safe.require_bind (fun _ => ?_) fun _ => Steps.SafeTo.throws _ stable_listed hu hlisted
    fun v _ _ => unreadable_notFound _ v
  refine Steps.SafeTo.part_bind (getObject_safe hu hlisted) ?_
  rintro buffer v ⟨hv, hlisted, hbody⟩
  refine Safe.require_bind (fun hdigest => ?_) fun hdigest => ?_
  · refine Steps.SafeTo.returns _ (stable_uploads _) hv ⟨hlisted, hbody⟩ ?_
    rintro w hw ⟨hlisted, hbody⟩
    exact ⟨hlisted, rfl, horganization, of_decide_eq_true hdigest, hbody⟩
  · -- The digest of an upload would be that of its source.
    have hnone : ∀ upload ∈ v.uploads, source.id ∈ upload.source → False := by
      intro upload hupload hsource
      obtain ⟨-, hsha⟩ := hv.upload_source hlisted hupload hsource
      rw [hbody upload hupload hsource] at hsha
      exact of_decide_eq_false hdigest hsha.symm
    refine Steps.SafeTo.throws _ (stable_uploads _) hv ⟨hlisted, hnone⟩ ?_
    rintro w hw ⟨-, hnone⟩ - upload hupload hsource
    exact hnone upload hupload hsource

/-! ## Lineages -/

/-- The line of versions from a source on, without a gap. -/
def Chain (rows : List Source) (organizationId : Str) : List Version → Option Str → Prop
  | [], cursorId => given cursorId = none
  | version :: rest, cursorId => ∃ source, Listed rows source ∧ given cursorId = some source.id ∧
      source.organizationId = organizationId ∧ version = source.entry ∧
        Chain rows organizationId rest source.supersedesSourceId

theorem Chain.grows {rows rows' : List Source} (hgrows : Grows rows rows') :
    ∀ {previous : List Version} {cursorId : Option Str},
      Chain rows organizationId previous cursorId → Chain rows' organizationId previous cursorId
  | [], _, h => h
  | _ :: _, _, ⟨source, hlisted, hid, horganization, hversion, hrest⟩ =>
      ⟨source, hlisted.grows hgrows, hid, horganization, hversion, hrest.grows hgrows⟩

theorem stable_chain {previous : List Version} {cursorId : Option Str} :
    (vaultSteps adapter digest).Stable i fun t =>
      Chain t.sources organizationId previous cursorId :=
  fun _ _ _ hchain hbetween => hbetween.elim (fun h => hchain.grows h.grows) False.elim

theorem Sound.follows_listed (hs : Sound adapter digest s) (hlisted : Listed s.sources source) :
    Follows s.sources source := by
  obtain ⟨row, hrow, hsame⟩ := hlisted
  exact (hs.lined.follows row hrow).same hsame.symm

theorem IsNext.exists_succ {rows : List Source} {cursorId : Option Str} {version : Nat}
    (h : IsNext rows organizationId cursorId version) : ∃ n, version = n + 1 := by
  unfold IsNext at h
  split at h
  · exact ⟨0, h⟩
  · obtain ⟨row, -, -, -, hversion⟩ := h
    exact ⟨row.version, hversion⟩

/-- What comes before a version, by the one that it supersedes. -/
theorem Sound.version_of_next (hs : Sound adapter digest s) {cursorId : Option Str} {version : Nat}
    (hnext : IsNext s.sources organizationId cursorId version) (hlisted : Listed s.sources source)
    (hid : given cursorId = some source.id) : version = source.version + 1 := by
  rw [IsNext, hid] at hnext
  obtain ⟨row, hrow, hrowId, -, hversion⟩ := hnext
  rw [hversion]
  exact congrArg (fun source => source.version + 1) (hlisted.eq_of_id hs hrow hrowId)

/-- A line of versions counts down to the first one. -/
theorem Chain.versions (hs : Sound adapter digest s) {previous : List Version} :
    ∀ {cursorId : Option Str} {version : Nat}, Chain s.sources organizationId previous cursorId →
      IsNext s.sources organizationId cursorId version →
        previous.map Version.version = (List.range (version - 1)).reverse.map (· + 1) := by
  induction previous with
  | nil =>
      intro cursorId version hchain hnext
      have hnone : given cursorId = none := hchain
      rw [IsNext, hnone] at hnext
      obtain rfl : version = 1 := hnext
      rfl
  | cons entry rest ih =>
      rintro cursorId version ⟨source, hlisted, hid, horganization, rfl, hrest⟩ hnext
      have hfollows : IsNext s.sources source.organizationId source.supersedesSourceId
          source.version := hs.follows_listed hlisted
      rw [horganization] at hfollows
      obtain ⟨n, hn⟩ := hfollows.exists_succ
      rw [List.map_cons, ih hrest hfollows, hs.version_of_next hnext hlisted hid, hn,
        Nat.add_sub_cancel, Nat.add_sub_cancel, List.range_succ, List.reverse_append,
        List.reverse_singleton, List.singleton_append, List.map_cons]
      rw [Source.entry, hn]

/-- What a lineage call answers. -/
structure Traces (turns : Nat) (organizationId id : Str) (lineage : Lineage) (t : Vault port) :
    Prop where
  current : Listed t.sources lineage.current ∧ lineage.current.id = id ∧
    lineage.current.organizationId = organizationId
  ends : lineage.current.version ≤ turns + 1 → lineage.previous ≠ none
  previous : ∀ previous, lineage.previous = some previous →
    Chain t.sources organizationId previous lineage.current.supersedesSourceId ∧
      previous.map Version.version = (List.range (lineage.current.version - 1)).reverse.map (· + 1)
  later : ∀ version ∈ lineage.later, version.version = lineage.current.version + 1 ∧
    ∃ later, Listed t.sources later ∧ later.supersedesSourceId = some id ∧ version = later.entry

/-- The sources that the loop has seen, from a version on. -/
def Seen (rows : List Source) (seen : List Str) (version : Nat) : Prop :=
  ∀ id ∈ seen, ∃ source, Listed rows source ∧ source.id = id ∧ version ≤ source.version

theorem stable_seen {seen : List Str} {version : Nat} :
    (vaultSteps adapter digest).Stable i fun t => Seen t.sources seen version := by
  rintro t u - hseen (hrelies | hfalse)
  · intro id hid
    obtain ⟨source, hlisted, hrest⟩ := hseen id hid
    exact ⟨source, hlisted.grows hrelies.grows, hrest⟩
  · exact hfalse.elim

/-- What is superseded is an earlier version, which the loop has not seen. -/
theorem Seen.pred {seen : List Str} {cursorId : Option Str} {version : Nat}
    (hseen : Seen s.sources seen version) (hs : Sound adapter digest s)
    (hnext : IsNext s.sources organizationId cursorId version) (hid : given cursorId = some id) :
    id ∉ seen ∧ ∃ pred ∈ s.sources, pred.id = id ∧ pred.organizationId = organizationId ∧
      version = pred.version + 1 := by
  rw [IsNext, hid] at hnext
  obtain ⟨pred, hpred, rfl, horganization, hversion⟩ := hnext
  refine ⟨fun hmem => ?_, pred, hpred, rfl, horganization, hversion⟩
  obtain ⟨source, hlisted, hsource, hle⟩ := hseen pred.id hmem
  have hsame : pred.version = source.version :=
    (congrArg Source.version (hlisted.eq_of_id hs hpred hsource.symm)).trans rfl
  omega

theorem findFirst_of_listed {pred : Source} (h : Listed s.sources pred) :
    ∃ item, s.findFirst pred.organizationId pred.id = some item := by
  obtain ⟨row, hrow, hsame⟩ := h
  have hid : row.id = pred.id := (congrArg Source.id hsame).trans rfl
  have horganization : row.organizationId = pred.organizationId :=
    (congrArg Source.organizationId hsame).trans rfl
  refine Option.isSome_iff_exists.mp (List.find?_isSome.mpr ⟨row, hrow, ?_⟩)
  exact decide_eq_true ⟨hid, horganization⟩

/-- What the loop ends with: the whole line, if it has a turn for each version. -/
structure Lines (adapter : Adapter port) (digest : Digest) (organizationId : Str) (turns : Nat)
    (cursorId : Option Str) (version : Nat) (rows : List Source) (result : Option (List Version))
    (t : Vault port) : Prop where
  sound : Sound adapter digest t
  grows : Grows rows t.sources
  ends : version ≤ turns + 1 → result ≠ none
  chain : ∀ previous, result = some previous → Chain t.sources organizationId previous cursorId

/-- The end of the line. -/
theorem lines_nil (turns version : Nat) {cursorId : Option Str} (hs : Sound adapter digest s)
    (hid : given cursorId = none) :
    (vaultSteps adapter digest).SafeTo i
      (.done (some []) : Program (Vault port) (Option (List Version))) s
      (Lines adapter digest organizationId turns cursorId version s.sources) fun _ _ => True := by
  refine Steps.SafeTo.returns _ stable_grows hs (Grows.refl _) fun t ht hgrows => ?_
  refine ⟨ht, hgrows, (fun _ h => by cases h), ?_⟩
  rintro _ ⟨⟩
  exact hid

theorem previousOf_safe (turns : Nat) : ∀ {s : Vault port} {seen : List Str}
    {cursorId : Option Str} {version : Nat}, Sound adapter digest s →
    IsNext s.sources organizationId cursorId version → Seen s.sources seen version →
      (vaultSteps adapter digest).SafeTo i (previousOf organizationId turns seen cursorId) s
        (Lines adapter digest organizationId turns cursorId version s.sources)
        fun _ _ => True := by
  induction turns with
  | zero =>
      intro s seen cursorId version hs hnext hseen
      unfold previousOf
      cases hid : given cursorId with
      | none => exact lines_nil 0 version hs hid
      | some id =>
          obtain ⟨hnew, pred, hpred, -, -, hversion⟩ := hseen.pred hs hnext hid
          obtain ⟨n, hn⟩ := IsNext.exists_succ (hs.lined.follows pred hpred)
          dsimp only
          rw [if_neg hnew]
          refine Steps.SafeTo.returns _ stable_grows hs (Grows.refl _) fun t ht hgrows => ?_
          refine ⟨ht, hgrows, fun hle => ?_, fun _ h => by cases h⟩
          omega
  | succ turns ih =>
      intro s seen cursorId version hs hnext hseen
      unfold previousOf
      cases hid : given cursorId with
      | none => exact lines_nil (turns + 1) version hs hid
      | some id =>
          obtain ⟨hnew, pred, hpred, rfl, rfl, rfl⟩ := hseen.pred hs hnext hid
          dsimp only
          rw [if_neg hnew]
          refine Steps.SafeTo.query_now _ ((stable_listed.and stable_seen).and stable_grows) hs
            ⟨⟨Listed.of_mem hpred, hseen⟩, Grows.refl _⟩ (fun _ _ _ => trivial) ?_
          rintro t ht ⟨⟨hlisted, hseen⟩, hgrows⟩
          obtain ⟨item, hitem⟩ := findFirst_of_listed hlisted
          obtain ⟨hmem, hitemId, hitemOrganization⟩ := listed_of_findFirst hitem
          have hitemVersion : item.version = pred.version :=
            (congrArg Source.version (hlisted.eq_of_id ht hmem hitemId)).trans rfl
          have hfollows : IsNext t.sources item.organizationId item.supersedesSourceId
              item.version := ht.lined.follows item hmem
          rw [hitemOrganization] at hfollows
          have hseenNext : Seen t.sources (pred.id :: seen) item.version := by
            refine List.forall_mem_cons.mpr
              ⟨⟨item, Listed.of_mem hmem, hitemId, Nat.le_refl _⟩, fun id hid => ?_⟩
            obtain ⟨source, hsource, hsourceId, hle⟩ := hseen id hid
            exact ⟨source, hsource, hsourceId, by omega⟩
          rw [hitem]
          refine Steps.SafeTo.part_bind (ih ht hfollows hseenNext) ?_
          intro rest u hrest
          cases rest with
          | none =>
              refine Steps.SafeTo.returns _ stable_grows hrest.sound (hgrows.trans hrest.grows)
                fun v hv hgrows => ⟨hv, hgrows, fun hle => ?_, fun _ h => by cases h⟩
              exact absurd rfl (hrest.ends (by omega))
          | some rest =>
              refine Steps.SafeTo.returns _
                (stable_grows.and (stable_listed.and stable_chain)) hrest.sound
                ⟨hgrows.trans hrest.grows, (Listed.of_mem hmem).grows hrest.grows,
                  hrest.chain rest rfl⟩ ?_
              rintro v hv ⟨hgrows, hlisted, hchain⟩
              refine ⟨hv, hgrows, (fun _ h => by cases h), ?_⟩
              rintro _ ⟨⟩
              refine ⟨item, hlisted, ?_, hitemOrganization, rfl, hchain⟩
              rw [hid, hitemId]

/-- The sources that supersede a source have the version after its own. -/
theorem mem_laterThan (hs : Sound adapter digest s) (hlisted : Listed s.sources source)
    {version : Version} (h : version ∈ s.laterThan organizationId source.id) :
    version.version = source.version + 1 ∧ ∃ later, Listed s.sources later ∧
      later.supersedesSourceId = some source.id ∧ version = later.entry := by
  rw [Vault.laterThan, List.mem_mergeSort] at h
  obtain ⟨later, hmem, rfl⟩ := List.mem_map.mp h
  obtain ⟨hmem, hcondition⟩ := List.mem_filter.mp hmem
  obtain ⟨-, hsupersedes⟩ := of_decide_eq_true hcondition
  refine ⟨?_, later, Listed.of_mem hmem, hsupersedes, rfl⟩
  have hnamed : given later.supersedesSourceId = some source.id := by
    have hne := hs.lined.named later hmem
    rw [hsupersedes] at hne ⊢
    exact Option.filter_some_pos (decide_eq_true fun h => hne (congrArg some h))
  have hfollows : IsNext s.sources later.organizationId later.supersedesSourceId later.version :=
    hs.lined.follows later hmem
  exact hs.version_of_next hfollows hlisted hnamed

theorem lineage_safe (turns : Nat) (hs : Sound adapter digest s) :
    (vaultSteps adapter digest).SafeTo i (lineage turns organizationId id) s
      (Traces turns organizationId id) fun _ _ => True := by
  unfold lineage
  refine Steps.SafeTo.query_now _ Steps.stable_true hs trivial (fun _ _ _ => trivial) ?_
  intro t ht _
  refine Steps.SafeTo.expect_bind _ Steps.stable_true ht trivial (fun _ _ _ => trivial) ?_
  intro current hcurrent
  obtain ⟨hmem, rfl, rfl⟩ := listed_of_findFirst hcurrent
  have hfollows : IsNext t.sources current.organizationId current.supersedesSourceId
      current.version := ht.lined.follows current hmem
  refine Steps.SafeTo.part_bind (previousOf_safe turns ht hfollows (List.forall_mem_nil _)) ?_
  intro previous u hlines
  have hversions : ∀ line, previous = some line →
      line.map Version.version = (List.range (current.version - 1)).reverse.map (· + 1) :=
    fun line hline => (hlines.chain line hline).versions hlines.sound (hfollows.grows hlines.grows)
  have hstable : (vaultSteps adapter digest).Stable i fun t => Grows u.sources t.sources :=
    stable_grows
  refine Steps.SafeTo.query_now _ hstable hlines.sound (Grows.refl _)
    (fun _ _ _ => trivial) ?_
  intro v hv hgrows
  have hlisted := ((Listed.of_mem hmem).grows hlines.grows).grows hgrows
  refine Steps.SafeTo.returns _ stable_grows hv (Grows.refl _) fun w _ hgrowsLast => ?_
  exact
    { current := ⟨hlisted.grows hgrowsLast, rfl, rfl⟩
      ends := hlines.ends
      previous := fun line hline =>
        ⟨((hlines.chain line hline).grows hgrows).grows hgrowsLast, hversions line hline⟩
      later := fun version hversion => by
        obtain ⟨hnumber, later, hlater, hrest⟩ := mem_laterThan hv hlisted hversion
        exact ⟨hnumber, later, hlater.grows hgrowsLast, hrest⟩ }

end SourceVault.Sources
