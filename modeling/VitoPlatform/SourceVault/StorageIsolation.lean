import VitoPlatform.SourceVault.LocalStorage
import VitoPlatform.SourceVault.S3Storage

/-!
# Isolation of the sources in the object storage

Both adapters keep the sources apart on every run of regular calls, from an empty vault and an empty
bucket, and every request is sent to the path that its signature covers (`isolated_of_regular`). A
file name that is a dot segment escapes the directory of its source, where its file is in the way of
other sources, and has its request signed for a path that it is not sent to (`dotDot_not_isolated`).
-/

namespace SourceVault

open Text Invocation PosixPath

/-- From an empty vault and an empty bucket, regular calls keep the sources apart. -/
theorem isolated_of_regular (adapter : LocalObjectStorageAdapter)
    (tree : LocalObjectStorageAdapter.Tree) (htree : adapter.Fresh tree)
    (environment : S3Environment) (settings : S3Config)
    (hconfig : S3ObjectStorageAdapter.config environment = .ok settings)
    (hbucket : IsName settings.bucket) (service : S3Service)
    (hstores : service.Stores settings.bucket) (objects : service.State)
    (hempty : ∀ key, service.object objects key = none) (calls requests : List Call)
    (hcalls : ∀ call ∈ calls, LocalObjectStorageAdapter.Regular call)
    (hrequests : ∀ call ∈ requests, S3ObjectStorageAdapter.Regular environment call) :
    Isolated adapter.port adapter.view tree calls ∧
      Isolated (S3ObjectStorageAdapter.port environment service)
        (S3ObjectStorageAdapter.view environment service) (objects, []) requests ∧
      ∀ request ∈ ((S3ObjectStorageAdapter.port environment service).reach (objects, [])
        requests).2, request.path = request.signedPath := by
  have hadapts := S3ObjectStorageAdapter.adapts hstores hbucket hconfig
  have hstart : @S3ObjectStorageAdapter.Agreed service (objects, []) := nofun
  refine ⟨htree.isolated hcalls, ?_, hadapts.lawful.inv hstart hrequests⟩
  exact hadapts.isolated hstart (fun input _ => hempty _) hrequests

/-! ## A vault, a bucket and an upload -/

def srvAdapter : LocalObjectStorageAdapter where
  cwd := "/srv".toList
  configured := none
  cwd_clear := by decide
  configured_clear := nofun

theorem srvAdapter_fresh : srvAdapter.Fresh FileStore.empty where
  above path _ body h := by
    cases path with
    | nil => cases h
    | cons n path => cases h
  empty path hpath := by
    cases hnames : srvAdapter.rootNames ++ path with
    | nil => exact absurd (List.append_eq_nil_iff.mp hnames).2 hpath
    | cons n path => rfl

def vaultEnvironment : S3Environment where
  endpoint := some "https://objects.example/".toList
  region := some "eu".toList
  bucket := some "vault".toList
  accessKeyId := some "id".toList
  secretAccessKey := some "secret".toList

/-- A service that stores objects under their paths, for requests that are sent as signed. -/
def pathService (bucket : Str) : S3Service where
  State := Str → Option Octets
  handle request objects :=
    if request.path ≠ request.signedPath then (⟨403, none, []⟩, objects)
    else
      match request.method with
      | .HEAD => (⟨if (objects request.path).isSome then 200 else 404, none, []⟩, objects)
      | .GET =>
          match objects request.path with
          | some body => (⟨200, none, body⟩, objects)
          | none => (⟨404, none, []⟩, objects)
      | .PUT =>
          (⟨200, none, []⟩, Function.update objects request.path (some request.payload))
      | .DELETE => (⟨204, none, []⟩, Function.update objects request.path none)
  object objects key := objects (canonicalUri bucket key)

theorem pathService_stores (bucket : Str) : (pathService bucket).Stores bucket := by
  have hupdate (objects : Str → Option Octets) (key : Str) (body : Option Octets) :
      (fun other => Function.update objects (canonicalUri bucket key) body
        (canonicalUri bucket other)) =
        Function.update (fun other => objects (canonicalUri bucket other)) key body :=
    Function.update_comp_eq_of_injective objects (canonicalUri_injective bucket) key body
  refine ⟨?_, ?_, ?_, ?_⟩
  · intro request objects key hfor hmethod
    simp only [pathService, hfor.path, ne_eq, not_true_eq_false, if_false, hmethod,
      hfor.signedPath]
    exact ⟨rfl, trivial⟩
  · intro request objects key hfor hmethod
    simp only [pathService, hfor.path, ne_eq, not_true_eq_false, if_false, hmethod,
      hfor.signedPath]
    cases hobject : objects (canonicalUri bucket key) with
    | none => exact ⟨nofun, rfl⟩
    | some body => exact ⟨fun other hother => ⟨rfl, Option.some.inj hother⟩, rfl⟩
  · intro request objects key hfor hmethod
    simp only [pathService, hfor.path, ne_eq, not_true_eq_false, if_false, hmethod,
      hfor.signedPath]
    exact ⟨trivial, hupdate objects key _⟩
  · intro request objects key hfor hmethod
    simp only [pathService, hfor.path, ne_eq, not_true_eq_false, if_false, hmethod,
      hfor.signedPath]
    exact ⟨trivial, hupdate objects key _⟩

def upload (sourceId filename : String) : PutObjectInput where
  organizationId := "org".toList
  sourceId := sourceId.toList
  filename := filename.toList
  mimeType := "text/plain".toList
  body := [1, 2, 3]

theorem upload_identified {sourceId filename : String} (h : IsPlain sourceId.toList) :
    (upload sourceId filename).Identified :=
  ⟨(by decide : IsPlain "org".toList), h⟩

theorem upload_ordinary {sourceId filename : String}
    (hsource : sourceId.toList ≠ [] ∧ sourceId.toList.length ≤ 240)
    (hfilename : filename.toList ≠ dot ∧ filename.toList ≠ dotDot) :
    (upload sourceId filename).Ordinary :=
  ⟨(by decide : "org".toList ≠ [] ∧ "org".toList.length ≤ 240), hsource, hfilename⟩

/-- Two uploads, and the URI of the first one read and deleted. -/
def uploads (uri : String) : List Call :=
  [.putImmutable (upload "src1" "a.txt"), .putImmutable (upload "src2" "a.txt"), .get uri.toList,
    .delete uri.toList]

theorem mem_uploads {uri : String} {call : Call} (h : call ∈ uploads uri) :
    (∃ input, call = .putImmutable input ∧ input.Identified ∧ input.Ordinary) ∨
      call = .get uri.toList ∨ call = .delete uri.toList := by
  simp only [uploads, List.mem_cons, List.not_mem_nil, or_false] at h
  obtain rfl | rfl | h := h
  · exact .inl ⟨_, rfl, upload_identified (by decide), upload_ordinary (by decide) (by decide)⟩
  · exact .inl ⟨_, rfl, upload_identified (by decide), upload_ordinary (by decide) (by decide)⟩
  · exact .inr h

theorem isolated_of_regular_upload :
    Isolated srvAdapter.port srvAdapter.view FileStore.empty
        (uploads "local://raw/org/src1/a.txt") ∧
      Isolated (S3ObjectStorageAdapter.port vaultEnvironment (pathService "vault".toList))
        (S3ObjectStorageAdapter.view vaultEnvironment (pathService "vault".toList))
        (fun _ => none, []) (uploads "s3://vault/raw/org/src1/a.txt") ∧
      ∀ request ∈ ((S3ObjectStorageAdapter.port vaultEnvironment
        (pathService "vault".toList)).reach (fun _ => none, [])
          (uploads "s3://vault/raw/org/src1/a.txt")).2, request.path = request.signedPath := by
  refine isolated_of_regular srvAdapter FileStore.empty srvAdapter_fresh vaultEnvironment
    ⟨"https://objects.example".toList, "eu".toList, "vault".toList, "id".toList, "secret".toList⟩
    (by decide) (by decide) (pathService "vault".toList) (pathService_stores _) (fun _ => none)
    (fun _ => rfl) _ _ (fun call hcall => ?_) (fun call hcall => ?_)
  · obtain ⟨input, rfl, hinput⟩ | rfl | rfl := mem_uploads hcall
    · exact hinput
    · trivial
    · trivial
  · have hdotless : ∀ key, S3ObjectStorageAdapter.keyOf vaultEnvironment
        "s3://vault/raw/org/src1/a.txt".toList = some key → Dotless key := by
      intro key hkey
      have hsome : S3ObjectStorageAdapter.keyOf vaultEnvironment
          "s3://vault/raw/org/src1/a.txt".toList = some "raw/org/src1/a.txt".toList := by
        decide
      rw [hsome] at hkey
      rw [← Option.some.inj hkey]
      decide
    obtain ⟨input, rfl, hinput⟩ | rfl | rfl := mem_uploads hcall
    · exact hinput
    · exact hdotless
    · exact hdotless

/-- A file called `..` is written in the place of the directory of the organization. -/
theorem dotDot_not_isolated :
    ¬ (∀ (adapter : LocalObjectStorageAdapter) (tree : LocalObjectStorageAdapter.Tree),
      adapter.Fresh tree → ∀ calls, (∀ input, .putImmutable input ∈ calls → input.Identified) →
        Isolated adapter.port adapter.view tree calls) ∧
    ¬ (∀ bucket input, IsName bucket → input.Identified →
      urlPathname (canonicalUri bucket (S3ObjectStorageAdapter.keyFor input)) =
        canonicalUri bucket (S3ObjectStorageAdapter.keyFor input)) := by
  constructor
  · intro h
    have hidentified : ∀ input, .putImmutable input ∈
        [Call.putImmutable (upload "src1" ".."), .putImmutable (upload "src2" "a.txt")] →
          input.Identified := by
      intro input hinput
      simp only [List.mem_cons, List.not_mem_nil, or_false, Call.putImmutable.injEq] at hinput
      obtain rfl | rfl := hinput
      · exact upload_identified (by decide)
      · exact upload_identified (by decide)
    have hfailed : srvAdapter.port.answerAfter FileStore.empty
        [.putImmutable (upload "src1" "..")] (.putImmutable (upload "src2" "a.txt")) =
          .failed (.code .ENOTDIR) := by
      decide
    obtain ⟨other, hother, -, hsource, -⟩ :=
      (h srvAdapter FileStore.empty srvAdapter_fresh _ hidentified).fails
        [.putImmutable (upload "src1" "..")] (upload "src2" "a.txt") [] rfl _ hfailed
    obtain rfl := Call.putImmutable.inj (List.mem_singleton.mp hother)
    exact absurd hsource (by decide)
  · intro h
    exact absurd (h "vault".toList (upload "src1" "..") (by decide) (upload_identified (by decide)))
      (by decide)

end SourceVault
