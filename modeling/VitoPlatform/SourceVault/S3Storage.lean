import VitoPlatform.Library.PercentEncoding
import VitoPlatform.SourceVault.Storage

/-!
# Objects behind requests

`S3ObjectStorageAdapter`: the key of an input, the URI of a key, and the request for it. The path
that is signed is joined from encoded segments (`canonicalUri`), the path that is sent is read back
from a URL, which removes dot segments (`urlPathname`); the two agree on keys without dot segments
(`urlPathname_canonicalUri`). On a service that stores objects under their keys (`S3Service.Stores`)
the adapter keeps the sources apart (`adapts`).
-/

namespace SourceVault

open Text Invocation PosixPath PercentEncoding

structure S3Config where
  endpoint : Str
  region : Str
  bucket : Str
  accessKeyId : Str
  secretAccessKey : Str
  deriving DecidableEq

/-- `SOURCE_VAULT_S3_…`. -/
structure S3Environment where
  endpoint : Option Str
  region : Option Str
  bucket : Option Str
  accessKeyId : Option Str
  secretAccessKey : Option Str

inductive S3Method where
  | PUT
  | GET
  | HEAD
  | DELETE
  deriving DecidableEq

/-- A request as it is sent, and the path that its signature covers. -/
structure S3Request where
  method : S3Method
  path : Str
  signedPath : Str
  contentType : Option Str
  payload : Octets

structure S3Response where
  status : Nat
  etag : Option Str
  body : Octets

/-- A service that answers requests, and the objects of the bucket under their keys. -/
structure S3Service where
  State : Type
  handle : S3Request → State → S3Response × State
  object : State → Str → Option Octets

/-! ## Paths -/

def isUriUnescaped (c : Char) : Bool := c.isAlphanum || "-_.!~*'()".toList.contains c

def encodeURIComponent (value : Str) : Str := escape isUriUnescaped value

def rfc3986 (value : Str) : Str :=
  (encodeURIComponent value).flatMap fun c =>
    if "!'()*".toList.contains c then percent (Utf8.octet c) else [c]

def canonicalUri (bucket key : Str) : Str :=
  '/' :: rfc3986 bucket ++ '/' :: join ['/'] ((key.splitOn '/').map rfc3986)

/-- A segment that a URL takes for the place itself, also with an encoded dot. -/
def isSingleDot (segment : Str) : Bool := [".", "%2e", "%2E"].any fun text => segment = text.toList

def isDoubleDot (segment : Str) : Bool :=
  ["..", ".%2e", ".%2E", "%2e.", "%2E.", "%2e%2e", "%2e%2E", "%2E%2e", "%2E%2E"].any fun text =>
    segment = text.toList

/-- The segments of a URL: a dot segment at the end leaves an empty one. -/
def urlSegments (names : List Str) : List Str → List Str
  | [] => names
  | segment :: rest =>
      if isDoubleDot segment then
        urlSegments (names.dropLast ++ if rest = [] then [[]] else []) rest
      else if isSingleDot segment then urlSegments (names ++ if rest = [] then [[]] else []) rest
      else urlSegments (names ++ [segment]) rest

/-- The path of `new URL(path, base)`, of an absolute path of encoded segments. -/
def urlPathname (path : Str) : Str := '/' :: join ['/'] (urlSegments [] ((path.drop 1).splitOn '/'))

def isUnreserved (c : Char) : Bool := isUriUnescaped c && !"!'()*".toList.contains c

theorem flatMap_of_forall {f : Char → Str} {text : Str} (h : ∀ c ∈ text, f c = [c]) :
    text.flatMap f = text := by
  rw [List.flatMap_congr h, List.flatMap_singleton']

/-- What the second step replaces is encoded at once. -/
theorem rfc3986_eq (value : Str) : rfc3986 value = escape isUnreserved value := by
  rw [rfc3986, encodeURIComponent, escape, List.flatMap_assoc]
  refine List.flatMap_congr fun c _ => ?_
  by_cases hmark : "!'()*".toList.contains c = true
  · have hmarks : ∀ d ∈ "!'()*".toList, ((escapeChar isUriUnescaped d).flatMap fun c =>
        if "!'()*".toList.contains c then percent (Utf8.octet c) else [c]) =
          escapeChar isUnreserved d := forall_mem_of_all (by decide)
    exact hmarks c (List.contains_iff_mem.mp hmark)
  · have hunreserved : isUnreserved c = isUriUnescaped c := by
      rw [isUnreserved, Bool.eq_false_iff.mpr hmark, Bool.not_false, Bool.and_true]
    have hescape : escapeChar isUnreserved c = escapeChar isUriUnescaped c := by
      rw [escapeChar, escapeChar, hunreserved]
    rw [hescape]
    refine flatMap_of_forall fun d hd => if_neg fun hd' => ?_
    rw [escapeChar] at hd
    split at hd
    · rw [List.mem_singleton.mp hd] at hd'
      exact hmark hd'
    · obtain ⟨b, -, hd⟩ := List.mem_flatMap.mp hd
      -- An octet is written with a percent sign and digits, none of which is replaced.
      have hmarks : ∀ d ∈ "!'()*".toList, d ≠ '%' ∧ d.isAlphanum = false :=
        forall_mem_of_all (by decide)
      obtain ⟨hpercent, halphanum⟩ := hmarks d (List.contains_iff_mem.mp hd')
      obtain hd | hd := mem_percent hd
      · exact hpercent hd
      · rw [halphanum] at hd
        cases hd

theorem plain_isUnreserved : Plain isUnreserved := by
  intro c hc
  rw [isUnreserved, isUriUnescaped, Bool.and_eq_true, Bool.or_eq_true] at hc
  obtain halphanum | hmark := hc.1
  · have hsafe : isSafe c = true := by
      rw [isSafe, halphanum]
      rfl
    exact ⟨isSafe_range hsafe, fun heq => absurd (heq ▸ halphanum) (by decide)⟩
  · have hmarks : ∀ d ∈ "-_.!~*'()".toList, d.toNat < 0x80 ∧ d ≠ '%' :=
      forall_mem_of_all (by decide)
    exact hmarks c (List.contains_iff_mem.mp hmark)

theorem slash_not_mem_rfc3986 (value : Str) : '/' ∉ rfc3986 value := by
  rw [rfc3986_eq]
  intro h
  obtain h | h | h := mem_escape h
  · exact absurd h (by decide)
  · cases h
  · exact absurd h (by decide)

/-- An encoded segment is a dot segment where the segment itself is one. -/
theorem isSingleDot_rfc3986 {value : Str} (h : isSingleDot (rfc3986 value) = true) :
    value = dot := by
  have hcases : rfc3986 value = ".".toList ∨ rfc3986 value = "%2e".toList ∨
      rfc3986 value = "%2E".toList := by
    simpa [isSingleDot] using h
  rw [rfc3986_eq] at hcases
  obtain h | h | h := hcases
  · exact eq_decode_of_escape_eq plain_isUnreserved h
  · rw [eq_decode_of_escape_eq plain_isUnreserved h] at h
    exact absurd h (by decide)
  · rw [eq_decode_of_escape_eq plain_isUnreserved h] at h
    exact absurd h (by decide)

theorem isDoubleDot_rfc3986 {value : Str} (h : isDoubleDot (rfc3986 value) = true) :
    value = dotDot := by
  obtain ⟨text, htext, heq⟩ := List.any_eq_true.mp h
  have hescape : escape isUnreserved value = text.toList := by
    rw [← rfc3986_eq]
    exact of_decide_eq_true heq
  have hvalue := eq_decode_of_escape_eq plain_isUnreserved hescape
  rw [hvalue] at hescape ⊢
  have hall : ∀ text ∈ ["..", ".%2e", ".%2E", "%2e.", "%2E.", "%2e%2e", "%2e%2E", "%2E%2e",
      "%2E%2E"], escape isUnreserved (Utf8.decode (unescape text.toList)) = text.toList →
        Utf8.decode (unescape text.toList) = dotDot := by
    decide
  exact hall text htext hescape

/-! ### The path that is sent -/

/-- No segment of the key is a dot segment. -/
def Dotless (key : Str) : Prop := ∀ segment ∈ key.splitOn '/', segment ≠ dot ∧ segment ≠ dotDot

instance : DecidablePred Dotless := fun key =>
  inferInstanceAs (Decidable (∀ segment ∈ key.splitOn '/', _))

theorem urlSegments_of_forall {segments : List Str}
    (h : ∀ segment ∈ segments, isSingleDot segment = false ∧ isDoubleDot segment = false) :
    ∀ names, urlSegments names segments = names ++ segments := by
  induction segments with
  | nil => exact fun names => (List.append_nil names).symm
  | cons segment segments ih =>
      intro names
      obtain ⟨hsingle, hdouble⟩ := h segment List.mem_cons_self
      rw [urlSegments, if_neg (by rw [hdouble]; decide), if_neg (by rw [hsingle]; decide),
        ih fun other hother => h other (List.mem_cons_of_mem segment hother), List.append_assoc,
        List.singleton_append]

theorem canonicalUri_eq (bucket key : Str) :
    canonicalUri bucket key = '/' :: join ['/'] ((bucket :: key.splitOn '/').map rfc3986) := by
  obtain ⟨segment, rest, hsegments⟩ := List.exists_cons_of_ne_nil (List.splitOn_ne_nil '/' key)
  rw [canonicalUri, hsegments, List.map_cons, List.map_cons, List.map_cons, join_cons_cons]
  rfl

theorem splitOn_encoded {segments : List Str} (hne : segments ≠ []) :
    (join ['/'] (segments.map rfc3986)).splitOn '/' = segments.map rfc3986 := by
  refine List.splitOn_intercalate '/' (fun segment hsegment => ?_) ?_
  · obtain ⟨value, -, rfl⟩ := List.mem_map.mp hsegment
    exact slash_not_mem_rfc3986 value
  · exact fun hnil => hne (List.map_eq_nil_iff.mp hnil)

/-- The path that is sent is the one that is signed. -/
theorem urlPathname_canonicalUri {bucket key : Str} (hbucket : IsName bucket)
    (hkey : Dotless key) : urlPathname (canonicalUri bucket key) = canonicalUri bucket key := by
  have hdotless : ∀ segment ∈ bucket :: key.splitOn '/', segment ≠ dot ∧ segment ≠ dotDot :=
    List.forall_mem_cons.mpr ⟨hbucket.2.2, hkey⟩
  have hsegments : ∀ segment ∈ (bucket :: key.splitOn '/').map rfc3986,
      isSingleDot segment = false ∧ isDoubleDot segment = false := by
    intro segment hsegment
    obtain ⟨value, hvalue, rfl⟩ := List.mem_map.mp hsegment
    obtain ⟨hdot, hdotDot⟩ := hdotless value hvalue
    exact ⟨Bool.eq_false_iff.mpr fun h => hdot (isSingleDot_rfc3986 h),
      Bool.eq_false_iff.mpr fun h => hdotDot (isDoubleDot_rfc3986 h)⟩
  rw [canonicalUri_eq, urlPathname, List.drop_one, List.tail_cons,
    splitOn_encoded (List.cons_ne_nil _ _), urlSegments_of_forall hsegments, List.nil_append]

/-- Keys are read back from their paths. -/
theorem canonicalUri_injective (bucket : Str) : Function.Injective (canonicalUri bucket) := by
  intro a b h
  have hrfc : Function.Injective rfc3986 := fun s t hst =>
    escape_injective plain_isUnreserved (by rwa [← rfc3986_eq, ← rfc3986_eq])
  have hjoin := List.append_cancel_left (List.cons.inj h).2
  have hsplit := congrArg (List.splitOn '/') (List.cons.inj hjoin).2
  rw [splitOn_encoded (List.splitOn_ne_nil '/' a), splitOn_encoded (List.splitOn_ne_nil '/' b)]
    at hsplit
  have hsegments := List.map_injective_iff.mpr hrfc hsplit
  have hkeys := congrArg (join ['/']) hsegments
  rwa [join, List.intercalate_splitOn, join, List.intercalate_splitOn] at hkeys

/-! ## The adapter -/

namespace S3ObjectStorageAdapter

def config (environment : S3Environment) : Attempt S3Config :=
  let endpoint := environment.endpoint.map fun text =>
    if endsWith text ['/'] then text.dropLast else text
  match endpoint, environment.region, environment.bucket, environment.accessKeyId,
      environment.secretAccessKey with
  | some endpoint, some region, some bucket, some accessKeyId, some secretAccessKey =>
      if endpoint = [] ∨ region = [] ∨ bucket = [] ∨ accessKeyId = [] ∨ secretAccessKey = [] then
        .error (.error (lit
          "SOURCE VAULT S3 ist gewählt, aber Endpoint/Region/Bucket/Credentials sind unvollständig."))
      else if ¬ startsWith endpoint "https://".toList then
        .error (.error (lit "SOURCE_VAULT_S3_ENDPOINT muss https:// verwenden."))
      else .ok ⟨endpoint, region, bucket, accessKeyId, secretAccessKey⟩
  | _, _, _, _, _ =>
      .error (.error (lit
        "SOURCE VAULT S3 ist gewählt, aber Endpoint/Region/Bucket/Credentials sind unvollständig."))

def keyFor (input : PutObjectInput) : Str := join ['/'] input.names

/-- The bucket and the key of a URI. -/
def parseUri (storageUri : Str) : Attempt (Str × Str) :=
  if ¬ startsWith storageUri "s3://".toList then
    .error (.error (lit "S3ObjectStorageAdapter erwartet s3:// URI."))
  else
    let rest := storageUri.drop 5
    let slash := rest.idxOf '/'
    if '/' ∉ rest ∨ slash = 0 ∨ slash = rest.length - 1 then
      .error (.error (lit "Ungültige S3 Storage URI."))
    else .ok (rest.take slash, rest.drop (slash + 1))

variable (environment : S3Environment) (service : S3Service)

/-- The state of the service, and the requests that have been sent. -/
abbrev State := service.State × List S3Request

def requestFor (config : S3Config) (method : S3Method) (key : Str) (payload : Octets)
    (contentType : Option Str) : S3Request where
  method := method
  path := urlPathname (canonicalUri config.bucket key)
  signedPath := canonicalUri config.bucket key
  contentType := contentType
  payload := payload

variable {service} in
def signedRequest (config : S3Config) (method : S3Method) (key : Str) (payload : Octets)
    (contentType : Option Str) (state : State service) : S3Response × State service :=
  let request := requestFor config method key payload contentType
  let (response, after) := service.handle request state.1
  (response, after, state.2 ++ [request])

/-- The configuration and the key that a URI stands for. -/
def target (storageUri : Str) : Attempt (S3Config × Str) :=
  match config environment, parseUri storageUri with
  | .error error, _ => .error error
  | .ok _, .error error => .error error
  | .ok config, .ok (bucket, key) =>
      if bucket ≠ config.bucket then
        .error (.error (lit
          "S3 URI verweist auf einen anderen als den konfigurierten Bucket."))
      else .ok (config, key)

/-- A request failed with a status. -/
def failed (method : String) (status : Nat) : StorageError :=
  .error (lit method ++ lit " fehlgeschlagen (" ++ units (toString status).toList ++ lit ").")

def succeeded (response : S3Response) : Bool := 200 ≤ response.status && response.status < 300

variable {service} in
def existsAt (storageUri : Str) (state : State service) : Attempt Bool × State service :=
  match target environment storageUri with
  | .error error => (.error error, state)
  | .ok (config, key) =>
      let (response, state) := signedRequest config .HEAD key [] none state
      if response.status = 404 then (.ok false, state)
      else if succeeded response then (.ok true, state)
      else (.error (failed "S3 HEAD" response.status), state)

variable {service} in
def putImmutable (input : PutObjectInput) (state : State service) :
    Attempt StoredObject × State service :=
  match config environment with
  | .error error => (.error error, state)
  | .ok config =>
      let key := keyFor input
      let uri := "s3://".toList ++ config.bucket ++ '/' :: key
      match existsAt environment uri state with
      | (.error error, state) => (.error error, state)
      | (.ok true, state) =>
          (.error (.error (lit "Immutable SOURCE VAULT object existiert bereits: " ++ units uri)),
            state)
      | (.ok false, state) =>
          let (response, state) :=
            signedRequest config .PUT key input.body (some input.mimeType) state
          if succeeded response then
            (.ok
              { storageUri := uri
                byteSize := input.body.length
                etag := response.etag }, state)
          else
            (.error (.error (lit "S3 PUT fehlgeschlagen (" ++
              units (toString response.status).toList ++ lit "): " ++
              (units (Utf8.decode response.body)).take 500)), state)

variable {service} in
def get (storageUri : Str) (state : State service) : Attempt Octets × State service :=
  match target environment storageUri with
  | .error error => (.error error, state)
  | .ok (config, key) =>
      let (response, state) := signedRequest config .GET key [] none state
      if response.status = 404 then (.error (.error (lit "S3 Object nicht gefunden.")), state)
      else if succeeded response then (.ok response.body, state)
      else (.error (failed "S3 GET" response.status), state)

variable {service} in
def delete (storageUri : Str) (state : State service) : Attempt Unit × State service :=
  match target environment storageUri with
  | .error error => (.error error, state)
  | .ok (config, key) =>
      let (response, state) := signedRequest config .DELETE key [] none state
      if response.status = 404 || response.status = 204 || succeeded response then (.ok (), state)
      else (.error (failed "S3 DELETE" response.status), state)

def port : ObjectStoragePort where
  State := State service
  putImmutable := putImmutable environment
  existsAt := existsAt environment
  get := get environment
  delete := delete environment

def keyOf (storageUri : Str) : Option Str :=
  match target environment storageUri with
  | .error _ => none
  | .ok (_, key) => some key

/-- The objects of the bucket, and the keys `raw/<organizationId>/<sourceId>/…`. -/
def view : View (port environment service) where
  Key := Str
  objects state := service.object state.1
  keyOf := keyOf environment
  place := keyFor
  Below organizationId sourceId key := ∃ name, name ≠ [] ∧
    key = join ['/'] ["raw".toList, organizationId, sourceId, name]

end S3ObjectStorageAdapter

/-! ## A service that stores objects -/

/-- A request for a key, with a signature for the path that is sent. -/
structure S3Request.For (request : S3Request) (bucket key : Str) : Prop where
  path : request.path = request.signedPath
  signedPath : request.signedPath = canonicalUri bucket key

/-- The service stores the objects of a bucket under their keys. -/
structure S3Service.Stores (service : S3Service) (bucket : Str) : Prop where
  head : ∀ request state key, request.For bucket key → request.method = .HEAD →
    (service.handle request state).1.status =
        (if (service.object state key).isSome then 200 else 404) ∧
      service.object (service.handle request state).2 = service.object state
  get : ∀ request state key, request.For bucket key → request.method = .GET →
    (∀ body, service.object state key = some body →
        (service.handle request state).1.status = 200 ∧
          (service.handle request state).1.body = body) ∧
      service.object (service.handle request state).2 = service.object state
  put : ∀ request state key, request.For bucket key → request.method = .PUT →
    (service.handle request state).1.status = 200 ∧
      service.object (service.handle request state).2 =
        Function.update (service.object state) key (some request.payload)
  delete : ∀ request state key, request.For bucket key → request.method = .DELETE →
    (service.handle request state).1.status = 204 ∧
      service.object (service.handle request state).2 =
        Function.update (service.object state) key none

namespace S3ObjectStorageAdapter

variable {environment : S3Environment} {service : S3Service} {settings : S3Config}
  {state : State service} {key uri : Str} {input : PutObjectInput} {method : S3Method}
  {payload : Octets} {contentType : Option Str}

theorem requestFor_for (hbucket : IsName settings.bucket) (hkey : Dotless key) :
    (requestFor settings method key payload contentType).For settings.bucket key :=
  ⟨urlPathname_canonicalUri hbucket hkey, rfl⟩

/-- Every request has been sent to the path that its signature covers. -/
def Agreed (state : State service) : Prop := ∀ request ∈ state.2, request.path = request.signedPath

theorem Agreed.signedRequest (h : Agreed state) (hbucket : IsName settings.bucket)
    (hkey : Dotless key) :
    Agreed (signedRequest settings method key payload contentType state).2 := by
  intro request hrequest
  obtain hrequest | hrequest := List.mem_append.mp hrequest
  · exact h request hrequest
  · rw [List.mem_singleton.mp hrequest]
    exact (requestFor_for hbucket hkey).path

/-! ### Keys and URIs of inputs -/

theorem splitOn_keyFor (hid : input.Identified) (hinput : input.Ordinary) :
    (keyFor input).splitOn '/' = input.names :=
  List.splitOn_intercalate '/' (fun n hn => (PutObjectInput.isName_names hid hinput n hn).2.1)
    (List.cons_ne_nil _ _)

theorem dotless_keyFor (hid : input.Identified) (hinput : input.Ordinary) :
    Dotless (keyFor input) := by
  rw [Dotless, splitOn_keyFor hid hinput]
  exact fun n hn => (PutObjectInput.isName_names hid hinput n hn).2.2

theorem keyFor_eq (hid : input.Identified) (hinput : input.Ordinary) : keyFor input =
    join ['/']
      ["raw".toList, input.organizationId, input.sourceId, sanitizeSegment input.filename] := by
  rw [keyFor, PutObjectInput.names_eq hid hinput]

theorem keyFor_ne_nil : keyFor input ≠ [] := by
  rw [keyFor, PutObjectInput.names, join_cons_cons]
  exact List.append_ne_nil_of_left_ne_nil (by decide) _

theorem parseUri_append {bucket : Str} (hbucket : IsName bucket) (hkey : key ≠ []) :
    parseUri ("s3://".toList ++ bucket ++ '/' :: key) = .ok (bucket, key) := by
  have hstarts : startsWith ("s3://".toList ++ bucket ++ '/' :: key) "s3://".toList = true := by
    rw [List.append_assoc]
    exact List.isPrefixOf_iff_prefix.mpr (List.prefix_append _ _)
  have hdrop : ("s3://".toList ++ bucket ++ '/' :: key).drop 5 = bucket ++ '/' :: key := by
    rw [List.append_assoc]
    exact List.drop_left' rfl
  have hslash : (bucket ++ '/' :: key).idxOf '/' = bucket.length := by
    rw [List.idxOf_append_of_notMem hbucket.2.1, List.idxOf_cons_self, Nat.add_zero]
  have hmem : '/' ∈ bucket ++ '/' :: key := List.mem_append_right _ List.mem_cons_self
  have hfirst : bucket.length ≠ 0 := fun h => hbucket.1 (List.length_eq_zero_iff.mp h)
  have hlast : bucket.length ≠ (bucket ++ '/' :: key).length - 1 := by
    have hpos := List.length_pos_of_ne_nil hkey
    rw [List.length_append, List.length_cons]
    omega
  have htake : (bucket ++ '/' :: key).take bucket.length = bucket := List.take_left
  have hrest : (bucket ++ '/' :: key).drop (bucket.length + 1) = key := by
    rw [List.append_cons]
    exact List.drop_left' (by rw [List.length_append, List.length_singleton])
  simp only [parseUri, hstarts, not_true_eq_false, if_false, hdrop, hslash, hmem, hfirst, hlast,
    or_self, htake, hrest]

theorem target_append (hconfig : config environment = .ok settings)
    (hbucket : IsName settings.bucket) (hkey : key ≠ []) :
    target environment ("s3://".toList ++ settings.bucket ++ '/' :: key) = .ok (settings, key) := by
  rw [target, hconfig, parseUri_append hbucket hkey]
  exact if_neg fun h => h rfl

theorem keyOf_eq_some (h : keyOf environment uri = some key) :
    ∃ settings, config environment = .ok settings ∧
      target environment uri = .ok (settings, key) := by
  rw [keyOf] at h
  cases htarget : target environment uri with
  | error error =>
      rw [htarget] at h
      cases h
  | ok pair =>
      obtain ⟨settings, other⟩ := pair
      rw [htarget] at h
      obtain rfl : other = key := Option.some.inj h
      refine ⟨settings, ?_, rfl⟩
      rw [target] at htarget
      split at htarget
      · cases htarget
      · cases htarget
      · rename_i hconfig _
        split at htarget
        · cases htarget
        · rw [hconfig]
          cases htarget
          rfl

/-! ### What the calls do -/

variable (hstores : service.Stores settings.bucket) (hbucket : IsName settings.bucket)
  (hkey : Dotless key)
include hstores hbucket hkey

theorem existsAt_eq (htarget : target environment uri = .ok (settings, key)) :
    existsAt environment uri state = (.ok (service.object state.1 key).isSome,
        (signedRequest settings .HEAD key [] none state).2) ∧
      service.object (signedRequest settings .HEAD key [] none state).2.1 =
        service.object state.1 := by
  obtain ⟨hstatus, hobject⟩ := hstores.head (requestFor settings .HEAD key [] none) state.1 key
    (requestFor_for hbucket hkey) rfl
  refine ⟨?_, hobject⟩
  have hresponse : (signedRequest settings .HEAD key [] none state).1.status =
      if (service.object state.1 key).isSome then 200 else 404 := hstatus
  rw [existsAt, htarget]
  dsimp only
  cases hsome : (service.object state.1 key).isSome with
  | true =>
      rw [hsome, if_pos rfl] at hresponse
      rw [if_neg (by rw [hresponse]; decide), if_pos]
      rw [succeeded, hresponse]
      rfl
  | false =>
      rw [hsome, if_neg (by decide)] at hresponse
      rw [if_pos hresponse]

theorem get_eq (htarget : target environment uri = .ok (settings, key)) :
    (get environment uri state).2 = (signedRequest settings .GET key [] none state).2 ∧
      service.object (get environment uri state).2.1 = service.object state.1 ∧
      ∀ body, service.object state.1 key = some body →
        (get environment uri state).1 = .ok body := by
  obtain ⟨hread, hobject⟩ := hstores.get (requestFor settings .GET key [] none) state.1 key
    (requestFor_for hbucket hkey) rfl
  have hstate : (get environment uri state).2 =
      (signedRequest settings .GET key [] none state).2 := by
    rw [get, htarget]
    dsimp only
    split
    · rfl
    · split
      · rfl
      · rfl
  refine ⟨hstate, by rw [hstate]; exact hobject, fun body hbody => ?_⟩
  obtain ⟨hstatus, hresponse⟩ := hread body hbody
  have hok : (signedRequest settings .GET key [] none state).1.status = 200 := hstatus
  rw [get, htarget]
  dsimp only
  rw [if_neg (by rw [hok]; decide), if_pos]
  · exact congrArg Except.ok hresponse
  · rw [succeeded, hok]
    rfl

theorem delete_eq (htarget : target environment uri = .ok (settings, key)) :
    (delete environment uri state).2 = (signedRequest settings .DELETE key [] none state).2 ∧
      service.object (delete environment uri state).2.1 =
        Function.update (service.object state.1) key none := by
  obtain ⟨-, hobject⟩ := hstores.delete (requestFor settings .DELETE key [] none) state.1 key
    (requestFor_for hbucket hkey) rfl
  have hstate : (delete environment uri state).2 =
      (signedRequest settings .DELETE key [] none state).2 := by
    rw [delete, htarget]
    dsimp only
    split
    · rfl
    · rfl
  refine ⟨hstate, ?_⟩
  rw [hstate]
  exact hobject

theorem put_eq : succeeded (signedRequest settings .PUT key payload contentType state).1 = true ∧
    service.object (signedRequest settings .PUT key payload contentType state).2.1 =
      Function.update (service.object state.1) key (some payload) := by
  obtain ⟨hstatus, hobject⟩ := hstores.put (requestFor settings .PUT key payload contentType)
    state.1 key (requestFor_for hbucket hkey) rfl
  have hok : (signedRequest settings .PUT key payload contentType state).1.status = 200 := hstatus
  refine ⟨?_, hobject⟩
  rw [succeeded, hok]
  rfl

omit hkey in
/-- An ordinary put stores its object where there is none, or fails after asking for it. -/
theorem putImmutable_cases (hconfig : config environment = .ok settings) (hid : input.Identified)
    (hinput : input.Ordinary) (hagreed : Agreed state) :
    Agreed (putImmutable environment input state).2 ∧
      ((∃ object, keyOf environment object.storageUri = some (keyFor input) ∧
        service.object state.1 (keyFor input) = none ∧
        (putImmutable environment input state).1 = .ok object ∧
        service.object (putImmutable environment input state).2.1 =
          Function.update (service.object state.1) (keyFor input) (some input.body)) ∨
      (service.object state.1 (keyFor input)).isSome = true ∧
        (∃ error, (putImmutable environment input state).1 = .error error) ∧
        service.object (putImmutable environment input state).2.1 = service.object state.1) := by
  have hkey := dotless_keyFor hid hinput
  have hne : keyFor input ≠ [] := keyFor_ne_nil
  have htarget := target_append hconfig hbucket hne
  have hexists : existsAt environment _ state = _ ∧ _ := existsAt_eq hstores hbucket hkey htarget
  have hask : Agreed (signedRequest settings .HEAD (keyFor input) [] none state).2 :=
    hagreed.signedRequest hbucket hkey
  obtain ⟨hexists, hasked⟩ := hexists
  rw [← hasked]
  generalize hasks : (signedRequest settings .HEAD (keyFor input) [] none state).2 = asked
    at hexists hasked hask
  cases hsome : (service.object state.1 (keyFor input)).isSome with
  | true =>
      have hput : ∃ error, putImmutable environment input state = (.error error, asked) := by
        refine ⟨.error (lit "Immutable SOURCE VAULT object existiert bereits: " ++
          units ("s3://".toList ++ settings.bucket ++ '/' :: keyFor input)), ?_⟩
        rw [putImmutable, hconfig]
        dsimp only
        rw [hexists, hsome]
      obtain ⟨error, hput⟩ := hput
      rw [hput]
      exact ⟨hask, .inr ⟨hasked ▸ hsome, ⟨error, rfl⟩, rfl⟩⟩
  | false =>
      have hstored : succeeded (signedRequest settings .PUT (keyFor input) input.body
          (some input.mimeType) asked).1 = true ∧ _ := put_eq hstores hbucket hkey
      obtain ⟨hsucceeded, hobject⟩ := hstored
      have hstate : Agreed (signedRequest settings .PUT (keyFor input) input.body
          (some input.mimeType) asked).2 := hask.signedRequest hbucket hkey
      generalize hanswers : signedRequest settings .PUT (keyFor input) input.body
          (some input.mimeType) asked = answer at hsucceeded hobject hstate
      have hput : putImmutable environment input state = (.ok
          { storageUri := "s3://".toList ++ settings.bucket ++ '/' :: keyFor input
            byteSize := input.body.length
            etag := answer.1.etag }, answer.2) := by
        rw [putImmutable, hconfig]
        dsimp only
        rw [hexists, hsome]
        dsimp only
        rw [hanswers, if_pos hsucceeded]
      rw [hput]
      refine ⟨hstate, .inl ⟨_, ?_, ?_, rfl, hobject⟩⟩
      · rw [keyOf, htarget]
      · rw [hasked]
        exact Option.not_isSome_iff_eq_none.mp (by rw [hsome]; decide)

/-- Identified and ordinary puts, and calls with URIs whose keys have no dot segments. -/
def Regular (environment : S3Environment) : Call → Prop
  | .putImmutable input => input.Identified ∧ input.Ordinary
  | .existsAt uri => ∀ key, keyOf environment uri = some key → Dotless key
  | .get uri => ∀ key, keyOf environment uri = some key → Dotless key
  | .delete uri => ∀ key, keyOf environment uri = some key → Dotless key

omit hstores hbucket hkey in
theorem target_cases (hconfig : config environment = .ok settings) (uri : Str) :
    (∃ error, keyOf environment uri = none ∧ target environment uri = .error error) ∨
      ∃ key, keyOf environment uri = some key ∧ target environment uri = .ok (settings, key) := by
  cases htarget : target environment uri with
  | error error => exact .inl ⟨error, by rw [keyOf, htarget], rfl⟩
  | ok pair =>
      have hkey : keyOf environment uri = some pair.2 := by rw [keyOf, htarget]
      obtain ⟨other, hother, htarget'⟩ := keyOf_eq_some hkey
      obtain rfl : settings = other := Except.ok.inj (hconfig.symm.trans hother)
      exact .inr ⟨pair.2, hkey, by rw [← htarget, htarget']⟩

section

omit hstores hbucket hkey

variable {error : StorageError} (htarget : target environment uri = .error error)
include htarget

theorem existsAt_failed : existsAt environment uri state = (.error error, state) := by
  rw [existsAt, htarget]

theorem get_failed : get environment uri state = (.error error, state) := by
  rw [get, htarget]

theorem delete_failed : delete environment uri state = (.error error, state) := by
  rw [delete, htarget]

end

omit hkey in
/-- The adapter keeps the sources apart. -/
theorem adapts (hconfig : config environment = .ok settings) :
    Adapts (port environment service) (view environment service) Agreed (Regular environment) where
  put input state hinput hagreed :=
    putImmutable_cases hstores hbucket hconfig hinput.1 hinput.2 hagreed
  existsAt uri state huri hagreed := by
    obtain ⟨error, -, htarget⟩ | ⟨key, hkey, htarget⟩ := target_cases hconfig uri
    · have hport : (port environment service).existsAt uri state = _ := existsAt_failed htarget
      rw [hport]
      exact ⟨hagreed, rfl⟩
    · have hdotless := huri key hkey
      have heq : existsAt environment uri state = _ ∧ _ :=
        existsAt_eq hstores hbucket hdotless htarget
      have hport : (port environment service).existsAt uri state = _ := heq.1
      rw [hport]
      exact ⟨hagreed.signedRequest hbucket hdotless, heq.2⟩
  get uri state huri hagreed := by
    obtain ⟨error, -, htarget⟩ | ⟨key, hkey, htarget⟩ := target_cases hconfig uri
    · have hport : (port environment service).get uri state = _ := get_failed htarget
      rw [hport]
      exact ⟨hagreed, rfl⟩
    · have hdotless := huri key hkey
      have heq : (get environment uri state).2 = _ ∧ _ := get_eq hstores hbucket hdotless htarget
      refine ⟨?_, heq.2.1⟩
      have hport : ((port environment service).get uri state).2 = _ := heq.1
      rw [hport]
      exact hagreed.signedRequest hbucket hdotless
  reads uri state key body huri _ hkey hbody := by
    obtain ⟨other, hother, htarget⟩ := keyOf_eq_some hkey
    obtain rfl : settings = other := Except.ok.inj (hconfig.symm.trans hother)
    exact (get_eq hstores hbucket (huri key hkey) htarget).2.2 body hbody
  delete uri state huri hagreed := by
    obtain ⟨error, hnone, htarget⟩ | ⟨key, hkey, htarget⟩ := target_cases hconfig uri
    · have hport : (port environment service).delete uri state = _ := delete_failed htarget
      have hview : (view environment service).keyOf uri = none := hnone
      rw [hport, hview]
      exact ⟨hagreed, rfl⟩
    · have hdotless := huri key hkey
      have hview : (view environment service).keyOf uri = some key := hkey
      have heq : (delete environment uri state).2 = _ ∧ _ :=
        delete_eq hstores hbucket hdotless htarget
      rw [hview]
      refine ⟨?_, heq.2⟩
      have hport : ((port environment service).delete uri state).2 = _ := heq.1
      rw [hport]
      exact hagreed.signedRequest hbucket hdotless
  below input hinput :=
    ⟨sanitizeSegment input.filename, sanitizeSegment_ne_nil _, keyFor_eq hinput.1 hinput.2⟩
  apart input other hinput hother heq := by
    have hnames : (keyFor input).splitOn '/' = (keyFor other).splitOn '/' :=
      congrArg (List.splitOn '/') heq
    rw [splitOn_keyFor hinput.1 hinput.2, splitOn_keyFor hother.1 hother.2] at hnames
    exact PutObjectInput.apart hinput.1 hinput.2 hother.1 hother.2 hnames

end S3ObjectStorageAdapter

end SourceVault
