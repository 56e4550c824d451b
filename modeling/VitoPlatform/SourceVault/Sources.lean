import VitoPlatform.Library.Tables
import VitoPlatform.Persistence.Checks
import VitoPlatform.SourceVault.Storage

/-!
# Registration of sources

`ingestUpload`, `register`, `getContent` and `lineage` of the vault, over the table of its sources
and an object storage behind the port. What an upload has put into the storage and not deleted
again is kept in `uploads`, with the source that it has become; no program looks at that.
-/

namespace SourceVault.Sources

open Text Concurrent Services

inductive SourceValidationStatus where
  | unreviewed
  | reviewed
  | validated
  | rejected
  | superseded
  deriving DecidableEq

structure Source where
  id : Str
  sourceId : Str
  organizationId : Str
  originalFilename : Str
  mimeType : Str
  byteSize : Nat
  sha256 : Str
  storageUri : Str
  version : Nat
  supersedesSourceId : Option Str
  parentSourceId : Option Str
  validationStatus : SourceValidationStatus

structure RegisterSourceDto where
  originalFilename : Str
  mimeType : Str
  byteSize : Nat
  sha256 : Str
  storageUri : Str
  supersedesSourceId : Option Str
  parentSourceId : Option Str
  validationStatus : Option SourceValidationStatus

structure UploadSourceDto where
  supersedesSourceId : Option Str
  parentSourceId : Option Str

structure UploadedSourceFile where
  originalname : Str
  mimetype : Str
  size : Nat
  buffer : Octets

/-- What an upload has put into the storage, and the source that it has become. -/
structure Upload where
  session : Nat
  uri : Str
  body : Octets
  source : Option Str

def Upload.registered (sourceId : Str) (upload : Upload) : Upload :=
  { upload with source := some sourceId }

structure Vault (port : ObjectStoragePort) where
  sources : List Source
  objects : port.State
  uploads : List Upload

/-- What the vault computes from bytes and from a time. A digest has no capital letter. -/
structure Digest where
  sha256Hex : Octets → Str
  year : Int → Str
  lower : ∀ bytes, (sha256Hex bytes).map Char.toLower = sha256Hex bytes

variable {port : ObjectStoragePort}

/-! ## Statements -/

namespace Vault

variable (s : Vault port)

def findUnique (organizationId sha256 : Str) : Option Source :=
  s.sources.find? fun source => source.organizationId = organizationId ∧ source.sha256 = sha256

def findFirst (organizationId id : Str) : Option Source :=
  s.sources.find? fun source => source.id = id ∧ source.organizationId = organizationId

/-- The row violates no unique index. -/
def isNew (row : Source) : Bool :=
  s.sources.all fun source => source.id ≠ row.id ∧ source.sourceId ≠ row.sourceId ∧
    (source.organizationId = row.organizationId → source.sha256 ≠ row.sha256)

/-- There is a row under an identifier, which is not empty. -/
def hasSource (id : Str) : Bool := id ≠ [] && (Tables.find Source.id s.sources id).isSome

/-- The foreign keys of a row. -/
def refers (row : Source) : Bool :=
  row.supersedesSourceId.all s.hasSource && row.parentSourceId.all s.hasSource

end Vault

def Source.superseded (source : Source) : Source :=
  { source with validationStatus := .superseded }

/-- An identifier that is given: the empty text is false. -/
def given (id : Option Str) : Option Str := id.filter (· ≠ [])

/-- The sources after a new one that may supersede another. -/
def Vault.insertSource (s : Vault port) (row : Source) : List Source :=
  match given row.supersedesSourceId with
  | none => s.sources ++ [row]
  | some id => Tables.write Source.id (s.sources ++ [row]) id Source.superseded

/-- How a transaction ends that creates a source: nothing is the violation of a unique index. -/
def Vault.create (s : Vault port) (session : Nat) (uri : Option Str) (row : Source) :
    Except HttpError (Option Source) × Vault port :=
  if !s.isNew row then (.ok none, s)
  else if !s.refers row then (.error .database, s)
  else
    (.ok (some row),
      { s with
        sources := s.insertSource row
        uploads := if uri.isSome then
            Tables.write Upload.session s.uploads session (Upload.registered row.id)
          else s.uploads })

/-! ## Registration -/

/-- `createHumanSourceId`, from the year and the digits of a random UUID. -/
def createHumanSourceId (year uuid : Str) : Str :=
  let isHex (c : Char) := (48 ≤ c.toNat && c.toNat ≤ 57) || (97 ≤ c.toNat && c.toNat ≤ 102)
  "SRC-".toList ++ year ++ '-' :: ((uuid.filter isHex).take 12).map Char.toUpper

structure Registration where
  duplicate : Bool
  source : Source

/-- `prisma.source.findFirst`, by its id. -/
def findFirst (organizationId id : Str) : Program (Vault port) (Option Source) :=
  query fun s => s.findFirst organizationId id

/-- The version of a source, by the one that it supersedes. -/
def nextVersion (organizationId : Str) (supersedesSourceId : Option Str) :
    Program (Vault port) Nat :=
  match given supersedesSourceId with
  | none => pure 1
  | some id => do
      let previous ← findFirst organizationId id
      let source ← Proc.expect previous (.notFound
        "Die angegebene Vorgänger-Source wurde in dieser Organization nicht gefunden.")
      return source.version + 1

def assertParent (organizationId : Str) (parentSourceId : Option Str) :
    Program (Vault port) Unit :=
  match given parentSourceId with
  | none => pure ()
  | some id => do
      let parent ← findFirst organizationId id
      Proc.require parent.isSome (.notFound
        "Die angegebene Parent-Source wurde in dieser Organization nicht gefunden.")

/-- The row of a registration. -/
def RegisterSourceDto.source (dto : RegisterSourceDto) (organizationId sha256 id sourceId : Str)
    (version : Nat) : Source where
  id := id
  sourceId := sourceId
  organizationId := organizationId
  originalFilename := dto.originalFilename
  mimeType := dto.mimeType
  byteSize := dto.byteSize
  sha256 := sha256
  storageUri := dto.storageUri
  version := version
  supersedesSourceId := dto.supersedesSourceId
  parentSourceId := dto.parentSourceId
  validationStatus := dto.validationStatus.getD .unreviewed

/-- A duplicate that has come in between. -/
def duplicateAfterRace (organizationId sha256 : Str) : Program (Vault port) Registration := do
  let duplicate ← query fun s => s.findUnique organizationId sha256
  let source ← Proc.expect duplicate (.conflict
    "Die Source konnte wegen einer konkurrierenden Registrierung nicht registriert werden.")
  return ⟨true, source⟩

/-- `register`. An upload gives its human source id, and the URI that it has stored under. -/
def register (digest : Digest) (session : Nat) (organizationId : Str) (dto : RegisterSourceDto)
    (sourceIdOverride uri : Option Str) : Program (Vault port) Registration := do
  let normalizedHash := dto.sha256.map Char.toLower
  let duplicate ← query fun s => s.findUnique organizationId normalizedHash
  match duplicate with
  | some source => return ⟨true, source⟩
  | none => do
      let version ← nextVersion organizationId dto.supersedesSourceId
      assertParent organizationId dto.parentSourceId
      let created ← change fun c s => s.create session uri
        (dto.source organizationId normalizedHash c.id
          (sourceIdOverride.getD (createHumanSourceId (digest.year c.now) c.id)) version)
      match created with
      | some source => return ⟨false, source⟩
      | none => duplicateAfterRace organizationId normalizedHash

/-! ## Uploads -/

def UploadedSourceFile.type (file : UploadedSourceFile) : Str :=
  if file.mimetype = [] then "application/octet-stream".toList else file.mimetype

/-- The object of an upload. -/
def UploadedSourceFile.object (file : UploadedSourceFile) (organizationId sourceId : Str) :
    PutObjectInput where
  organizationId := organizationId
  sourceId := sourceId
  filename := file.originalname
  mimeType := file.type
  body := file.buffer

/-- `putImmutable`, which answers the human source id with the stored object. -/
def putImmutable (digest : Digest) (session : Nat) (organizationId : Str)
    (file : UploadedSourceFile) : Program (Vault port) (Str × StoredObject) :=
  change fun c s =>
    let sourceId := createHumanSourceId (digest.year c.now) c.id
    let result := port.putImmutable (file.object organizationId sourceId) s.objects
    match result.1 with
    | .error _ => (.error .database, { s with objects := result.2 })
    | .ok object =>
        (.ok (sourceId, object),
          { s with
            objects := result.2
            uploads := s.uploads ++ [⟨session, object.storageUri, file.buffer, none⟩] })

/-- `delete`, of what the session has stored. -/
def deleteObject (session : Nat) (uri : Str) : Program (Vault port) Unit :=
  change fun _ s =>
    let result := port.delete uri s.objects
    match result.1 with
    | .error _ => (.error .database, { s with objects := result.2 })
    | .ok _ =>
        (.ok (), { s with objects := result.2, uploads := s.uploads.filter (·.session ≠ session) })

def UploadSourceDto.register (dto : UploadSourceDto) (file : UploadedSourceFile)
    (sha256 storageUri : Str) : RegisterSourceDto where
  originalFilename := file.originalname
  mimeType := file.type
  byteSize := file.size
  sha256 := sha256
  storageUri := storageUri
  supersedesSourceId := dto.supersedesSourceId
  parentSourceId := dto.parentSourceId
  validationStatus := some .unreviewed

/-- The registration of what has been stored, which is deleted if it is a duplicate. -/
def registerStored (digest : Digest) (session : Nat) (organizationId : Str)
    (file : UploadedSourceFile) (dto : UploadSourceDto) (sourceId storageUri : Str) :
    Program (Vault port) Registration := do
  let result ← register digest session organizationId
    (dto.register file (digest.sha256Hex file.buffer) storageUri) (some sourceId) (some storageUri)
  if result.duplicate then do
    deleteObject session storageUri
    return result
  else return result

/-- Delete what has been stored, if that can be, and throw the error. -/
def discardStored (session : Nat) (storageUri : Str) (error : HttpError) :
    Program (Vault port) Registration := do
  (deleteObject session storageUri).tryCatch fun _ => pure ()
  .throw error

/-- `ingestUpload`. -/
def ingestUpload (digest : Digest) (session : Nat) (organizationId : Str)
    (file : UploadedSourceFile) (dto : UploadSourceDto) : Program (Vault port) Registration := do
  let duplicate ← query fun s => s.findUnique organizationId (digest.sha256Hex file.buffer)
  match duplicate with
  | some source => return ⟨true, source⟩
  | none => do
      let stored ← putImmutable digest session organizationId file
      (registerStored digest session organizationId file dto stored.1 stored.2.storageUri).tryCatch
        (discardStored session stored.2.storageUri)

/-! ## Reading -/

def existsAt (uri : Str) : Program (Vault port) Bool :=
  change fun _ s =>
    let result := port.existsAt uri s.objects
    match result.1 with
    | .error _ => (.error .database, { s with objects := result.2 })
    | .ok found => (.ok found, { s with objects := result.2 })

def getObject (uri : Str) : Program (Vault port) Octets :=
  change fun _ s =>
    let result := port.get uri s.objects
    match result.1 with
    | .error _ => (.error .database, { s with objects := result.2 })
    | .ok body => (.ok body, { s with objects := result.2 })

def sourceNotFound : HttpError := .notFound "Source nicht gefunden."

/-- `getContent`. -/
def getContent (digest : Digest) (organizationId id : Str) :
    Program (Vault port) (Source × Octets) := do
  let found ← findFirst organizationId id
  let source ← Proc.expect found sourceNotFound
  let available ← existsAt source.storageUri
  Proc.require available
    (.notFound "Das Originalobjekt der Source ist im Storage nicht verfügbar.")
  let buffer ← getObject source.storageUri
  Proc.require (digest.sha256Hex buffer = source.sha256)
    (.conflict ("Integritätsprüfung fehlgeschlagen: " ++
      "Stored Object stimmt nicht mit dem registrierten SHA-256 überein."))
  return (source, buffer)

/-- A source in a line of versions. -/
structure Version where
  id : Str
  sourceId : Str
  version : Nat
  sha256 : Str

def Source.entry (source : Source) : Version :=
  ⟨source.id, source.sourceId, source.version, source.sha256⟩

structure Lineage where
  current : Source
  /-- Nothing, where the loop has not ended within the given number of turns. -/
  previous : Option (List Version)
  later : List Version

/-- The loop of `lineage`, for a number of turns. -/
def previousOf (organizationId : Str) : Nat → List Str → Option Str →
    Program (Vault port) (Option (List Version))
  | 0, seen, cursorId =>
      -- The turns are used up, unless the condition of the loop fails.
      match given cursorId with
      | none => pure (some [])
      | some id => if id ∈ seen then pure (some []) else pure none
  | turns + 1, seen, cursorId =>
      match given cursorId with
      | none => pure (some [])
      | some id =>
          if id ∈ seen then pure (some [])
          else do
            let found ← findFirst organizationId id
            match found with
            | none => return some []
            | some item => do
                let rest ← previousOf organizationId turns (id :: seen) item.supersedesSourceId
                return rest.map (item.entry :: ·)

/-- The sources that supersede one, in the order of their versions. -/
def Vault.laterThan (s : Vault port) (organizationId id : Str) : List Version :=
  let later := s.sources.filter fun source =>
    source.organizationId = organizationId ∧ source.supersedesSourceId = some id
  (later.map Source.entry).mergeSort fun a b => a.version ≤ b.version

/-- `lineage`. -/
def lineage (turns : Nat) (organizationId id : Str) : Program (Vault port) Lineage := do
  let found ← findFirst organizationId id
  let current ← Proc.expect found sourceNotFound
  let previous ← previousOf organizationId turns [] current.supersedesSourceId
  let later ← query fun s => s.laterThan organizationId id
  return ⟨current, previous, later⟩

/-! ## Calls -/

inductive Call where
  | upload (organizationId : Str) (file : UploadedSourceFile) (dto : UploadSourceDto)
  | register (organizationId : Str) (dto : RegisterSourceDto)
  | content (organizationId id : Str)
  | lineage (turns : Nat) (organizationId id : Str)

inductive Answer where
  | registration (registration : Registration)
  | content (source : Source) (buffer : Octets)
  | lineage (lineage : Lineage)

def Call.program (digest : Digest) (session : Nat) : Call → Program (Vault port) Answer
  | .upload organizationId file dto => do
      let result ← ingestUpload digest session organizationId file dto
      return .registration result
  | .register organizationId dto => do
      let result ← Sources.register digest session organizationId dto none none
      return .registration result
  | .content organizationId id => do
      let result ← getContent digest organizationId id
      return .content result.1 result.2
  | .lineage turns organizationId id => do
      let result ← Sources.lineage turns organizationId id
      return .lineage result

def programs (digest : Digest) (calls : List Call) : List (Program (Vault port) Answer) :=
  calls.mapIdx fun session call => call.program digest session

abbrev Move (port : ObjectStoragePort) := Concurrent.Move (Vault port) Choice HttpError Answer

/-- A run of any calls from a vault. -/
abbrev Run (digest : Digest) (calls : List Call) (store : Vault port) (moves : List (Move port))
    (s : System (Vault port) Choice HttpError Answer) : Prop :=
  Concurrent.Run store (programs digest calls) moves s

end SourceVault.Sources
