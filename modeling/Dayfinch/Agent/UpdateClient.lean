/-
# Dayfinch.Agent.UpdateClient -- the client of the signed update channel

`check` reads the manifest and offers the release it names, `download` stores the release in the download
directory. Both read over `_get`, which follows at most three redirects and validates every URL before it
is contacted. The manifest is signed: the signature is verified over the canonical JSON of everything else
in it.

The network and the disk may do anything: `Environment.respond` gives the response to each request, with
its body in chunks and possibly broken off, and `Environment.fails` tells which of the input and output
operations of a call raise. Every operation happens at most once in a call, or is numbered. A call leaves
the directory and the URLs it contacted behind also when it raises, so calls are `Procedure`s. The libraries
for JSON, signatures, dates and joining URLs are functions of the environment.
-/
import Dayfinch.Agent.Versions
import Dayfinch.Library.Procedures
import Dayfinch.Library.Urls

namespace Dayfinch

namespace Agent.UpdateClient

open Library (Procedure)
open Library.Idna (Chars Unicode)
open Library.Urls (SplitResult ValueError urlsplit)

/-! ## Data -/

abbrev Bytes := List UInt8

def maxManifestBytes : Nat := 128 * 1024

def maxArtifactBytes : Int := 512 * 1024 * 1024

def maxRedirects : Nat := 3

/-- A JSON value; a number with a fraction or an exponent is exact, or no number at all. -/
inductive Json
  | null
  | boolean (value : Bool)
  | integer (value : Int)
  | real (value : Option Rat)
  | string (value : String)
  | array (items : List Json)
  | object (fields : List (String × Json))

/-- `payload.get(key)`. -/
def Json.get (fields : List (String × Json)) (key : String) : Option Json :=
  (fields.find? (·.1 == key)).map Prod.snd

/-- `UpdateArtifact`. -/
structure UpdateArtifact where
  platform : String
  filename : String
  url : String
  sha256 : String
  size : Int
  deriving DecidableEq, Repr

/-- `AvailableUpdate`. -/
structure AvailableUpdate where
  version : String
  publishedAt : String
  artifact : UpdateArtifact
  deriving DecidableEq, Repr

/-- A response: the chunks that arrive, and whether the body breaks off behind them. -/
structure Response where
  status : Nat
  contentLength : Option String
  location : String
  chunks : List Bytes
  broken : Bool

/-- What the name of a directory entry stands for. -/
inductive Entry
  | file (bytes : Bytes)
  | directory
  | other
  deriving DecidableEq, Repr

/-- The operations that may raise. Requests and responses are numbered in the order of the requests, writes
in the order of the chunks. -/
inductive IoStep
  | mkdir | isFile | stat | readTarget
  | send (request : Nat) | close (request : Nat)
  | create | write (chunk : Nat) | flush | fsync | closeStream
  | chmod | replace | openDirectory | fsyncDirectory | closeDirectory | unlink
  deriving DecidableEq, Repr

/-- What a call raises. -/
inductive Raised
  | update (e : UpdateError)
  | value (e : ValueError)
  | status (code : Nat)
  | brokenBody
  | json
  | os (step : IoStep)
  | fileExists
  | isDirectory
  deriving DecidableEq, Repr

/-- What a client runs against. -/
structure Environment where
  respond : Nat → Chars → Response
  fails : IoStep → Bool
  /-- The random part of the name of a temporary file. -/
  random : String
  hasODirectory : Bool
  unicode : Unicode
  isIPv6 : Chars → Bool
  /-- `urljoin(base, location)`. -/
  urljoin : Chars → Chars → Except ValueError Chars
  /-- `int(value)`. -/
  int : String → Option Int
  /-- `hashlib.sha256(data).hexdigest()`. -/
  sha256 : Bytes → String
  /-- `json.loads(data)`. -/
  loads : Bytes → Option Json
  /-- `json.dumps(value, sort_keys=True, separators=(",", ":"), ensure_ascii=True).encode("utf-8")`. -/
  dumps : List (String × Json) → Bytes
  /-- `base64.b64decode(value + padding, altchars=b"-_", validate=True)`. -/
  b64decode : String → Option Bytes
  /-- `Ed25519PublicKey.verify(signature, data)` with the key of the client. -/
  verify : Bytes → Bytes → Bool
  /-- Whether `datetime.fromisoformat(value)` has a timezone. -/
  fromisoformat : String → Option Bool

/-- The directory, the URLs that have been contacted, and the local variable `temporary_path`. -/
structure World where
  files : String → Option Entry
  contacted : List Chars
  temporary : Option String

def updateError (message : String) : Raised := .update ⟨message⟩

variable (env : Environment)

/-! ## Requests -/

/-- An operation that may raise. -/
def io (step : IoStep) : Procedure World Raised Unit := fun w =>
  if env.fails step then (.error (.os step), w) else (.ok (), w)

/-- `validate_update_url`. -/
def validateUpdateUrl (url : Chars) : Except Raised Unit := do
  let parsed ← (urlsplit env.unicode env.isIPv6 url).mapError Raised.value
  let hostname := parsed.hostname env.unicode
  if parsed.scheme ∉ ["http".toList, "https".toList] ∨ hostname = none ∨
      (∃ name ∈ parsed.username, name ≠ []) ∨ (∃ password ∈ parsed.password, password ≠ []) ∨
      parsed.fragment ≠ [] then
    throw (updateError "Update URLs must be HTTP(S) URLs without credentials or fragments")
  if parsed.scheme = "http".toList then
    if hostname.map env.unicode.lower ∉ [some "localhost".toList, some "127.0.0.1".toList, some "::1".toList] then
      throw (updateError "Update URLs must use HTTPS unless hosted on localhost")

/-- `client.send`: the response and the number of the request. -/
def send (url : Chars) : Procedure World Raised (Response × Nat) := fun w =>
  let request := w.contacted.length
  let w := { w with contacted := w.contacted ++ [url] }
  if env.fails (.send request) then (.error (.os (.send request)), w)
  else (.ok (env.respond request url, request), w)

/-- The status of a redirect. -/
def Response.isRedirect (response : Response) : Bool := response.status ∈ [301, 302, 303, 307, 308]

/-- One pass of the loop of `_get`: a response to return, or the URL of the next pass. `final` is
`redirect_count == MAX_REDIRECTS`. -/
def visit (final : Bool) (url : Chars) : Procedure World Raised ((Response × Nat) ⊕ Chars) := do
  Procedure.lift (validateUpdateUrl env url)
  let (response, request) ← send env url
  if response.isRedirect = false then pure (.inl (response, request))
  else do
    io env (.close request)
    if response.location = "" then
      Procedure.raise (updateError "Update redirect did not include a destination")
    else if final then Procedure.raise (updateError "Update URL exceeded the redirect limit")
    else do
      let destination ← Procedure.lift ((env.urljoin url response.location.toList).mapError Raised.value)
      Procedure.lift (validateUpdateUrl env destination)
      pure (.inr destination)

/-- The loop of `_get`, with the passes that are left. -/
def getFrom : Nat → Chars → Procedure World Raised (Response × Nat)
  | 0, _ => Procedure.raise (updateError "Update URL exceeded the redirect limit")
  | left + 1, url => do
    let visited ← visit env (left == 0) url
    match visited with
    | .inl response => pure response
    | .inr destination => getFrom left destination

/-- `_get`. -/
def get (url : String) : Procedure World Raised (Response × Nat) := getFrom env (maxRedirects + 1) url.toList

/-- `response.raise_for_status()`. -/
def raiseForStatus (response : Response) : Except Raised Unit :=
  if 200 ≤ response.status ∧ response.status < 300 then .ok () else .error (.status response.status)

/-- `_content_length`. -/
def contentLength (response : Response) : Except Raised Int :=
  match response.contentLength with
  | none => .ok 0
  | some value =>
    match env.int value with
    | none => .error (updateError "Update response Content-Length is invalid")
    | some size =>
      if size < 0 then .error (updateError "Update response Content-Length is invalid") else .ok size

/-! ## The manifest -/

/-- The chunks of the manifest, up to the largest size. -/
def collect : Bytes → List Bytes → Except Raised Bytes
  | data, [] => .ok data
  | data, chunk :: chunks =>
    if (data ++ chunk).length > maxManifestBytes then .error (updateError "Update manifest is too large")
    else collect (data ++ chunk) chunks

/-- The body of the manifest. -/
def readManifest (response : Response) : Except Raised Bytes := do
  raiseForStatus response
  let declared ← contentLength env response
  if declared > maxManifestBytes then throw (updateError "Update manifest is too large")
  let data ← collect [] response.chunks
  if response.broken then throw .brokenBody
  return data

/-- `_decode_base64url`. -/
def decodeBase64url (value : String) (expectedBytes : Nat) (label : String) : Except Raised Bytes :=
  match env.b64decode value with
  | none => .error (updateError s!"{label} must be valid base64url")
  | some decoded =>
    if decoded.length ≠ expectedBytes then
      .error (updateError s!"{label} must decode to {expectedBytes} bytes")
    else .ok decoded

/-- `canonical_manifest`. -/
def canonicalManifest (payload : List (String × Json)) : Bytes :=
  env.dumps (payload.filter (·.1 != "signature"))

/-- `value == 1`. -/
def Json.equalsOne : Json → Bool
  | .boolean value => value
  | .integer value => value == 1
  | .real value => value == some 1
  | _ => false

/-- `^[A-Za-z0-9][A-Za-z0-9._-]{0,127}$`. -/
def isFilename (name : String) : Bool :=
  Library.Text.fullmatch Char.isAlphanum (fun c => c.isAlphanum || c ∈ ['.', '_', '-']) 127 name

/-- `[0-9a-f]{64}`. -/
def isHexDigest (digest : String) : Bool :=
  digest.toList.length == 64 && digest.toList.all fun c => c.isDigit || ('a' ≤ c ∧ c ≤ 'f')

/-- `if condition: raise UpdateError(message)`. -/
def refuse (condition : Prop) [Decidable condition] (message : String) : Except Raised Unit :=
  if condition then .error (updateError message) else .ok ()

/-- `if not isinstance(value, str): raise UpdateError(message)`. -/
def asString (value : Option Json) (message : String) : Except Raised String :=
  match value with
  | some (.string text) => .ok text
  | _ => .error (updateError message)

/-- The same for `dict`. -/
def asObject (value : Option Json) (message : String) : Except Raised (List (String × Json)) :=
  match value with
  | some (.object fields) => .ok fields
  | _ => .error (updateError message)

/-- The same for `int`, and not `bool`. -/
def asInteger (value : Option Json) (message : String) : Except Raised Int :=
  match value with
  | some (.integer n) => .ok n
  | _ => .error (updateError message)

/-- `_parse_artifact`. -/
def parseArtifact (platform : String) (value : List (String × Json)) : Except Raised UpdateArtifact := do
  let filename ← asString (Json.get value "filename") "Update artifact filename is invalid"
  refuse (isFilename filename = false) "Update artifact filename is invalid"
  let url ← asString (Json.get value "url") "Update artifact URL is invalid"
  validateUpdateUrl env url.toList
  let digest ← asString (Json.get value "sha256") "Update artifact SHA-256 is invalid"
  refuse (isHexDigest digest = false) "Update artifact SHA-256 is invalid"
  let size ← asInteger (Json.get value "size") "Update artifact size is invalid"
  refuse (size < 1 ∨ size > maxArtifactBytes) "Update artifact size is invalid"
  return ⟨platform, filename, url, digest, size⟩

/-- A client. -/
structure Client where
  manifestUrl : String
  currentVersion : String
  platformName : String

/-- The release of a verified manifest, if it is newer. -/
def readUpdate (client : Client) (payload : List (String × Json)) : Except Raised (Option AvailableUpdate) := do
  let version ← asString (Json.get payload "version") "Update manifest fields are invalid"
  let publishedAt ← asString (Json.get payload "published_at") "Update manifest fields are invalid"
  let artifacts ← asObject (Json.get payload "artifacts") "Update manifest fields are invalid"
  let published := env.fromisoformat (publishedAt.replace "Z" "+00:00")
  refuse (published = none) "Update manifest published_at is invalid"
  refuse (published = some false) "Update manifest published_at must include a timezone"
  let newer ← (versionIsNewer version client.currentVersion).mapError Raised.update
  if newer then do
    let value ← asObject (Json.get artifacts client.platformName)
      s!"Release {version} does not support {client.platformName}"
    let artifact ← parseArtifact env client.platformName value
    return some ⟨version, publishedAt, artifact⟩
  else return none

/-- `check`, once the body of the manifest has been read. -/
def readRelease (client : Client) (data : Bytes) : Except Raised (Option AvailableUpdate) := do
  refuse (env.loads data = none) "Update manifest is not valid JSON"
  let payload ← asObject (env.loads data) "Unsupported update manifest schema"
  refuse ((Json.get payload "schema").any Json.equalsOne = false) "Unsupported update manifest schema"
  let text ← asString (Json.get payload "signature") "Update manifest signature is missing"
  let signature ← decodeBase64url env text 64 "manifest signature"
  refuse (env.verify signature (canonicalManifest env payload) = false) "Update manifest signature is invalid"
  readUpdate env client payload

/-- `check`. -/
def check (client : Client) : Procedure World Raised (Option AvailableUpdate) := do
  let (response, request) ← get env client.manifestUrl
  let data ← Procedure.withCleanup (Procedure.lift (readManifest env response)) (io env (.close request))
  Procedure.lift (readRelease env client data)

/-! ## The download -/

/-- The name of the temporary file. -/
def partName (artifact : UpdateArtifact) : String := "." ++ artifact.filename ++ "." ++ env.random ++ ".part"

/-- The directory with an entry under a name. -/
def put (files : String → Option Entry) (name : String) (entry : Option Entry) : String → Option Entry :=
  Function.update files name entry

/-- The bytes have the size and the hash of the manifest. -/
def Verified (artifact : UpdateArtifact) (bytes : Bytes) : Prop :=
  (bytes.length : Int) = artifact.size ∧ env.sha256 bytes = artifact.sha256

instance (artifact : UpdateArtifact) (bytes : Bytes) : Decidable (Verified env artifact bytes) :=
  inferInstanceAs (Decidable (_ ∧ _))

/-- `target.is_file() and self._matches(target, artifact)`. -/
def alreadyThere (files : String → Option Entry) (artifact : UpdateArtifact) : Except Raised Bool :=
  match files artifact.filename with
  | some (.file bytes) =>
    if env.fails .isFile then .ok false
    else if env.fails .stat then .error (.os .stat)
    else if (bytes.length : Int) ≠ artifact.size then .ok false
    else if env.fails .readTarget then .error (.os .readTarget)
    else .ok (env.sha256 bytes == artifact.sha256)
  | _ => .ok false

/-- `NamedTemporaryFile(..)`, and `temporary_path = Path(stream.name)`. -/
def createPart (part : String) : Procedure World Raised Unit := do
  io env .create
  let w ← Procedure.read
  if w.files part ≠ none then Procedure.raise .fileExists
  else Procedure.modify fun w => { w with files := put w.files part (some (.file [])), temporary := some part }

/-- The loop over the chunks; `data` is what has been written. -/
def writeChunks (artifact : UpdateArtifact) (part : String) : Nat → Bytes → List Bytes → Procedure World Raised Bytes
  | _, data, [] => pure data
  | i, data, chunk :: chunks =>
    if ((data ++ chunk).length : Int) > artifact.size then
      Procedure.raise (updateError "Downloaded update is larger than the manifest")
    else do
      io env (.write i)
      Procedure.modify fun w => { w with files := put w.files part (some (.file (data ++ chunk))) }
      writeChunks artifact part (i + 1) (data ++ chunk) chunks

/-- The body of the `with` statement. -/
def fill (artifact : UpdateArtifact) (part : String) (response : Response) : Procedure World Raised Bytes := do
  let data ← writeChunks env artifact part 0 [] response.chunks
  if response.broken then Procedure.raise .brokenBody
  else do
    io env .flush
    io env .fsync
    pure data

/-- `temporary_path.replace(target)`, and `temporary_path = None`. -/
def replaceTarget (artifact : UpdateArtifact) (part : String) : Procedure World Raised Unit := do
  io env .replace
  let w ← Procedure.read
  if w.files artifact.filename = some .directory then Procedure.raise .isDirectory
  else Procedure.modify fun w =>
    { w with files := put (put w.files artifact.filename (w.files part)) part none, temporary := none }

/-- The directory is written through. -/
def syncDirectory : Procedure World Raised Unit :=
  if env.hasODirectory then do
    io env .openDirectory
    Procedure.withCleanup (io env .fsyncDirectory) (io env .closeDirectory)
  else pure ()

/-- The `with` statement and what follows it in the `try` statement. -/
def store (artifact : UpdateArtifact) (part : String) (response : Response) : Procedure World Raised String := do
  let data ← Procedure.withCleanup (fill env artifact part response) (io env .closeStream)
  if (data.length : Int) ≠ artifact.size then
    Procedure.raise (updateError "Downloaded update size does not match the manifest")
  else if env.sha256 data ≠ artifact.sha256 then
    Procedure.raise (updateError "Downloaded update SHA-256 does not match the manifest")
  else do
    io env .chmod
    replaceTarget env artifact part
    syncDirectory env
    pure artifact.filename

/-- The body of the `try` statement. -/
def stage (artifact : UpdateArtifact) (response : Response) : Procedure World Raised String := do
  Procedure.lift (raiseForStatus response)
  let declared ← Procedure.lift (contentLength env response)
  if declared ≠ 0 ∧ declared ≠ artifact.size then
    Procedure.raise (updateError "Downloaded update size does not match the manifest")
  else do
    createPart env (partName env artifact)
    store env artifact (partName env artifact) response

/-- The `finally` of the `try` statement. -/
def cleanUp (request : Nat) : Procedure World Raised Unit := do
  io env (.close request)
  let w ← Procedure.read
  match w.temporary with
  | none => pure ()
  | some part => do
    io env .unlink
    Procedure.modify fun w => { w with files := put w.files part none }

/-- `download`: the name of the file in the download directory. -/
def download (update : AvailableUpdate) : Procedure World Raised String := do
  io env .mkdir
  let w ← Procedure.read
  let there ← Procedure.lift (alreadyThere env w.files update.artifact)
  if there then pure update.artifact.filename
  else do
    Procedure.modify fun w => { w with temporary := none }
    let (response, request) ← get env update.artifact.url
    Procedure.withCleanup (stage env update.artifact response) (cleanUp env request)

end Agent.UpdateClient

end Dayfinch
