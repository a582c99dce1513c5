/-
# Dayfinch.Accounts.SignIn -- passwords, authentication codes and signed sessions

A sign-in is a request that calls the database several times: it asks whether there were too many failures, reads
the user, checks the password or the code, and writes a failure or clears the failures. Any number of requests run
at once, and a step is one call of one of them (`call`); between two calls everything else may happen.

The session is a signed cookie that the client keeps. The server does not remember which it has given out, so a
client may send any it ever got (`Store.issued`), also after a sign-out or in many requests at once.

Whatever else writes users or the settings of the organization is one operation with any outcome.
-/
import Dayfinch.Clock
import Dayfinch.Library.Text
import Dayfinch.Library.Trace
import Mathlib.Data.List.Perm.Basic
import Mathlib.Tactic.Cases

namespace Dayfinch

namespace SignIn

open Library (run trace Guarded)
open Library.Text (lower strip)

abbrev Bytes := List UInt8

/-! ## Passwords and codes -/

/-- The libraries, with the session secret. -/
structure Cryptography where
  /-- `hmac.new(session_secret, value.encode("utf-8"), sha256).hexdigest()`. -/
  digest : String → String
  /-- `hashlib.scrypt(password, salt=.., n=.., r=.., p=.., dklen=..)`. -/
  scrypt : String → Bytes → Int → Int → Int → Nat → Option Bytes
  /-- `base64.urlsafe_b64decode(value)`. -/
  b64decode : String → Option Bytes
  /-- `int(value)`. -/
  int : String → Option Int
  /-- `base64.b32decode(value)`. -/
  b32decode : String → Option Bytes
  /-- `hmac.new(key, struct.pack(">Q", counter), sha1).digest()`. -/
  hmacSha1 : Bytes → Int → Bytes
  /-- `str.isdigit` of a character. -/
  isdigit : Char → Bool
  /-- `app.state.dummy_password_hash`. -/
  dummyPasswordHash : String

/-- `value.split(separator, n)`. -/
def split (separator : Char) : Nat → List Char → List String
  | 0, value => [String.ofList value]
  | n + 1, value =>
    match value.dropWhile (· != separator) with
    | [] => [String.ofList value]
    | _ :: rest => String.ofList (value.takeWhile (· != separator)) :: split separator n rest

variable (c : Cryptography)

/-- The bytes that the fields of a stored hash say, and those of the password. -/
def derived (password : String) : List String → Option (Bytes × Bytes)
  | [algorithm, n, r, p, salt, expected] => do
    let _ ← if algorithm = "scrypt" then some () else none
    let salt ← c.b64decode salt
    let expected ← c.b64decode expected
    let actual ← c.scrypt password salt (← c.int n) (← c.int r) (← c.int p) expected.length
    return (actual, expected)
  | _ => none

/-- `verify_password`. -/
def verifyPassword (password : String) (encoded : Option String) : Bool :=
  match encoded with
  | none => false
  | some encoded =>
    if encoded = "" then false
    else
      match derived c password (split '$' 5 encoded.toList) with
      | none => false
      | some (actual, expected) => actual == expected

/-- The six digits of an HMAC. -/
def codeText (digest : Bytes) : String :=
  let offset := (digest.getLastD 0).toNat % 16
  let value := ((digest.drop offset).take 4).foldl (fun n b => n * 256 + b.toNat) 0
  String.leftpad 6 '0' (toString (value % 2 ^ 31 % 1000000))

/-- `verify_totp` at the time `now`. It raises for digits that are not ASCII, since they cannot be compared. -/
def verifyTotp (secret code : String) (now : Int) : Option Bool :=
  if secret = "" || code = "" || !code.toList.all c.isdigit || code.length ≠ 6 then some false
  else
    match c.b32decode (secret.toUpper ++ String.ofList (List.replicate ((8 - secret.length % 8) % 8) '=')) with
    | none => some false
    | some key =>
      -- `compare_digest` raises for a text that is not ASCII.
      if code.toList.all (·.toNat < 128) then
        some ([-1, 0, 1].any fun drift => codeText (c.hmacSha1 key (now / seconds 1 / 30 + drift)) == code)
      else none

/-! ## Tables and sessions -/

/-- A row of `users`: the columns that sign a user in. -/
structure SignInUser where
  id : String
  email : String
  passwordHash : Option String
  enabled : Bool
  totpSecret : Option String
  twoFactorEnabled : Bool
  deriving DecidableEq, Repr

/-- A row of `login_attempts`. -/
structure LoginAttempt where
  identityHash : String
  sourceHash : String
  attemptedAt : Int
  deriving DecidableEq, Repr

/-- What a session says of its user. -/
structure Session where
  preauthUserId : Option String := none
  userId : Option String := none
  deriving DecidableEq, Repr

/-- The limits, as `Settings.from_env` bounds them. -/
structure Limits where
  windowMinutes : Int
  identityFailures : Nat
  sourceFailures : Nat
  window_pos : 0 < windowMinutes
  window_le : windowMinutes ≤ 1440
  identity_pos : 0 < identityFailures
  source_pos : 0 < sourceFailures

/-- `Settings.from_env`, from the numbers of the environment. -/
def Limits.fromEnv (window identity source : Int) : Limits where
  windowMinutes := min (max 1 window) 1440
  identityFailures := (min (max 3 identity) 100).toNat
  sourceFailures := (min (max 10 source) 1000).toNat
  window_pos := by omega
  window_le := by omega
  identity_pos := by omega
  source_pos := by omega

/-- A request, with the session of its cookie. The setup page draws a secret. -/
inductive SignInRequest
  | login (email password : String)
  | twoFactorVerify (session : Session) (code : String)
  | twoFactorSetup (session : Session) (code : String)
  | twoFactorSetupPage (session : Session) (secret : String)
  deriving DecidableEq, Repr

/-- How far a request is: what it has read, and which call comes next. -/
inductive Stage
  /-- A sign-in asks the throttle next, the others read their user. -/
  | arrived
  /-- `_preauth_user` has returned; the throttle comes next. -/
  | identified (user : SignInUser)
  /-- A sign-in may try its password. -/
  | admitted
  /-- The code may be tried. -/
  | challenged (user : SignInUser)
  /-- `record_login_failure` comes next. -/
  | failed
  /-- `clear_login_failures` comes next. -/
  | passed (user : SignInUser)
  /-- The session comes next. -/
  | cleared (user : SignInUser)
  /-- The setup page stores its secret next. -/
  | enrolling (user : SignInUser)
  deriving DecidableEq, Repr

/-- A request that is running. -/
structure Flight where
  request : SignInRequest
  identityHash : String
  sourceHash : String
  stage : Stage := .arrived
  deriving DecidableEq, Repr

/-- The tables, the requests that are running, and the sessions that have been signed. -/
structure Store where
  now : Int
  users : List SignInUser := []
  requireTwoFactor : Bool := false
  attempts : List LoginAttempt := []
  pending : List Flight := []
  issued : List Session := []

/-- What happens. -/
inductive SignInEvent
  /-- A request is refused, since there were too many failures. -/
  | throttled (identityHash sourceHash : String)
  /-- A password or a code is wrong. -/
  | failed (attempt : LoginAttempt)
  | failuresCleared (identityHash : String)
  /-- The password is right, or the identity provider vouches for the user. -/
  | firstFactor (user : SignInUser)
  /-- The first factor is enough. -/
  | factorWaived (user : SignInUser)
  | factorDemanded (user : SignInUser)
  /-- The code is right. -/
  | codeAccepted (user : SignInUser)
  /-- The setup page shows the secret. -/
  | secretShown (userId : String)
  deriving DecidableEq, Repr

/-! ## The repository -/

/-- `get_user`. -/
def getUser (s : Store) (id : String) : Option SignInUser := s.users.find? fun u => u.id == id && u.enabled

/-- `get_user_by_email`. -/
def getUserByEmail (s : Store) (email : String) : Option SignInUser :=
  s.users.find? fun u => lower u.email == lower (lower (strip email)) && u.enabled

/-- `login_is_rate_limited`. -/
def loginIsRateLimited (limits : Limits) (s : Store) (identityHash sourceHash : String) : Bool :=
  let recent := s.attempts.filter fun a => s.now - minutes limits.windowMinutes < a.attemptedAt
  limits.identityFailures ≤ recent.countP (·.identityHash == identityHash) ||
    limits.sourceFailures ≤ recent.countP (·.sourceHash == sourceHash)

/-- `record_login_failure`. -/
def recordLoginFailure (s : Store) (identityHash sourceHash : String) : Store :=
  { s with attempts := (⟨identityHash, sourceHash, s.now⟩ :: s.attempts).filter fun a => s.now - days 1 ≤ a.attemptedAt }

/-- `clear_login_failures`. -/
def clearLoginFailures (s : Store) (identityHash : String) : Store :=
  { s with attempts := s.attempts.filter (·.identityHash != identityHash) }

/-- `set_two_factor_secret`. -/
def setTwoFactorSecret (s : Store) (userId : String) (secret : Option String) (enabled : Bool) : Store :=
  { s with users := s.users.map fun u =>
      if u.id = userId then { u with totpSecret := secret, twoFactorEnabled := enabled } else u }

/-- The response sets the session's cookie. -/
def issue (s : Store) (session : Session) : Store := { s with issued := session :: s.issued }

/-! ## The handlers -/

/-- `normalize_email`, or the address that stands for one that is not valid. -/
def normalizeEmail (email : String) : String :=
  let normalized := lower (strip email)
  if 254 < normalized.length || normalized.toList.count '@' != 1 || normalized.toList.contains ' ' ||
      normalized.startsWith "@" || normalized.endsWith "@" then "invalid@example.invalid"
  else normalized

/-- `_preauth_user`. -/
def preauthUser (s : Store) (session : Session) : Option SignInUser :=
  match session.preauthUserId with
  | none => none
  | some id => if id = "" then none else getUser s id

/-- The identity that a request counts its failures for. -/
def SignInRequest.identity : SignInRequest → String
  | .login email _ => normalizeEmail email
  | .twoFactorVerify session _ | .twoFactorSetup session _ | .twoFactorSetupPage session _ =>
    "two-factor:" ++ session.preauthUserId.getD ""

/-- The session of a request, if it has a cookie that the server signed; others are empty. -/
def SignInRequest.opened (issued : List Session) : SignInRequest → SignInRequest
  | .login email password => .login email password
  | .twoFactorVerify session code => .twoFactorVerify (if session ∈ issued then session else {}) code
  | .twoFactorSetup session code => .twoFactorSetup (if session ∈ issued then session else {}) code
  | .twoFactorSetupPage session secret => .twoFactorSetupPage (if session ∈ issued then session else {}) secret

/-- `login_throttle_keys`. -/
def arrival (s : Store) (source : String) (request : SignInRequest) : Flight where
  request := request.opened s.issued
  identityHash := c.digest ("identity:" ++ (request.opened s.issued).identity)
  sourceHash := c.digest ("source:" ++ source)

/-- What a call does: what it writes, what comes next, and what happens. -/
structure Outcome where
  store : Store
  next : Option Stage := none
  events : List SignInEvent := []

/-- A request that the throttle refuses, or that goes on. -/
def askThrottle (limits : Limits) (s : Store) (p : Flight) (next : Stage) : Outcome :=
  if loginIsRateLimited limits s p.identityHash p.sourceHash then
    { store := s, events := [.throttled p.identityHash p.sourceHash] }
  else { store := s, next := some next }

/-- A wrong password or code. -/
def fail (s : Store) (p : Flight) : Outcome where
  store := s
  next := some .failed
  events := [.failed ⟨p.identityHash, p.sourceHash, s.now⟩]

/-- `_finish_sso_login`, and the end of `login`. -/
def finishLogin (s : Store) (user : SignInUser) (requireTwoFactor : Bool) : Outcome :=
  if user.twoFactorEnabled || requireTwoFactor then
    { store := issue s { preauthUserId := some user.id }, events := [.factorDemanded user] }
  else { store := issue s { userId := some user.id }, events := [.factorWaived user] }

/-- A user that the setup page shows, or is going to. -/
def showSecret (s : Store) (user : SignInUser) : Outcome :=
  if user.totpSecret.getD "" = "" then { store := s, next := some (.enrolling user) }
  else { store := s, events := [.secretShown user.id] }

/-- The check of a code. -/
def tryCode (s : Store) (p : Flight) (user : SignInUser) (code : String) : Outcome :=
  match verifyTotp c (user.totpSecret.getD "") (strip code) s.now with
  | none => { store := s }
  | some false => fail s p
  | some true => { store := s, next := some (.passed user), events := [.codeAccepted user] }

/-- `stored_password_hash or dummy_password_hash`. -/
def comparedHash (user : SignInUser) : String :=
  if user.passwordHash.getD "" = "" then c.dummyPasswordHash else user.passwordHash.getD ""

/-- The check of a password. For an account that has none, the dummy's is right. -/
def tryPassword (s : Store) (p : Flight) (email password : String) : Outcome :=
  match getUserByEmail s (normalizeEmail email) with
  | none => fail s p
  | some user =>
    if verifyPassword c password (some (comparedHash c user)) then
      { store := s, next := some (.passed user), events := [.firstFactor user] }
    else fail s p

/-- The next call of a request. -/
def call (limits : Limits) (s : Store) (p : Flight) : Outcome :=
  match p.stage, p.request with
  | .arrived, .login _ _ => askThrottle limits s p .admitted
  | .arrived, .twoFactorVerify session _ | .arrived, .twoFactorSetup session _ =>
    match preauthUser s session with
    | none => { store := s }
    | some user => { store := s, next := some (.identified user) }
  | .arrived, .twoFactorSetupPage session _ =>
    match preauthUser s session with
    | none => { store := s }
    | some user => showSecret s user
  | .identified user, _ => askThrottle limits s p (.challenged user)
  | .admitted, .login email password => tryPassword c s p email password
  | .challenged user, .twoFactorVerify _ code | .challenged user, .twoFactorSetup _ code => tryCode c s p user code
  | .failed, _ => { store := recordLoginFailure s p.identityHash p.sourceHash }
  | .passed user, _ =>
    { store := clearLoginFailures s p.identityHash, next := some (.cleared user),
      events := [.failuresCleared p.identityHash] }
  -- From here on the user is the row that was read at first, whatever it is by now.
  | .cleared user, .login _ _ => finishLogin s user s.requireTwoFactor
  | .cleared user, .twoFactorVerify _ _ => { store := issue s { userId := some user.id } }
  | .cleared user, .twoFactorSetup _ _ =>
    { store := issue (setTwoFactorSecret s user.id user.totpSecret true) { userId := some user.id } }
  | .enrolling user, .twoFactorSetupPage _ secret =>
    { store := setTwoFactorSecret s user.id (some secret) false, events := [.secretShown user.id] }
  | _, _ => { store := s }

/-! ## The system -/

/-- An operation. -/
inductive SignInOp
  | wait (duration : Nat)
  /-- Anything else that writes users, or the settings of the organization. -/
  | administer (users : List SignInUser) (requireTwoFactor : Bool)
  | request (source : String) (request : SignInRequest)
  /-- The next call of the request at `i`. -/
  | advance (i : Nat)
  /-- `_sso_user` has returned. -/
  | singleSignOn (user : SignInUser) (requireTwoFactor : Bool)

/-- The request at `i` goes on to `next`. -/
def proceed (pending : List Flight) (i : Nat) (p : Flight) (next : Option Stage) : List Flight :=
  (next.map fun stage => { p with stage }).toList ++ pending.eraseIdx i

/-- What an operation does. -/
def step (limits : Limits) (s : Store) : SignInOp → Store
  | .wait duration => { s with now := s.now + duration }
  | .administer users requireTwoFactor => { s with users, requireTwoFactor }
  | .request source request => { s with pending := arrival c s source request :: s.pending }
  | .advance i =>
    match s.pending[i]? with
    | none => s
    | some p =>
      let outcome := call c limits s p
      -- The other requests stay where they are.
      { outcome.store with pending := proceed s.pending i p outcome.next }
  | .singleSignOn user requireTwoFactor => (finishLogin s user requireTwoFactor).store

/-- What happens in an operation. -/
def emit (limits : Limits) (s : Store) : SignInOp → List SignInEvent
  | .advance i =>
    match s.pending[i]? with
    | none => []
    | some p => (call c limits s p).events
  | .singleSignOn user requireTwoFactor => .firstFactor user :: (finishLogin s user requireTwoFactor).events
  | _ => []

/-- The digests with the session secret `0123456789abcdef0123456789abcdef`, and no passwords. -/
def exampleCryptography : Cryptography where
  digest value :=
    if value = "identity:owner@example.test" then "f85ae275602b874a0ea9b5e0f4b551b2d3296bbf37dc7e6958ae55f868a0b5d6"
    else if value = "source:192.0.2.1" then "eb116d02493e2390b5da5bd6110640cd1af4aca0ec439eede15d2700ba891ab6"
    else ""
  scrypt _ _ _ _ _ _ := none
  b64decode _ := none
  int _ := none
  b32decode _ := none
  hmacSha1 _ _ := []
  isdigit := Char.isDigit
  dummyPasswordHash := ""

end SignIn

end Dayfinch
