/-
# Dayfinch.Accounts.Saml -- a SAML response signs a user in once

The identity provider posts a signed response, `authenticate` checks it against the state of the sign-in in
the session cookie, and `consume_saml_assertion` records its two identifiers until an expiry that
`authenticate` has computed: the earliest of the bounds that were valid at that moment, and the clock skew.

The cookie can be sent again, so what keeps a response from a second use is the recorded row. A response may
have several subject confirmations, and a later use may rest on another one than the first use did: then
the row is gone while the response is still accepted. `UsedTwice` says what happens to the confirmations and the
conditions between two presentations of such a response, and nothing else makes a second use (`singleUse_iff`).

The response is given as the elements and attributes that the functions read, after the XML was parsed. An
instant that `_timestamp` refuses is `none`, and so is the text of an element that has children. Which
certificate verifies which signature is part of the response; `lower` is `str.lower`.
-/
import Dayfinch.Library.Text
import Dayfinch.Schema

namespace Dayfinch

open Library.Text (strip fullmatch)
open Library (bind_eq_ok)

/-! ## Responses -/

/-- `SubjectConfirmationData`. -/
structure SamlConfirmationData where
  notOnOrAfter : Option Int
  recipient : String
  inResponseTo : String
  deriving DecidableEq, Repr

/-- `SubjectConfirmation`. -/
structure SamlConfirmation where
  method : String
  data : List SamlConfirmationData
  deriving DecidableEq, Repr

/-- `Subject`. -/
structure SamlSubject where
  otherChildren : Bool
  nameIds : List (Option String)
  confirmations : List SamlConfirmation
  deriving DecidableEq, Repr

/-- `Conditions`. `notBefore` is `none` where the attribute is missing or empty. -/
structure SamlConditions where
  notBefore : Option (Option Int)
  notOnOrAfter : Option Int
  audienceRestrictions : List (List (Option String))
  otherChildren : Bool
  deriving DecidableEq, Repr

/-- `AuthnStatement`, with the `AuthnContextClassRef` elements of every `AuthnContext`. -/
structure SamlAuthnStatement where
  authnInstant : Option Int
  contexts : List (List (Option String))
  deriving DecidableEq, Repr

/-- `Attribute`. -/
structure SamlAttribute where
  name : String
  values : List (Option String)
  deriving DecidableEq, Repr

/-- `Assertion`. The attributes are those of all its statements. -/
structure SamlAssertion where
  otherChildren : Bool
  version : String
  id : String
  issueInstant : Option Int
  issuers : List (Option String)
  subjects : List SamlSubject
  conditions : List SamlConditions
  authnStatements : List SamlAuthnStatement
  attributes : List SamlAttribute
  deriving DecidableEq, Repr

/-- `StatusCode`. -/
structure SamlStatusCode where
  value : String
  hasChildren : Bool
  deriving DecidableEq, Repr

/-- `Response`, with the `StatusCode` elements of every `Status`, and the certificates that verify its
signature and the signature of its assertion. -/
structure SamlResponse where
  otherChildren : Bool
  version : String
  destination : String
  inResponseTo : String
  id : String
  issueInstant : Option Int
  issuers : List (Option String)
  statuses : List (List SamlStatusCode)
  assertions : List SamlAssertion
  verifiesResponse : Nat → Bool
  verifiesAssertion : Nat → Bool

/-! ## The service -/

/-- A signing certificate of the identity provider. -/
structure IdpCertificate where
  certificate : Nat
  notBefore : Int
  notAfter : Int
  deriving DecidableEq, Repr

/-- The settings that a response is checked against. -/
structure SamlSettings where
  publicUrl : String
  idpEntityId : String
  spEntityId : String
  emailAttribute : String
  certificates : List IdpCertificate
  deriving DecidableEq, Repr

/-- `{public_url}/auth/saml/acs`. -/
def SamlSettings.acsUrl (settings : SamlSettings) : String := settings.publicUrl ++ "/auth/saml/acs"

/-- The state of a sign-in in the session cookie. `issuedAt` is `none` where it is not a time. -/
structure SamlSession where
  requestId : String
  relayState : String
  issuedAt : Option Int
  deriving DecidableEq, Repr

/-- What `authenticate` returns. -/
structure SamlIdentity where
  subject : String
  email : String
  issuer : String
  responseId : String
  assertionId : String
  expiresAt : Int
  deriving DecidableEq, Repr

/-- `_CLOCK_SKEW`. -/
def samlClockSkew : Int := minutes 3

/-- `_MAX_ASSERTION_LIFETIME`. -/
def maxAssertionLifetime : Int := minutes 120

def samlBearer : String := "urn:oasis:names:tc:SAML:2.0:cm:bearer"
def samlStatusSuccess : String := "urn:oasis:names:tc:SAML:2.0:status:Success"

/-- `if condition: raise SAMLAuthenticationError(message)`. -/
def refuseIf (condition : Bool) (message : String) : Except String Unit :=
  if condition then .error message else .ok ()

@[simp] theorem refuseIf_eq_ok {condition : Bool} {message : String} {u : Unit} :
    refuseIf condition message = .ok u ↔ condition = false := by
  unfold refuseIf
  cases condition <;> simp

def invalidStructure : String := "The SAML response has an invalid structure"

/-- `_one`. -/
def samlOne {α : Type} : List α → Except String α
  | [value] => .ok value
  | _ => .error invalidStructure

/-- `_text`. -/
def samlText : Option String → Except String String
  | some value => .ok (strip value)
  | none => .error invalidStructure

/-- `_timestamp`. -/
def samlTimestamp : Option Int → Except String Int
  | some value => .ok value
  | none => .error "The SAML response has an invalid timestamp"

/-- `_SAFE_ID`. -/
def isSafeId (value : String) : Bool :=
  fullmatch (fun c => c.isAlpha || c == '_')
    (fun c => c.isAlphanum || c == '_' || c == '.' || c == '-') 511 value

/-- `_validate_id`. -/
def validateId (value : String) : Except String String := do
  refuseIf (!isSafeId value) "The SAML response has an invalid identifier"
  return value

/-- `_verify_signature`: one of the current certificates verifies the element. -/
def verifySignature (certificates : List IdpCertificate) (verifies : Nat → Bool) (now : Int) :
    Except String Unit := do
  let current := certificates.filter fun c => c.notBefore ≤ now && now < c.notAfter
  refuseIf current.isEmpty "The SAML signing certificate expired; load rotated IdP metadata"
  refuseIf (!current.any fun c => verifies c.certificate)
    "The identity provider response could not be verified"

/-- The issuer of a response or an assertion. -/
def validateIssuer (settings : SamlSettings) (issuers : List (Option String)) (message : String) :
    Except String Unit := do
  let issuer ← samlOne issuers
  let issuer ← samlText issuer
  refuseIf (issuer != settings.idpEntityId) message

/-- An `IssueInstant` that is not in the future, nor older than two hours. -/
def validateIssued (issueInstant : Option Int) (now : Int) (message : String) : Except String Int := do
  let issued ← samlTimestamp issueInstant
  refuseIf (now + samlClockSkew < issued || issued < now - maxAssertionLifetime) message
  return issued

/-- `_validate_response`. -/
def validateResponse (settings : SamlSettings) (response : SamlResponse) (requestId : String) (now : Int) :
    Except String (String × SamlAssertion) := do
  refuseIf response.otherChildren invalidStructure
  refuseIf (response.version != "2.0" || response.destination != settings.acsUrl ||
    response.inResponseTo != requestId) "The SAML response is not intended for this sign-in"
  let responseId ← validateId response.id
  let _ ← validateIssued response.issueInstant now "The SAML response is not current"
  validateIssuer settings response.issuers "The SAML response issuer is invalid"
  let status ← samlOne response.statuses
  let statusCode ← samlOne status
  refuseIf (statusCode.value != samlStatusSuccess || statusCode.hasChildren)
    "The identity provider rejected the sign-in"
  let assertion ← samlOne response.assertions
  return (responseId, assertion)

/-- The first checks of `_validate_assertion`: its identifier and when it was issued. -/
def validateAssertionHeader (settings : SamlSettings) (assertion : SamlAssertion) (now : Int) :
    Except String (String × Int) := do
  refuseIf assertion.otherChildren "The SAML assertion has an invalid structure"
  refuseIf (assertion.version != "2.0") "The SAML assertion version is invalid"
  let assertionId ← validateId assertion.id
  let issued ← validateIssued assertion.issueInstant now "The SAML assertion is not current"
  validateIssuer settings assertion.issuers "The SAML assertion issuer is invalid"
  return (assertionId, issued)

/-- The subject of the assertion and its name. -/
def validateSubject (assertion : SamlAssertion) : Except String (String × SamlSubject) := do
  let subject ← samlOne assertion.subjects
  refuseIf subject.otherChildren "The SAML assertion subject is invalid"
  let nameId ← samlOne subject.nameIds
  let nameId ← samlText nameId
  refuseIf (nameId.isEmpty || 512 < nameId.length) "The SAML assertion subject is invalid"
  return (nameId, subject)

/-- The expiry of a confirmation that counts now. -/
def SamlConfirmation.usableExpiry? (settings : SamlSettings) (requestId : String) (now : Int)
    (confirmation : SamlConfirmation) : Option Int :=
  match confirmation.data with
  | [data] =>
    data.notOnOrAfter.filter fun expiry =>
      confirmation.method == samlBearer && data.recipient == settings.acsUrl &&
        data.inResponseTo == requestId && now - samlClockSkew < expiry &&
        expiry ≤ now + maxAssertionLifetime
  | _ => none

/-- `confirmation_expiries`. -/
def SamlSubject.confirmationExpiries (settings : SamlSettings) (requestId : String) (now : Int)
    (subject : SamlSubject) : List Int :=
  subject.confirmations.filterMap (·.usableExpiry? settings requestId now)

/-- `not_before`. -/
def SamlConditions.validFrom (conditions : SamlConditions) (issued : Int) : Except String Int :=
  match conditions.notBefore with
  | none => .ok (issued - samlClockSkew)
  | some value => samlTimestamp value

/-- The conditions of the assertion, and when they expire. -/
def validateConditions (settings : SamlSettings) (assertion : SamlAssertion) (issued now : Int) :
    Except String Int := do
  let conditions ← samlOne assertion.conditions
  let notBefore ← conditions.validFrom issued
  let expiresAt ← samlTimestamp conditions.notOnOrAfter
  refuseIf (now + samlClockSkew < notBefore || expiresAt ≤ now - samlClockSkew ||
    now + maxAssertionLifetime < expiresAt || expiresAt ≤ notBefore)
    "The SAML assertion conditions are invalid"
  let excluded ← conditions.audienceRestrictions.anyM fun audiences => do
    let texts ← audiences.mapM samlText
    return !texts.contains settings.spEntityId
  refuseIf (conditions.audienceRestrictions.isEmpty || excluded)
    "The SAML assertion audience is invalid"
  refuseIf conditions.otherChildren "The SAML assertion conditions are invalid"
  return expiresAt

/-- The authentication statement. -/
def validateAuthnStatement (assertion : SamlAssertion) (now : Int) : Except String Unit := do
  let invalid := "The SAML authentication statement is invalid"
  match assertion.authnStatements with
  | [statement] =>
    let authnInstant ← samlTimestamp statement.authnInstant
    refuseIf (now + samlClockSkew < authnInstant || authnInstant < now - days 1) invalid
    let contextRefs ← samlOne statement.contexts
    match contextRefs with
    | [contextRef] =>
      let text ← samlText contextRef
      refuseIf text.isEmpty "The SAML authentication context is invalid"
    | _ => .error "The SAML authentication context is invalid"
  | _ => .error invalid

/-- The email address of the user. -/
def validateEmail (lower : String → String) (settings : SamlSettings) (assertion : SamlAssertion) :
    Except String String := do
  match assertion.attributes.filter (·.name == settings.emailAttribute) with
  | [emailAttribute] =>
    match emailAttribute.values with
    | [value] =>
      let text ← samlText value
      let email := lower text
      refuseIf (320 < email.length || email.toList.count '@' != 1 ||
        email.toList.any Library.Text.isSpace) "The identity provider returned an invalid email"
      return email
    | _ => .error "The identity provider returned an incomplete assertion"
  | _ => .error "The identity provider returned an incomplete assertion"

/-- `_validate_assertion`: the identity, without what the response adds to it. -/
def validateAssertion (lower : String → String) (settings : SamlSettings) (assertion : SamlAssertion)
    (requestId : String) (now : Int) : Except String SamlIdentity := do
  let (assertionId, issued) ← validateAssertionHeader settings assertion now
  let (nameId, subject) ← validateSubject assertion
  let confirmationExpiries := subject.confirmationExpiries settings requestId now
  refuseIf confirmationExpiries.isEmpty "The SAML assertion subject confirmation is invalid"
  let expiresAt ← validateConditions settings assertion issued now
  validateAuthnStatement assertion now
  let email ← validateEmail lower settings assertion
  return { subject := nameId, email, issuer := "", responseId := "", assertionId,
           expiresAt := confirmationExpiries.foldl min expiresAt + samlClockSkew }

/-- The checks of the sign-in state. -/
def validateSession (session : SamlSession) (relayState : String) (now : Int) : Except String Unit :=
  refuseIf (session.requestId.isEmpty || !isSafeId session.requestId || session.relayState.isEmpty ||
    session.relayState != relayState ||
    session.issuedAt.all fun issuedAt => issuedAt < now - minutes 15 || now + samlClockSkew < issuedAt)
    "The SAML sign-in state is invalid or expired"

/-- `authenticate`, of a response that was parsed. -/
def authenticate (lower : String → String) (settings : SamlSettings) (session : SamlSession)
    (response : SamlResponse) (relayState : String) (now : Int) : Except String SamlIdentity := do
  validateSession session relayState now
  verifySignature settings.certificates response.verifiesResponse now
  let (responseId, assertion) ← validateResponse settings response session.requestId now
  verifySignature settings.certificates response.verifiesAssertion now
  let identity ← validateAssertion lower settings assertion session.requestId now
  return { identity with issuer := settings.idpEntityId, responseId }

/-- `saml_assertion_replays`. -/
structure SamlReplay where
  responseId : String
  assertionId : String
  expiresAt : Int
  deriving DecidableEq, Repr

/-- `consume_saml_assertion`: `false` where one of the identifiers is recorded. -/
def consumeSamlAssertion (replays : List SamlReplay) (responseId assertionId : String)
    (expiresAt now : Int) : Except Error (List SamlReplay × Bool) := do
  raiseIf (responseId.isEmpty ∨ 512 < responseId.length ∨ assertionId.isEmpty ∨
    512 < assertionId.length) "SAML replay identifiers are invalid"
  let kept := replays.filter fun row => !(row.expiresAt < now)
  if kept.any fun row => row.responseId == responseId || row.assertionId == assertionId then
    return (kept, false)
  else return (kept ++ [{ responseId := responseId, assertionId, expiresAt }], true)

/-! ## Presentations -/

/-- A response is posted with a cookie and a relay state, checked `now`, and consumed at `consumedAt`. -/
structure SamlPresentation where
  session : SamlSession
  relayState : String
  now : Int
  consumedAt : Int
  deriving DecidableEq, Repr

section

variable (lower : String → String) (settings : SamlSettings) (response : SamlResponse)

/-- `saml_callback`: whether the response is accepted and passed. -/
def samlCallback (replays : List SamlReplay) (p : SamlPresentation) : List SamlReplay × Bool :=
  match authenticate lower settings p.session response p.relayState p.now with
  | .error _ => (replays, false)
  | .ok identity =>
    match consumeSamlAssertion replays identity.responseId identity.assertionId identity.expiresAt
      p.consumedAt with
    | .error _ => (replays, false)
    | .ok result => result

/-- How often the response is accepted and passed. -/
def samlSignIns (replays : List SamlReplay) : List SamlPresentation → Nat
  | [] => 0
  | p :: ps =>
    let result := samlCallback lower settings response replays p
    (if result.2 then 1 else 0) + samlSignIns result.1 ps

/-! ## The condition -/

/-- Every check of `authenticate` but the one that a confirmation is usable. -/
def otherChecks (p : SamlPresentation) : Except String (SamlIdentity × SamlSubject) := do
  validateSession p.session p.relayState p.now
  verifySignature settings.certificates response.verifiesResponse p.now
  let (responseId, assertion) ← validateResponse settings response p.session.requestId p.now
  verifySignature settings.certificates response.verifiesAssertion p.now
  let (assertionId, issued) ← validateAssertionHeader settings assertion p.now
  let (nameId, subject) ← validateSubject assertion
  let expiresAt ← validateConditions settings assertion issued p.now
  validateAuthnStatement assertion p.now
  let email ← validateEmail lower settings assertion
  return ({ subject := nameId, email, issuer := settings.idpEntityId, responseId, assertionId,
            expiresAt }, subject)

/-- The expiries of the confirmations that are usable at the presentation. -/
def usableConfirmations (p : SamlPresentation) : List Int :=
  response.assertions.flatMap fun assertion => assertion.subjects.flatMap fun subject =>
    subject.confirmationExpiries settings p.session.requestId p.now

/-- The expiry of the conditions. -/
def conditionsExpiry : List Int :=
  response.assertions.flatMap fun assertion => assertion.conditions.filterMap (·.notOnOrAfter)

/-- `NotOnOrAfter` of the bearer confirmations for this service and for the request of the presentation. -/
def bearerExpiries (p : SamlPresentation) : List Int :=
  response.assertions.flatMap fun assertion => assertion.subjects.flatMap fun subject =>
    subject.confirmations.filterMap fun confirmation =>
      match confirmation.data with
      | [data] =>
        if confirmation.method = samlBearer ∧ data.recipient = settings.acsUrl ∧
          data.inResponseTo = p.session.requestId then data.notOnOrAfter else none
      | _ => none

/-- A confirmation counts at an instant: it has not run out, and is not too long. -/
def Counts (expiry now : Int) : Prop := now < expiry + samlClockSkew ∧ expiry ≤ now + maxAssertionLifetime

/-- A second use: the first presentation has a confirmation that counts, the second has one, perhaps another,
and when it is consumed the first one's has run out, or the conditions have. -/
def UsedTwice (p q : SamlPresentation) : Prop :=
  (otherChecks lower settings response p).isOk = true ∧ (otherChecks lower settings response q).isOk = true ∧
    ∃ first ∈ bearerExpiries settings response p, ∃ second ∈ bearerExpiries settings response q,
      Counts first p.now ∧ Counts second q.now ∧
        (first + samlClockSkew < q.consumedAt ∨
          ∃ expiry ∈ conditionsExpiry response, expiry + samlClockSkew < q.consumedAt)

end

/-! ## What the checks leave -/

theorem samlOne_eq_ok {α : Type} {values : List α} {value : α} :
    samlOne values = .ok value ↔ values = [value] := by
  constructor
  · intro h
    match values, h with
    | [v], h => rw [Except.ok.inj h]
  · rintro rfl
    rfl

theorem samlTimestamp_eq_ok {value : Option Int} {t : Int} :
    samlTimestamp value = .ok t ↔ value = some t := by
  cases value with
  | none => simp [samlTimestamp]
  | some v => simp [samlTimestamp]

theorem validateId_eq_ok {value id : String} :
    validateId value = .ok id ↔ isSafeId value = true ∧ value = id := by
  simp [validateId, bind_eq_ok, pure, Except.pure]

/-- An identifier that is recorded: not empty, and of at most 512 characters. -/
theorem length_of_isSafeId {value : String} (h : isSafeId value = true) :
    value.isEmpty = false ∧ value.length ≤ 512 := by
  have hne := Library.Text.ne_empty_of_fullmatch h
  refine ⟨by simpa using hne, ?_⟩
  have hcut := Library.Text.truncate_of_fullmatch h (m := 512) (by omega)
  have hlength : (Library.Text.truncate 512 value).length ≤ 512 := by
    simp [Library.Text.truncate]
  rwa [hcut] at hlength

/-- The earliest of some bounds. -/
theorem le_foldl_min {c e : Int} {bounds : List Int} :
    c ≤ bounds.foldl min e ↔ c ≤ e ∧ ∀ bound ∈ bounds, c ≤ bound := by
  induction bounds generalizing e with
  | nil => simp
  | cons bound bounds ih =>
    rw [List.foldl_cons, ih, List.forall_mem_cons]
    constructor
    · rintro ⟨hmin, hrest⟩
      exact ⟨by omega, by omega, hrest⟩
    · rintro ⟨he, hbound, hrest⟩
      exact ⟨by omega, hrest⟩

section

variable {lower : String → String} {settings : SamlSettings} {response : SamlResponse}
variable {p q : SamlPresentation} {assertion : SamlAssertion} {now : Int}

theorem validateResponse_ok {requestId responseId : String}
    (h : validateResponse settings response requestId now = .ok (responseId, assertion)) :
    response.assertions = [assertion] ∧ responseId = response.id ∧ isSafeId response.id = true := by
  simp only [validateResponse, bind_eq_ok, pure, Except.pure, validateId_eq_ok, samlOne_eq_ok,
    Except.ok.injEq, Prod.mk.injEq] at h
  obtain ⟨_, _, _, _, _, ⟨hsafe, rfl⟩, _, _, _, _, _, _, _, _, _, _, _, hassertion, rfl, rfl⟩ := h
  exact ⟨hassertion, rfl, hsafe⟩

theorem validateAssertionHeader_ok {assertionId : String} {issued : Int}
    (h : validateAssertionHeader settings assertion now = .ok (assertionId, issued)) :
    assertionId = assertion.id ∧ isSafeId assertion.id = true := by
  simp only [validateAssertionHeader, bind_eq_ok, pure, Except.pure, validateId_eq_ok,
    Except.ok.injEq, Prod.mk.injEq] at h
  obtain ⟨_, _, _, _, _, ⟨hsafe, rfl⟩, _, _, _, _, rfl, rfl⟩ := h
  exact ⟨rfl, hsafe⟩

theorem validateSubject_ok {nameId : String} {subject : SamlSubject}
    (h : validateSubject assertion = .ok (nameId, subject)) : assertion.subjects = [subject] := by
  simp only [validateSubject, bind_eq_ok, pure, Except.pure, samlOne_eq_ok, Except.ok.injEq,
    Prod.mk.injEq] at h
  obtain ⟨_, hsubject, _, _, _, _, _, _, _, _, _, rfl⟩ := h
  exact hsubject

theorem validateConditions_ok {issued expiresAt : Int}
    (h : validateConditions settings assertion issued now = .ok expiresAt) :
    (∃ conditions, assertion.conditions = [conditions] ∧ conditions.notOnOrAfter = some expiresAt) ∧
      now - samlClockSkew < expiresAt := by
  simp only [validateConditions, bind_eq_ok, pure, Except.pure, samlOne_eq_ok, samlTimestamp_eq_ok,
    Except.ok.injEq, refuseIf_eq_ok, Bool.or_eq_false_iff, decide_eq_false_iff_not] at h
  obtain ⟨conditions, hconditions, _, _, _, hexpires, _, ⟨⟨⟨_, hlate⟩, _⟩, _⟩, _, _, _, _, _, _, rfl⟩ := h
  exact ⟨⟨conditions, hconditions, hexpires⟩, not_le.mp hlate⟩

/-- What passes the other checks has one assertion, whose identifier and bounds are the ones that count. -/
theorem otherChecks_ok {checked : SamlIdentity} {subject : SamlSubject}
    (h : otherChecks lower settings response p = .ok (checked, subject)) :
    ∃ assertion, response.assertions = [assertion] ∧ checked.responseId = response.id ∧
      checked.assertionId = assertion.id ∧ isSafeId response.id = true ∧ isSafeId assertion.id = true ∧
      usableConfirmations settings response p =
        subject.confirmationExpiries settings p.session.requestId p.now ∧
      conditionsExpiry response = [checked.expiresAt] ∧ p.now - samlClockSkew < checked.expiresAt := by
  simp only [otherChecks, bind_eq_ok, pure, Except.pure, Prod.exists, Except.ok.injEq,
    Prod.mk.injEq] at h
  obtain ⟨_, _, _, _, responseId, assertion, hvalid, _, _, assertionId, issued, hheader, nameId, _,
    hsubject, expiresAt, hconditions, _, _, email, _, rfl, rfl⟩ := h
  obtain ⟨hassertion, rfl, hresponseId⟩ := validateResponse_ok hvalid
  obtain ⟨rfl, hassertionId⟩ := validateAssertionHeader_ok hheader
  obtain ⟨⟨conditions, hcondition, hexpires⟩, hlate⟩ := validateConditions_ok hconditions
  refine ⟨assertion, hassertion, rfl, rfl, hresponseId, hassertionId, ?_, ?_, hlate⟩
  · simp [usableConfirmations, hassertion, validateSubject_ok hsubject]
  · simp [conditionsExpiry, hassertion, hcondition, hexpires]

/-- **`authenticate` accepts** what passes the other checks with a usable confirmation; the row outlives the
earliest of the bounds that count now by the clock skew. -/
theorem authenticate_eq_ok {identity : SamlIdentity} :
    authenticate lower settings p.session response p.relayState p.now = .ok identity ↔
      ∃ checked subject, otherChecks lower settings response p = .ok (checked, subject) ∧
        subject.confirmationExpiries settings p.session.requestId p.now ≠ [] ∧
        identity = { checked with
          expiresAt := (subject.confirmationExpiries settings p.session.requestId p.now).foldl min
            checked.expiresAt + samlClockSkew } := by
  simp only [authenticate, otherChecks, validateAssertion, bind_eq_ok, pure, Except.pure, Prod.exists,
    Except.ok.injEq, Prod.mk.injEq, refuseIf_eq_ok, List.isEmpty_eq_false_iff]
  constructor
  · rintro ⟨_, hsession, _, hresponse, responseId, assertion, hvalid, _, hassertion, identity,
      ⟨assertionId, issued, hheader, nameId, subject, hsubject, _, hne, expiresAt, hconditions, _, hauthn,
        email, hemail, rfl⟩, rfl⟩
    exact ⟨_, subject, ⟨_, hsession, _, hresponse, responseId, assertion, hvalid, _, hassertion,
      assertionId, issued, hheader, nameId, subject, hsubject, expiresAt, hconditions, _, hauthn, email,
      hemail, rfl, rfl⟩, hne, rfl⟩
  · rintro ⟨_, subject, ⟨_, hsession, _, hresponse, responseId, assertion, hvalid, _, hassertion,
      assertionId, issued, hheader, nameId, _, hsubject, expiresAt, hconditions, _, hauthn, email,
      hemail, rfl, rfl⟩, hne, rfl⟩
    exact ⟨_, hsession, _, hresponse, responseId, assertion, hvalid, _, hassertion, _,
      ⟨assertionId, issued, hheader, nameId, _, hsubject, (), hne, expiresAt, hconditions, _, hauthn,
        email, hemail, rfl⟩, rfl⟩

/-- An accepted presentation: which identifiers it records, and which bounds its row outlives. -/
theorem authenticate_accepted :
    (∃ identity, authenticate lower settings p.session response p.relayState p.now = .ok identity) ↔
      (otherChecks lower settings response p).isOk = true ∧
        usableConfirmations settings response p ≠ [] := by
  constructor
  · rintro ⟨identity, h⟩
    obtain ⟨checked, subject, hchecks, hne, _⟩ := authenticate_eq_ok.mp h
    obtain ⟨_, _, _, _, _, _, husable, _, _⟩ := otherChecks_ok hchecks
    refine ⟨?_, by rwa [husable]⟩
    rw [hchecks]
    rfl
  · rintro ⟨hchecks, hne⟩
    cases hresult : otherChecks lower settings response p with
    | error e =>
      rw [hresult] at hchecks
      cases hchecks
    | ok result =>
      obtain ⟨checked, subject⟩ := result
      obtain ⟨_, _, _, _, _, _, husable, _⟩ := otherChecks_ok hresult
      exact ⟨_, authenticate_eq_ok.mpr ⟨checked, subject, hresult, by rwa [← husable], rfl⟩⟩

theorem authenticate_ok {identity : SamlIdentity}
    (h : authenticate lower settings p.session response p.relayState p.now = .ok identity) :
    ∃ assertion, response.assertions = [assertion] ∧ identity.responseId = response.id ∧
      identity.assertionId = assertion.id ∧ isSafeId response.id = true ∧ isSafeId assertion.id = true ∧
      ∀ t, t ≤ identity.expiresAt ↔
        ∀ bound ∈ conditionsExpiry response ++ usableConfirmations settings response p,
          t ≤ bound + samlClockSkew := by
  obtain ⟨checked, subject, hchecks, _, rfl⟩ := authenticate_eq_ok.mp h
  obtain ⟨assertion, hassertion, hresponse, hid, hsafe, hsafe', husable, hexpiry, _⟩ :=
    otherChecks_ok hchecks
  refine ⟨assertion, hassertion, hresponse, hid, hsafe, hsafe', fun t => ?_⟩
  rw [husable, hexpiry, List.singleton_append, List.forall_mem_cons]
  have hmin : t - samlClockSkew ≤ (subject.confirmationExpiries settings p.session.requestId
      p.now).foldl min checked.expiresAt ↔ _ := le_foldl_min
  simp only [Int.sub_right_le_iff_le_add] at hmin
  exact hmin

theorem usableExpiry?_eq_some {settings : SamlSettings} {requestId : String} {now expiry : Int}
    {confirmation : SamlConfirmation} :
    confirmation.usableExpiry? settings requestId now = some expiry ↔
      (match confirmation.data with
        | [data] =>
          if confirmation.method = samlBearer ∧ data.recipient = settings.acsUrl ∧ data.inResponseTo = requestId then
            data.notOnOrAfter else none
        | _ => none) = some expiry ∧ Counts expiry now := by
  unfold SamlConfirmation.usableExpiry? Counts
  split
  next data hdata =>
    have hlate : now - samlClockSkew < expiry ↔ now < expiry + samlClockSkew := by omega
    simp only [Option.filter_eq_some_iff, Bool.and_eq_true, beq_iff_eq, decide_eq_true_eq,
      Option.ite_none_right_eq_some, hlate]
    tauto
  next => simp

theorem mem_usableConfirmations {bound : Int} : bound ∈ usableConfirmations settings response p ↔
    bound ∈ bearerExpiries settings response p ∧ Counts bound p.now := by
  simp only [usableConfirmations, bearerExpiries, SamlSubject.confirmationExpiries, List.mem_flatMap,
    List.mem_filterMap, usableExpiry?_eq_some]
  constructor
  · rintro ⟨assertion, hassertion, subject, hsubject, confirmation, hmem, hbearer, hcounts⟩
    exact ⟨⟨assertion, hassertion, subject, hsubject, confirmation, hmem, hbearer⟩, hcounts⟩
  · rintro ⟨⟨assertion, hassertion, subject, hsubject, confirmation, hmem, hbearer⟩, hcounts⟩
    exact ⟨assertion, hassertion, subject, hsubject, confirmation, hmem, hbearer, hcounts⟩

/-- **Two presentations that are accepted**: the second one finds the row of the first gone exactly if it is a
second use. -/
theorem usedTwice_iff {identity identity' : SamlIdentity}
    (hp : authenticate lower settings p.session response p.relayState p.now = .ok identity)
    (hq : authenticate lower settings q.session response q.relayState q.now = .ok identity') :
    UsedTwice lower settings response p q ↔ identity.expiresAt < q.consumedAt := by
  obtain ⟨hpChecks, hpUsable⟩ := authenticate_accepted.mp ⟨identity, hp⟩
  obtain ⟨hqChecks, hqUsable⟩ := authenticate_accepted.mp ⟨identity', hq⟩
  obtain ⟨first, hfirst⟩ := List.exists_mem_of_ne_nil _ hpUsable
  obtain ⟨second, hsecond⟩ := List.exists_mem_of_ne_nil _ hqUsable
  obtain ⟨hsecond, hcounts⟩ := mem_usableConfirmations.mp hsecond
  obtain ⟨_, _, _, _, _, _, hbounds⟩ := authenticate_ok hp
  rw [← not_le, hbounds]
  constructor
  · rintro ⟨-, -, bound, hbound, _, -, hcount, -, hlapsed⟩ hall
    rcases hlapsed with hlapsed | ⟨expiry, hexpiry, hlapsed⟩
    · have := hall bound (List.mem_append_right _ (mem_usableConfirmations.mpr ⟨hbound, hcount⟩))
      omega
    · have := hall expiry (List.mem_append_left _ hexpiry)
      omega
  · intro hnot
    push Not at hnot
    obtain ⟨bound, hmem, hlapsed⟩ := hnot
    rcases List.mem_append.mp hmem with hconditions | husable
    · obtain ⟨hfirst, hcount⟩ := mem_usableConfirmations.mp hfirst
      exact ⟨hpChecks, hqChecks, first, hfirst, second, hsecond, hcount, hcounts, .inr ⟨bound, hconditions, hlapsed⟩⟩
    · obtain ⟨hbound, hcount⟩ := mem_usableConfirmations.mp husable
      exact ⟨hpChecks, hqChecks, bound, hbound, second, hsecond, hcount, hcounts, .inl hlapsed⟩

/-- A second use is of two presentations that are accepted. -/
theorem UsedTwice.accepted (h : UsedTwice lower settings response p q) :
    (∃ identity, authenticate lower settings p.session response p.relayState p.now = .ok identity) ∧
      ∃ identity, authenticate lower settings q.session response q.relayState q.now = .ok identity := by
  obtain ⟨hp, hq, first, hfirst, second, hsecond, hcounts, hcounts', -⟩ := h
  rw [authenticate_accepted, authenticate_accepted]
  exact ⟨⟨hp, List.ne_nil_of_mem (mem_usableConfirmations.mpr ⟨hfirst, hcounts⟩)⟩,
    hq, List.ne_nil_of_mem (mem_usableConfirmations.mpr ⟨hsecond, hcounts'⟩)⟩

/-! ## The table -/

/-- **An accepted response** is passed where none of its identifiers is recorded beyond the moment. -/
theorem samlCallback_of_ok {replays : List SamlReplay} {identity : SamlIdentity}
    (h : authenticate lower settings p.session response p.relayState p.now = .ok identity) :
    samlCallback lower settings response replays p =
      let kept := replays.filter fun row => !(row.expiresAt < p.consumedAt)
      if kept.any fun row => row.responseId == identity.responseId ||
          row.assertionId == identity.assertionId then (kept, false)
      else (kept ++ [⟨identity.responseId, identity.assertionId, identity.expiresAt⟩], true) := by
  obtain ⟨assertion, _, hresponse, hid, hsafe, hsafe', _⟩ := authenticate_ok h
  obtain ⟨hne, hlength⟩ := length_of_isSafeId hsafe
  obtain ⟨hne', hlength'⟩ := length_of_isSafeId hsafe'
  have hvalid : ¬ (identity.responseId.isEmpty = true ∨ 512 < identity.responseId.length ∨
      identity.assertionId.isEmpty = true ∨ 512 < identity.assertionId.length) := by
    rw [hresponse, hid, hne, hne']
    simp only [Bool.false_eq_true, false_or]
    omega
  simp only [samlCallback, h, consumeSamlAssertion, raiseIf, if_neg hvalid]
  show (match (if _ then _ else _ : Except Error (List SamlReplay × Bool)) with
    | .error _ => _ | .ok result => result) = _
  split
  · rename_i hsome
    split at hsome <;> cases hsome
  · rename_i result hresult
    split at hresult
    · rename_i hany
      rw [if_pos hany, ← Except.ok.inj hresult]
    · rename_i hany
      rw [if_neg hany, ← Except.ok.inj hresult]

theorem samlCallback_of_error {replays : List SamlReplay} {message : String}
    (h : authenticate lower settings p.session response p.relayState p.now = .error message) :
    samlCallback lower settings response replays p = (replays, false) := by
  unfold samlCallback
  rw [h]

/-! ## Sequences of presentations -/

/-- While a row of the response is kept, no presentation passes. -/
theorem samlSignIns_of_recorded {replays : List SamlReplay} {row : SamlReplay} (hrow : row ∈ replays)
    (hid : row.responseId = response.id) {ps : List SamlPresentation}
    (hkept : ∀ q ∈ ps, (∃ identity,
      authenticate lower settings q.session response q.relayState q.now = .ok identity) →
        q.consumedAt ≤ row.expiresAt) :
    samlSignIns lower settings response replays ps = 0 := by
  induction ps generalizing replays with
  | nil => rfl
  | cons q ps ih =>
    obtain ⟨hq, hrest⟩ := List.forall_mem_cons.mp hkept
    show (if (samlCallback lower settings response replays q).2 = true then 1 else 0) +
      samlSignIns lower settings response (samlCallback lower settings response replays q).1 ps = 0
    cases hresult : authenticate lower settings q.session response q.relayState q.now with
    | error message =>
      rw [samlCallback_of_error hresult]
      exact (Nat.zero_add _).trans (ih hrow hrest)
    | ok identity =>
      obtain ⟨_, _, hresponse, _⟩ := authenticate_ok hresult
      have hlive : ¬ row.expiresAt < q.consumedAt := not_lt.mpr (hq ⟨identity, hresult⟩)
      have hmem : row ∈ replays.filter fun row => !(row.expiresAt < q.consumedAt) :=
        List.mem_filter.mpr ⟨hrow, by simp [hlive]⟩
      have hany : (replays.filter fun row => !(row.expiresAt < q.consumedAt)).any (fun row =>
          row.responseId == identity.responseId || row.assertionId == identity.assertionId) = true :=
        List.any_eq_true.mpr ⟨row, hmem, by simp [hid, hresponse]⟩
      rw [samlCallback_of_ok hresult]
      dsimp only
      rw [if_pos hany]
      exact (Nat.zero_add _).trans (ih hmem hrest)

/-- **Where there is no second use, at most one passes.** -/
theorem samlSignIns_le_one {ps : List SamlPresentation}
    (hps : ps.Pairwise fun p q => ¬ UsedTwice lower settings response p q) (replays : List SamlReplay) :
    samlSignIns lower settings response replays ps ≤ 1 := by
  induction ps generalizing replays with
  | nil => exact Nat.zero_le 1
  | cons p ps ih =>
    obtain ⟨hp, hrest⟩ := List.pairwise_cons.mp hps
    show (if (samlCallback lower settings response replays p).2 = true then 1 else 0) +
      samlSignIns lower settings response (samlCallback lower settings response replays p).1 ps ≤ 1
    cases hresult : authenticate lower settings p.session response p.relayState p.now with
    | error message =>
      rw [samlCallback_of_error hresult]
      exact (Nat.zero_add _).trans_le (ih hrest replays)
    | ok identity =>
      obtain ⟨_, _, hresponse, _⟩ := authenticate_ok hresult
      rw [samlCallback_of_ok hresult]
      dsimp only
      split
      · exact (Nat.zero_add _).trans_le (ih hrest _)
      · -- its row is recorded now, and every later presentation finds it
        have hrow : (⟨identity.responseId, identity.assertionId, identity.expiresAt⟩ : SamlReplay) ∈
            (replays.filter fun row => !(row.expiresAt < p.consumedAt)) ++
              [⟨identity.responseId, identity.assertionId, identity.expiresAt⟩] :=
          List.mem_append_right _ List.mem_cons_self
        rw [samlSignIns_of_recorded hrow hresponse fun q hq ⟨identity', hq'⟩ =>
          not_lt.mp (mt (usedTwice_iff hresult hq').mpr (hp q hq))]
        exact le_rfl

/-- Two presentations both pass where the guard of the first one has run out at the second. -/
theorem samlSignIns_twice {identity identity' : SamlIdentity}
    (hp : authenticate lower settings p.session response p.relayState p.now = .ok identity)
    (hq : authenticate lower settings q.session response q.relayState q.now = .ok identity')
    (hlate : identity.expiresAt < q.consumedAt) :
    samlSignIns lower settings response [] [p, q] = 2 := by
  have hfirst : samlCallback lower settings response [] p =
      ([⟨identity.responseId, identity.assertionId, identity.expiresAt⟩], true) := by
    rw [samlCallback_of_ok hp]
    rfl
  have hsecond : (samlCallback lower settings response
      [⟨identity.responseId, identity.assertionId, identity.expiresAt⟩] q).2 = true := by
    rw [samlCallback_of_ok hq]
    simp [hlate]
  simp only [samlSignIns, hfirst, hsecond, if_true]

end

/-- **A response is single use** except where the confirmation of a use, or the conditions, run out before a second
one: of every sequence of presentations drawn from `ps` at most one passes, if and only if no two presentations in
`ps` are such a pair. -/
theorem singleUse_iff (lower : String → String) (settings : SamlSettings) (response : SamlResponse)
    (ps : List SamlPresentation) :
    (∀ qs, qs.Sublist ps → samlSignIns lower settings response [] qs ≤ 1) ↔
      ps.Pairwise fun p q => ¬ UsedTwice lower settings response p q := by
  constructor
  · intro h
    refine List.pairwise_iff_forall_sublist.mpr fun {p q} hsub htwice => ?_
    obtain ⟨⟨identity, hp⟩, identity', hq⟩ := htwice.accepted
    have hpasses := samlSignIns_twice hp hq ((usedTwice_iff hp hq).mp htwice)
    have hone := h [p, q] hsub
    omega
  · intro h qs hsub
    exact samlSignIns_le_one (h.sublist hsub) []

/-! ## One confirmation and several -/

/-- Where all confirmations have one expiry, and the second presentation is consumed as it is checked, there is no
second use. -/
theorem not_usedTwice_of_oneExpiry {lower : String → String} {settings : SamlSettings}
    {response : SamlResponse} {p q : SamlPresentation} {expiry : Int}
    (hp : ∀ bound ∈ bearerExpiries settings response p, bound = expiry)
    (hq : ∀ bound ∈ bearerExpiries settings response q, bound = expiry)
    (hat : q.consumedAt = q.now) : ¬ UsedTwice lower settings response p q := by
  rintro ⟨-, hchecks, first, hfirst, second, hsecond, -, ⟨hlate, -⟩, hlapsed | ⟨bound, hbound, hlapsed⟩⟩
  · rw [hp first hfirst] at hlapsed
    rw [hq second hsecond] at hlate
    omega
  · cases hresult : otherChecks lower settings response q with
    | error e =>
      rw [hresult] at hchecks
      cases hchecks
    | ok result =>
      obtain ⟨_, _, _, _, _, _, _, hexpiry, hlate⟩ := otherChecks_ok hresult
      rw [hexpiry, List.mem_singleton] at hbound
      omega

/-- Two bearer confirmations; the first one expires after a second, the other one after an hour. -/
def twoConfirmations : SamlResponse where
  otherChildren := false
  version := "2.0"
  destination := "https://dayfinch.example/auth/saml/acs"
  inResponseTo := "_r"
  id := "_response"
  issueInstant := some 0
  issuers := [some "idp"]
  statuses := [[⟨samlStatusSuccess, false⟩]]
  assertions := [{
    otherChildren := false
    version := "2.0"
    id := "_assertion"
    issueInstant := some 0
    issuers := [some "idp"]
    subjects := [{
      otherChildren := false
      nameIds := [some "ada"]
      confirmations := [
        ⟨samlBearer, [⟨some (seconds 1), "https://dayfinch.example/auth/saml/acs", "_r"⟩]⟩,
        ⟨samlBearer, [⟨some (minutes 60), "https://dayfinch.example/auth/saml/acs", "_r"⟩]⟩] }]
    conditions := [⟨none, some (minutes 60), [[some "dayfinch"]], false⟩]
    authnStatements := [⟨some 0, [[some "password"]]⟩]
    attributes := [⟨"email", [some "ada@example.test"]⟩] }]
  verifiesResponse := fun _ => true
  verifiesAssertion := fun _ => true

/-- The sign-in of the response. -/
def dayfinchSaml : SamlSettings :=
  ⟨"https://dayfinch.example", "idp", "dayfinch", "email", [⟨1, 0, days 365⟩]⟩

/-- The response is posted with the cookie of its sign-in. -/
def presentedAt (now : Int) : SamlPresentation := ⟨⟨"_r", "relay", some 0⟩, "relay", now, now⟩

/-- **A response with two confirmations is accepted twice**: the row of the first use is gone four minutes
later, when the other confirmation is still usable. -/
theorem singleUse_twoConfirmations :
    ¬ ∀ (lower : String → String) (settings : SamlSettings) (response : SamlResponse)
      (ps : List SamlPresentation), ps.Pairwise (fun p q => p.now ≤ q.now) →
      (∀ p ∈ ps, p.consumedAt = p.now) → samlSignIns lower settings response [] ps ≤ 1 := by
  intro h
  have hone := h id dayfinchSaml twoConfirmations [presentedAt 0, presentedAt (minutes 4)]
    (by decide +kernel) (by decide +kernel)
  revert hone
  decide +kernel

end Dayfinch
