import A2ZCore.Core.Admin
import A2ZCore.Lib.Pool
import Mathlib

/-!
# SES notifications

`routers.ses_notifications`: the endpoint to which SNS delivers SES's bounce and complaint notifications,
with the functions of `app.core.email` that it calls. A request is verified against the certificate that
its own `SigningCertURL` names, on a host of SNS; nothing compares its `TopicArn` with the topic that is
configured.

## Main definitions

* `SesCall`, `SesCall.answer` — the calls of the endpoint
* `verifySignature`, `processNotification`, `sesNotifications`
* `Untouched` — the suppression lists and the statuses of emails are what they were
* `Authentic` — a request of another topic leaves them so, however its calls turn out
* `Suppressing` — what a request takes to change them

## Main results

* `authentic_iff` — a request of another topic changes something exactly when it is suppressing
-/

namespace A2ZCore.Core

open Interaction Interaction.Proc Interaction.Contract

/-! ### The calls -/

/-- An item of the suppression table. -/
structure SuppressionItem where
  orgId : String
  email : String
  reason : String
  timestamp : String
  bounceType : Option Json

/-- The hash of a signature. -/
inductive SnsDigest where
  | sha1
  | sha256
  deriving DecidableEq, Repr

/-- A certificate, by its `public_key()`: what an RSA key says of a signature and a message. -/
structure Certificate where
  publicKey : Except PyErr (Option (Bytes → Bytes → SnsDigest → Bool))

/-- The calls of the endpoint, beyond those of Core. -/
inductive SesCall where
  | core (c : Call)
  -- the certificates
  | certCacheGet (url : String)
  | certCacheSet (url pem : String) (ttlSeconds : ℕ)
  | httpGet (url : String)
  -- DynamoDB
  | getEventItem (messageId : String)
  | putSuppressionItem (item : SuppressionItem)
  | updateEventStatus (messageId status : String)

/-- What a call replies. -/
def SesCall.Resp : SesCall → Type
  | core c => c.Resp
  | certCacheGet _ => Option String
  | certCacheSet _ _ _ => Unit
  | httpGet _ => String
  | getEventItem _ => Option EmailEvent
  | putSuppressionItem _ => Unit
  | updateEventStatus _ _ => Unit

/-- Core's state, with what the endpoint adds to it. -/
structure SesWorld where
  core : World
  /-- The items of the suppression table, whose keys are `core.suppression`. -/
  items : List SuppressionItem
  /-- `_cert_cache`: expiry and value. -/
  certCache : String → Option (ℚ × String)
  /-- What a GET of a URL is answered with. -/
  served : String → Option String

/-- The state once an address is suppressed. -/
def SesWorld.suppress (w : SesWorld) (item : SuppressionItem) : SesWorld :=
  { w with
    core := { w.core with suppression := w.core.suppression.insert (item.orgId, item.email) }
    items := item :: w.items.filter fun i => !(i.orgId == item.orgId && i.email == item.email) }

/-- The statuses once that of a message is another. -/
def SesWorld.withStatus (w : SesWorld) (messageId status : String) : SesWorld :=
  { w with core := { w.core with emailEvents := w.core.emailEvents.map fun e =>
      if e.messageId == messageId then { e with status } else e } }

/-- The event of a message. -/
def SesWorld.event (w : SesWorld) (messageId : String) : Option EmailEvent :=
  w.core.emailEvents.find? fun e => e.messageId == messageId

/-- A key that DynamoDB does not take. -/
def validationException : PyErr :=
  ⟨.clientError "ValidationException", "One or more parameter values were invalid"⟩

/-- The reply to a call and the state it leaves. -/
def SesCall.answer (c : SesCall) (x : Choice) (w : SesWorld) : Except PyErr c.Resp × SesWorld :=
  match c with
  | .core c => ((c.answer x w.core).1, { w with core := (c.answer x w.core).2 })
  | .certCacheGet url =>
    match w.certCache url with
    | none => (.ok none, w)
    | some (expiresAt, pem) =>
      if expiresAt ≤ x.monotonic then
        (.ok none, { w with certCache := Function.update w.certCache url none })
      else (.ok (some pem), w)
  | .certCacheSet url pem ttlSeconds =>
    (.ok (), { w with
      certCache := Function.update w.certCache url (some (x.monotonic + ttlSeconds, pem)) })
  | .httpGet url =>
    x.fate.settle (match w.served url with
      | some text => .ok (text, w)
      | none => .error ⟨.exception "HTTPError", "404 Not Found"⟩) w
  | .getEventItem messageId => x.fate.settle (.ok (w.event messageId, w)) w
  | .putSuppressionItem item =>
    x.fate.settle (if item.email = "" then .error validationException
      else .ok ((), w.suppress item)) w
  | .updateEventStatus messageId status =>
    x.fate.settle (match w.event messageId with
      | some _ => .ok ((), w.withStatus messageId status)
      | none => .error conditionFailed) w

/-- A program of the endpoint. -/
abbrev SesProg := Proc SesCall SesCall.Resp PyErr

/-- One call. -/
def sesRun (c : SesCall) : SesProg c.Resp := Proc.perform c

/-- A program of Core, run from the endpoint. -/
def fromCore {α : Type} (p : Prog α) : SesProg α := p.embed SesCall.core fun _ r => r

/-! ### The signature -/

/-- `_NOTIFICATION_FIELDS`. -/
def notificationFields : List String :=
  ["Message", "MessageId", "Subject", "Timestamp", "TopicArn", "Type"]

/-- `_SUBSCRIPTION_FIELDS`. -/
def subscriptionFields : List String :=
  ["Message", "MessageId", "SubscribeURL", "Timestamp", "Token", "TopicArn", "Type"]

/-- A character of a region's name, as `_SIGNING_CERT_HOST_RE` has it. -/
def isRegionChar (c : Char) : Bool := ('a' ≤ c && c ≤ 'z') || ('0' ≤ c && c ≤ '9') || c == '-'

/-- `_SIGNING_CERT_HOST_RE.match(host)`: the pattern's `$` also matches before a final line feed. -/
def isSigningHost (host : String) : Bool :=
  let rest := host.toList.drop 4
  let suffix := rest.dropWhile isRegionChar
  host.toList.take 4 == "sns.".toList && !(rest.takeWhile isRegionChar).isEmpty &&
    (suffix == ".amazonaws.com".toList || suffix == ".amazonaws.com\n".toList)

/-- `SnsVerificationError`. -/
def snsVerificationError (text : String) : PyErr := ⟨.exception "SnsVerificationError", text⟩

/-- A value that lacks a method. -/
def notA (method : String) : PyErr := ⟨.attributeError, "object has no attribute " ++ pyRepr method⟩

/-- The value of a field of the payload, unless it is missing or false. -/
def present (payload : List (String × Json)) (field : String) : Option Json :=
  (payload.lookup field).filter Json.truthy

section Endpoint

-- `json.loads` of a body, `json.loads` of a string, `str(v)`, `httpx.URL(url).host`,
-- `load_pem_x509_certificate`, `base64.b64decode`, and `s.encode("utf-8")`, which does not take a lone
-- surrogate
variable (loads : Bytes → Except PyErr Json) (loadsStr : String → Except PyErr Json)
  (pyStr : Json → String) (host : String → Except PyErr String)
  (loadCertificate : String → Except PyErr Certificate) (b64decode : String → Except PyErr Bytes)
  (encode : String → Except PyErr Bytes)

/-- `_canonical_string`. -/
def canonicalString (payload : List (String × Json)) : String :=
  let fields := if (present payload "Token").isSome then subscriptionFields else notificationFields
  String.join (fields.map fun field => match payload.lookup field with
    | none => ""
    | some value => field ++ "\n" ++ pyStr value ++ "\n")

/-- `url.startswith("https://")` and the host is one of SNS's. -/
def isTrusted (url : String) : Except PyErr Bool :=
  if "https://".toList.isPrefixOf url.toList then (host url).map isSigningHost else .ok false

/-- The text of a certificate, from the cache or the host. -/
def readCertificate (url : String) : SesProg String := do
  match ← sesRun (.certCacheGet url) with
  | some pem => return pem
  | none => do
    let pem ← try sesRun (.httpGet url)
      catch exc => match exc.cls with
        | .exception "HTTPError" =>
          .raise (snsVerificationError ("Failed to fetch signing cert: " ++ exc.text))
        | _ => throw exc
    sesRun (.certCacheSet url pem (24 * 3600))
    return pem

/-- `load_pem_x509_certificate`, with its `except ValueError`. -/
def parseCertificate (pem : String) : Except PyErr Certificate :=
  match loadCertificate pem with
  | .ok cert => .ok cert
  | .error exc => match exc.cls with
    | .exception "ValueError" =>
      .error (snsVerificationError ("Signing cert is not a valid certificate: " ++ exc.text))
    | _ => .error exc

/-- `_fetch_signing_cert`. -/
def fetchSigningCert (url : String) : SesProg Certificate := do
  let trusted ← Proc.ofExcept (isTrusted host url)
  if !trusted then
    .raise (snsVerificationError ("Refusing to fetch signing cert from untrusted host: " ++ url))
  else
    let pem ← readCertificate url
    Proc.ofExcept (parseCertificate loadCertificate pem)

/-- What `_verify_signature` does with the certificate. -/
def checkSignature (payload : List (String × Json)) (signature : Json) (cert : Certificate) :
    Except PyErr Unit := do
  let decoded ← match signature with
    | .str s => b64decode s
    | _ => .error ⟨.typeError, "argument should be a bytes-like object or ASCII string"⟩
  let canonical ← encode (canonicalString pyStr payload)
  let digest : SnsDigest := match payload.lookup "SignatureVersion" with
    | some (.str "2") => .sha256
    | _ => .sha1
  match ← cert.publicKey with
  | none => .error (snsVerificationError "Signing cert has unexpected key type")
  | some verify =>
    if verify decoded canonical digest then .ok ()
    else .error (snsVerificationError "Signature verification failed: ")

/-- `_verify_signature`. -/
def verifySignature (payload : List (String × Json)) : SesProg Unit :=
  match present payload "SigningCertURL", present payload "Signature" with
  | some certUrl, some signature => match certUrl with
    | .str url => do
      let cert ← fetchSigningCert host loadCertificate url
      Proc.ofExcept (checkSignature pyStr b64decode encode payload signature cert)
    | _ => .raise (notA "startswith")
  | _, _ => .raise (snsVerificationError "Missing SigningCertURL/Signature")

/-- `_confirm_subscription`. -/
def confirmSubscription (payload : List (String × Json)) : SesProg Unit :=
  match payload.lookup "SubscribeURL" with
  | none => .raise ⟨.keyError, pyRepr "SubscribeURL"⟩
  | some (.str url) => do
    let trusted ← Proc.ofExcept (isTrusted host url)
    if !trusted then
      .raise (snsVerificationError ("Refusing to confirm via untrusted host: " ++ url))
    else
      let _ ← sesRun (.httpGet url)
      return ()
  | some _ => .raise (notA "startswith")

end Endpoint

/-! ### Bounces and complaints -/

/-- What a bounce and a complaint differ in. -/
structure Report where
  reason : String
  bounceType : Option Json
  status : String
  action : String
  eventType : String
  metadata : Json → Json
  data : Json → List (String × Json)

/-- The `bounce_type` attribute, which is left out when it is false. -/
def bounceTypeValue (bounceType : Option Json) : Except PyErr (Option Json) :=
  match bounceType.filter Json.truthy with
  | some value => (toValue value).map some
  | none => .ok none

/-- `_suppress`. -/
def suppress (orgId : String) (email : Json) (reason : String) (bounceType : Option Json) :
    SesProg Unit := do
  let now ← fromCore (Core.run .utcnow)
  let email ← Proc.ofExcept (toValue email)
  let bounceType ← Proc.ofExcept (bounceTypeValue bounceType)
  match email with
  | .str email =>
    sesRun (.putSuppressionItem
      { orgId, email, reason, timestamp := DateTime.isoformat now, bounceType })
  | _ => .raise validationException

/-- `_set_event_status`. -/
def setEventStatus (messageId status : String) : SesProg Unit := do
  try sesRun (.updateEventStatus messageId status)
  catch exc => match exc.cls with
    | .clientError _ => pure ()
    | _ => throw exc

/-- `_handle_bounce_notification` and `_handle_complaint_notification`. -/
def handleReport (report : Report) (orgId messageId : String) (email : Json) : SesProg Unit := do
  suppress orgId email report.reason report.bounceType
  setEventStatus messageId report.status
  let _ ← fromCore (logAudit orgId "system" report.action "email" messageId (report.metadata email))
  let _ ← fromCore (publishEvent orgId report.eventType (report.data email) "a2z.core")
  return ()

/-- `_handle_bounce_notification`. -/
def bounceReport (messageId : String) (bounceType : Json) : Report where
  reason := "bounce"
  bounceType := some bounceType
  status := "bounced"
  action := "email.bounced"
  eventType := "email.bounced"
  metadata email := .obj [("to", email), ("bounce_type", bounceType)]
  data email := [("email", email), ("bounce_type", bounceType), ("message_id", .str messageId)]

/-- `_handle_complaint_notification`. -/
def complaintReport (messageId : String) : Report where
  reason := "complaint"
  bounceType := none
  status := "complained"
  action := "email.complained"
  eventType := "email.complained"
  metadata email := .obj [("to", email)]
  data email := [("email", email), ("message_id", .str messageId)]

/-- `for r in value`. -/
def pyIter : Json → Except PyErr (List Json)
  | .arr items => .ok items
  | .obj fields => .ok (fields.map fun field => .str field.1)
  | .str s => .ok (s.toList.map fun c => .str (String.ofList [c]))
  | _ => .error ⟨.typeError, "object is not iterable"⟩

/-- `r["emailAddress"]`. -/
def emailAddress : Json → Except PyErr Json
  | .obj fields => match fields.lookup "emailAddress" with
    | some email => .ok email
    | none => .error ⟨.keyError, pyRepr "emailAddress"⟩
  | _ => .error ⟨.typeError, "indices must be integers or slices, not str"⟩

/-- What is read of a notification: the type, the message, and, once its org is known, the recipients. -/
structure Notification where
  fields : List (String × Json)
  type : Json
  messageId : Option Json

/-- The first lines of `_process_notification`. -/
def readNotification : Json → Except PyErr Notification
  | .obj fields => do
    let type := ((fields.lookup "notificationType").filter Json.truthy).getD
      ((fields.lookup "eventType").getD .null)
    let messageId ← ((fields.lookup "mail").getD (.obj [])).get? "messageId"
    return ⟨fields, type, messageId.filter Json.truthy⟩
  | _ => .error (notA "get")

/-- The recipients of a bounce or a complaint, and how each is reported. -/
def readReport (fields : List (String × Json)) (messageId : String) :
    Json → Except PyErr (Option (Report × List Json))
  | .str "Bounce" => do
    let bounce := (fields.lookup "bounce").getD (.obj [])
    let bounceType := (← bounce.get? "bounceType").getD (.str "Permanent")
    let recipients ← pyIter ((← bounce.get? "bouncedRecipients").getD (.arr []))
    return some (bounceReport messageId bounceType, recipients)
  | .str "Complaint" => do
    let complaint := (fields.lookup "complaint").getD (.obj [])
    let recipients ← pyIter ((← complaint.get? "complainedRecipients").getD (.arr []))
    return some (complaintReport messageId, recipients)
  | _ => .ok none

/-- The loop over the recipients. -/
def handleRecipients (report : Report) (orgId messageId : String) (recipients : List Json) :
    SesProg Unit :=
  forEach recipients () fun _ r => do
    let email ← Proc.ofExcept (emailAddress r)
    handleReport report orgId messageId email

/-- `resolve_org_for_message`, whose key has to be a string. -/
def resolveOrgForMessage : Json → SesProg (Option EmailEvent)
  | .str messageId => sesRun (.getEventItem messageId)
  | _ => .raise validationException

/-- `_process_notification`. -/
def processNotification (notification : Json) : SesProg Unit := do
  let read ← Proc.ofExcept (readNotification notification)
  match read.messageId with
  | none => return ()
  | some messageId =>
    let event ← resolveOrgForMessage messageId
    match event, messageId with
    | some event, .str messageId =>
      if event.orgId = "" then return ()
      else
        match ← Proc.ofExcept (readReport read.fields messageId read.type) with
        | none => return ()
        | some (report, recipients) => handleRecipients report event.orgId messageId recipients
    | _, _ => return ()

/-! ### The endpoint -/

section Endpoint

-- `json.loads` of a body, `json.loads` of a string, `str(v)`, `httpx.URL(url).host`,
-- `load_pem_x509_certificate`, `base64.b64decode`, and `s.encode("utf-8")`, which does not take a lone
-- surrogate
variable (loads : Bytes → Except PyErr Json) (loadsStr : String → Except PyErr Json)
  (pyStr : Json → String) (host : String → Except PyErr String)
  (loadCertificate : String → Except PyErr Certificate) (b64decode : String → Except PyErr Bytes)
  (encode : String → Except PyErr Bytes)

/-- `HTTPException`. -/
def httpException (status detail : String) : PyErr := ⟨.exception "HTTPException", status ++ ": " ++ detail⟩

/-- The exception of a request whose verification fails, if `exc` says that it does. -/
def refuse {α : Type} (status detail : String) (exc : PyErr) : SesProg α :=
  match exc.cls with
  | .exception "SnsVerificationError" => .raise (httpException status detail)
  | _ => .raise exc

/-- `json.loads(payload.get("Message", "{}"))`. -/
def readMessage (payload : List (String × Json)) : Except PyErr Json :=
  match (payload.lookup "Message").getD (.str "{}") with
  | .str message => loadsStr message
  | _ => .error ⟨.typeError, "the JSON object must be str, bytes or bytearray"⟩

/-- What `ses_notifications` does with a request that is verified. -/
def dispatch (payload : List (String × Json)) : SesProg Unit :=
  match payload.lookup "Type" with
  | some (.str "SubscriptionConfirmation") =>
    (confirmSubscription host payload).handle (refuse "400" "Untrusted SubscribeURL")
  | some (.str "Notification") =>
    match readMessage loadsStr payload with
    | .error exc => match exc.cls with
      | .exception "JSONDecodeError" => return ()
      | _ => .raise exc
    | .ok notification => processNotification notification
  | _ => return ()

/-- `ses_notifications`. -/
def sesNotifications (rawBody : Bytes) : SesProg Unit := do
  match ← Proc.ofExcept (loads rawBody) with
  | .obj payload => do
    (verifySignature pyStr host loadCertificate b64decode encode payload).handle
      (refuse "403" "Signature verification failed")
    dispatch loadsStr host payload
  | _ => .raise (notA "get")

/-! ### Authenticity -/

/-- The suppression lists and the statuses of emails are what they were. -/
def Untouched (w w' : SesWorld) : Prop :=
  w'.items = w.items ∧ w'.core.suppression = w.core.suppression ∧
    w'.core.emailEvents = w.core.emailEvents

theorem Untouched.refl (w : SesWorld) : Untouched w w := ⟨rfl, rfl, rfl⟩

theorem Untouched.trans {u v w : SesWorld} (h : Untouched u v) (h' : Untouched v w) :
    Untouched u w :=
  ⟨h'.1.trans h.1, h'.2.1.trans h.2.1, h'.2.2.trans h.2.2⟩

/-- The request does not name the topic that is configured. -/
def Foreign (w : SesWorld) (rawBody : Bytes) : Prop :=
  ∀ payload topic, loads rawBody = .ok (.obj payload) →
    w.core.config.sesNotificationsTopicArn = some topic →
      payload.lookup "TopicArn" ≠ some (.str topic)

/-- A request of another topic changes nothing, however its calls turn out. -/
def Authentic (w : SesWorld) (rawBody : Bytes) : Prop :=
  Foreign loads w rawBody → ∀ o, Untouched w (exec SesCall.answer
    (sesNotifications loads loadsStr pyStr host loadCertificate b64decode encode rawBody) o w).2

/-- The text of a certificate that a request can read: in the cache, or at its URL. -/
def Pem (w : SesWorld) (url pem : String) : Prop :=
  (∃ expiresAt, w.certCache url = some (expiresAt, pem)) ∨ w.served url = some pem

/-- The signature is one of the key of the certificate that the request names, on a host of SNS. -/
def Verified (w : SesWorld) (payload : List (String × Json)) : Prop :=
  ∃ url signature pem cert, present payload "SigningCertURL" = some (.str url) ∧
    present payload "Signature" = some signature ∧ isTrusted host url = .ok true ∧ Pem w url pem ∧
      parseCertificate loadCertificate pem = .ok cert ∧
        checkSignature pyStr b64decode encode payload signature cert = .ok ()

/-- The notification is a bounce or a complaint about a message that is known, and its first recipient is
one that can be stored. -/
def Reported (w : SesWorld) (notification : Json) : Prop :=
  ∃ read messageId event report recipient recipients email bounceType,
    readNotification notification = .ok read ∧ read.messageId = some (.str messageId) ∧
      w.event messageId = some event ∧ event.orgId ≠ "" ∧
        readReport read.fields messageId read.type = .ok (some (report, recipient :: recipients)) ∧
          emailAddress recipient = .ok (.str email) ∧ email ≠ "" ∧
            bounceTypeValue report.bounceType = .ok bounceType

/-- A verified notification of a bounce or a complaint about a message that is known. -/
def Suppressing (w : SesWorld) (rawBody : Bytes) : Prop :=
  ∃ payload notification, loads rawBody = .ok (.obj payload) ∧
    Verified pyStr host loadCertificate b64decode encode w payload ∧
      payload.lookup "Type" = some (.str "Notification") ∧
        readMessage loadsStr payload = .ok notification ∧ Reported w notification

/-! ### A request that is not suppressing -/

/-- A call that neither suppresses nor sets a status. -/
def SesCall.Quiet : SesCall → Prop
  | .core .utcnow => True
  | .certCacheGet _ | .certCacheSet _ _ _ | .httpGet _ | .getEventItem _ => True
  | _ => False

theorem untouched_answer {c : SesCall} (hc : c.Quiet) (x : Choice) (w : SesWorld) :
    Untouched w (c.answer x w).2 := by
  cases c with
  | core c =>
    cases c with
    | utcnow => exact .refl w
    | _ => exact hc.elim
  | certCacheGet url =>
    rw [SesCall.answer]
    split
    · exact .refl w
    · split <;> exact ⟨rfl, rfl, rfl⟩
  | certCacheSet url pem ttlSeconds => exact ⟨rfl, rfl, rfl⟩
  | httpGet url =>
    rw [SesCall.answer]
    split <;> cases x.fate <;> exact .refl w
  | getEventItem messageId =>
    rw [SesCall.answer]
    cases x.fate <;> exact .refl w
  | putSuppressionItem item => exact hc.elim
  | updateEventStatus messageId status => exact hc.elim

/-- The setting of a request, each of whose calls is to change nothing. -/
def watching : Contract SesCall SesCall.Resp PyErr Choice SesWorld where
  answer := SesCall.answer
  rely w w' := w = w'
  admits _ _ _ := True
  guar _ _ w w' := Untouched w w'
  rely_refl _ := rfl
  rely_trans h h' := h.trans h'

theorem wp_quiet {c : SesCall} (hc : c.Quiet) {w : SesWorld}
    {Q : Except PyErr c.Resp → SesWorld → Prop}
    (h : ∀ x, Untouched w (c.answer x w).2 → Q (c.answer x w).1 (c.answer x w).2) :
    watching.wp (sesRun c) w Q := by
  refine wp_perform ?_
  rintro _ rfl x _
  exact ⟨untouched_answer hc x w, h x (untouched_answer hc x w)⟩

/-- What the cache and the host say of a URL. -/
theorem pem_of_certCacheGet {url pem : String} {x : Choice} {w : SesWorld}
    (h : (SesCall.answer (.certCacheGet url) x w).1 = .ok (some pem)) : Pem w url pem := by
  rw [SesCall.answer] at h
  cases hcached : w.certCache url with
  | none => rw [hcached] at h; cases h
  | some entry =>
    rw [hcached] at h
    dsimp only at h
    split at h
    · cases h
    · cases h
      exact .inl ⟨_, hcached⟩

theorem served_of_httpGet {url pem : String} {x : Choice} {w : SesWorld}
    (h : (SesCall.answer (.httpGet url) x w).1 = .ok pem) : w.served url = some pem := by
  rw [SesCall.answer] at h
  cases hserved : w.served url with
  | none => rw [hserved, Fate.settle_error] at h; cases h
  | some text =>
    rw [hserved] at h
    cases hfate : x.fate <;> rw [hfate] at h <;> cases h
    rfl

/-- The text that is read is in the cache, or at the URL. -/
theorem wp_readCertificate (url : String) (w : SesWorld) : watching.wp (readCertificate url) w
    fun r w' => Untouched w w' ∧ ∀ pem, r = .ok pem → Pem w url pem := by
  refine wp_bind (wp_quiet (c := .certCacheGet url) trivial fun x h₁ => ?_)
  have hserved : (SesCall.answer (.certCacheGet url) x w).2.served = w.served := by
    rw [SesCall.answer]
    split
    · rfl
    · split <;> rfl
  cases hfound : (SesCall.answer (.certCacheGet url) x w).1 with
  | error e => exact ⟨h₁, nofun⟩
  | ok found =>
    cases found with
    | some pem =>
      refine ⟨h₁, fun pem' h => ?_⟩
      cases h
      exact pem_of_certCacheGet hfound
    | none =>
      generalize (SesCall.answer (.certCacheGet url) x w).2 = w₁ at h₁ hserved
      refine wp_bind (wp_handle (wp_quiet (c := .httpGet url) trivial fun x₁ h₂ => ?_))
      cases hget : (SesCall.answer (.httpGet url) x₁ w₁).1 with
      | error e =>
        show watching.wp _ _ _
        dsimp only
        split
        · exact ⟨h₁.trans h₂, nofun⟩
        · exact ⟨h₁.trans h₂, nofun⟩
      | ok pem =>
        refine wp_bind (wp_quiet (c := .certCacheSet url pem (24 * 3600)) trivial fun x₂ h₃ => ?_)
        refine ⟨(h₁.trans h₂).trans h₃, fun pem' h => ?_⟩
        cases h
        exact .inr (hserved ▸ served_of_httpGet hget)

/-- A request whose verification succeeds is verified. -/
theorem wp_verifySignature (payload : List (String × Json)) (w : SesWorld) :
    watching.wp (verifySignature pyStr host loadCertificate b64decode encode payload) w
      fun r w' => Untouched w w' ∧
        (r = .ok () → Verified pyStr host loadCertificate b64decode encode w payload) := by
  have hraise : ∀ {e : PyErr}, Untouched w w ∧
      ((.error e : Except PyErr Unit) = .ok () →
        Verified pyStr host loadCertificate b64decode encode w payload) := ⟨.refl w, nofun⟩
  unfold verifySignature
  cases hcertUrl : present payload "SigningCertURL" with
  | none => exact hraise
  | some certUrl =>
    cases hsignature : present payload "Signature" with
    | none => exact hraise
    | some signature =>
      cases certUrl with
      | str url =>
        refine wp_bind (wp_bind ?_)
        cases htrusted : isTrusted host url with
        | error e => exact hraise
        | ok trusted =>
          cases trusted with
          | false => exact hraise
          | true =>
            refine wp_bind (wp_mono ?_ (wp_readCertificate url w))
            rintro r w₁ ⟨h₁, hpem⟩
            cases r with
            | error e => exact ⟨h₁, nofun⟩
            | ok pem =>
              cases hcert : parseCertificate loadCertificate pem with
              | error e =>
                show watching.wp (Proc.ofExcept (parseCertificate loadCertificate pem)) w₁ _
                rw [hcert]
                exact ⟨h₁, nofun⟩
              | ok cert =>
                show watching.wp (Proc.ofExcept (parseCertificate loadCertificate pem)) w₁ _
                rw [hcert]
                show watching.wp (Proc.ofExcept
                  (checkSignature pyStr b64decode encode payload signature cert)) w₁ _
                refine wp_ofExcept.mpr ⟨h₁, fun hchecked => ?_⟩
                exact ⟨url, signature, pem, cert, hcertUrl, hsignature, htrusted, hpem pem rfl, hcert,
                  hchecked⟩
      | _ => exact hraise

/-- A subscription that is confirmed changes nothing. -/
theorem wp_confirmSubscription (payload : List (String × Json)) (w : SesWorld) :
    watching.wp (confirmSubscription host payload) w fun _ w' => Untouched w w' := by
  unfold confirmSubscription
  split
  · exact .refl w
  · next url _ =>
    refine wp_bind ?_
    cases isTrusted host url with
    | error e => exact .refl w
    | ok trusted =>
      cases trusted with
      | false => exact .refl w
      | true =>
        refine wp_bind (wp_quiet (c := .httpGet url) trivial fun x h => ?_)
        cases (SesCall.answer (.httpGet url) x w).1 <;> exact h
  · exact .refl w

/-- What is reported depends on the events only. -/
theorem event_of_untouched {w w' : SesWorld} (h : Untouched w w') (messageId : String) :
    w'.event messageId = w.event messageId := by
  rw [SesWorld.event, SesWorld.event, h.2.2]

/-- An address that cannot be stored is not suppressed. -/
theorem wp_handleReport_of_not {report : Report} {orgId messageId : String} {email : Json}
    (h : ∀ address bounceType, email = .str address → address ≠ "" →
      bounceTypeValue report.bounceType ≠ .ok bounceType) (w : SesWorld) :
    watching.wp (handleReport report orgId messageId email) w fun r w' =>
      Untouched w w' ∧ ∃ e, r = .error e := by
  refine wp_bind (wp_bind (wp_quiet (c := .core .utcnow) trivial fun x h₁ => ?_))
  generalize (SesCall.answer (.core .utcnow) x w).2 = w₁ at h₁ ⊢
  cases (SesCall.answer (.core .utcnow) x w).1 with
  | error e => exact ⟨h₁, e, rfl⟩
  | ok now =>
    refine wp_bind (wp_ofExcept.mpr ?_)
    cases hemail : toValue email with
    | error e => exact ⟨h₁, e, rfl⟩
    | ok value =>
      obtain rfl : email = value := by
        unfold toValue at hemail
        split at hemail <;> cases hemail
        rfl
      refine wp_bind (wp_ofExcept.mpr ?_)
      cases hvalue : bounceTypeValue report.bounceType with
      | error e => exact ⟨h₁, e, rfl⟩
      | ok bounceType =>
        show watching.wp _ w₁ _
        cases email with
        | str address =>
          have hempty : address = "" := by
            by_contra hne
            exact h address bounceType rfl hne hvalue
          subst hempty
          refine wp_perform ?_
          rintro _ rfl x₂ _
          rw [show watching.answer = SesCall.answer from rfl, SesCall.answer, if_pos rfl,
            Fate.settle_error]
          exact ⟨.refl _, h₁, _, rfl⟩
        | _ => exact ⟨h₁, _, rfl⟩

theorem wp_handleRecipients_of_not {report : Report} {orgId messageId : String}
    {recipients : List Json} (h : ∀ recipient rest address bounceType,
      recipients = recipient :: rest → emailAddress recipient = .ok (.str address) → address ≠ "" →
        bounceTypeValue report.bounceType ≠ .ok bounceType) (w : SesWorld) :
    watching.wp (handleRecipients report orgId messageId recipients) w fun _ w' => Untouched w w' := by
  cases recipients with
  | nil => exact .refl w
  | cons recipient rest =>
    refine wp_bind (wp_bind (wp_ofExcept.mpr ?_))
    cases hemail : emailAddress recipient with
    | error e => exact .refl w
    | ok email =>
      refine wp_mono ?_ (wp_handleReport_of_not (fun address bounceType haddress hne => ?_) w)
      · rintro r w' ⟨hsame, e, rfl⟩
        exact hsame
      · exact h recipient rest address bounceType rfl (hemail.trans (congrArg _ haddress)) hne

/-- A notification that reports nothing changes nothing. -/
theorem wp_processNotification {notification : Json} {w : SesWorld} (h : ¬Reported w notification) :
    watching.wp (processNotification notification) w fun _ w' => Untouched w w' := by
  refine wp_bind (wp_ofExcept.mpr ?_)
  cases hread : readNotification notification with
  | error e => exact .refl w
  | ok read =>
    obtain ⟨fields, type, messageId⟩ := read
    cases messageId with
    | none => exact .refl w
    | some messageId =>
      refine wp_bind ?_
      cases messageId with
      | str messageId =>
        refine wp_quiet (c := .getEventItem messageId) trivial fun x h₁ => ?_
        have hreply : ∀ event, (SesCall.answer (.getEventItem messageId) x w).1 = .ok event →
            w.event messageId = event := by
          intro event hevent
          rw [SesCall.answer] at hevent
          cases hfate : x.fate <;> rw [hfate] at hevent <;> cases hevent
          rfl
        generalize (SesCall.answer (.getEventItem messageId) x w).2 = w₁ at h₁ ⊢
        cases hfound : (SesCall.answer (.getEventItem messageId) x w).1 with
        | error e => exact h₁
        | ok event =>
          have hevent := hreply event hfound
          cases event with
          | none => exact h₁
          | some event =>
            show watching.wp (if event.orgId = "" then _ else _) w₁ _
            split
            · exact h₁
            · next horg =>
              refine wp_bind (wp_ofExcept.mpr ?_)
              cases hreport : readReport fields messageId type with
              | error e => exact h₁
              | ok report =>
                cases report with
                | none => exact h₁
                | some report =>
                  refine wp_mono (fun r w' hw' => h₁.trans hw') (wp_handleRecipients_of_not
                    (fun recipient rest address bounceType hrest haddress hne hvalue => h ?_) w₁)
                  refine ⟨_, messageId, event, report.1, recipient, rest, address, bounceType, hread,
                    rfl, hevent, horg, ?_, haddress, hne, hvalue⟩
                  rw [← hrest]
                  exact hreport
      | _ => exact .refl w

/-- A request that is not suppressing changes nothing. -/
theorem wp_sesNotifications {rawBody : Bytes} {w : SesWorld}
    (h : ¬Suppressing loads loadsStr pyStr host loadCertificate b64decode encode w rawBody) :
    watching.wp (sesNotifications loads loadsStr pyStr host loadCertificate b64decode encode rawBody) w
      fun _ w' => Untouched w w' := by
  refine wp_bind (wp_ofExcept.mpr ?_)
  cases hloads : loads rawBody with
  | error e => exact .refl w
  | ok body =>
    cases body with
    | obj payload =>
      refine wp_bind (wp_handle (wp_mono ?_ (wp_verifySignature pyStr host loadCertificate b64decode encode
        payload w)))
      rintro r w₁ ⟨h₁, hverified⟩
      cases r with
      | error e =>
        show watching.wp (refuse "403" "Signature verification failed" e) w₁ _
        unfold refuse
        split <;> exact h₁
      | ok _ =>
        show watching.wp (dispatch loadsStr host payload) w₁ _
        unfold dispatch
        split
        · refine wp_handle (wp_mono (fun r w₂ h₂ => ?_) (wp_confirmSubscription host payload w₁))
          cases r with
          | ok _ => exact h₁.trans h₂
          | error e =>
            show watching.wp (refuse "400" "Untrusted SubscribeURL" e) w₂ _
            unfold refuse
            split <;> exact h₁.trans h₂
        · next htype =>
          split
          · next e _ =>
            split <;> exact h₁
          · next notification hmessage =>
            refine wp_mono (fun r w' hw' => h₁.trans hw') (wp_processNotification fun hreported => h ?_)
            obtain ⟨read, messageId, event, hrest⟩ := hreported
            rw [event_of_untouched h₁] at hrest
            exact ⟨payload, notification, hloads, hverified rfl, htype, hmessage, read, messageId, event,
              hrest⟩
        · exact h₁
    | _ => exact .refl w

/-! ### A request that is suppressing -/

/-- A call that goes through at a time. -/
def Choice.calmAt (now : DateTime) (monotonic : ℚ) : Choice :=
  { Choice.calm "" with now, monotonic }

/-- A call that goes through. -/
abbrev Smooth := { x : Choice // x.fate = .ok }

/-- The reply to a call that goes through. -/
def smoothAnswer (c : SesCall) (x : Smooth) (w : SesWorld) : Except PyErr c.Resp × SesWorld :=
  c.answer x.1 w

/-- A certificate that can be read is read in some run. -/
theorem yields_readCertificate {url pem : String} {w : SesWorld} (h : Pem w url pem) :
    ∃ w', Yields smoothAnswer (readCertificate url) w pem w' ∧ Untouched w w' := by
  rcases h with ⟨expiresAt, hcached⟩ | hserved
  · -- before the entry expires
    have hlive : ¬expiresAt ≤ expiresAt - 1 := not_le.mpr (sub_lt_self expiresAt one_pos)
    have hget : smoothAnswer (.certCacheGet url)
        ⟨.calmAt ⟨⟨2026, 1, 1⟩, 0, 0, 0, 0⟩ (expiresAt - 1), rfl⟩ w = (.ok (some pem), w) := by
      rw [smoothAnswer, SesCall.answer, hcached]
      exact if_neg hlive
    exact ⟨w, (Yields.perform _ hget).bind (Yields.ret pem w), .refl w⟩
  · -- once the entry, if there is one, has expired
    have hmiss : ∃ x w', smoothAnswer (.certCacheGet url) x w = (.ok none, w') ∧
        w'.served = w.served := by
      cases hcached : w.certCache url with
      | none =>
        refine ⟨⟨.calm "", rfl⟩, w, ?_, rfl⟩
        rw [smoothAnswer, SesCall.answer, hcached]
      | some entry =>
        refine ⟨⟨.calmAt ⟨⟨2026, 1, 1⟩, 0, 0, 0, 0⟩ entry.1, rfl⟩,
          { w with certCache := Function.update w.certCache url none }, ?_, rfl⟩
        rw [smoothAnswer, SesCall.answer, hcached]
        exact if_pos le_rfl
    obtain ⟨x, w₁, hmiss, hsame⟩ := hmiss
    have h₁ := untouched_answer (c := .certCacheGet url) trivial x.1 w
    rw [show SesCall.answer (.certCacheGet url) x.1 w = _ from hmiss] at h₁
    have hget : smoothAnswer (.httpGet url) ⟨.calm "", rfl⟩ w₁ = (.ok pem, w₁) := by
      rw [smoothAnswer, SesCall.answer, hsame, hserved]
      rfl
    obtain ⟨w₂, hset⟩ : ∃ w₂, smoothAnswer (.certCacheSet url pem (24 * 3600)) ⟨.calm "", rfl⟩ w₁ =
        (.ok (), w₂) := ⟨_, rfl⟩
    have h₂ := untouched_answer (c := .certCacheSet url pem (24 * 3600)) trivial (.calm "") w₁
    rw [show SesCall.answer (.certCacheSet url pem (24 * 3600)) (.calm "") w₁ = _ from hset] at h₂
    refine ⟨w₂, (Yields.perform x hmiss).bind ?_, h₁.trans h₂⟩
    exact ((Yields.perform _ hget).handle _).bind ((Yields.perform _ hset).bind (Yields.ret pem w₂))

/-- A request that is verified passes the verification in some run. -/
theorem yields_verifySignature {payload : List (String × Json)} {w : SesWorld}
    (h : Verified pyStr host loadCertificate b64decode encode w payload) : ∃ w', Yields SesCall.answer
      (verifySignature pyStr host loadCertificate b64decode encode payload) w () w' ∧ Untouched w w' := by
  obtain ⟨url, signature, pem, cert, hurl, hsignature, htrusted, hpem, hcert, hchecked⟩ := h
  obtain ⟨w', hread, hsame⟩ := yields_readCertificate hpem
  have hread : Yields SesCall.answer (readCertificate url) w pem w' := hread.of_choice Subtype.val
  refine ⟨w', ?_, hsame⟩
  unfold verifySignature
  rw [hurl, hsignature]
  have hfetch : Yields SesCall.answer (fetchSigningCert host loadCertificate url) w cert w' := by
    unfold fetchSigningCert
    rw [htrusted]
    refine hread.bind ?_
    rw [hcert]
    exact Yields.ret cert w'
  refine hfetch.bind ?_
  rw [hchecked]
  exact Yields.ret () w'

/-- An address that can be stored is suppressed in some run. -/
theorem reaches_suppress {orgId address reason : String} {bounceType : Option Json}
    {value : Option Json} (hvalue : bounceTypeValue bounceType = .ok value) (hne : address ≠ "")
    (w : SesWorld) : ∃ w', Reaches SesCall.answer (suppress orgId (.str address) reason bounceType)
      w w' ∧ w'.items ≠ w.items := by
  -- a time that is not that of the last item
  have hnow : ∃ now : DateTime, ∀ item, w.items.head? = some item → item.timestamp ≠ now.isoformat := by
    by_cases hlast : (w.items.head?.map SuppressionItem.timestamp) =
        some (DateTime.isoformat ⟨⟨2026, 1, 1⟩, 0, 0, 0, 0⟩)
    · refine ⟨⟨⟨2026, 1, 2⟩, 0, 0, 0, 0⟩, fun item hitem h => ?_⟩
      rw [hitem, Option.map_some, h] at hlast
      exact absurd (Option.some.inj hlast) (by decide)
    · refine ⟨⟨⟨2026, 1, 1⟩, 0, 0, 0, 0⟩, fun item hitem h => hlast ?_⟩
      rw [hitem, Option.map_some, h]
  obtain ⟨now, hnow⟩ := hnow
  have htime : SesCall.answer (.core .utcnow) (.calmAt now 0) w = (.ok now, w) := rfl
  have hclock : Yields SesCall.answer (fromCore (Core.run .utcnow)) w now w :=
    Yields.call (x := .calmAt now 0) (Yields.ret now w)
  let item : SuppressionItem := ⟨orgId, address, reason, now.isoformat, value⟩
  have hput : SesCall.answer (.putSuppressionItem item) (.calm "") w = (.ok (), w.suppress item) := by
    rw [SesCall.answer, if_neg hne]
    rfl
  refine ⟨w.suppress item, ?_, fun h => ?_⟩
  · refine Reaches.bind_right hclock ?_
    have hstr : toValue (.str address) = .ok (.str address) := rfl
    rw [hstr, hvalue]
    exact (Yields.perform _ hput).reaches
  · have hhead : w.items.head? = some item := by
      rw [← h]
      rfl
    exact hnow item hhead rfl

/-- A notification that reports something changes something in some run. -/
theorem reaches_processNotification {notification : Json} {w : SesWorld}
    (h : Reported w notification) : ∃ w', Reaches SesCall.answer (processNotification notification)
      w w' ∧ w'.items ≠ w.items := by
  obtain ⟨read, messageId, event, report, recipient, recipients, address, value, hread, hmessage, hevent,
    horg, hreport, haddress, hne, hvalue⟩ := h
  obtain ⟨w', hsuppress, hchanged⟩ : ∃ w', Reaches SesCall.answer (suppress event.orgId
      (.str address) report.reason report.bounceType) w w' ∧ w'.items ≠ w.items :=
    reaches_suppress hvalue hne w
  refine ⟨w', ?_, hchanged⟩
  have hget : SesCall.answer (.getEventItem messageId) (.calm "") w = (.ok (some event), w) := by
    rw [SesCall.answer, hevent]
    rfl
  have hrecipients : Reaches SesCall.answer
      (handleRecipients report event.orgId messageId (recipient :: recipients)) w w' := by
    refine Reaches.bind_left ?_ _
    show Reaches SesCall.answer ((Proc.ofExcept (emailAddress recipient)).bind fun email =>
      handleReport report event.orgId messageId email) w w'
    rw [haddress]
    exact hsuppress.bind_left _
  unfold processNotification
  rw [hread]
  obtain ⟨fields, type, found⟩ := read
  obtain rfl : found = some (.str messageId) := hmessage
  refine Reaches.bind_right (Yields.ret _ w) (Reaches.bind_right (Yields.perform _ hget) ?_)
  show Reaches SesCall.answer (if event.orgId = "" then _ else _) w w'
  rw [if_neg horg]
  have hreported : readReport fields messageId type = .ok (some (report, recipient :: recipients)) :=
    hreport
  show Reaches SesCall.answer ((Proc.ofExcept (readReport fields messageId type)).bind _) w w'
  rw [hreported]
  exact hrecipients

/-- Whether a request of another topic can change something: exactly where its signature verifies with
the certificate that it names, and it is a notification of a bounce or a complaint about a known message.
Its topic is not among what is asked. -/
theorem authentic_iff (w : SesWorld) (rawBody : Bytes) :
    Authentic loads loadsStr pyStr host loadCertificate b64decode encode w rawBody ↔
      (Foreign loads w rawBody →
        ¬Suppressing loads loadsStr pyStr host loadCertificate b64decode encode w rawBody) := by
  refine ⟨fun h hforeign hsuppressing => ?_, fun h hforeign o => ?_⟩
  · obtain ⟨payload, notification, hloads, hverified, htype, hmessage, hreported⟩ := hsuppressing
    obtain ⟨w₁, hpassed, hsame⟩ :=
      yields_verifySignature pyStr host loadCertificate b64decode encode hverified
    have hthere : Reported w₁ notification := by
      obtain ⟨read, messageId, event, hrest⟩ := hreported
      rw [← event_of_untouched hsame] at hrest
      exact ⟨read, messageId, event, hrest⟩
    obtain ⟨w₂, hreaches, hchanged⟩ := reaches_processNotification hthere
    have hrun : Reaches SesCall.answer
        (sesNotifications loads loadsStr pyStr host loadCertificate b64decode encode rawBody) w w₂ := by
      unfold sesNotifications
      rw [hloads]
      refine Reaches.bind_right (Yields.ret _ w) (Reaches.bind_right (hpassed.handle _) ?_)
      show Reaches SesCall.answer (dispatch loadsStr host payload) w₁ w₂
      unfold dispatch
      rw [htype, hmessage]
      exact hreaches
    obtain ⟨o, ho⟩ := hrun
    have hkept := h hforeign o
    rw [ho] at hkept
    exact hchanged (hkept.1.trans hsame.1.symm)
  · exact exec_invariant (K := watching) (J := Untouched w) (fun _ _ _ _ hguar hw => hw.trans hguar)
      (wp_sesNotifications loads loadsStr pyStr host loadCertificate b64decode encode (h hforeign))
      (along_of_forall _ (fun _ _ _ _ _ => trivial) w) (.refl w)

end Endpoint

/-- A bounce of the message `m1`, published on a topic of the sender's own. -/
def foreignPayload : List (String × Json) :=
  [("Type", .str "Notification"), ("MessageId", .str "n1"),
    ("TopicArn", .str "arn:aws:sns:us-east-1:2:other"), ("Message", .str "bounce of m1"),
    ("Timestamp", .str "2026-01-01T00:00:00.000Z"), ("Signature", .str "AQ=="),
    ("SigningCertURL", .str "https://sns.us-east-1.amazonaws.com/cert.pem")]

/-- What its message says. -/
def foreignBounce : Json :=
  .obj [("notificationType", .str "Bounce"), ("mail", .obj [("messageId", .str "m1")]),
    ("bounce", .obj [("bounceType", .str "Permanent"),
      ("bouncedRecipients", .arr [.obj [("emailAddress", .str "kim@example.com")]])])]

/-- `str(v)`, of a string. -/
def strOfStr : Json → String
  | .str s => s
  | _ => ""

/-- `s.encode("utf-8")`, of a string without lone surrogates. -/
def strictUtf8 (s : String) : Except PyErr Bytes := .ok s.toUTF8.data.toList

/-- SNS's certificate, and what it has signed. -/
def snsCertificate : Certificate where
  publicKey := .ok <| some fun signature canonical digest => signature == [1] && digest == .sha1 &&
    canonical == (canonicalString strOfStr foreignPayload).toUTF8.data.toList

/-- An org's message is known, and the notifications of another topic are expected. -/
def notifiedWorld : SesWorld where
  core := { World.initial with
    config := ⟨true, some "arn:aws:sns:us-east-1:1:ses"⟩
    emailEvents := [⟨"m1", "org", "2026-01-01T00:00:00+00:00", "kim@example.com", "invoicing", "sent",
      "Invoice", .obj []⟩] }
  items := []
  certCache _ := none
  served url := if url = "https://sns.us-east-1.amazonaws.com/cert.pem" then some "pem" else none

/-- kim's address is suppressed for the org, by a message that was never published on its topic. -/
theorem not_authentic : ¬∀ (loads : Bytes → Except PyErr Json) (loadsStr : String → Except PyErr Json)
    (pyStr : Json → String) (host : String → Except PyErr String)
    (loadCertificate : String → Except PyErr Certificate) (b64decode : String → Except PyErr Bytes)
    (encode : String → Except PyErr Bytes) (w : SesWorld) (rawBody : Bytes),
      Authentic loads loadsStr pyStr host loadCertificate b64decode encode w rawBody := by
  intro h
  have hkept := h (fun _ => .ok (.obj foreignPayload)) (fun _ => .ok foreignBounce) strOfStr
    (fun url => .ok (String.ofList ((url.toList.drop 8).takeWhile (· != '/'))))
    (fun _ => .ok snsCertificate) (fun _ => .ok [1]) strictUtf8 notifiedWorld [] ?_
    (fun n => some (.calm (toString n)))
  · exact absurd (congrArg List.length hkept.1) (by decide +kernel)
  · rintro payload topic hpayload htopic h
    cases hpayload
    cases htopic
    exact absurd (Json.str.inj (Option.some.inj h)) (by decide)

end A2ZCore.Core
