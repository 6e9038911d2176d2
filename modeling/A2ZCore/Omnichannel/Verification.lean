import A2ZCore.Core.SesNotifications
import A2ZCore.Omnichannel.Webhooks

/-!
# Failures of verification

A request that is not authentic is to be refused in one way: `_verify_signature` raises
`SnsVerificationError`, and the check of `handle_webhook` ends in `WebhookSignatureError`. Both take steps
that raise something else where the request is odd, and only the fetch of the certificate, the parser of
its text and the last step, the check of the key, are guarded.

## Main definitions

* `Libraries` — what the verifiers call, none of which knows the exceptions of the application
* `verifyPosted` — `_verify_signature`, of any JSON value
* `checkSigned` — the check of `handle_webhook`
* `FailsClosed`, `ChecksClosed` — a verifier accepts, or raises its own exception
* `Verifiable`, `Comparable` — no step that is not guarded goes wrong

## Main results

* `failsClosed_iff` — when both verifiers fail closed
-/

namespace A2ZCore.Omnichannel

open Interaction Interaction.Proc Interaction.Contract A2ZCore.Core

/-! ### The libraries -/

/-- An exception that is none of the two. -/
def Alien (e : PyErr) : Prop :=
  e.cls ≠ .exception "SnsVerificationError" ∧ e.cls ≠ .webhookSignatureError

/-- What the verifiers call: `str(v)`, `httpx.URL(url).host`, `load_pem_x509_certificate`,
`base64.b64decode`, `s.encode("utf-8")`, and `hmac.new(key.encode("utf-8"), msg, hashlib.sha256)`. The
exceptions are the application's own, so that none of these raises them. -/
structure Libraries where
  pyStr : Json → String
  host : String → Except PyErr String
  loadCertificate : String → Except PyErr Certificate
  b64decode : String → Except PyErr Bytes
  encode : String → Except PyErr Bytes
  hmacSha256 : String → Bytes → Except PyErr Bytes
  alien_host : ∀ url e, host url = .error e → Alien e
  alien_loadCertificate : ∀ pem e, loadCertificate pem = .error e → Alien e
  alien_publicKey : ∀ pem cert e, loadCertificate pem = .ok cert → cert.publicKey = .error e → Alien e
  alien_b64decode : ∀ text e, b64decode text = .error e → Alien e
  alien_encode : ∀ text e, encode text = .error e → Alien e
  alien_hmacSha256 : ∀ key msg e, hmacSha256 key msg = .error e → Alien e

/-! ### `_verify_signature` -/

/-- A call that goes through, or fails with one of `httpx`'s errors. -/
def HttpFate (x : Core.Choice) : Prop :=
  match x.fate with
  | .ok => True
  | .lost e | .late e => e.cls = .exception "HTTPError"

/-- What the environment decides at a call. -/
abbrev HttpChoice := { x : Core.Choice // HttpFate x }

/-- The reply to a call, and the state it leaves. -/
def httpAnswer (c : SesCall) (x : HttpChoice) (w : SesWorld) : Except PyErr c.Resp × SesWorld :=
  c.answer x.1 w

section Posted

variable (lib : Libraries)

/-- `_verify_signature`, of whatever JSON value has been posted. -/
def verifyPosted : Json → SesProg Unit
  | .obj payload =>
    verifySignature lib.pyStr lib.host lib.loadCertificate lib.b64decode lib.encode payload
  | _ => .raise (notA "get")

/-- However its calls turn out, `_verify_signature` accepts or raises `SnsVerificationError`. -/
def FailsClosed (w : SesWorld) (payload : Json) : Prop :=
  ∀ o e, (exec httpAnswer (verifyPosted lib payload) o w).1 = some (.error e) →
    e.cls = .exception "SnsVerificationError"

/-- A text that is no certificate, or one whose key can be had for a signature that can be decoded and a
message that can be encoded. -/
structure Usable (payload : List (String × Json)) (signature : Json) (pem : String) : Prop where
  refused : ∀ e, lib.loadCertificate pem = .error e → e.cls = .exception "ValueError"
  loaded : ∀ cert, lib.loadCertificate pem = .ok cert →
    (∃ text decoded, signature = .str text ∧ lib.b64decode text = .ok decoded) ∧
      (∃ canonical, lib.encode (canonicalString lib.pyStr payload) = .ok canonical) ∧
      ∃ key, cert.publicKey = .ok key

/-- An object, and where it has both fields, a URL that is a string, whose host can be told, and if the
host is one of SNS's, a certificate that can be used, whether it is in the cache or at the URL. -/
def Verifiable (w : SesWorld) (payload : Json) : Prop :=
  ∃ fields, payload = .obj fields ∧ ∀ certUrl signature,
    present fields "SigningCertURL" = some certUrl → present fields "Signature" = some signature →
      ∃ url trusted, certUrl = .str url ∧ isTrusted lib.host url = .ok trusted ∧
        (trusted = true → ∀ pem, Pem w url pem → Usable lib fields signature pem)

end Posted

/-! ### The check of a webhook -/

section Signed

variable (hmacSha256 : String → Bytes → Except PyErr Bytes) (loads : Bytes → Except PyErr Json)

/-- The check of `handle_webhook`. -/
def checkSigned (connectionId : String) (opened : OpenedWebhook) (rawBody : Bytes)
    (headers : List (String × String)) : Except PyErr Unit := do
  let signingSecret := (← opened.secretBundle.get? opened.adapter.signingSecretKey).getD (.str "")
  if ← opened.adapter.verifyInboundSignature rawBody headers signingSecret then .ok ()
  else .error ⟨.webhookSignatureError,
    "Signature verification failed for connection " ++ pyRepr connectionId⟩

/-- What `handle_webhook` enqueues is the body of a request that passes. -/
theorem checkWebhook_eq (connectionId : String) (opened : OpenedWebhook) (rawBody : Bytes)
    (headers : List (String × String)) : checkWebhook loads connectionId opened rawBody headers =
      checkSigned connectionId opened rawBody headers >>= fun _ => loads rawBody := by
  unfold checkWebhook checkSigned
  cases opened.secretBundle.get? opened.adapter.signingSecretKey with
  | error e => rfl
  | ok secret =>
    show (opened.adapter.verifyInboundSignature rawBody headers (secret.getD (.str "")) >>= _) =
      (opened.adapter.verifyInboundSignature rawBody headers (secret.getD (.str "")) >>= _) >>= _
    cases opened.adapter.verifyInboundSignature rawBody headers (secret.getD (.str "")) with
    | error e => rfl
    | ok verified => cases verified <;> rfl

/-- The check accepts or ends in `WebhookSignatureError`. -/
def ChecksClosed (connectionId : String) (opened : OpenedWebhook) (rawBody : Bytes)
    (headers : List (String × String)) : Prop :=
  ∀ e, checkSigned connectionId opened rawBody headers = .error e → e.cls = .webhookSignatureError

/-- The bundle is an object, and on one of Meta's channels, where there is a header, it is ASCII, and the
secret is a string that can be encoded. -/
def Comparable (channelType : String) (bundle : Json) (rawBody : Bytes)
    (headers : List (String × String)) : Prop :=
  ∃ fields, bundle = .obj fields ∧ (channelType ≠ "email" → ∀ received,
    getHeader headers "X-Hub-Signature-256" = some received → received ≠ "" →
      isAscii received = true ∧ ∃ secret digest,
        (fields.lookup "app_secret").getD (.str "") = .str secret ∧
          hmacSha256 secret rawBody = .ok digest)

end Signed

/-! ### The certificate and the signature -/

section Certificate

variable {lib : Libraries} {payload : List (String × Json)} {signature : Json} {pem : String}

/-- A step that can only fail with another exception has to succeed. -/
theorem closed_bind_iff {α : Type} {cls : ErrClass} {x : Except PyErr α} {f : α → Except PyErr Unit}
    (halien : ∀ e, x = .error e → e.cls ≠ cls) :
    (∀ e, (x >>= f) = .error e → e.cls = cls) ↔
      ∃ a, x = .ok a ∧ ∀ e, f a = .error e → e.cls = cls := by
  cases x with
  | error e =>
    refine iff_of_false (fun h => halien e rfl (h e rfl)) ?_
    rintro ⟨a, ha, -⟩
    cases ha
  | ok a =>
    refine ⟨fun h => ⟨a, rfl, h⟩, ?_⟩
    rintro ⟨a', ha, h⟩
    cases ha
    exact h

/-- A key says yes, or the signature is refused. -/
theorem cls_of_refused {accepted : Bool} {text : String} {e : PyErr}
    (h : (if accepted then .ok () else .error (snsVerificationError text) : Except PyErr Unit) =
      .error e) : e.cls = .exception "SnsVerificationError" := by
  split at h
  · cases h
  · cases h
    rfl

/-- The steps that follow the certificate, of which only the last is guarded. -/
theorem checkSignature_closed_iff {cert : Certificate} (hcert : lib.loadCertificate pem = .ok cert) :
    (∀ e, checkSignature lib.pyStr lib.b64decode lib.encode payload signature cert = .error e →
      e.cls = .exception "SnsVerificationError") ↔
    (∃ text decoded, signature = .str text ∧ lib.b64decode text = .ok decoded) ∧
      (∃ canonical, lib.encode (canonicalString lib.pyStr payload) = .ok canonical) ∧
      ∃ key, cert.publicKey = .ok key := by
  cases signature with
  | str text =>
    refine (closed_bind_iff fun e he => (lib.alien_b64decode text e he).1).trans ?_
    constructor
    · rintro ⟨decoded, hdecoded, h⟩
      obtain ⟨canonical, hcanonical, h⟩ :=
        (closed_bind_iff fun e he => (lib.alien_encode _ e he).1).mp h
      obtain ⟨key, hkey, -⟩ :=
        (closed_bind_iff fun e he => (lib.alien_publicKey pem cert e hcert he).1).mp h
      exact ⟨⟨text, decoded, rfl, hdecoded⟩, ⟨canonical, hcanonical⟩, key, hkey⟩
    · rintro ⟨⟨text', decoded, htext, hdecoded⟩, ⟨canonical, hcanonical⟩, key, hkey⟩
      obtain rfl := Json.str.inj htext
      refine ⟨decoded, hdecoded, ?_⟩
      refine (closed_bind_iff fun e he => (lib.alien_encode _ e he).1).mpr ⟨canonical, hcanonical, ?_⟩
      refine (closed_bind_iff fun e he => (lib.alien_publicKey pem cert e hcert he).1).mpr
        ⟨key, hkey, fun e he => ?_⟩
      cases key with
      | none => cases he; rfl
      | some verify => exact cls_of_refused he
  | _ =>
    refine iff_of_false (fun h => ?_) ?_
    · exact absurd (h _ rfl) (by decide)
    · rintro ⟨⟨text, decoded, htext, -⟩, -⟩
      cases htext

/-- The steps that follow the text of the certificate. -/
theorem usable_iff : (∀ e, (parseCertificate lib.loadCertificate pem >>=
      checkSignature lib.pyStr lib.b64decode lib.encode payload signature) = .error e →
        e.cls = .exception "SnsVerificationError") ↔ Usable lib payload signature pem := by
  unfold parseCertificate
  cases hcert : lib.loadCertificate pem with
  | ok cert =>
    refine (checkSignature_closed_iff hcert).trans ⟨fun h => ⟨?_, ?_⟩, fun h => h.loaded cert hcert⟩
    · intro e he
      rw [hcert] at he
      cases he
    · intro cert' hcert'
      rw [hcert] at hcert'
      cases hcert'
      exact h
  | error e =>
    have halien := lib.alien_loadCertificate pem e hcert
    by_cases hvalue : e.cls = .exception "ValueError"
    · refine iff_of_true ?_ ⟨?_, ?_⟩
      · intro e' he'
        dsimp only at he'
        rw [hvalue] at he'
        cases he'
        rfl
      · intro e' he'
        rw [hcert] at he'
        cases he'
        exact hvalue
      · intro cert' hcert'
        rw [hcert] at hcert'
        cases hcert'
    · refine iff_of_false (fun h => halien.1 (h e ?_)) fun h => hvalue (h.refused e hcert)
      dsimp only
      split
      · next h => exact absurd h hvalue
      · rfl

end Certificate

/-! ### A run of `_verify_signature` -/

section Run

variable {lib : Libraries} {fields : List (String × Json)} {url : String} {signature : Json}

/-- What is left once the host is trusted. -/
theorem verifyPosted_trusted (hurl : present fields "SigningCertURL" = some (.str url))
    (hsignature : present fields "Signature" = some signature)
    (htrusted : isTrusted lib.host url = .ok true) :
    verifyPosted lib (.obj fields) = (readCertificate url).bind fun pem =>
      Proc.ofExcept (parseCertificate lib.loadCertificate pem >>=
        checkSignature lib.pyStr lib.b64decode lib.encode fields signature) := by
  have hfetch : fetchSigningCert lib.host lib.loadCertificate url =
      (readCertificate url).bind fun pem =>
        Proc.ofExcept (parseCertificate lib.loadCertificate pem) := by
    rw [fetchSigningCert, htrusted]
    rfl
  rw [verifyPosted, verifySignature, hurl, hsignature]
  show (fetchSigningCert lib.host lib.loadCertificate url).bind _ = _
  rw [hfetch, bind_assoc]
  refine congrArg _ (funext fun pem => ?_)
  cases parseCertificate lib.loadCertificate pem <;> rfl

theorem cls_of_httpGet {x : HttpChoice} {w : SesWorld} {e : PyErr}
    (h : (httpAnswer (.httpGet url) x w).1 = .error e) : e.cls = .exception "HTTPError" := by
  obtain ⟨x, hx⟩ := x
  rw [httpAnswer, SesCall.answer] at h
  unfold HttpFate at hx
  split at h
  · cases hfate : x.fate with
    | ok => rw [hfate] at h; cases h
    | lost e' => rw [hfate] at h hx; cases h; exact hx
    | late e' => rw [hfate] at h hx; cases h; exact hx
  · rw [Core.Fate.settle_error] at h
    cases h
    cases hfate : x.fate with
    | ok => rfl
    | lost e' | late e' => rw [hfate] at hx; exact hx

/-- The text of the certificate is in the cache or at the URL, and where it cannot be had the failure is
that of the verification. -/
theorem wp_readCertificate_typed (url : String) (w : SesWorld) :
    (solo httpAnswer).wp (readCertificate url) w fun r _ =>
      (∀ pem, r = .ok pem → Pem w url pem) ∧
        ∀ e, r = .error e → e.cls = .exception "SnsVerificationError" := by
  refine wp_bind (wp_solo_perform fun x => ?_)
  have hserved : (httpAnswer (.certCacheGet url) x w).2.served = w.served := by
    rw [httpAnswer, SesCall.answer]
    split
    · rfl
    · split <;> rfl
  cases hfound : (httpAnswer (.certCacheGet url) x w).1 with
  | error e =>
    rw [httpAnswer, SesCall.answer] at hfound
    split at hfound
    · cases hfound
    · split at hfound <;> cases hfound
  | ok found =>
    cases found with
    | some pem =>
      refine ⟨fun pem' h => ?_, fun e h => by cases h⟩
      cases h
      exact pem_of_certCacheGet hfound
    | none =>
      generalize (httpAnswer (.certCacheGet url) x w).2 = w₁ at hserved
      refine wp_bind (wp_handle (wp_solo_perform fun x₁ => ?_))
      cases hget : (httpAnswer (.httpGet url) x₁ w₁).1 with
      | ok pem =>
        refine wp_bind (wp_solo_perform fun x₂ => ?_)
        refine ⟨fun pem' h => ?_, fun e h => by cases h⟩
        cases h
        exact .inr (hserved ▸ served_of_httpGet hget)
      | error e =>
        have hhttp : e.cls = .exception "HTTPError" := cls_of_httpGet hget
        show (solo httpAnswer).wp _ _ _
        dsimp only
        rw [hhttp]
        refine ⟨fun pem h => (by cases h), fun e' he' => ?_⟩
        cases he'
        rfl

theorem exec_ofExcept {α : Type} (x : Except PyErr α) (o : Oracle HttpChoice) (w : SesWorld) :
    exec httpAnswer (Proc.ofExcept x) o w = (some x, w) := by
  cases x <;> rfl

/-- A call that goes through is one of those that the environment may decide. -/
def Smooth.http (x : Smooth) : HttpChoice := ⟨x.1, by rw [HttpFate, x.2]; trivial⟩

/-- Where the host is trusted, each text that can be read has to be usable. -/
theorem failsClosed_trusted_iff (hurl : present fields "SigningCertURL" = some (.str url))
    (hsignature : present fields "Signature" = some signature)
    (htrusted : isTrusted lib.host url = .ok true) (w : SesWorld) :
    FailsClosed lib w (.obj fields) ↔ ∀ pem, Pem w url pem → Usable lib fields signature pem := by
  have hprogram := verifyPosted_trusted hurl hsignature htrusted
  constructor
  · intro h pem hpem
    obtain ⟨w', hread, -⟩ := yields_readCertificate hpem
    have hread : Yields httpAnswer (readCertificate url) w pem w' := hread.of_choice Smooth.http
    refine usable_iff.mp fun e he => ?_
    obtain ⟨o, ho⟩ := hread.exec_bind (fun pem => Proc.ofExcept (parseCertificate lib.loadCertificate pem
      >>= checkSignature lib.pyStr lib.b64decode lib.encode fields signature)) fun _ => none
    refine h o e ?_
    rw [hprogram, ho, exec_ofExcept, he]
  · intro h o e he
    have hwp : (solo httpAnswer).wp (verifyPosted lib (.obj fields)) w fun r _ =>
        ∀ e, r = .error e → e.cls = .exception "SnsVerificationError" := by
      rw [hprogram]
      refine wp_bind (wp_mono ?_ (wp_readCertificate_typed url w))
      rintro r w' ⟨hpem, htyped⟩
      cases r with
      | error e =>
        intro e' he'
        cases he'
        exact htyped e rfl
      | ok pem => exact wp_ofExcept.mpr (usable_iff.mpr (h pem (hpem pem rfl)))
    exact exec_solo hwp (Prod.ext he rfl) e rfl

/-- A run that ends at once in an exception. -/
theorem failsClosed_raise_iff {payload : Json} {e : PyErr} (h : verifyPosted lib payload = .raise e)
    (w : SesWorld) : FailsClosed lib w payload ↔ e.cls = .exception "SnsVerificationError" := by
  unfold FailsClosed
  rw [h]
  refine ⟨fun h => h (fun _ => none) e rfl, fun h o e' he' => ?_⟩
  cases he'
  exact h

theorem alien_isTrusted {e : PyErr} (h : isTrusted lib.host url = .error e) : Alien e := by
  unfold isTrusted at h
  split at h
  · cases hhost : lib.host url with
    | error e' =>
      rw [hhost] at h
      cases h
      exact lib.alien_host url e hhost
    | ok name =>
      rw [hhost] at h
      cases h
  · cases h

/-- Where both fields are there, and the URL is a string. -/
theorem failsClosed_str_iff (hurl : present fields "SigningCertURL" = some (.str url))
    (hsignature : present fields "Signature" = some signature) (w : SesWorld) :
    FailsClosed lib w (.obj fields) ↔ ∃ trusted, isTrusted lib.host url = .ok trusted ∧
      (trusted = true → ∀ pem, Pem w url pem → Usable lib fields signature pem) := by
  cases htrusted : isTrusted lib.host url with
  | error e =>
    have hraise : verifyPosted lib (.obj fields) = .raise e := by
      rw [verifyPosted, verifySignature, hurl, hsignature]
      dsimp only
      rw [fetchSigningCert, htrusted]
      rfl
    refine (failsClosed_raise_iff hraise w).trans (iff_of_false (alien_isTrusted htrusted).1 ?_)
    rintro ⟨trusted, hok, -⟩
    cases hok
  | ok trusted =>
    cases trusted with
    | false =>
      have hraise : verifyPosted lib (.obj fields) = .raise (snsVerificationError
          ("Refusing to fetch signing cert from untrusted host: " ++ url)) := by
        rw [verifyPosted, verifySignature, hurl, hsignature]
        dsimp only
        rw [fetchSigningCert, htrusted]
        rfl
      exact (failsClosed_raise_iff hraise w).trans (iff_of_true rfl ⟨false, rfl, nofun⟩)
    | true =>
      refine (failsClosed_trusted_iff hurl hsignature htrusted w).trans ?_
      constructor
      · exact fun h => ⟨true, rfl, fun _ => h⟩
      · rintro ⟨trusted, hok, h⟩
        cases hok
        exact h rfl

/-- Where both fields are there. -/
theorem verifiable_iff {certUrl : Json} (hurl : present fields "SigningCertURL" = some certUrl)
    (hsignature : present fields "Signature" = some signature) (w : SesWorld) :
    Verifiable lib w (.obj fields) ↔
      ∃ url trusted, certUrl = .str url ∧ isTrusted lib.host url = .ok trusted ∧
        (trusted = true → ∀ pem, Pem w url pem → Usable lib fields signature pem) := by
  constructor
  · rintro ⟨fields', hfields, h⟩
    cases hfields
    exact h certUrl signature hurl hsignature
  · intro h
    refine ⟨fields, rfl, fun certUrl' signature' hurl' hsignature' => ?_⟩
    rw [hurl] at hurl'
    rw [hsignature] at hsignature'
    cases hurl'
    cases hsignature'
    exact h

/-- Where one of the fields is missing or false, the request is refused. -/
theorem failsClosed_missing
    (h : present fields "SigningCertURL" = none ∨ present fields "Signature" = none)
    (w : SesWorld) : FailsClosed lib w (.obj fields) := by
  have hmissing : verifyPosted lib (.obj fields) =
      .raise (snsVerificationError "Missing SigningCertURL/Signature") := by
    rw [verifyPosted, verifySignature]
    split
    · next hurl hsignature =>
      rw [hurl, hsignature] at h
      rcases h with h | h <;> cases h
    · rfl
  exact (failsClosed_raise_iff hmissing w).mpr rfl

/-- What `_verify_signature` takes to fail closed. -/
theorem failsClosed_iff_verifiable (w : SesWorld) (payload : Json) :
    FailsClosed lib w payload ↔ Verifiable lib w payload := by
  cases payload with
  | obj fields =>
    cases hurl : present fields "SigningCertURL" with
    | none =>
      refine iff_of_true (failsClosed_missing (.inl hurl) w) ⟨fields, rfl, ?_⟩
      rw [hurl]
      exact nofun
    | some certUrl =>
      cases hsignature : present fields "Signature" with
      | none =>
        refine iff_of_true (failsClosed_missing (.inr hsignature) w) ⟨fields, rfl, ?_⟩
        rw [hsignature]
        exact nofun
      | some signature =>
        rw [verifiable_iff hurl hsignature]
        cases certUrl with
        | str url =>
          rw [failsClosed_str_iff hurl hsignature]
          constructor
          · rintro ⟨trusted, h⟩
            exact ⟨url, trusted, rfl, h⟩
          · rintro ⟨url', trusted, hsame, h⟩
            cases hsame
            exact ⟨trusted, h⟩
        | _ =>
          have hraise : verifyPosted lib (.obj fields) = .raise (notA "startswith") := by
            rw [verifyPosted, verifySignature, hurl, hsignature]
          refine (failsClosed_raise_iff hraise w).trans (iff_of_false (by decide) ?_)
          rintro ⟨url, trusted, hsame, -⟩
          cases hsame
  | _ =>
    refine (failsClosed_raise_iff rfl w).trans (iff_of_false (by decide) ?_)
    rintro ⟨fields, hfields, -⟩
    cases hfields

/-- The endpoint, by the verification of what has been posted. -/
theorem sesNotifications_eq (lib : Libraries) (loads : Bytes → Except PyErr Json)
    (loadsStr : String → Except PyErr Json) (rawBody : Bytes) :
    sesNotifications loads loadsStr lib.pyStr lib.host lib.loadCertificate lib.b64decode lib.encode
        rawBody =
      (Proc.ofExcept (loads rawBody)).bind fun body =>
        ((verifyPosted lib body).handle (refuse "403" "Signature verification failed")).bind fun _ =>
          match body with
          | .obj payload => dispatch loadsStr lib.host payload
          | _ => .ret () := by
  unfold sesNotifications
  refine congrArg _ (funext fun body => ?_)
  cases body <;> rfl

end Run

/-! ### Both verifiers -/

section Both

variable {lib : Libraries}

theorem cls_of_get? {bundle : Json} {key : String} {e : PyErr} (h : bundle.get? key = .error e) :
    e.cls = .attributeError := by
  cases bundle with
  | obj fields => cases h
  | _ =>
    cases h
    rfl

/-- Meta's check says yes or no exactly where there is nothing to compare, or it can be compared. -/
theorem verifyMetaSignature_ok_iff (rawBody : Bytes) (headers : List (String × String))
    (secret : Json) :
    (∃ verified, verifyMetaSignature lib.hmacSha256 rawBody headers secret = .ok verified) ↔
      ∀ received, getHeader headers "X-Hub-Signature-256" = some received → received ≠ "" →
        isAscii received = true ∧ ∃ s digest, secret = .str s ∧
          lib.hmacSha256 s rawBody = .ok digest := by
  unfold verifyMetaSignature
  split
  · next hnone =>
    rw [hnone]
    exact iff_of_true ⟨false, rfl⟩ nofun
  · next hempty =>
    rw [hempty]
    refine iff_of_true ⟨false, rfl⟩ fun received hreceived hne => ?_
    cases hreceived
    exact absurd rfl hne
  · next received hne hreceived =>
    rw [hreceived]
    constructor
    · rintro ⟨verified, h⟩ received' hsame -
      cases hsame
      obtain ⟨expected, hexpected, hcompare⟩ := bind_eq_ok.mp h
      have hascii : isAscii received = true := by
        unfold compareDigest at hcompare
        split at hcompare
        · next hboth => exact (Bool.and_eq_true_iff.mp hboth).1
        · cases hcompare
      cases secret with
      | str s =>
        have hsignature : signature lib.hmacSha256 rawBody s = .ok expected := hexpected
        unfold signature at hsignature
        cases hdigest : lib.hmacSha256 s rawBody with
        | error e =>
          rw [hdigest] at hsignature
          cases hsignature
        | ok digest => exact ⟨hascii, s, digest, rfl, hdigest⟩
      | _ => cases hexpected
    · intro h
      obtain ⟨hascii, s, digest, rfl, hdigest⟩ := h received rfl hne
      have hsignature : signature lib.hmacSha256 rawBody s = .ok ("sha256=" ++ hexdigest digest) := by
        rw [signature, hdigest]
        rfl
      refine ⟨received == "sha256=" ++ hexdigest digest, bind_eq_ok.mpr ⟨_, hsignature, ?_⟩⟩
      rw [compareDigest, hascii, isAscii_signature hsignature]
      rfl

/-- Meta's check raises nothing that is the application's. -/
theorem cls_of_verifyMetaSignature {rawBody : Bytes} {headers : List (String × String)} {secret : Json}
    {e : PyErr} (h : verifyMetaSignature lib.hmacSha256 rawBody headers secret = .error e) :
    e.cls ≠ .webhookSignatureError := by
  unfold verifyMetaSignature at h
  split at h
  · cases h
  · cases h
  · next received _ _ =>
    cases hexpected : computeSignature lib.hmacSha256 rawBody secret with
    | ok expected =>
      rw [hexpected] at h
      have hcompare : compareDigest received expected = .error e := h
      unfold compareDigest at hcompare
      split at hcompare <;> cases hcompare
      decide
    | error e' =>
      rw [hexpected] at h
      cases h
      cases secret with
      | str s =>
        have hsignature : signature lib.hmacSha256 rawBody s = .error e := hexpected
        unfold signature at hsignature
        cases hdigest : lib.hmacSha256 s rawBody with
        | error e' =>
          rw [hdigest] at hsignature
          cases hsignature
          exact (lib.alien_hmacSha256 s rawBody e hdigest).2
        | ok digest =>
          rw [hdigest] at hsignature
          cases hsignature
      | _ =>
        cases hexpected
        decide

/-- The check fails closed where the bundle is an object and the adapter says yes or no. -/
theorem checksClosed_iff_answers {channelType : String} {opened : OpenedWebhook}
    (hadapter : webhookAdapters lib.hmacSha256 channelType = some opened.adapter)
    (connectionId : String) (rawBody : Bytes) (headers : List (String × String)) :
    ChecksClosed connectionId opened rawBody headers ↔
      ∃ fields, opened.secretBundle = .obj fields ∧ ∃ verified,
        opened.adapter.verifyInboundSignature rawBody headers
          ((fields.lookup opened.adapter.signingSecretKey).getD (.str "")) = .ok verified := by
  have hget : ∀ e, opened.secretBundle.get? opened.adapter.signingSecretKey = .error e →
      e.cls ≠ .webhookSignatureError := by
    intro e he
    rw [cls_of_get? he]
    decide
  have hverify : ∀ secret e, opened.adapter.verifyInboundSignature rawBody headers secret = .error e →
      e.cls ≠ .webhookSignatureError := by
    intro secret e he
    rcases webhookAdapters_cases lib.hmacSha256 hadapter with ⟨-, hsame⟩ | ⟨-, hsame⟩
    · rw [hsame] at he
      cases he
    · rw [hsame] at he
      exact cls_of_verifyMetaSignature he
  refine (closed_bind_iff hget).trans ?_
  constructor
  · rintro ⟨secret, hsecret, h⟩
    obtain ⟨verified, hverified, -⟩ := (closed_bind_iff fun e he => hverify _ e he).mp h
    cases hbundle : opened.secretBundle with
    | obj fields =>
      rw [hbundle] at hsecret
      cases hsecret
      exact ⟨fields, rfl, verified, hverified⟩
    | _ =>
      rw [hbundle] at hsecret
      cases hsecret
  · rintro ⟨fields, hbundle, verified, hverified⟩
    rw [hbundle]
    refine ⟨_, rfl, (closed_bind_iff fun e he => hverify _ e he).mpr ⟨verified, hverified, ?_⟩⟩
    intro e he
    split at he
    · cases he
    · cases he
      rfl

/-- What the check of a webhook takes to fail closed. -/
theorem checksClosed_iff_comparable {channelType : String} {opened : OpenedWebhook}
    (hadapter : webhookAdapters lib.hmacSha256 channelType = some opened.adapter)
    (connectionId : String) (rawBody : Bytes) (headers : List (String × String)) :
    ChecksClosed connectionId opened rawBody headers ↔
      Comparable lib.hmacSha256 channelType opened.secretBundle rawBody headers := by
  rw [checksClosed_iff_answers hadapter, Comparable]
  refine exists_congr fun fields => and_congr_right fun _ => ?_
  rcases webhookAdapters_cases lib.hmacSha256 hadapter with ⟨hemail, hsame⟩ | ⟨hother, hsame⟩
  · rw [hsame]
    exact iff_of_true ⟨true, rfl⟩ fun h => absurd hemail h
  · rw [hsame]
    refine (verifyMetaSignature_ok_iff rawBody headers _).trans ?_
    exact ⟨fun h _ => h, fun h => h hother⟩

end Both

/-- **When verification fails closed.** `_verify_signature` accepts or raises its own exception, however
its calls turn out, exactly where the posted value is an object and, if it names a certificate and a
signature, each step that is not guarded goes well. The check of a webhook does, exactly where the bundle
is an object and there is nothing to compare or it can be compared. -/
theorem failsClosed_iff (lib : Libraries) :
    (∀ w payload, FailsClosed lib w payload ↔ Verifiable lib w payload) ∧
    ∀ channelType opened, webhookAdapters lib.hmacSha256 channelType = some opened.adapter →
      ∀ connectionId rawBody headers, ChecksClosed connectionId opened rawBody headers ↔
        Comparable lib.hmacSha256 channelType opened.secretBundle rawBody headers :=
  ⟨failsClosed_iff_verifiable, fun _ _ hadapter => checksClosed_iff_comparable hadapter⟩

/-! ### A list, and a header that is not ASCII -/

/-- Libraries that take everything. -/
def plainLibraries : Libraries where
  pyStr := strOfStr
  host _ := .ok "sns.us-east-1.amazonaws.com"
  loadCertificate _ := .ok snsCertificate
  b64decode _ := .ok [1]
  encode := strictUtf8
  hmacSha256 _ _ := .ok []
  alien_host := nofun
  alien_loadCertificate := nofun
  alien_publicKey := by
    rintro pem cert e h hkey
    cases h
    cases hkey
  alien_b64decode := nofun
  alien_encode := nofun
  alien_hmacSha256 := nofun

/-- A WhatsApp connection's request, with its secret. -/
def openedWhatsapp : OpenedWebhook where
  connection := newConnection "org" "c1" "c1" (registration [])
  adapter := metaGraphAdapter plainLibraries.hmacSha256
  secretBundle := .obj [("app_secret", .str "secret")]

theorem getHeader_signature (value : String) :
    getHeader [("X-Hub-Signature-256", value)] "X-Hub-Signature-256" = some value :=
  getHeader_singleton rfl

/-- The certificate that a notification names can be used. -/
theorem usable_foreign (pem : String) :
    Usable plainLibraries foreignPayload (.str "AQ==") pem where
  refused _ h := by cases h
  loaded cert h := by
    cases h
    exact ⟨⟨"AQ==", [1], rfl, rfl⟩, ⟨_, rfl⟩, _, rfl⟩

/-- A notification of another topic is accepted or refused, whether or not its certificate can be
fetched, and a wrong signature of a webhook is refused. -/
theorem failsClosed_plain : FailsClosed plainLibraries notifiedWorld (.obj foreignPayload) ∧
    ChecksClosed "c1" openedWhatsapp [] [("X-Hub-Signature-256", "sha256=00")] := by
  obtain ⟨hposted, hchecked⟩ := failsClosed_iff plainLibraries
  constructor
  · refine (hposted _ _).mpr ⟨foreignPayload, rfl, fun certUrl signature hurl hsignature => ?_⟩
    obtain rfl : Json.str "https://sns.us-east-1.amazonaws.com/cert.pem" = certUrl :=
      Option.some.inj hurl
    obtain rfl : Json.str "AQ==" = signature := Option.some.inj hsignature
    exact ⟨_, true, rfl, by decide +kernel, fun _ pem _ => usable_foreign pem⟩
  · refine (hchecked "whatsapp" openedWhatsapp rfl _ _ _).mpr ?_
    refine ⟨[("app_secret", .str "secret")], rfl, fun _ received hreceived _ => ?_⟩
    rw [getHeader_signature] at hreceived
    obtain rfl := Option.some.inj hreceived
    exact ⟨by decide, "secret", [], rfl, rfl⟩

/-- A list has no `get`, and a header that is not ASCII cannot be compared. -/
theorem not_failsClosed :
    (¬∀ (lib : Libraries) w payload, FailsClosed lib w payload) ∧
    ¬∀ (lib : Libraries) channelType opened,
      webhookAdapters lib.hmacSha256 channelType = some opened.adapter →
        ∀ connectionId rawBody headers, ChecksClosed connectionId opened rawBody headers := by
  refine ⟨fun h => ?_, fun h => ?_⟩
  · have hcls := h plainLibraries notifiedWorld (.arr []) (fun _ => none) (notA "get") rfl
    exact absurd hcls (by decide)
  · have hcls := h plainLibraries "whatsapp" openedWhatsapp rfl "c1" []
      [("X-Hub-Signature-256", "sha256=é")]
      ⟨.typeError, "comparing strings with non-ASCII characters is not supported"⟩ ?_
    · exact absurd hcls (by decide)
    · have hverify : verifyMetaSignature plainLibraries.hmacSha256 []
          [("X-Hub-Signature-256", "sha256=é")] (.str "secret") =
            .error ⟨.typeError, "comparing strings with non-ASCII characters is not supported"⟩ := by
        rw [verifyMetaSignature, getHeader_signature]
        rfl
      show (verifyMetaSignature plainLibraries.hmacSha256 [] [("X-Hub-Signature-256", "sha256=é")]
        (.str "secret") >>= _) = _
      rw [hverify]
      rfl

end A2ZCore.Omnichannel
