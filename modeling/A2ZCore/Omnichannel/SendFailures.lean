import A2ZCore.Core.Email
import A2ZCore.Core.SesNotifications
import A2ZCore.Omnichannel.Adapters

/-!
# How sending fails

`send_outbound` of each registered adapter, down to the HTTP request or to `core.email`. The worker
retries and gives up on `ChannelAdapterError` only, so that each adapter turns what may go wrong into
that error: the Graph API adapters the errors of `httpx` and a response of another shape, the email
adapter the errors of Core. What is outside of these escapes.

## Main definitions

* `SendCall`, `SendCall.answer` — the HTTP request, and Core's calls
* `postGraphApi`, `extractSendId`, `sendGraph`, `sendMail` — the adapters' parts
* `RegisteredAdapter`, `RegisteredAdapter.sendOutbound`
* `Contained` — a call ends in a way that the adapter is prepared for

## Main results

* `uniform_iff_contained` — the only error is `ChannelAdapterError` exactly when each call is contained
-/

namespace A2ZCore.Omnichannel

open Interaction Interaction.Proc

/-! ### The calls -/

/-- `types.OutboundAttachment`. -/
structure OutboundAttachment where
  filename : String
  contentType : String
  content : Bytes

/-- `types.OutboundContent`, with the fields that only the email adapter reads. -/
structure FullContent extends OutboundContent where
  bodyHtml : Option String
  attachments : List OutboundAttachment

/-- `types.SendResult`. -/
structure SendResult where
  externalMessageId : String
  status : String

/-- A response of the Graph API. -/
structure HttpResponse where
  status : ℕ
  body : Bytes

/-- What the environment decides at a call. -/
structure SendChoice extends Core.Choice where
  response : HttpResponse

/-- The calls of the adapters. -/
inductive SendCall where
  | core (c : Core.Call)
  /-- `get_item` with a key that is not a string. -/
  | getSettingsItemAt (key : Json)
  | post (url : String) (headers : List (String × String)) (payload : Json)

/-- What a call replies. -/
def SendCall.Resp : SendCall → Type
  | core c => c.Resp
  | getSettingsItemAt _ => Empty
  | post _ _ _ => HttpResponse

/-- The reply to a call and the state it leaves. -/
def SendCall.answer (c : SendCall) (x : SendChoice) (w : Core.World) :
    Except PyErr c.Resp × Core.World :=
  match c with
  | .core c => c.answer x.toChoice w
  | .getSettingsItemAt key => match Core.toValue key with
    | .error e => (.error e, w)
    | .ok _ => (.error Core.validationException, w)
  | .post _ _ _ => x.fate.settle (.ok (x.response, w)) w

/-- A program of the adapters. -/
abbrev SendProg := Proc SendCall SendCall.Resp PyErr

/-- One call. -/
def sendRun (c : SendCall) : SendProg c.Resp := Proc.perform c

/-! ### Classes of errors -/

/-- The class is `httpx.HTTPError`, or derives from it. -/
def isHttpError : ErrClass → Bool
  | .exception name => name ∈ ["HTTPError", "RequestError", "TransportError", "TimeoutException",
      "ConnectTimeout", "ReadTimeout", "WriteTimeout", "PoolTimeout", "NetworkError", "ConnectError",
      "ReadError", "WriteError", "CloseError", "ProxyError", "UnsupportedProtocol", "ProtocolError",
      "LocalProtocolError", "RemoteProtocolError", "DecodingError", "TooManyRedirects",
      "HTTPStatusError"]
  | _ => false

/-- The class is `CoreError`, or derives from it. -/
def isCoreError : ErrClass → Bool
  | .clientError _ | .botoCoreError | .integrityError | .dbApiError | .multipleResultsFound
  | .keyError | .typeError | .attributeError | .invalidOperation | .decimalOverflow
  | .validationError => false
  | .exception name => name ∈ ["CoreError", "AuthError", "InvalidTokenError", "MissingTokenError",
      "MembershipError", "AlreadyExistsError", "StorageNotFoundError", "SecretsError",
      "RealtimeError", "InvoicingError", "OmniChannelError", "RoutingError", "CommissionError",
      "ConnectionValidationError"]
  | _ => true

/-! ### The Graph API -/

/-- A key of a path into a response. -/
inductive PathKey where
  | field (name : String)
  | index (n : ℕ)

/-- `value[key]`. A key that is missing, or of the wrong kind, raises one of the three errors that
`extract_send_id` catches. -/
def PathKey.get? : PathKey → Json → Option Json
  | field name, .obj fields => fields.lookup name
  | index n, .arr items => items[n]?
  | index n, .str s => (s.toList[n]?).map fun c => .str c.toString
  | _, _ => none

/-- `_meta.GRAPH_API_BASE`. -/
def graphApiBase : String := "https://graph.facebook.com/v20.0"

/-- `credentials.get(key)`, where it is truthy. -/
def credential (credentials : List (String × Json)) (key : String) : Option Json :=
  (credentials.lookup key).filter Json.truthy

/-- A string, where it is truthy. -/
def truthyText (s : Option String) : Option String := s.filter (· != "")

section Meta

-- `json.loads` of a body, `str(v)`, `repr(v)`, and the text of an `HTTPStatusError`
variable (loads : Bytes → Except PyErr Json) (pyStr pyReprJson : Json → String)
  (statusText : String → ℕ → String)

/-- `_meta.post_graph_api`. -/
def postGraphApi (url : String) (headers : List (String × String)) (payload : Json) :
    SendProg Json := do
  let resp ← sendRun (.post url headers payload)
  if 200 ≤ HttpResponse.status resp ∧ HttpResponse.status resp < 300 then
    Proc.ofExcept (loads (HttpResponse.body resp))
  else .raise ⟨.exception "HTTPStatusError", statusText url (HttpResponse.status resp)⟩

/-- `_meta.extract_send_id`. -/
def extractSendId (data : Json) (path : List PathKey) (channel : String) : Except PyErr String :=
  match path.foldlM (fun value key => key.get? value) data with
  | some (.str value) => .ok value
  | _ => .error ⟨.channelAdapterError,
      "unexpected Graph API response shape for " ++ channel ++ ": " ++ pyReprJson data⟩

/-- What the adapters of the Graph API differ in. -/
structure GraphChannel where
  channel : String
  accessTokenKey : String
  accountIdKey : String
  textOnly : String
  payload : (recipient bodyText : String) → Json
  path : List PathKey

/-- `send_outbound` of an adapter of the Graph API. -/
def sendGraph (g : GraphChannel) (recipient : String) (content : FullContent)
    (credentials : List (String × Json)) : SendProg SendResult :=
  match credential credentials "org_id", credential credentials g.accessTokenKey,
    credential credentials g.accountIdKey with
  | some _, some accessToken, some accountId =>
    match truthyText content.bodyText with
    | none => .raise ⟨.channelAdapterError, g.textOnly⟩
    | some bodyText => do
      let url := graphApiBase ++ "/" ++ pyStr accountId ++ "/messages"
      let headers := [("Authorization", "Bearer " ++ pyStr accessToken)]
      let data ← try postGraphApi loads statusText url headers (g.payload recipient bodyText)
        catch exc =>
          if isHttpError exc.cls then
            .raise ⟨.channelAdapterError, g.channel ++ " send failed: " ++ exc.text⟩
          else throw exc
      let messageId ← Proc.ofExcept (extractSendId pyReprJson data g.path g.channel)
      return ⟨messageId, "sent"⟩
  | _, _, _ => .raise ⟨.channelAdapterError, "send_outbound requires org_id, " ++ g.accessTokenKey ++
      ", and " ++ g.accountIdKey ++ " in credentials"⟩

/-- `WhatsAppAdapter`. -/
def whatsApp : GraphChannel where
  channel := "WhatsApp"
  accessTokenKey := "access_token"
  accountIdKey := "phone_number_id"
  textOnly := "WhatsApp v1 supports text-only outbound (templates deferred, §15); " ++
    "content.body_text is required"
  payload recipient bodyText := .obj [("messaging_product", .str "whatsapp"), ("to", .str recipient),
    ("type", .str "text"), ("text", .obj [("body", .str bodyText)])]
  path := [.field "messages", .index 0, .field "id"]

/-- `MessengerPlatformAdapter`. -/
def messengerPlatform (accountIdKey : String) : GraphChannel where
  channel := "Messenger"
  accessTokenKey := "page_access_token"
  accountIdKey := accountIdKey
  textOnly := "Messenger v1 supports text-only outbound (message tags deferred, §15); " ++
    "content.body_text is required"
  payload recipient bodyText := .obj [("messaging_type", .str "RESPONSE"),
    ("recipient", .obj [("id", .str recipient)]), ("message", .obj [("text", .str bodyText)])]
  path := [.field "message_id"]

/-! ### Email -/

/-- `send_email` with what the credentials have as the org. An org that is not a string is no key of
the settings table, which is the first to be read. -/
def sendEmailFor (orgId : Json) (recipient : String) (content : FullContent) :
    SendProg Core.EmailResult :=
  match orgId with
  | .str orgId => (Core.sendEmail orgId "omnichannel" recipient (content.subject.getD "")
      (((truthyText content.bodyHtml).or (truthyText content.bodyText)).getD "") content.bodyText
      (content.attachments.map fun a => ⟨a.content, a.filename, a.contentType⟩) none
      (.obj [])).embed SendCall.core fun _ r => r
  | key => do
    Proc.ofExcept (Core.validateAddress recipient)
    let item ← sendRun (.getSettingsItemAt key)
    nomatch (item : Empty)

/-- `EmailAdapter.send_outbound`. -/
def sendMail (recipient : String) (content : FullContent) (credentials : List (String × Json)) :
    SendProg SendResult :=
  match credential credentials "org_id" with
  | none => .raise ⟨.channelAdapterError, "send_outbound requires credentials['org_id']"⟩
  | some orgId => do
    let result ← try sendEmailFor orgId recipient content
      catch exc =>
        if isCoreError exc.cls then
          .raise ⟨.channelAdapterError, "email send failed: " ++ exc.text⟩
        else throw exc
    return ⟨result.messageId, "sent"⟩

/-! ### The registry -/

/-- The adapters of `registry._REGISTRY`. -/
inductive RegisteredAdapter where
  | email
  | whatsapp
  | messenger
  | instagram

/-- `send_outbound`. -/
def RegisteredAdapter.sendOutbound :
    RegisteredAdapter → String → FullContent → List (String × Json) → SendProg SendResult
  | email => sendMail
  | whatsapp => sendGraph loads pyStr pyReprJson statusText whatsApp
  | messenger => sendGraph loads pyStr pyReprJson statusText (messengerPlatform "page_id")
  | instagram => sendGraph loads pyStr pyReprJson statusText (messengerPlatform "ig_id")

/-! ### Contained calls -/

/-- The run has not raised an error other than `ChannelAdapterError`. -/
def Uniform (r : Option (Except PyErr SendResult)) : Prop :=
  ∀ e, r = some (.error e) → e.cls = .channelAdapterError

/-- The class is `ClientError`. -/
def isClientError : ErrClass → Bool
  | .clientError _ => true
  | _ => false

/-- A call of Core ends in a way that `send_email`, or the adapter, is prepared for. -/
def ContainedCore : (c : Core.Call) → Except PyErr c.Resp → Prop
  | .getSettingsItem orgId, .ok item => ∃ org, Core.OrgSettings.ofItem orgId (item.getD []) = .ok org
  | .createConfigurationSet _, .error e | .createEventDestination _ _, .error e
  | .verifyDomainIdentity _, .error e | .sesSend _, .error e =>
    isClientError e.cls ∨ isCoreError e.cls
  | .putAuditItem _, .error _ => True
  | _, .error e => isCoreError e.cls
  | _, .ok _ => True

/-- The error is one of `httpx`, which the adapters of the Graph API turn into theirs. -/
def ContainedHttp (e : PyErr) : Prop := isHttpError e.cls ∨ e.cls = .channelAdapterError

/-- The response is not a success, or its body is JSON. -/
def ContainedResponse (resp : HttpResponse) : Prop :=
  200 ≤ resp.status ∧ resp.status < 300 → ∀ e, loads resp.body = .error e → ContainedHttp e

/-- The call ends in a way that the adapter is prepared for. -/
def Contained (c : SendCall) (x : SendChoice) (w : Core.World) : Prop :=
  match c with
  | .core c => ContainedCore c (c.answer x.toChoice w).1
  | .getSettingsItemAt _ => False
  | .post url headers payload => match ((SendCall.post url headers payload).answer x w).1 with
    | .ok resp => ContainedResponse loads resp
    | .error e => ContainedHttp e

end Meta

/-! ### Email -/

/-- A program of Core raises Core's errors only, but where a call is not contained. -/
abbrev CoreGuards {α : Type} (p : Core.Prog α) : Prop :=
  Guards (fun c (x : SendChoice) w => c.answer x.toChoice w)
    (fun c x w => ContainedCore c (c.answer x.toChoice w).1) (fun e => isCoreError e.cls) p

/-- A call for whose errors `send_email` has no handler, and for whose reply no check. -/
def Bare : Core.Call → Prop
  | .getSettingsItem _ | .createConfigurationSet _ | .createEventDestination _ _
  | .verifyDomainIdentity _ | .sesSend _ | .putAuditItem _ => False
  | _ => True

theorem coreGuards_run {c : Core.Call} (hc : Bare c) : CoreGuards (Core.run c) := by
  refine Guards.perform fun x w => ?_
  generalize (c.answer x.toChoice w).1 = r
  cases c <;> first | exact hc.elim | cases r <;> simp [ContainedCore]

/-- A call for whose `ClientError` there is a handler. -/
theorem coreGuards_handle {c : Core.Call} {f : PyErr → Core.Prog c.Resp}
    (hok : ∀ a, ContainedCore c (.ok a))
    (herror : ∀ e, ContainedCore c (.error e) ↔ isClientError e.cls ∨ isCoreError e.cls)
    (hclient : ∀ e, isClientError e.cls → CoreGuards (f e))
    (hother : ∀ e, ¬isClientError e.cls → f e = .raise e) : CoreGuards ((Core.run c).handle f) := by
  refine Guards.perform_handle (fun x w a ha => ?_) (fun x w e he hΦ => ?_) fun x w e he hΦ => ?_
  · rw [ha]
    exact hok a
  · rw [he, herror] at hΦ
    by_cases hc : isClientError e.cls
    · exact hclient e hc
    · rw [hother e hc]
      exact hΦ.resolve_left hc
  · rw [he, herror, not_or] at hΦ
    exact ⟨e, hother e hΦ.1, hΦ.2⟩

/-- The same for a handler that says what it does by the class of the error. -/
theorem isClientError_iff (cls : ErrClass) : isClientError cls ↔ ∃ code, cls = .clientError code := by
  cases cls <;> simp [isClientError]

theorem cls_of_bind {α β : Type} {cls : ErrClass} {r : Except PyErr α} {f : α → Except PyErr β}
    (hr : ∀ e, r = .error e → e.cls = cls) (hf : ∀ a e, f a = .error e → e.cls = cls) :
    ∀ e, (r >>= f) = .error e → e.cls = cls := by
  intro e he
  cases r with
  | error e' => cases he; exact hr _ rfl
  | ok a => exact hf a e he

/-- Settings that cannot be read are reported by pydantic. -/
theorem cls_of_ofItem {orgId : String} {item : List (String × Json)} :
    ∀ e, Core.OrgSettings.ofItem orgId item = .error e → e.cls = .validationError := by
  have hstr : ∀ field default e, Core.strField item field default = .error e →
      e.cls = .validationError := by
    intro field default e he
    unfold Core.strField at he
    split at he <;> cases he
    rfl
  have hint : ∀ field default e, Core.intField item field default = .error e →
      e.cls = .validationError := by
    intro field default e he
    unfold Core.intField at he
    split at he
    · cases he
    · cases he
    · split at he <;> cases he
      rfl
    · split at he <;> cases he
      rfl
  have hdict : ∀ field e, Core.dictField item field = .error e → e.cls = .validationError := by
    intro field e he
    unfold Core.dictField at he
    split at he <;> cases he
    rfl
  refine cls_of_bind (hstr _ _) fun _ => cls_of_bind (hstr _ _) fun _ => ?_
  refine cls_of_bind (hstr _ _) fun _ => cls_of_bind (hstr _ _) fun _ => ?_
  refine cls_of_bind (hstr _ _) fun _ => cls_of_bind (hint _ _) fun _ => ?_
  refine cls_of_bind (hstr _ _) fun _ => cls_of_bind (hstr _ _) fun _ => ?_
  exact cls_of_bind (hdict _) fun _ _ => nofun

theorem coreGuards_getOrgSettings (orgId : String) : CoreGuards (Core.getOrgSettings orgId) := by
  refine Guards.perform_bind (fun x w item hitem hΦ => ?_) (fun x w item hitem hΦ => ?_)
    fun x w e he => ?_
  · rw [hitem] at hΦ
    obtain ⟨org, horg⟩ := hΦ
    rw [horg]
    trivial
  · rw [hitem] at hΦ
    cases horg : Core.OrgSettings.ofItem orgId (Option.getD item []) with
    | ok org => exact absurd ⟨org, horg⟩ hΦ
    | error e =>
      refine ⟨e, rfl, ?_⟩
      rw [cls_of_ofItem e horg]
      exact Bool.false_ne_true
  · rw [he]
    exact Iff.rfl

theorem coreGuards_ensureEventDestination (configSet : String) :
    CoreGuards (Core.ensureEventDestination configSet) := by
  refine Guards.bind (coreGuards_run trivial) fun config => ?_
  split
  · trivial
  · trivial
  · refine coreGuards_handle (fun _ => trivial) (fun _ => Iff.rfl) (fun e he => ?_) fun e he => ?_
    · obtain ⟨code, hcode⟩ := (isClientError_iff _).mp he
      rw [hcode]
      split
      · trivial
      · trivial
      · exact (rfl : isCoreError .emailError = true)
      · next hother => exact absurd rfl (hother code)
    · rw [isClientError_iff] at he
      split
      · next h => exact absurd ⟨_, h⟩ he
      · next h => exact absurd ⟨_, h⟩ he
      · next h => exact absurd ⟨_, h⟩ he
      · rfl

/-- Where any `ClientError` is passed over. -/
theorem coreGuards_ignore {c : Core.Call} (a : c.Resp) (hok : ∀ a, ContainedCore c (.ok a))
    (herror : ∀ e, ContainedCore c (.error e) ↔ isClientError e.cls ∨ isCoreError e.cls) :
    CoreGuards ((Core.run c).handle fun exc => match exc.cls with
      | .clientError _ => .ret a
      | _ => .raise exc) := by
  refine coreGuards_handle hok herror (fun e he => ?_) fun e he => ?_
  · obtain ⟨code, hcode⟩ := (isClientError_iff _).mp he
    rw [hcode]
    trivial
  · rw [isClientError_iff] at he
    split
    · next h => exact absurd ⟨_, h⟩ he
    · rfl

theorem coreGuards_ensureConfigSet (orgId serviceType : String) :
    CoreGuards (Core.ensureConfigSet orgId serviceType) := by
  have hprocess : CoreGuards (Core.run
      (.isConfigSetConfirmed (Core.configSetName orgId serviceType))) := coreGuards_run trivial
  refine Guards.bind hprocess fun confirmed => ?_
  split
  · trivial
  · refine Guards.bind (coreGuards_ignore (c := .createConfigurationSet _) () (fun _ => trivial)
      fun _ => Iff.rfl) fun _ => ?_
    refine Guards.bind (coreGuards_ensureEventDestination _) fun _ => ?_
    exact Guards.bind (coreGuards_run trivial) fun _ => trivial

theorem coreGuards_verifyDomainOutsideProd (domain : String) :
    CoreGuards (Core.verifyDomainOutsideProd domain) := by
  refine Guards.bind (coreGuards_run trivial) fun config => ?_
  split
  · trivial
  · exact coreGuards_ignore (c := .verifyDomainIdentity domain) () (fun _ => trivial) fun _ => Iff.rfl

theorem coreGuards_sesSend (mail : Core.Mail) : CoreGuards (Core.sesSend mail) := by
  refine coreGuards_handle (fun _ => trivial) (fun _ => Iff.rfl) (fun e he => ?_) fun e he => ?_
  · obtain ⟨code, hcode⟩ := (isClientError_iff _).mp he
    unfold Core.refused
    rw [hcode]
    exact (rfl : isCoreError .emailError = true)
  · rw [isClientError_iff] at he
    unfold Core.refused
    split
    · next h => exact absurd ⟨_, h⟩ he
    · rfl

theorem coreGuards_logAudit (orgId actorId action resourceType resourceId : String)
    (metadata : Json) :
    CoreGuards (Core.logAudit orgId actorId action resourceType resourceId metadata) := by
  refine Guards.bind (coreGuards_run trivial) fun now => ?_
  refine Guards.bind (coreGuards_run trivial) fun eventId => ?_
  refine Guards.bind (Guards.perform_handle (fun x w a ha => ?_) (fun x w e he _ => ?_)
    fun x w e he hΦ => ?_) fun _ => trivial
  · rw [ha]
    trivial
  · exact (rfl : isCoreError .auditError = true)
  · rw [he] at hΦ
    exact absurd trivial hΦ

/-- `send_email` raises Core's errors only, but where a call is not contained. -/
theorem coreGuards_sendEmail (orgId serviceType recipient subject bodyHtml : String)
    (bodyText : Option String) (attachments : List Core.Attachment) (replyTo : Option String)
    (metadata : Json) : CoreGuards (Core.sendEmail orgId serviceType recipient subject bodyHtml
      bodyText attachments replyTo metadata) := by
  have hprepare : CoreGuards (Core.prepareMail orgId serviceType recipient subject bodyHtml bodyText
      attachments replyTo) := by
    refine Guards.bind (Guards.ofExcept fun e he => ?_) fun _ => ?_
    · unfold Core.validateAddress at he
      split at he <;> cases he
      rfl
    refine Guards.bind (coreGuards_getOrgSettings orgId) fun org => ?_
    refine Guards.bind (coreGuards_ensureConfigSet orgId serviceType) fun configSet => ?_
    refine Guards.bind (coreGuards_run trivial) fun suppressed => ?_
    cases suppressed with
    | true => exact (rfl : isCoreError .suppressionListError = true)
    | false =>
      refine Guards.bind (Guards.bind (coreGuards_run trivial)
        fun retry => ?_) fun _ => Guards.bind (coreGuards_verifyDomainOutsideProd _) fun _ => trivial
      cases retry with
      | none => trivial
      | some retryAfter => exact (rfl : isCoreError (.rateLimitError retryAfter) = true)
  refine Guards.bind hprepare fun mail => Guards.bind (coreGuards_sesSend mail) fun messageId => ?_
  refine Guards.bind (coreGuards_run trivial) fun now => ?_
  refine Guards.bind (coreGuards_run trivial) fun _ => ?_
  exact Guards.bind (coreGuards_logAudit _ _ _ _ _ _) fun _ => trivial

/-! ### The adapters -/

section Adapters

variable (loads : Bytes → Except PyErr Json) (pyStr pyReprJson : Json → String)
  (statusText : String → ℕ → String)

/-- An adapter raises its own error only, but where a call is not contained. -/
abbrev SendGuards (E : PyErr → Prop) {α : Type} (p : SendProg α) : Prop :=
  Guards SendCall.answer (Contained loads) E p

/-- A key that is not a string is refused by DynamoDB, or by the serializer. -/
theorem not_core_getSettingsItemAt {key : Json} {x : SendChoice} {w : Core.World} {e : PyErr}
    (he : ((SendCall.getSettingsItemAt key).answer x w).1 = .error e) : ¬isCoreError e.cls := by
  rw [SendCall.answer] at he
  unfold Core.toValue at he
  split at he
  · next hvalue =>
    cases he
    split at hvalue <;> cases hvalue
    exact Bool.false_ne_true
  · cases he
    exact Bool.false_ne_true

theorem sendGuards_sendEmailFor (orgId : Json) (recipient : String) (content : FullContent) :
    SendGuards loads (fun e => isCoreError e.cls) (sendEmailFor orgId recipient content) := by
  have hvalid : ∀ e, Core.validateAddress recipient = .error e → isCoreError e.cls := by
    intro e he
    unfold Core.validateAddress at he
    split at he <;> cases he
    rfl
  have hkey : ∀ key, SendGuards loads (fun e => isCoreError e.cls) (do
      Proc.ofExcept (Core.validateAddress recipient)
      let item ← sendRun (.getSettingsItemAt key)
      nomatch (item : Empty) : SendProg Core.EmailResult) := by
    intro key
    refine Guards.bind (Guards.ofExcept hvalid) fun _ => ?_
    refine Guards.perform_bind (fun _ _ item => (nomatch (item : Empty)))
      (fun _ _ item => (nomatch (item : Empty))) fun x w e he => ?_
    exact iff_of_false (not_core_getSettingsItemAt he) id
  cases orgId with
  | str orgId =>
    have hanswer : ∀ (c : Core.Call) (x : SendChoice) w, c.answer x.toChoice w =
        (((SendCall.core c).answer x w).1.map fun r => r, ((SendCall.core c).answer x w).2) := by
      intro c x w
      show c.answer x.toChoice w = ((c.answer x.toChoice w).1.map id, (c.answer x.toChoice w).2)
      rw [Except.map_id]
      rfl
    exact Guards.embed hanswer (coreGuards_sendEmail _ _ _ _ _ _ _ _ _)
  | _ => exact hkey _

theorem sendGuards_sendMail (recipient : String) (content : FullContent)
    (credentials : List (String × Json)) :
    SendGuards loads (fun e => e.cls = .channelAdapterError)
      (sendMail recipient content credentials) := by
  unfold sendMail
  split
  · exact (rfl : ErrClass.channelAdapterError = _)
  · refine Guards.bind (Guards.handle (sendGuards_sendEmailFor loads _ _ _) (fun e he => ?_)
      fun e he => ?_) fun _ => trivial
    · rw [if_pos he]
      exact (rfl : ErrClass.channelAdapterError = _)
    · rw [if_neg he]
      refine ⟨e, rfl, fun hcls => he ?_⟩
      rw [hcls]
      rfl

theorem sendGuards_postGraphApi (url : String) (headers : List (String × String)) (payload : Json) :
    SendGuards loads ContainedHttp (postGraphApi loads statusText url headers payload) := by
  refine Guards.perform_bind (fun x w resp hresp hΦ => ?_) (fun x w resp hresp hΦ => ?_)
    fun x w e he => ?_
  · rw [Contained, hresp] at hΦ
    split
    · next hsuccess => exact Guards.ofExcept (hΦ hsuccess)
    · exact (.inl rfl : ContainedHttp ⟨.exception "HTTPStatusError", _⟩)
  · rw [Contained, hresp] at hΦ
    have hbad : ¬ContainedResponse loads resp := hΦ
    unfold ContainedResponse at hbad
    push Not at hbad
    obtain ⟨hsuccess, e, he, hnot⟩ := hbad
    rw [if_pos hsuccess, he]
    exact ⟨e, rfl, hnot⟩
  · rw [Contained, he]

theorem sendGuards_sendGraph (g : GraphChannel) (recipient : String) (content : FullContent)
    (credentials : List (String × Json)) :
    SendGuards loads (fun e => e.cls = .channelAdapterError)
      (sendGraph loads pyStr pyReprJson statusText g recipient content credentials) := by
  unfold sendGraph
  split
  case h_2 => exact (rfl : ErrClass.channelAdapterError = _)
  split
  case h_1 => exact (rfl : ErrClass.channelAdapterError = _)
  refine Guards.bind (Guards.handle (sendGuards_postGraphApi loads statusText _ _ _)
    (fun e he => ?_) fun e he => ?_) fun data => Guards.bind (Guards.ofExcept fun e he => ?_)
      fun _ => trivial
  · by_cases hhttp : isHttpError e.cls
    · rw [if_pos hhttp]
      exact (rfl : ErrClass.channelAdapterError = _)
    · rw [if_neg hhttp]
      exact he.resolve_left hhttp
  · obtain ⟨hhttp, hcls⟩ := not_or.mp he
    rw [if_neg hhttp]
    exact ⟨e, rfl, hcls⟩
  · unfold extractSendId at he
    split at he <;> cases he
    rfl

/-- **How sending fails.** In any run of an adapter's `send_outbound`, whatever the recipient, the
content, the credentials and the far side, the only error is `ChannelAdapterError` exactly when each
call of the run ends in a way that the adapter is prepared for. -/
theorem uniform_iff_contained (adapter : RegisteredAdapter) (recipient : String)
    (content : FullContent) (credentials : List (String × Json)) (o : Oracle SendChoice)
    (w : Core.World) :
    Uniform (exec SendCall.answer (adapter.sendOutbound loads pyStr pyReprJson statusText recipient
        content credentials) o w).1 ↔
      Along SendCall.answer (Contained loads) (adapter.sendOutbound loads pyStr pyReprJson statusText
        recipient content credentials) o w := by
  cases adapter with
  | email => exact (sendGuards_sendMail loads recipient content credentials).iff_along o w
  | whatsapp | messenger | instagram =>
    exact (sendGuards_sendGraph loads pyStr pyReprJson statusText _ recipient content
      credentials).iff_along o w

end Adapters

/-- `json.loads` of an empty body, which is not JSON. -/
def loadsNothing (_ : Bytes) : Except PyErr Json :=
  .error ⟨.exception "JSONDecodeError", "Expecting value: line 1 column 1 (char 0)"⟩

/-- A success without a body escapes the WhatsApp adapter. -/
theorem not_uniform : ¬∀ (loads : Bytes → Except PyErr Json) (pyStr pyReprJson : Json → String)
    (statusText : String → ℕ → String) (adapter : RegisteredAdapter) (recipient : String)
    (content : FullContent) (credentials : List (String × Json)) (o : Oracle SendChoice)
    (w : Core.World), Uniform (exec SendCall.answer (adapter.sendOutbound loads pyStr pyReprJson
      statusText recipient content credentials) o w).1 := by
  intro h
  have huniform := h loadsNothing (fun _ => "") (fun _ => "") (fun _ _ => "") .whatsapp "491"
    ⟨⟨none, some "hello"⟩, none, []⟩
    [("org_id", .str "org"), ("access_token", .str "token"), ("phone_number_id", .str "1")]
    (fun _ => some ⟨.calm "t", ⟨200, []⟩⟩) .initial
  exact absurd (huniform ⟨.exception "JSONDecodeError", "Expecting value: line 1 column 1 (char 0)"⟩
    rfl) (by decide)

end A2ZCore.Omnichannel
