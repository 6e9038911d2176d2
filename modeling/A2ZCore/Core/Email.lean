import A2ZCore.Core.Services

/-!
# Sending email

`app.core.email`, up to and including `send_email`: the address check, the configuration set that is
created on first use, the suppression list, the rate limit, the hand-over to SES, and the two writes
that follow the acceptance.

## Main definitions

* `validateAddress` — `_ADDRESS_RE.match`
* `ensureConfigSet` — the lazily created configuration set and its event destination
* `sendEmail` — the whole of it
-/

namespace A2ZCore.Core

open Interaction

/-- `[^@\s]+@[^@\s]+\.[^@\s]+` matches the whole of the characters. -/
def isAddress (cs : List Char) : Bool :=
  let localPart := cs.takeWhile fun c => c != '@'
  let domain := (cs.dropWhile fun c => c != '@').drop 1
  !localPart.isEmpty && !localPart.any pyIsSpace && cs.contains '@' && !domain.contains '@' &&
    !domain.any pyIsSpace && (domain.drop 1).dropLast.contains '.'

/-- `_ADDRESS_RE.match(to)`: the pattern's `$` also matches before a final line feed. -/
def matchesAddress (recipient : String) : Bool :=
  let cs := recipient.toList
  isAddress cs || (cs.getLast? == some '\n' && isAddress cs.dropLast)

/-- `_validate_address`. -/
def validateAddress (recipient : String) : Except PyErr Unit :=
  if matchesAddress recipient then .ok ()
  else .error ⟨.invalidAddressError, "Invalid email address: " ++ pyRepr recipient⟩

/-- `_config_set_name`. -/
def configSetName (orgId serviceType : String) : String := orgId ++ "-" ++ serviceType

/-- `_ensure_event_destination`. -/
def ensureEventDestination (configSet : String) : Prog Unit := do
  let config ← run .appSettings
  match AppConfig.sesNotificationsTopicArn config with
  | none => return ()
  | some "" => return ()
  | some topicArn =>
    try run (.createEventDestination configSet topicArn)
    catch exc => match exc.cls with
      | .clientError "EventDestinationAlreadyExists" => pure ()
      | .clientError "AlreadyExists" => pure ()
      | .clientError _ =>
        fail .emailError ("Failed to attach SES event destination: " ++ exc.text)
      | _ => throw exc

/-- `_ensure_config_set`. An error of the creation itself is logged, whatever its code. -/
def ensureConfigSet (orgId serviceType : String) : Prog String := do
  let name := configSetName orgId serviceType
  let confirmed : Bool ← run (.isConfigSetConfirmed name)
  if confirmed then return name
  else
    try run (.createConfigurationSet name)
    catch exc => match exc.cls with
      | .clientError _ => pure ()
      | _ => throw exc
    ensureEventDestination name
    run (.confirmConfigSet name)
    return name

/-- `_is_suppressed`. -/
def isSuppressed (orgId recipient : String) : Prog Bool := run (.getSuppressionItem orgId recipient)

/-- `re.sub(r"<[^>]+>", "", html)`. `buf` holds the characters since an unclosed `<`. -/
def stripTags (buf : Option (List Char)) : List Char → List Char
  | [] => match buf with
    | none => []
    | some read => '<' :: read.reverse
  | c :: cs => match buf with
    | none => if c = '<' then stripTags (some []) cs else c :: stripTags none cs
    | some read =>
      if c = '>' then
        if read.isEmpty then '<' :: '>' :: stripTags none cs else stripTags none cs
      else stripTags (some (c :: read)) cs

/-- `_html_to_text`. -/
def htmlToText (html : String) : String :=
  let cs := stripTags none html.toList
  String.ofList (pyStrip cs)

/-- `_sender`. -/
def sender (domain serviceType senderName : String) : String :=
  let addr := serviceType ++ "@" ++ domain
  if senderName = "" then addr else senderName ++ " <" ++ addr ++ ">"

/-- `_record_event`. -/
def recordEvent (orgId messageId recipient serviceType subject : String) (metadata : Json)
    (now : DateTime) : Prog Unit :=
  run (.putEmailEvent
    { messageId, orgId, timestamp := now.isoformat, recipient, serviceType, status := "sent",
      subject, metadata })

/-- `EmailResult`. -/
structure EmailResult where
  messageId : String
  timestamp : DateTime
  deriving DecidableEq, Repr

/-- `verify_domain_identity`, outside production; a refusal by SES is ignored. -/
def verifyDomainOutsideProd (domain : String) : Prog Unit := do
  let config ← run .appSettings
  if AppConfig.isProd config then return ()
  else
    try run (.verifyDomainIdentity domain)
    catch exc => match exc.cls with
      | .clientError _ => pure ()
      | _ => throw exc

/-- What `send_email` does before it hands the message to SES, and the message. -/
def prepareMail (orgId serviceType recipient subject bodyHtml : String)
    (bodyText : Option String) (attachments : List Attachment) (replyTo : Option String) :
    Prog Mail := do
  Proc.ofExcept (validateAddress recipient)
  let org ← getOrgSettings orgId
  let domain := if org.domain = "" then "example.com" else org.domain
  let source := sender domain serviceType org.senderName
  let defaultReplyTo := serviceType ++ "@" ++ domain
  let configSet ← ensureConfigSet orgId serviceType
  let suppressed ← isSuppressed orgId recipient
  if suppressed then
    fail .suppressionListError (recipient ++ " is suppressed for org " ++ orgId)
  checkAndIncrement orgId "email.send" 50 3600
  verifyDomainOutsideProd domain
  let text := match bodyText with
    | none => htmlToText bodyHtml
    | some text => if text = "" then htmlToText bodyHtml else text
  return {
    source, recipient, subject, bodyHtml, configSet, attachments
    bodyText := text
    replyTo := match replyTo with
      | none => defaultReplyTo
      | some address => if address = "" then defaultReplyTo else address }

/-- The error that is reported when SES refuses a message. -/
def refused (exc : PyErr) : Prog String :=
  match exc.cls with
  | .clientError _ => fail .emailError ("SES send failed: " ++ exc.text)
  | _ => throw exc

/-- `_ses_send`. -/
def sesSend (mail : Mail) : Prog String :=
  try run (.sesSend mail)
  catch exc => refused exc

/-- The two writes that follow the acceptance. -/
def recordSent (orgId serviceType recipient subject messageId : String) (metadata : Json) :
    Prog EmailResult := do
  let now ← run .utcnow
  recordEvent orgId messageId recipient serviceType subject metadata now
  let _ ← logAudit orgId "system" "email.sent" "email" messageId
    (.obj [("to", .str recipient), ("subject", .str subject), ("service_type", .str serviceType)])
  return { messageId, timestamp := now }

/-- `send_email`. -/
def sendEmail (orgId serviceType recipient subject bodyHtml : String) (bodyText : Option String)
    (attachments : List Attachment) (replyTo : Option String) (metadata : Json) :
    Prog EmailResult := do
  let mail ← prepareMail orgId serviceType recipient subject bodyHtml bodyText attachments replyTo
  let messageId ← sesSend mail
  recordSent orgId serviceType recipient subject messageId metadata

/-! ### Which calls hand a message to SES -/

/-- The call is not `SendEmail` or `SendRawEmail`. -/
def Call.NotSend : Call → Prop
  | .sesSend _ => False
  | _ => True

theorem reports_notSend : Reports Call.NotSend where
  utcnow := trivial
  uuid4 := trivial
  putAuditItem _ := trivial
  putEvents _ := trivial

theorem calls_notSend_uploadFile (orgId serviceType filename : String) (content : Bytes)
    (mimeType uploadedBy : String) :
    (uploadFile orgId serviceType filename content mimeType uploadedBy).Calls Call.NotSend := by
  unfold uploadFile
  split
  · trivial
  · refine (Proc.Calls.perform trivial).bind fun now => ?_
    refine Proc.Calls.bind (Proc.Calls.handle (Proc.Calls.perform ?_) fun e => ?_) fun _ => ?_
    · trivial
    · split <;> trivial
    · exact (Proc.Calls.perform trivial).bind fun _ =>
        (reports_notSend.calls_logAudit _ _ _ _ _ _).bind fun _ =>
          (Proc.Calls.perform trivial).bind fun _ => trivial

/-- The call neither hands a message to SES nor records one. -/
def Call.Preparing : Call → Prop
  | .sesSend _ | .putEmailEvent _ => False
  | _ => True

theorem Call.Preparing.notSend {c : Call} (h : c.Preparing) : c.NotSend := by
  cases c with
  | sesSend => exact h
  | _ => trivial

theorem preparing_getOrgSettings (orgId : String) :
    (getOrgSettings orgId).Calls Call.Preparing :=
  (Proc.Calls.perform trivial).bind fun _ => Proc.Calls.ofExcept _

theorem preparing_ensureConfigSet (orgId serviceType : String) :
    (ensureConfigSet orgId serviceType).Calls Call.Preparing := by
  refine (Proc.Calls.perform trivial).bind fun confirmed => ?_
  split
  · trivial
  · refine Proc.Calls.bind (Proc.Calls.handle (Proc.Calls.perform ?_) fun e => ?_) fun _ => ?_
    · trivial
    · split <;> trivial
    · refine Proc.Calls.bind ?_ fun _ => (Proc.Calls.perform trivial).bind fun _ => trivial
      refine (Proc.Calls.perform trivial).bind fun config => ?_
      split
      · trivial
      · trivial
      · refine Proc.Calls.handle (Proc.Calls.perform ?_) fun e => ?_
        · trivial
        · split <;> trivial

theorem preparing_verifyDomainOutsideProd (domain : String) :
    (verifyDomainOutsideProd domain).Calls Call.Preparing := by
  refine (Proc.Calls.perform trivial).bind fun config => ?_
  split
  · trivial
  · refine Proc.Calls.handle (Proc.Calls.perform ?_) fun e => ?_
    · trivial
    · split <;> trivial

theorem preparing_checkAndIncrement (orgId action : String) (limit windowSeconds : ℕ) :
    (checkAndIncrement orgId action limit windowSeconds).Calls Call.Preparing := by
  refine (Proc.Calls.perform trivial).bind fun retry => ?_
  cases retry <;> trivial

theorem preparing_prepareMail (orgId serviceType recipient subject bodyHtml : String)
    (bodyText : Option String) (attachments : List Attachment) (replyTo : Option String) :
    (prepareMail orgId serviceType recipient subject bodyHtml bodyText attachments
      replyTo).Calls Call.Preparing := by
  refine (Proc.Calls.ofExcept _).bind fun _ => ?_
  refine (preparing_getOrgSettings orgId).bind fun org => ?_
  refine (preparing_ensureConfigSet orgId serviceType).bind fun configSet => ?_
  refine (Proc.Calls.perform trivial).bind fun suppressed => ?_
  cases suppressed with
  | true => trivial
  | false =>
    exact (preparing_checkAndIncrement _ _ _ _).bind fun _ =>
      (preparing_verifyDomainOutsideProd _).bind fun _ => trivial

theorem calls_notSend_getOrgSettings (orgId : String) :
    (getOrgSettings orgId).Calls Call.NotSend :=
  (preparing_getOrgSettings orgId).mono fun _ => Call.Preparing.notSend

theorem calls_notSend_prepareMail (orgId serviceType recipient subject bodyHtml : String)
    (bodyText : Option String) (attachments : List Attachment) (replyTo : Option String) :
    (prepareMail orgId serviceType recipient subject bodyHtml bodyText attachments
      replyTo).Calls Call.NotSend :=
  (preparing_prepareMail _ _ _ _ _ _ _ _).mono fun _ => Call.Preparing.notSend

theorem calls_notSend_recordSent (orgId serviceType recipient subject messageId : String)
    (metadata : Json) :
    (recordSent orgId serviceType recipient subject messageId metadata).Calls Call.NotSend := by
  refine (Proc.Calls.perform trivial).bind fun now => (Proc.Calls.perform trivial).bind fun _ => ?_
  exact (reports_notSend.calls_logAudit _ _ _ _ _ _).bind fun _ => trivial

end A2ZCore.Core
