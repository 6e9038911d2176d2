import A2ZCore.Core.World

/-!
# Core's services

The functions of `app.core` that the other services call, as programs over `Core.Call`: each one is
its source read top to bottom, one call of the program for each call of the source.

## Main definitions

* `getMembership`, `getOrgSettings`, `getNextInvoiceNumber` — reads, and the invoice counter
* `logAudit`, `publishEvent`, `publishUpdate` — what every mutation reports
* `checkAndIncrement`, `uploadFile`, `getSecret` — limits, files, credentials
* `sendEmail` — the composition of most of them
-/

namespace A2ZCore.Core

open Interaction

/-- A program of `app.core`. -/
abbrev Prog := Proc Call Call.Resp PyErr

/-- One call. -/
def run (c : Call) : Prog c.Resp := Proc.perform c

/-- `raise cls(text)`. -/
def fail {α : Type} (cls : ErrClass) (text : String) : Prog α := .raise ⟨cls, text⟩

/-! ### `audit`, `events`, `realtime` -/

/-- `audit.log_audit`. -/
def logAudit (orgId actorId action resourceType resourceId : String) (metadata : Json) :
    Prog AuditEvent := do
  let now ← run .utcnow
  let eventId ← run .uuid4
  let event : AuditEvent :=
    { eventId, orgId, timestamp := DateTime.isoformat now, actorId, action, resourceType,
      resourceId, metadata }
  try run (.putAuditItem event)
  catch exc => fail .auditError ("Failed to write audit event: " ++ exc.text)
  return event

/-- `events.publish_event`. -/
def publishEvent (orgId eventType : String) (data : List (String × Json)) (source : String) :
    Prog String := do
  let detail := Json.obj (Json.set "org_id" (.str orgId) data)
  let resp ← try run (.putEvents ⟨source, eventType, detail⟩)
    catch exc => match exc.cls with
      | .clientError _ => fail .eventError ("Failed to publish " ++ eventType ++ ": " ++ exc.text)
      | _ => throw exc
  match resp with
  | .error (code, message) =>
    fail .eventError ("EventBridge rejected " ++ eventType ++ ": " ++ code ++ " " ++ message)
  | .ok eventId => return eventId

/-- `realtime.publish_update`. Every payload the services pass can be serialised. -/
def publishUpdate (orgId channel : String) (payload : List (String × Json)) : Prog Unit :=
  run (.brokerPublish ("rt:" ++ channel) (.obj (Json.set "org_id" (.str orgId) payload)))

/-! ### `membership`, `settings` -/

/-- `membership.get_membership`. -/
def getMembership (userId orgId : String) : Prog (Option Membership) :=
  run (.getMembershipItem userId orgId)

/-- `settings.OrgSettings`. -/
structure OrgSettings where
  orgId : String
  timezone : String
  currency : String
  locale : String
  domain : String
  invoiceNumberPrefix : String
  nextInvoiceNumber : ℤ
  planTier : String
  senderName : String
  metadata : List (String × Json)

/-- Pydantic's reading of a `str` field. -/
def strField (item : List (String × Json)) (field default : String) : Except PyErr String :=
  match item.lookup field with
  | none => .ok default
  | some (.str s) => .ok s
  | some _ => .error ⟨.validationError, field ++ ": Input should be a valid string"⟩

/-- Pydantic's reading of an `int` field, which also takes a `bool` or the digits of a number. -/
def intField (item : List (String × Json)) (field : String) (default : ℤ) : Except PyErr ℤ :=
  let invalid := Except.error ⟨.validationError, field ++ ": Input should be a valid integer"⟩
  match item.lookup field with
  | none => .ok default
  | some (.bool b) => .ok (if b then 1 else 0)
  | some (.str s) => match intOfText s with
    | some n => .ok n
    | none => invalid
  | some value => match integer? value with
    | some n => .ok n
    | none => invalid

/-- Pydantic's reading of a `dict` field. -/
def dictField (item : List (String × Json)) (field : String) :
    Except PyErr (List (String × Json)) :=
  match item.lookup field with
  | none => .ok []
  | some (.obj fields) => .ok fields
  | some _ => .error ⟨.validationError, field ++ ": Input should be a valid dictionary"⟩

/-- `OrgSettings(org_id=org_id, **merged)`: the stored fields over the defaults, validated. -/
def OrgSettings.ofItem (orgId : String) (item : List (String × Json)) :
    Except PyErr OrgSettings := do
  return {
    orgId
    timezone := ← strField item "timezone" "UTC"
    currency := ← strField item "currency" "USD"
    locale := ← strField item "locale" "en_US"
    domain := ← strField item "domain" ""
    invoiceNumberPrefix := ← strField item "invoice_number_prefix" "INV-"
    nextInvoiceNumber := ← intField item "next_invoice_number" 1
    planTier := ← strField item "plan_tier" "free"
    senderName := ← strField item "sender_name" ""
    metadata := ← dictField item "metadata" }

/-- `settings.get_org_settings`. -/
def getOrgSettings (orgId : String) : Prog OrgSettings := do
  let item ← run (.getSettingsItem orgId)
  Proc.ofExcept (OrgSettings.ofItem orgId (Option.getD item []))

/-- `settings.get_next_invoice_number`. -/
def getNextInvoiceNumber (orgId pfx : String) : Prog String := do
  let n ← try run (.addInvoiceNumber orgId)
    catch exc => match exc.cls with
      | .clientError _ => fail .settingsError ("Failed to allocate invoice number: " ++ exc.text)
      | _ => throw exc
  return pfx ++ toString (toInt n)

/-! ### `rate_limit`, `storage`, `secrets` -/

/-- `config.RATE_LIMITS`: limit and window in seconds. -/
def rateLimits : List (String × (ℕ × ℕ)) :=
  [("email.send", (50, 3600)), ("ai.parse.user", (30, 60)), ("ai.parse.org", (500, 86400)),
    ("omnichannel.whatsapp.send", (80, 1)), ("omnichannel.messenger.send", (80, 1)),
    ("omnichannel.instagram.send", (80, 1))]

/-- `rate_limit.check_and_increment`. -/
def checkAndIncrement (orgId action : String) (limit windowSeconds : ℕ) : Prog Unit := do
  match ← run (.slideWindow (orgId, action) limit windowSeconds) with
  | none => return ()
  | some retryAfter =>
    fail (.rateLimitError retryAfter) ("Rate limit exceeded for " ++ action ++ " (limit " ++
      toString limit ++ "/" ++ toString windowSeconds ++ "s)")

/-- `storage.StoredFile`. -/
structure StoredFile where
  key : String
  filename : String
  signedUrl : String
  sizeBytes : ℕ
  mimeType : String
  uploadedAt : DateTime
  uploadedBy : String
  serviceType : String
  deriving DecidableEq, Repr

/-- `storage.MAX_FILE_BYTES`. -/
def maxFileBytes : ℕ := 100 * 1024 * 1024

/-- `storage.upload_file`, without a TTL. -/
def uploadFile (orgId serviceType filename : String) (content : Bytes)
    (mimeType uploadedBy : String) : Prog StoredFile := do
  if maxFileBytes < content.length then
    fail .fileTooLargeError ("File is " ++ toString content.length ++ " bytes; max is " ++
      toString maxFileBytes)
  let now ← run .utcnow
  let key := orgId ++ "/" ++ serviceType ++ "/" ++ DateTime.stamp now ++ "_" ++ filename
  try run (.putObject ⟨key, content, mimeType⟩)
  catch exc => match exc.cls with
    | .clientError _ => fail .storageError ("Failed to upload file: " ++ exc.text)
    | _ => throw exc
  run (.putFileItem
    { orgId, key, filename, sizeBytes := content.length, mimeType,
      uploadedAt := DateTime.isoformat now, uploadedBy, serviceType, isDeleted := false })
  let _ ← logAudit orgId uploadedBy "file.uploaded" "file" key
    (.obj [("filename", .str filename), ("size_bytes", .int content.length),
      ("mime_type", .str mimeType)])
  let signedUrl ← run (.generatePresignedUrl key 3600)
  return { key, filename, signedUrl, sizeBytes := content.length, mimeType, uploadedAt := now,
           uploadedBy, serviceType }

/-- `secrets._secret_name`. -/
def secretName (orgId serviceType key : String) : String :=
  "a2z/" ++ orgId ++ "/" ++ serviceType ++ "/" ++ key

/-- `secrets._cache_key`. -/
def secretCacheKey (orgId serviceType key : String) : String :=
  "secret:" ++ orgId ++ ":" ++ serviceType ++ ":" ++ key

/-- `secrets.get_secret`. -/
def getSecret (orgId serviceType key : String) : Prog Json := do
  let cacheKey := secretCacheKey orgId serviceType key
  match ← run (.secretCacheGet cacheKey) with
  | some value => return value
  | none => do
    let name := secretName orgId serviceType key
    let value ← try run (.getSecretValue name)
      catch exc => match exc.cls with
        | .clientError "ResourceNotFoundException" =>
          fail .secretNotFoundError ("No secret at " ++ name)
        | .clientError "InvalidRequestException" =>
          fail .secretNotFoundError ("No secret at " ++ name)
        | _ => throw exc
    run (.secretCacheSet cacheKey value 300)
    return value

/-! ### The calls of a report -/

/-- The property holds of each call with which something is reported. -/
structure Reports (P : Call → Prop) : Prop where
  utcnow : P .utcnow
  uuid4 : P .uuid4
  putAuditItem : ∀ event, P (.putAuditItem event)
  putEvents : ∀ entry, P (.putEvents entry)

theorem Reports.calls_logAudit {P : Call → Prop} (hP : Reports P)
    (orgId actorId action resourceType resourceId : String) (metadata : Json) :
    (logAudit orgId actorId action resourceType resourceId metadata).Calls P := by
  refine (Proc.Calls.perform hP.utcnow).bind fun now => ?_
  refine (Proc.Calls.perform hP.uuid4).bind fun eventId => ?_
  refine ((Proc.Calls.perform (hP.putAuditItem _)).handle fun exc => ?_).bind fun _ => ?_
  · trivial
  · trivial

theorem Reports.calls_publishEvent {P : Call → Prop} (hP : Reports P) (orgId eventType : String)
    (data : List (String × Json)) (source : String) :
    (publishEvent orgId eventType data source).Calls P := by
  refine ((Proc.Calls.perform (hP.putEvents _)).handle fun exc => ?_).bind fun resp => ?_
  · split <;> trivial
  · cases resp <;> trivial

end A2ZCore.Core
