import A2ZCore.Omnichannel.WhatsApp

/-!
# The email adapter

What `adapters/email.py` makes of an inbound email. The bytes are parsed by the standard library's
`email` package, whose result is a tree of parts: what is modelled of a part is what the lookups of
`email.message.Message` say of it. A lookup of a parameter can raise, since the sender chooses how the
parameter is encoded; so can the decoding of a payload, for the sender chooses the charset's name too.

## Main definitions

* `Part`, `Mime`, `walk`, `leaves` — a parsed message
* `extractBody` — `_extract_body`
* `resolveRawMime`, `emailNormalizeInbound`, `emailInterpretDeliveryWebhook`, `emailChannelAdapter`

## Main results

* `extractBody_multipart` — the loop over the parts is a loop over the leaves
-/

namespace A2ZCore.Omnichannel

/-! ### A parsed message -/

/-- A part that is not a multipart. -/
structure Part where
  /-- `str(part.get("Content-Disposition", ""))` -/
  contentDisposition : String
  /-- `part.get_content_type()` -/
  contentType : String
  /-- `part.get_filename()` -/
  filename : Except PyErr (Option String)
  /-- `part.get_content_charset()` -/
  contentCharset : Except PyErr (Option String)
  /-- `part.get_payload(decode=True)`, where this is bytes. -/
  payload : Option Bytes

/-- `email.message.Message`. -/
inductive Mime where
  | leaf (part : Part)
  | multipart (parts : List Mime)

/-- The value of a header: a header with bytes that are not ASCII is no string. -/
inductive HeaderValue where
  | str (s : String)
  | header
  deriving DecidableEq, Repr

/-- What `message_from_bytes` returns: `mime.get("From", "")`, and the message. -/
structure Email where
  fromAddr : HeaderValue
  mime : Mime

namespace Mime

mutual

/-- `mime.walk()`. -/
def walk : Mime → List Mime
  | leaf part => [leaf part]
  | multipart parts => multipart parts :: walkParts parts

/-- The walks of the parts of a multipart. -/
def walkParts : List Mime → List Mime
  | [] => []
  | part :: parts => part.walk ++ walkParts parts

end

/-- The part itself, unless it is a multipart. -/
def part? : Mime → Option Part
  | leaf part => some part
  | multipart _ => none

/-- The parts that are not multiparts, in the order of the document. -/
def leaves (mime : Mime) : List Part := mime.walk.filterMap part?

@[simp] theorem leaves_leaf (part : Part) : (leaf part).leaves = [part] := by
  simp [leaves, walk, part?]

end Mime

/-! ### The body and the attachments -/

namespace Part

/-- `"attachment" in disposition` -/
def IsAttachment (part : Part) : Prop :=
  "attachment".toList <:+: part.contentDisposition.toList

instance : DecidablePred IsAttachment := fun _ => inferInstanceAs (Decidable (_ <:+: _))

/-- `part_content_type in ("text/plain", "text/html")` -/
def IsText (part : Part) : Prop :=
  part.contentType = "text/plain" ∨ part.contentType = "text/html"

instance : DecidablePred IsText := fun _ => inferInstanceAs (Decidable (_ ∨ _))

end Part

/-- `value or default`, of an optional string. -/
def strOr (value : Option String) (default : String) : String :=
  match value with
  | none => default
  | some s => if s = "" then default else s

/-- What `_extract_body` has so far. -/
structure Extracted where
  bodyText : Option String
  contentType : String
  attachments : List InboundAttachment
  deriving DecidableEq, Repr

/-- What it starts with. -/
def Extracted.empty : Extracted := ⟨none, "text/plain", []⟩

/-- The part is taken for an attachment. -/
def takeAttachment (found : Extracted) (part : Part) (payload : Bytes) : Except PyErr Extracted := do
  let filename ← part.filename
  let attachment : InboundAttachment :=
    ⟨strOr filename "attachment", part.contentType, payload⟩
  return { found with attachments := found.attachments ++ [attachment] }

section Adapter

-- `bytes.decode(charset, errors="replace")`, `email.message_from_bytes` and `base64.b64decode`
variable (decode : String → Bytes → Except PyErr String) (messageFromBytes : Bytes → Email)
  (b64decode : String → Except PyErr Bytes)

/-- The part is taken for the body. -/
def takeBody (found : Extracted) (part : Part) (payload : Bytes) : Except PyErr Extracted := do
  let charset ← part.contentCharset
  let text ← decode (strOr charset "utf-8") payload
  return { found with bodyText := some text, contentType := part.contentType }

/-- One round of the loop, on a part that is not a multipart. -/
def extractPart (found : Extracted) (part : Part) : Except PyErr Extracted :=
  if part.IsAttachment then
    match part.payload with
    | some payload => takeAttachment found part payload
    | none => .ok found
  else if part.IsText ∧ found.bodyText = none then
    match part.payload with
    | some payload => takeBody decode found part payload
    | none => .ok found
  else .ok found

/-- `_extract_body`. -/
def extractBody (mime : Mime) : Except PyErr Extracted :=
  match mime with
  | .multipart _ => mime.walk.foldlM (fun found part => match part with
      | .multipart _ => .ok found
      | .leaf part => extractPart decode found part) .empty
  | .leaf part => match part.payload with
    | some payload => takeBody decode .empty part payload
    | none => .ok .empty

/-! ### The adapter -/

/-- A payload of `normalize_inbound`: its fields, and `raw_mime` where it is bytes. -/
structure EmailPayload where
  fields : List (String × Json)
  rawMime : Option Bytes

/-- `storage.download_file`: the object that was put last under the key. -/
def downloadFile (w : Core.World) (orgId key : String) : Except PyErr Bytes :=
  if (orgId ++ "/").toList.isPrefixOf key.toList then
    match w.objects.reverse.find? fun object => object.key == key with
    | some object => .ok object.body
    | none => .error ⟨.exception "StorageNotFoundError", "File not found: " ++ key⟩
  else .error ⟨.exception "StorageError", "File does not belong to this org"⟩

/-- `_resolve_raw_mime`, up to the decoding that `message_from_bytes` starts with. -/
def resolveRawMime (w : Core.World) (rawPayload : EmailPayload) : Except PyErr Bytes :=
  match rawPayload.rawMime, rawPayload.fields.lookup "raw_mime" with
  | some rawMime, _ => .ok rawMime
  | none, some (.str rawMime) => b64decode rawMime
  | none, some _ => .error ⟨.attributeError, "object has no attribute 'decode'"⟩
  | none, none =>
    match (rawPayload.fields.lookup "s3_key").filter Json.truthy,
      (rawPayload.fields.lookup "org_id").filter Json.truthy with
    | some (.str s3Key), some orgId => downloadFile w orgId.toStr s3Key
    | some _, some _ => .error ⟨.attributeError, "object has no attribute 'startswith'"⟩
    | _, _ => .error ⟨.channelAdapterError, "normalize_inbound requires either " ++
        "raw_payload['raw_mime'] or raw_payload['s3_key'] + raw_payload['org_id']"⟩

/-- Pydantic's reading of a header's value as a `str`. -/
def HeaderValue.asStr (field : String) : HeaderValue → Except PyErr String
  | str s => .ok s
  | header => .error ⟨.validationError, field ++ ": Input should be a valid string"⟩

/-- `EmailAdapter.normalize_inbound`. -/
def emailNormalizeInbound (w : Core.World) (rawPayload : EmailPayload) :
    Except PyErr (List NormalizedInboundMessage) := do
  let externalMessageId ← (Json.obj rawPayload.fields).index "external_message_id"
  let rawMime ← resolveRawMime b64decode w rawPayload
  let email := messageFromBytes rawMime
  let found ← extractBody decode email.mime
  let externalId ← email.fromAddr.asStr "external_id"
  return [{
    externalId
    externalMessageId := ← externalMessageId.asStr "external_message_id"
    displayName := some externalId
    bodyText := found.bodyText
    contentType := found.contentType
    attachments := found.attachments }]

/-- `_DELIVERY_STATUS_MAP.get(raw_status, "failed")` -/
def deliveryStatus (rawStatus : String) : String :=
  if rawStatus = "delivered" then "delivered" else "failed"

/-- `EmailAdapter.interpret_delivery_webhook`. -/
def emailInterpretDeliveryWebhook (rawPayload : Json) :
    Except PyErr (List DeliveryStatusUpdate) := do
  match ← rawPayload.get? "message_id", ← rawPayload.get? "status" with
  | some (.str messageId), some (.str rawStatus) =>
    return [{ externalMessageId := messageId, status := deliveryStatus rawStatus }]
  | _, _ => return []

/-- `email.EmailAdapter`, on the payloads that a queue can carry. -/
def emailChannelAdapter : ChannelAdapter where
  requiresCredentials := false
  normalizeInbound w rawPayload := match rawPayload with
    | .obj fields => emailNormalizeInbound decode messageFromBytes b64decode w ⟨fields, none⟩
    | _ => .error ⟨.typeError, "indices must be integers or slices, not str"⟩
  interpretDeliveryWebhook := emailInterpretDeliveryWebhook

/-- The loop passes the multiparts over. -/
theorem extractBody_multipart (parts : List Mime) :
    extractBody decode (.multipart parts) =
      (Mime.multipart parts).leaves.foldlM (extractPart decode) .empty := by
  unfold extractBody Mime.leaves
  dsimp only
  generalize Extracted.empty = found
  induction (Mime.multipart parts).walk generalizing found with
  | nil => rfl
  | cons mime mimes ih =>
    cases mime with
    | multipart _ => exact ih found
    | leaf part =>
      have hcons : (Mime.leaf part :: mimes).filterMap Mime.part? =
          part :: mimes.filterMap Mime.part? := rfl
      rw [hcons, List.foldlM_cons, List.foldlM_cons]
      exact bind_congr ih

end Adapter

end A2ZCore.Omnichannel
