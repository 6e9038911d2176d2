import A2ZCore.Omnichannel.Adapters

/-!
# The WhatsApp adapter

What `adapters/whatsapp.py` makes of a webhook payload: two walks over a JSON document, one for the
customers' messages and one for the delivery statuses. A payload of another shape raises what the
dict and list operations of the walk raise.

## Main definitions

* `Json.iterate`, `Json.index` — `for x in v` and `v[key]`
* `whatsappNormalizeInbound`, `whatsappInterpretDeliveryWebhook`
* `whatsappAdapter`, `whatsappRegistry`
-/

namespace A2ZCore

namespace Json

/-- `list(v)`: the items of a list, the keys of a dict, the characters of a string. -/
def iterate : Json → Except PyErr (List Json)
  | .arr items => .ok items
  | .obj fields => .ok (fields.map fun f => .str f.1)
  | .str s => .ok (s.toList.map fun c => .str (String.ofList [c]))
  | _ => .error ⟨.typeError, "object is not iterable"⟩

/-- `v[key]` with a string key. -/
def index (key : String) : Json → Except PyErr Json
  | .obj fields => match fields.lookup key with
    | some v => .ok v
    | none => .error ⟨.keyError, pyRepr key⟩
  | _ => .error ⟨.typeError, "indices must be integers or slices, not str"⟩

/-- `v.get(key, default)`. -/
def getD (v : Json) (key : String) (default : Json) : Except PyErr Json := do
  return (← v.get? key).getD default

mutual

/-- `repr(v)`. A float is written as its decimal fraction. -/
def repr : Json → String
  | .null => "None"
  | .bool true => "True"
  | .bool false => "False"
  | .int n => toString n
  | .float m s => (if m < 0 then "-" else "") ++ toString (m.natAbs / 10 ^ s) ++ "." ++
      zeroPad s (m.natAbs % 10 ^ s)
  | .str s => pyRepr s
  | .arr items => "[" ++ ", ".intercalate (reprItems items) ++ "]"
  | .obj fields => String.ofList [Char.ofNat 123] ++ ", ".intercalate (reprFields fields) ++
      String.ofList [Char.ofNat 125]

/-- The items of a list, each as its `repr`. -/
def reprItems : List Json → List String
  | [] => []
  | v :: vs => v.repr :: reprItems vs

/-- The fields of a dict, each as its `repr`. -/
def reprFields : List (String × Json) → List String
  | [] => []
  | (k, v) :: fields => (pyRepr k ++ ": " ++ v.repr) :: reprFields fields

end

/-- `str(v)`. -/
def toStr : Json → String
  | .str s => s
  | v => v.repr

/-- Pydantic's reading of a `str`. -/
def asStr (field : String) : Json → Except PyErr String
  | .str s => .ok s
  | _ => .error ⟨.validationError, field ++ ": Input should be a valid string"⟩

/-- Pydantic's reading of a `str | None`. -/
def asOptionalStr (field : String) : Json → Except PyErr (Option String)
  | .null => .ok none
  | .str s => .ok (some s)
  | _ => .error ⟨.validationError, field ++ ": Input should be a valid string"⟩

/-- The values that can be a dict's keys. -/
def hashable : Json → Bool
  | .arr _ | .obj _ => false
  | _ => true

end Json

namespace Omnichannel

/-- The loop over the `value` of each change of each entry of a payload. -/
def forEachValue {α : Type} (rawPayload : Json) (body : Json → Except PyErr (List α)) :
    Except PyErr (List α) := do
  let entries ← (← rawPayload.getD "entry" (.arr [])).iterate
  let collected ← entries.mapM fun entry => do
    let changes ← (← entry.getD "changes" (.arr [])).iterate
    changes.mapM fun change => do body (← change.getD "value" (.obj []))
  return collected.flatten.flatten

/-- A contact of a payload: its number, and the profile's name. -/
def contactName (contact : Json) : Except PyErr (Json × Json) := do
  let waId ← contact.index "wa_id"
  let name ← (← contact.getD "profile" (.obj [])).getD "name" .null
  if waId.hashable then return (waId, name)
  else throw ⟨.typeError, "unhashable type"⟩

/-- `contacts.get(number)`. The last contact with a number counts. -/
def lookupContact (contacts : List (Json × Json)) (number : Json) : Except PyErr Json :=
  match number with
  | .str n => .ok ((contacts.reverse.find? fun c => match c.1 with
      | .str m => m == n
      | _ => false).elim .null (·.2))
  | _ => if number.hashable then .ok .null else .error ⟨.typeError, "unhashable type"⟩

/-- `_normalize_message`. -/
def whatsappNormalizeMessage (contacts : List (Json × Json)) (msg : Json) :
    Except PyErr NormalizedInboundMessage := do
  let fromNumber ← msg.index "from"
  let externalMessageId ← msg.index "id"
  let msgType ← msg.getD "type" (.str "unknown")
  let bodyText ← match msgType with
    | .str "text" => (← msg.getD "text" (.obj [])).getD "body" .null
    | other => pure (.str ("[unsupported message type: " ++ other.toStr ++ "]"))
  let displayName ← lookupContact contacts fromNumber
  return {
    externalId := ← fromNumber.asStr "external_id"
    externalMessageId := ← externalMessageId.asStr "external_message_id"
    displayName := ← displayName.asOptionalStr "display_name"
    bodyText := ← bodyText.asOptionalStr "body_text"
    contentType := "text/plain"
    attachments := [] }

/-- `WhatsAppAdapter.normalize_inbound`. -/
def whatsappNormalizeInbound (rawPayload : Json) : Except PyErr (List NormalizedInboundMessage) :=
  forEachValue rawPayload fun value => do
    let contacts ← (← (← value.getD "contacts" (.arr [])).iterate).mapM contactName
    (← (← value.getD "messages" (.arr [])).iterate).mapM (whatsappNormalizeMessage contacts)

/-- `WhatsAppAdapter.interpret_delivery_webhook`. -/
def whatsappInterpretDeliveryWebhook (rawPayload : Json) :
    Except PyErr (List DeliveryStatusUpdate) :=
  forEachValue rawPayload fun value => do
    (← (← value.getD "statuses" (.arr [])).iterate).mapM fun update => do
      let id ← update.index "id"
      let status ← update.index "status"
      return { externalMessageId := ← id.asStr "external_message_id",
               status := ← status.asStr "status" : DeliveryStatusUpdate }

/-- `whatsapp.WhatsAppAdapter`. -/
def whatsappAdapter : ChannelAdapter where
  requiresCredentials := true
  normalizeInbound _ := whatsappNormalizeInbound
  interpretDeliveryWebhook := whatsappInterpretDeliveryWebhook

/-- The registry's entry for WhatsApp. -/
def whatsappRegistry : Registry := fun channelType =>
  if channelType = "whatsapp" then some whatsappAdapter else none

end Omnichannel

end A2ZCore
