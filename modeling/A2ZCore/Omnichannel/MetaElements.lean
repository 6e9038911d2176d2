import A2ZCore.Lib.Harvest
import A2ZCore.Omnichannel.Messenger

/-!
# The elements of a webhook payload

A payload of Meta's is a batch: entries, in them changes or events, in them messages and statuses. The
adapters walk over it strictly: what one element raises ends the walk, and none of the others is
returned. So the well-formed elements are all returned just where there is nothing malformed on the way,
or nothing well formed to return.

## Main definitions

* `itemsOf`, `EachOf` — the items under a key, and that all of them are sound
* `whatsappMessage`, `wellFormedStatus`, `messengerMessage` — a well-formed element, as it is returned
* `whatsappMessages`, `whatsappStatuses`, `messengerMessages`, `messengerDeliveries` — those of a payload
* `MessagesSound`, `StatusesSound`, `EventsSound`, `DeliveriesSound` — nothing on the way is malformed
* `ElementsKept` — a payload's well-formed elements are returned, each once and in order

## Main results

* `elementsKept_iff` — when they are
-/

namespace A2ZCore

namespace Json

/-- `d.get(key)` of the fields of a dict. -/
def at_ (fields : List (String × Json)) (key : String) : Json := (fields.lookup key).getD .null

theorem at_eq_str_iff {fields : List (String × Json)} {key s : String} :
    at_ fields key = .str s ↔ fields.lookup key = some (.str s) := by
  cases h : fields.lookup key <;> simp [at_, h]

theorem index_eq_ok_iff {v w : Json} {key : String} :
    v.index key = .ok w ↔ ∃ fields, v = .obj fields ∧ fields.lookup key = some w := by
  cases v with
  | obj fields => cases h : fields.lookup key <;> simp [index, h]
  | _ => simp [index]

theorem asStr_eq_ok_iff {v : Json} {field s : String} : v.asStr field = .ok s ↔ v = .str s := by
  cases v <;> simp [asStr]

theorem asOptionalStr_eq_ok_iff {v : Json} {field : String} {s : Option String} :
    v.asOptionalStr field = .ok s ↔ v = ofOption s := by
  cases v <;> cases s <;> simp [asOptionalStr, ofOption]

end Json

namespace Omnichannel

open Harvest Json

/-! ### The items under a key -/

section Items

variable {β : Type}

/-- The items under a key. -/
def itemsOf (key : String) (v : Json) : Except PyErr (List Json) :=
  (v.getD key (.arr [])).bind Json.iterate

/-- What is read strictly of the items under a key. -/
def strictOf (key : String) (read : Json → Except PyErr (List β)) (v : Json) :
    Except PyErr (List β) :=
  (itemsOf key v).bind fun items => (items.mapM read).map List.flatten

/-- What can be read of the items under a key. -/
def readableOf (key : String) (find : Json → List β) : Json → List β :=
  ofPart (itemsOf key) fun items => items.flatMap find

/-- There are items under a key, though there may be none of them, and each is sound. -/
def EachOf (key : String) (Sound : Json → Prop) (v : Json) : Prop :=
  ∃ items, itemsOf key v = .ok items ∧ ∀ item ∈ items, Sound item

theorem reads_of {read : Json → Except PyErr (List β)} {find : Json → List β} {Sound : Json → Prop}
    (h : Reads read find Sound) (key : String) :
    Reads (strictOf key read) (readableOf key find) (EachOf key Sound) :=
  h.mapM.bind (itemsOf key)

/-- A walk over entries and what is in them reads the items of the items. -/
theorem walk_eq (key : String) (rawPayload : Json) (body : Json → Except PyErr (List β)) :
    (do
      let entries ← (← rawPayload.getD "entry" (.arr [])).iterate
      let collected ← entries.mapM fun entry => do
        let items ← (← entry.getD key (.arr [])).iterate
        items.mapM body
      return collected.flatten.flatten) = strictOf "entry" (strictOf key body) rawPayload := by
  have hentry : strictOf key body = fun entry => Except.map List.flatten (do
      let items ← (← entry.getD key (.arr [])).iterate
      items.mapM body) := by
    funext entry
    unfold strictOf itemsOf
    cases entry.getD key (.arr []) with
    | error e => rfl
    | ok v => cases hitems : v.iterate <;> simp [bind, Except.bind, Except.map, hitems]
  rw [hentry, strictOf, itemsOf]
  cases rawPayload.getD "entry" (.arr []) with
  | error e => rfl
  | ok v =>
    have hflatten : ∀ collected : Except PyErr (List (List (List β))),
        (collected.bind fun c => .ok c.flatten.flatten) =
          (collected.map (List.map List.flatten)).map List.flatten := by
      intro collected
      cases collected with
      | error e => rfl
      | ok c => simp [Except.bind, Except.map, List.flatten_flatten]
    refine congrArg (v.iterate.bind) (funext fun entries => ?_)
    rw [mapM_map]
    exact hflatten _

end Items

/-! ### WhatsApp -/

/-- A status. -/
def wellFormedStatus : Json → Option DeliveryStatusUpdate
  | .obj fields => match at_ fields "id", at_ fields "status" with
    | .str id, .str status => some ⟨id, status⟩
    | _, _ => none
  | _ => none

/-- The body of a message, if it is well formed. A message that is no text has a placeholder. -/
def whatsappBody (fields : List (String × Json)) : Option (Option String) :=
  match (fields.lookup "type").getD (.str "unknown") with
  | .str "text" => match (fields.lookup "text").getD (.obj []) with
    | .obj text => match at_ text "body" with
      | .null => some none
      | .str body => some (some body)
      | _ => none
    | _ => none
  | other => some (some ("[unsupported message type: " ++ other.toStr ++ "]"))

/-- A message, with the names of the contacts. -/
def whatsappMessage (nameOf : String → Option String) : Json → Option NormalizedInboundMessage
  | .obj fields => match at_ fields "from", at_ fields "id", whatsappBody fields with
    | .str sender, .str id, some body => some ⟨sender, id, nameOf sender, body, "text/plain", []⟩
    | _, _, _ => none
  | _ => none

/-- What the code reads of a status. -/
def readStatus (update : Json) : Except PyErr DeliveryStatusUpdate := do
  let id ← update.index "id"
  let status ← update.index "status"
  return { externalMessageId := ← id.asStr "external_message_id",
           status := ← status.asStr "status" }

theorem readStatus_eq_ok_iff {v : Json} {update : DeliveryStatusUpdate} :
    readStatus v = .ok update ↔ wellFormedStatus v = some update := by
  simp only [readStatus, bind_eq_ok, index_eq_ok_iff, asStr_eq_ok_iff]
  constructor
  · rintro ⟨_, ⟨fields, rfl, hid⟩, _, ⟨_, hfields, hstatus⟩, id, rfl, status, rfl, h⟩
    cases hfields
    cases h
    simp only [wellFormedStatus, at_eq_str_iff.mpr hid, at_eq_str_iff.mpr hstatus]
  · intro h
    unfold wellFormedStatus at h
    split at h
    · next fields =>
      split at h
      · next id status hid hstatus =>
        exact ⟨_, ⟨fields, rfl, at_eq_str_iff.mp hid⟩, _, ⟨fields, rfl, at_eq_str_iff.mp hstatus⟩, id,
          rfl, status, rfl, congrArg Except.ok (Option.some.inj h)⟩
      · exact nomatch h
    · exact nomatch h

/-! #### Messages -/

/-- The name of a contact, where it is a string. -/
def contactNameOf (contacts : List (Json × Json)) (number : String) : Option String :=
  match lookupContact contacts (.str number) with
  | .ok (.str name) => some name
  | _ => none

/-- The contact of a message, if there is one, has a name that is a string or null. -/
def Addressable (contacts : List (Json × Json)) (msg : Json) : Prop :=
  ∀ fields number, msg = .obj fields → at_ fields "from" = .str number →
    lookupContact contacts (.str number) = .ok (ofOption (contactNameOf contacts number))

/-- The body of a message, as `_normalize_message` reads it. -/
def readBody (fields : List (String × Json)) (msgType : Json) : Except PyErr Json :=
  match msgType with
  | .str "text" => do (← (Json.obj fields).getD "text" (.obj [])).getD "body" .null
  | other => pure (.str ("[unsupported message type: " ++ other.toStr ++ "]"))

theorem readBody_eq_ok_iff {fields : List (String × Json)} {body : Option String} :
    readBody fields ((fields.lookup "type").getD (.str "unknown")) = .ok (ofOption body) ↔
      whatsappBody fields = some body := by
  unfold whatsappBody
  generalize (fields.lookup "type").getD (.str "unknown") = msgType
  unfold readBody
  split
  · have htext : (Json.obj fields).getD "text" (.obj []) =
        .ok ((fields.lookup "text").getD (.obj [])) := rfl
    rw [htext]
    generalize (fields.lookup "text").getD (.obj []) = text
    cases text with
    | obj text =>
      show (Except.ok (at_ text "body") : Except PyErr Json) = _ ↔ _
      cases hbody : at_ text "body" <;> cases body <;> simp [ofOption, hbody]
    | _ => simp [getD, get?, bind, Except.bind]
  · cases body <;> simp [ofOption, pure, Except.pure]

theorem contactNameOf_eq {contacts : List (Json × Json)} {number : String} {name : Option String}
    (h : lookupContact contacts (.str number) = .ok (ofOption name)) :
    contactNameOf contacts number = name := by
  unfold contactNameOf
  rw [h]
  cases name <;> rfl

theorem whatsappNormalizeMessage_eq_ok_iff {contacts : List (Json × Json)} {msg : Json}
    {m : NormalizedInboundMessage} : whatsappNormalizeMessage contacts msg = .ok m ↔
      Addressable contacts msg ∧ whatsappMessage (contactNameOf contacts) msg = some m := by
  cases msg with
  | obj fields =>
    have hread : whatsappNormalizeMessage contacts (.obj fields) = (do
        let fromNumber ← (Json.obj fields).index "from"
        let externalMessageId ← (Json.obj fields).index "id"
        let bodyText ← readBody fields ((fields.lookup "type").getD (.str "unknown"))
        let displayName ← lookupContact contacts fromNumber
        return {
          externalId := ← fromNumber.asStr "external_id"
          externalMessageId := ← externalMessageId.asStr "external_message_id"
          displayName := ← displayName.asOptionalStr "display_name"
          bodyText := ← bodyText.asOptionalStr "body_text"
          contentType := "text/plain"
          attachments := [] }) := by
      refine bind_congr fun fromNumber => bind_congr fun externalMessageId => ?_
      have htype : (Json.obj fields).getD "type" (.str "unknown") =
          .ok ((fields.lookup "type").getD (.str "unknown")) := rfl
      rw [htype]
      generalize (fields.lookup "type").getD (.str "unknown") = msgType
      -- the continuation stands in either branch of the code's match
      unfold readBody
      show (match msgType with
        | .str "text" => _
        | _ => _ : Except PyErr NormalizedInboundMessage) = _
      split
      · exact (bind_assoc _ _ _).symm
      · rfl
    rw [hread]
    simp only [bind_eq_ok, index_eq_ok_iff, asStr_eq_ok_iff, asOptionalStr_eq_ok_iff]
    constructor
    · rintro ⟨_, ⟨_, hfields, hfrom⟩, _, ⟨_, hfields', hid⟩, _, hbody, _, hcontact, sender, rfl, id,
        rfl, name, rfl, body, rfl, h⟩
      cases hfields
      cases hfields'
      cases h
      have hname := contactNameOf_eq hcontact
      have hsender := at_eq_str_iff.mpr hfrom
      constructor
      · intro fields' number hfields hnumber
        cases hfields
        obtain rfl : sender = number := Json.str.inj (hsender.symm.trans hnumber)
        rw [hname]
        exact hcontact
      · simp only [whatsappMessage, hsender, at_eq_str_iff.mpr hid, readBody_eq_ok_iff.mp hbody, hname]
    · rintro ⟨haddressable, h⟩
      simp only [whatsappMessage] at h
      split at h
      · next sender id body hsender hid hbody =>
        exact ⟨_, ⟨fields, rfl, at_eq_str_iff.mp hsender⟩, _, ⟨fields, rfl, at_eq_str_iff.mp hid⟩, _,
          readBody_eq_ok_iff.mpr hbody, _, haddressable fields sender rfl hsender, sender, rfl, id, rfl,
          _, rfl, body, rfl, congrArg Except.ok (Option.some.inj h)⟩
      · exact nomatch h
  | _ => simp [whatsappNormalizeMessage, index, bind, Except.bind, whatsappMessage]

/-- The contacts of a change that can be read. -/
def readableContacts (value : Json) : List (Json × Json) :=
  ofPart (itemsOf "contacts") (fun items => items.filterMap fun c => (contactName c).toOption) value

/-- The contacts of a change. -/
def contactsOf (value : Json) : Except PyErr (List (Json × Json)) :=
  (itemsOf "contacts" value).bind fun items => items.mapM contactName

theorem reads_contacts : Reads contactsOf readableContacts
    (EachOf "contacts" fun c => ∃ contact, contactName c = .ok contact) := by
  refine (Reads.mapM_one (fun c => Iff.rfl) fun {c contact} h => ?_).bind (itemsOf "contacts")
  rw [h]
  rfl

/-- The value of a change. -/
def valueOf (change : Json) : Except PyErr Json := change.getD "value" (.obj [])

/-- The messages of a change. -/
def valueMessages (value : Json) : List NormalizedInboundMessage :=
  ofPart (itemsOf "messages") (fun items =>
    items.filterMap (whatsappMessage (contactNameOf (readableContacts value)))) value

/-- The contacts and the messages of a change are well formed. -/
def ValueSound (value : Json) : Prop :=
  ∃ contacts, contactsOf value = .ok contacts ∧
    EachOf "messages" (fun msg => Addressable contacts msg ∧
      (whatsappMessage (contactNameOf contacts) msg).isSome) value

theorem reads_value : Reads (fun value => (contactsOf value).bind fun contacts =>
    (itemsOf "messages" value).bind fun items => items.mapM (whatsappNormalizeMessage contacts))
    valueMessages ValueSound := by
  have hmessages : ∀ contacts, Reads (fun value => (itemsOf "messages" value).bind fun items =>
      items.mapM (whatsappNormalizeMessage contacts))
      (ofPart (itemsOf "messages") fun items =>
        items.filterMap (whatsappMessage (contactNameOf contacts)))
      (EachOf "messages" fun msg => Addressable contacts msg ∧
        (whatsappMessage (contactNameOf contacts) msg).isSome) := by
    intro contacts
    refine (Reads.mapM_one (fun msg => ?_) fun {msg m} h => ?_).bind (itemsOf "messages")
    · simp only [whatsappNormalizeMessage_eq_ok_iff, exists_and_left, Option.isSome_iff_exists]
    · exact (whatsappNormalizeMessage_eq_ok_iff.mp h).2
  exact Reads.within hmessages fun h => (reads_contacts.eq_of_ok h).symm

/-- The well-formed messages of a payload. -/
def whatsappMessages : Json → List NormalizedInboundMessage :=
  readableOf "entry" (readableOf "changes" (ofPart valueOf valueMessages))

/-- Nothing on the way to the messages of a payload is malformed. -/
def MessagesSound : Json → Prop :=
  EachOf "entry" (EachOf "changes" fun change => ∃ value, valueOf change = .ok value ∧ ValueSound value)

theorem reads_whatsappNormalizeInbound :
    Reads whatsappNormalizeInbound whatsappMessages MessagesSound := by
  refine (reads_of (reads_of (reads_value.bind valueOf) "changes") "entry").congr fun rawPayload => ?_
  refine (walk_eq "changes" rawPayload _).trans ?_
  refine congrArg (fun body => strictOf "entry" (strictOf "changes" body) rawPayload)
    (funext fun change => bind_congr fun value => ?_)
  show _ = ((value.getD "contacts" (.arr []) >>= Json.iterate) >>= fun items =>
    items.mapM contactName) >>= fun contacts => (value.getD "messages" (.arr []) >>= Json.iterate) >>=
      fun items => items.mapM (whatsappNormalizeMessage contacts)
  simp only [bind_assoc]

/-- The well-formed statuses of a payload. -/
def whatsappStatuses : Json → List DeliveryStatusUpdate :=
  readableOf "entry" (readableOf "changes" (ofPart valueOf
    (ofPart (itemsOf "statuses") fun items => items.filterMap wellFormedStatus)))

/-- Nothing on the way to the statuses of a payload is malformed. -/
def StatusesSound : Json → Prop :=
  EachOf "entry" (EachOf "changes" fun change => ∃ value, valueOf change = .ok value ∧
    EachOf "statuses" (fun status => (wellFormedStatus status).isSome) value)

theorem reads_whatsappInterpretDeliveryWebhook :
    Reads whatsappInterpretDeliveryWebhook whatsappStatuses StatusesSound := by
  have hstatuses : Reads (fun value => (itemsOf "statuses" value).bind fun items =>
      items.mapM readStatus)
      (ofPart (itemsOf "statuses") fun items => items.filterMap wellFormedStatus)
      (EachOf "statuses" fun status => (wellFormedStatus status).isSome) := by
    refine (Reads.mapM_one (fun v => ?_) fun h => readStatus_eq_ok_iff.mp h).bind (itemsOf "statuses")
    simp only [readStatus_eq_ok_iff, Option.isSome_iff_exists]
  refine (reads_of (reads_of (hstatuses.bind valueOf) "changes") "entry").congr fun rawPayload => ?_
  refine (walk_eq "changes" rawPayload _).trans ?_
  refine congrArg (fun body => strictOf "entry" (strictOf "changes" body) rawPayload)
    (funext fun change => bind_congr fun value => ?_)
  rw [itemsOf]
  exact (bind_assoc _ _ _).symm

/-! ### Messenger -/

/-- The text of a message, or what stands for its attachment. -/
def messengerText (message : List (String × Json)) : Option String :=
  match at_ message "text" with
  | .str text => some (if text = "" then "[unsupported message type: attachment]" else text)
  | text => if text.truthy then none else some "[unsupported message type: attachment]"

/-- A customer's message, from its sender's and its own fields. -/
def messengerMessageOf (sender message : List (String × Json)) : Option NormalizedInboundMessage :=
  match at_ sender "id", at_ message "mid", messengerText message with
  | .str id, .str mid, some text =>
    if id = "" ∨ mid = "" then none else some ⟨id, mid, none, some text, "text/plain", []⟩
  | _, _, _ => none

/-- The message of an event, if there is one of a customer's. -/
def messengerMessage : Json → Option NormalizedInboundMessage
  | .obj event => match at_ event "message", at_ event "sender" with
    | .obj message, .obj sender =>
      if (at_ message "is_echo").truthy then none else messengerMessageOf sender message
    | _, _ => none
  | _ => none

/-- The sender's and the message's identifiers are strings, if both are there, and so is the text. -/
def SenderSound (sender message : List (String × Json)) : Prop :=
  (at_ sender "id").truthy → (at_ message "mid").truthy → (∃ id, at_ sender "id" = .str id) ∧
    (∃ mid, at_ message "mid" = .str mid) ∧ (messengerText message).isSome

/-- The event is a dict, its message one unless it is missing, and if that is a customer's, its sender is
well formed too. -/
def EventSound (event : Json) : Prop :=
  ∃ fields, event = .obj fields ∧ ((at_ fields "message").truthy → ∃ message,
    at_ fields "message" = .obj message ∧ (¬(at_ message "is_echo").truthy → ∃ sender,
      (fields.lookup "sender").getD (.obj []) = .obj sender ∧ SenderSound sender message))

theorem messengerBodyText_eq_ok_iff {message : List (String × Json)} {body : Option String} :
    messengerBodyText (.obj message) = .ok (ofOption body) ↔
      ∃ text, messengerText message = some text ∧ some text = body := by
  have hread : messengerBodyText (.obj message) = .ok (if (at_ message "text").truthy then
      at_ message "text" else .str "[unsupported message type: attachment]") := rfl
  rw [hread, messengerText]
  -- a text that is true and no string cannot be read
  have hother : ∀ v : Json, (∀ s, v ≠ .str s) →
      ((Except.ok (if v.truthy then v else .str "[unsupported message type: attachment]") :
        Except PyErr Json) = .ok (ofOption body) ↔ ∃ text,
          (if v.truthy then none else some "[unsupported message type: attachment]") = some text ∧
            some text = body) := by
    intro v hv
    by_cases htruthy : v.truthy
    · cases body with
      | none =>
        have hnull : v ≠ .null := fun h => absurd (h ▸ htruthy) (by decide)
        simp [htruthy, ofOption, hnull]
      | some s => simp [htruthy, ofOption, hv s]
    · cases body <;> simp [htruthy, ofOption]
  cases htext : at_ message "text" with
  | str text =>
    by_cases hempty : text = "" <;> cases body <;> simp [truthy, ofOption, hempty]
  | _ => exact hother _ (by simp)

/-- What is read of a customer's message. -/
theorem messengerNormalizeMessage_eq_ok_iff {fields message : List (String × Json)}
    {r : Option NormalizedInboundMessage} :
    messengerNormalizeMessage (.obj fields) (.obj message) = .ok r ↔
      ∃ sender, (fields.lookup "sender").getD (.obj []) = .obj sender ∧
        SenderSound sender message ∧ messengerMessageOf sender message = r := by
  have hread : messengerNormalizeMessage (.obj fields) (.obj message) =
      ((fields.lookup "sender").getD (.obj [])).getD "id" .null >>= fun externalId =>
        if !externalId.truthy || !(at_ message "mid").truthy then .ok none
        else do
          let bodyText ← messengerBodyText (.obj message)
          return some {
            externalId := ← externalId.asStr "external_id"
            externalMessageId := ← (at_ message "mid").asStr "external_message_id"
            displayName := none
            bodyText := ← bodyText.asOptionalStr "body_text"
            contentType := "text/plain"
            attachments := [] } := rfl
  rw [hread]
  cases hsender : (fields.lookup "sender").getD (.obj []) with
  | obj sender =>
    have hid : (Json.obj sender).getD "id" .null = .ok (at_ sender "id") := rfl
    rw [hid]
    show (if (!(at_ sender "id").truthy || !(at_ message "mid").truthy) = true then
      (.ok none : Except PyErr (Option NormalizedInboundMessage)) else _) = _ ↔ _
    simp only [Json.obj.injEq, exists_eq_left']
    by_cases hboth : (at_ sender "id").truthy ∧ (at_ message "mid").truthy
    · rw [if_neg (by simp [hboth])]
      simp only [bind_eq_ok, asStr_eq_ok_iff, asOptionalStr_eq_ok_iff]
      constructor
      · rintro ⟨_, hbody, id, hid, mid, hmid, body, rfl, h⟩
        obtain ⟨text, htext, rfl⟩ := messengerBodyText_eq_ok_iff.mp hbody
        refine ⟨fun _ _ => ⟨⟨id, hid⟩, ⟨mid, hmid⟩, by simp [htext]⟩, ?_⟩
        rw [hid, hmid] at hboth
        simp only [truthy, bne_iff_ne] at hboth
        rw [messengerMessageOf, hid, hmid, htext]
        simp only [hboth.1, hboth.2, or_self, if_false]
        exact Except.ok.inj h
      · rintro ⟨hsound, h⟩
        obtain ⟨⟨id, hid⟩, ⟨mid, hmid⟩, htext⟩ := hsound hboth.1 hboth.2
        obtain ⟨text, htext⟩ := Option.isSome_iff_exists.mp htext
        refine ⟨_, messengerBodyText_eq_ok_iff.mpr ⟨text, htext, rfl⟩, id, hid, mid, hmid, some text, rfl,
          ?_⟩
        rw [hid, hmid] at hboth
        simp only [truthy, bne_iff_ne] at hboth
        rw [messengerMessageOf, hid, hmid, htext] at h
        simp only [hboth.1, hboth.2, or_self, if_false] at h
        exact congrArg Except.ok h
    · rw [if_pos (by simpa [Classical.or_iff_not_imp_left] using hboth)]
      have hnone : messengerMessageOf sender message = none := by
        unfold messengerMessageOf
        split
        · next id mid text hid hmid _ =>
          rw [hid, hmid] at hboth
          simp only [truthy, bne_iff_ne, ne_eq, not_and_or, not_not] at hboth
          exact if_pos hboth
        · rfl
      rw [hnone, Except.ok.injEq]
      exact ⟨fun h => ⟨fun h₁ h₂ => absurd ⟨h₁, h₂⟩ hboth, h⟩, fun h => h.2⟩
  | _ => simp [getD, get?, bind, Except.bind]

theorem messengerMessage_of_not_truthy {fields : List (String × Json)}
    (h : ¬(at_ fields "message").truthy) : messengerMessage (.obj fields) = none := by
  unfold messengerMessage
  dsimp only
  split
  · next message sender hmessage _ =>
    -- an empty message has no identifier
    rw [hmessage] at h
    obtain rfl : message = [] := by simpa [truthy] using h
    have hnone : messengerMessageOf sender [] = none := by
      unfold messengerMessageOf
      split
      · next hmid _ => cases hmid
      · rfl
    rw [hnone]
    exact ite_self none
  · rfl

/-- What is read of a customer's message, once the sender is. -/
theorem messengerMessage_eq {fields message : List (String × Json)}
    (hmessage : at_ fields "message" = .obj message) (hecho : ¬(at_ message "is_echo").truthy)
    {sender : List (String × Json)} (hsender : (fields.lookup "sender").getD (.obj []) = .obj sender) :
    messengerMessage (.obj fields) = messengerMessageOf sender message := by
  unfold messengerMessage
  dsimp only
  rw [hmessage]
  cases hlookup : fields.lookup "sender" with
  | none =>
    rw [hlookup] at hsender
    cases hsender
    have hnull : at_ fields "sender" = .null := by rw [at_, hlookup, Option.getD_none]
    rw [hnull]
    rfl
  | some v =>
    rw [hlookup] at hsender
    have hv : at_ fields "sender" = .obj sender := by
      rw [at_, hlookup]
      exact hsender
    rw [hv]
    exact if_neg hecho

/-- What is read of an event. -/
theorem messengerNormalizeEvent_eq_ok_iff {event : Json} {r : Option NormalizedInboundMessage} :
    messengerNormalizeEvent event = .ok r ↔ EventSound event ∧ messengerMessage event = r := by
  cases event with
  | obj fields =>
    have hread : messengerNormalizeEvent (.obj fields) =
        if !(at_ fields "message").truthy then .ok none
        else (at_ fields "message").getD "is_echo" .null >>= fun isEcho =>
          if isEcho.truthy then .ok none
          else messengerNormalizeMessage (.obj fields) (at_ fields "message") := rfl
    rw [hread]
    by_cases htruthy : (at_ fields "message").truthy
    · rw [if_neg (by simp [htruthy])]
      cases hmessage : at_ fields "message" with
      | obj message =>
        show (if (at_ message "is_echo").truthy = true then
          (.ok none : Except PyErr (Option NormalizedInboundMessage)) else _) = _ ↔ _
        by_cases hecho : (at_ message "is_echo").truthy
        · have hnone : messengerMessage (.obj fields) = none := by
            unfold messengerMessage
            dsimp only
            rw [hmessage]
            cases at_ fields "sender" <;> first | rfl | exact if_pos hecho
          rw [if_pos hecho, hnone, Except.ok.injEq]
          exact ⟨fun h => ⟨⟨fields, rfl, fun _ => ⟨message, hmessage, fun h' => absurd hecho h'⟩⟩, h⟩,
            fun h => h.2⟩
        · rw [if_neg hecho, messengerNormalizeMessage_eq_ok_iff]
          constructor
          · rintro ⟨sender, hsender, hsound, h⟩
            exact ⟨⟨fields, rfl, fun _ => ⟨message, hmessage, fun _ => ⟨sender, hsender, hsound⟩⟩⟩,
              (messengerMessage_eq hmessage hecho hsender).trans h⟩
          · rintro ⟨⟨_, hfields, hsound⟩, h⟩
            cases hfields
            obtain ⟨message', hmessage', hsound⟩ := hsound htruthy
            obtain rfl : message = message' := Json.obj.inj (hmessage.symm.trans hmessage')
            obtain ⟨sender, hsender, hsound⟩ := hsound hecho
            exact ⟨sender, hsender, hsound, (messengerMessage_eq hmessage hecho hsender).symm.trans h⟩
      | _ =>
        rw [hmessage] at htruthy
        simp [getD, get?, bind, Except.bind, EventSound, hmessage, htruthy]
    · rw [if_pos (by simp [htruthy]), messengerMessage_of_not_truthy htruthy, Except.ok.injEq]
      exact ⟨fun h => ⟨⟨fields, rfl, fun h' => absurd h' htruthy⟩, h⟩, fun h => h.2⟩
  | _ =>
    simp [messengerNormalizeEvent, getD, get?, bind, Except.bind, EventSound]

/-- The well-formed messages of a payload's customers. -/
def messengerMessages : Json → List NormalizedInboundMessage :=
  readableOf "entry" (readableOf "messaging" fun event => (messengerMessage event).toList)

/-- Nothing on the way to the messages of a payload is malformed. -/
def EventsSound : Json → Prop := EachOf "entry" (EachOf "messaging" EventSound)

theorem reads_messengerNormalizeInbound :
    Reads messengerNormalizeInbound messengerMessages EventsSound := by
  have hevent : Reads (fun event => (messengerNormalizeEvent event).map Option.toList)
      (fun event => (messengerMessage event).toList) EventSound := by
    constructor
    · intro event
      cases h : messengerNormalizeEvent event with
      | error e =>
        have hsound : ¬EventSound event := fun hsound => by
          have hok := messengerNormalizeEvent_eq_ok_iff.mpr ⟨hsound, rfl⟩
          rw [h] at hok
          exact nomatch hok
        simp [Except.map, hsound]
      | ok r => simp [Except.map, (messengerNormalizeEvent_eq_ok_iff.mp h).1]
    · intro event xs h
      cases hr : messengerNormalizeEvent event with
      | error e => simp [hr, Except.map] at h
      | ok r =>
        rw [hr] at h
        cases h
        rw [(messengerNormalizeEvent_eq_ok_iff.mp hr).2]
  exact (reads_of (reads_of hevent "messaging") "entry").congr fun rawPayload =>
    walk_eq "messaging" rawPayload _

/-- The identifiers that a receipt is for. -/
def receipt (event : Json) : Except PyErr (List Json) := do
  let delivery ← event.getD "delivery" .null
  if !delivery.truthy then return [] else itemsOf "mids" delivery

/-- An identifier of a receipt. -/
def deliveredUpdate : Json → Option DeliveryStatusUpdate
  | .str mid => some ⟨mid, "delivered"⟩
  | _ => none

/-- The well-formed identifiers of a payload's receipts. -/
def messengerDeliveries : Json → List DeliveryStatusUpdate :=
  readableOf "entry" (readableOf "messaging" (ofPart receipt fun mids => mids.filterMap deliveredUpdate))

/-- Nothing on the way to the receipts of a payload is malformed. -/
def DeliveriesSound : Json → Prop :=
  EachOf "entry" (EachOf "messaging" fun event => ∃ mids, receipt event = .ok mids ∧
    ∀ mid ∈ mids, (deliveredUpdate mid).isSome)

theorem reads_messengerInterpretDeliveryWebhook :
    Reads messengerInterpretDeliveryWebhook messengerDeliveries DeliveriesSound := by
  let readMid : Json → Except PyErr DeliveryStatusUpdate := fun mid => do
    return { externalMessageId := ← mid.asStr "external_message_id", status := "delivered" }
  have hmid : ∀ {mid : Json} {update : DeliveryStatusUpdate},
      readMid mid = .ok update ↔ deliveredUpdate mid = some update := by
    intro mid update
    cases mid <;> simp [readMid, asStr, deliveredUpdate, bind, Except.bind, pure, Except.pure]
  have hevent : Reads (fun event => (receipt event).bind fun mids => mids.mapM readMid)
      (ofPart receipt fun mids => mids.filterMap deliveredUpdate)
      fun event => ∃ mids, receipt event = .ok mids ∧ ∀ mid ∈ mids, (deliveredUpdate mid).isSome := by
    refine (Reads.mapM_one (fun mid => ?_) fun h => hmid.mp h).bind receipt
    simp only [hmid, Option.isSome_iff_exists]
  refine (reads_of (reads_of hevent "messaging") "entry").congr fun rawPayload => ?_
  refine (walk_eq "messaging" rawPayload _).trans ?_
  refine congrArg (fun body => strictOf "entry" (strictOf "messaging" body) rawPayload)
    (funext fun event => ?_)
  unfold messengerDelivered receipt
  cases event.getD "delivery" .null with
  | error e => rfl
  | ok delivery =>
    show (if (!delivery.truthy) = true then _ else _ : Except PyErr (List DeliveryStatusUpdate)) =
      (if (!delivery.truthy) = true then _ else _ : Except PyErr (List Json)).bind _
    split
    · rfl
    · exact (bind_assoc _ _ _).symm

/-! ### A payload's elements -/

/-- The well-formed messages and statuses of a payload are returned, each once and in order, whichever of
the adapters it is for. -/
structure ElementsKept (rawPayload : Json) : Prop where
  messages : returned (whatsappNormalizeInbound rawPayload) = whatsappMessages rawPayload
  statuses :
    returned (whatsappInterpretDeliveryWebhook rawPayload) = whatsappStatuses rawPayload
  events : returned (messengerNormalizeInbound rawPayload) = messengerMessages rawPayload
  receipts :
    returned (messengerInterpretDeliveryWebhook rawPayload) = messengerDeliveries rawPayload

/-- They are, exactly when each walk over the payload either meets nothing malformed or has nothing well
formed to return. -/
theorem elementsKept_iff (rawPayload : Json) : ElementsKept rawPayload ↔
    (MessagesSound rawPayload ∨ whatsappMessages rawPayload = []) ∧
    (StatusesSound rawPayload ∨ whatsappStatuses rawPayload = []) ∧
    (EventsSound rawPayload ∨ messengerMessages rawPayload = []) ∧
    (DeliveriesSound rawPayload ∨ messengerDeliveries rawPayload = []) := by
  rw [← reads_whatsappNormalizeInbound.returned_eq_iff,
    ← reads_whatsappInterpretDeliveryWebhook.returned_eq_iff,
    ← reads_messengerNormalizeInbound.returned_eq_iff,
    ← reads_messengerInterpretDeliveryWebhook.returned_eq_iff]
  exact ⟨fun ⟨h₁, h₂, h₃, h₄⟩ => ⟨h₁, h₂, h₃, h₄⟩, fun ⟨h₁, h₂, h₃, h₄⟩ => ⟨h₁, h₂, h₃, h₄⟩⟩

/-- A message without a sender, and a message. -/
def mixedPayload : Json :=
  .obj [("entry", .arr [.obj [("changes", .arr [.obj [("value", .obj [("messages", .arr [
    .obj [("id", .str "wamid.1"), ("type", .str "text")],
    .obj [("from", .str "15550100"), ("id", .str "wamid.2"), ("type", .str "text"),
      ("text", .obj [("body", .str "Hi")])]])])]])]])]

/-- The first of the two takes the other one with it. -/
theorem not_elementsKept : ¬∀ rawPayload : Json, ElementsKept rawPayload := by
  intro h
  have hlength := congrArg List.length (h mixedPayload).messages
  exact absurd hlength (by decide +kernel)

end Omnichannel

end A2ZCore
