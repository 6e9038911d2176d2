import A2ZCore.Omnichannel.ThreadWalk

/-!
# Cursors from outside

A cursor comes back from the client as text. `_decode_cursor` takes any text that is the base64 of a
JSON value with two parts, the first a timestamp or null and the second a string; the rest is answered
as a malformed query. What it takes goes into the query, where it has to suit the statement and the
driver.

The inbox compares a null timestamp, since conversations may have none. The thread does not: a null
timestamp is decoded and then fails where the statement is built.

The standard library's decoders and the driver's encoders are the fields of `CursorCodec`.

## Main definitions

* `CursorCodec` — the decoders and the driver
* `CursorCodec.decodeCursor` — `_decode_cursor`, of a text
* `listConversationsFrom`, `getConversationFrom` — the calls with a text
* `ClientLevel` — the call gives a page or an `InvalidQueryError`

## Main results

* `clientLevel_iff` — which cursors are answered so
-/

namespace A2ZCore.Omnichannel

/-! ### Decoding -/

/-- A Python string: code points, surrogates included. -/
abbrev Text := List (Fin 0x110000)

/-- What `json.loads` gives. Of an object the keys are here, and of a number that it is one. -/
inductive Parsed where
  | null
  | bool (b : Bool)
  | number
  | str (s : Text)
  | arr (items : List Parsed)
  | obj (keys : List Text)

/-- `a, b = value`. -/
def Parsed.unpack : Parsed → Option (Parsed × Parsed)
  | .str [a, b] => some (.str [a], .str [b])
  | .arr [a, b] => some (a, b)
  | .obj [a, b] => some (.str a, .str b)
  | _ => none

/-- A `datetime`, with its offset in microseconds where it has one. -/
structure Stamp where
  wall : DateTime
  offset : Option ℤ
  deriving DecidableEq, Repr

/-- The standard library and the driver: `loads` is `base64.urlsafe_b64decode`, `bytes.decode` and
`json.loads`, and `timestamptz` and `text` are what the driver and the server make of an argument. A
function that raises gives `none`. -/
structure CursorCodec where
  loads : Text → Option Parsed
  fromisoformat : Text → Option Stamp
  repr : Text → String
  timestamptz : Stamp → Option DateTime
  text : Text → Option String

namespace CursorCodec

variable (codec : CursorCodec)

/-- `cursor + "=" * (-len(cursor) % 4)`. -/
def padded (cursor : Text) : Text :=
  cursor ++ List.replicate ((-(cursor.length : ℤ)) % 4).toNat 61

/-- `datetime.fromisoformat(ts_raw) if ts_raw is not None else None`. -/
def timestamp : Parsed → Option (Option Stamp)
  | .null => some none
  | .str s => (codec.fromisoformat s).map some
  | _ => none

/-- The body of the `try` in `_decode_cursor`. -/
def unpacked (cursor : Text) : Option (Option Stamp × Parsed) := do
  let (tsRaw, id) ← (← codec.loads (padded cursor)).unpack
  let ts ← codec.timestamp tsRaw
  return (ts, id)

/-- `_decode_cursor`. -/
def decodeCursor (cursor : Text) : Except PyErr (Option Stamp × Text) :=
  match codec.unpacked cursor with
  | some (ts, .str id) => .ok (ts, id)
  | _ => .error ⟨.invalidQueryError, "Malformed cursor: " ++ codec.repr cursor⟩

/-- The timestamp as the server has it. -/
def sentTimestamp : Option Stamp → Option (Option DateTime)
  | none => some none
  | some ts => (codec.timestamptz ts).map some

/-- The place as the server has it. -/
def sent (ts : Option Stamp) (id : Text) : Except PyErr Cursor :=
  match codec.sentTimestamp ts, codec.text id with
  | some ts, some id => .ok (encodeCursor ts id)
  | _, _ => .error ⟨.dbApiError, "invalid input for query argument"⟩

end CursorCodec

/-! ### The calls -/

section Calls

variable {ι : Type} [LinearOrder ι] (codec : CursorCodec) (collate : String ↪ ι)

/-- `list_conversations`. -/
def listConversationsFrom (search : TextSearch) (membership : Option Core.Membership) (db : Db)
    (filter : InboxFilter) (sort : String) (limit : ℤ) (cursor : Option Text) :
    Except PyErr ConversationPage := do
  if membership.isNone then throw ⟨.notFoundError, "Not a member of this org"⟩
  if sort ∉ sortFields then
    throw ⟨.invalidQueryError, "Unsupported sort " ++ pyRepr sort ++
      "; use one of ('-last_message_at', 'last_message_at')"⟩
  match cursor with
  | none => listConversations collate search membership db filter sort limit none
  | some cursor =>
    let (ts, id) ← codec.decodeCursor cursor
    let place ← codec.sent ts id
    listConversations collate search membership db filter sort limit (some place)

/-- The place that `before` names. The statement is built before the driver has the arguments. -/
def CursorCodec.startBefore : Option Text → Except PyErr (Option (DateTime × String))
  | none => .ok none
  | some cursor => do
    let (ts, id) ← codec.decodeCursor cursor
    if ts.isNone then throw noComparison
    let place ← codec.sent ts id
    Omnichannel.startBefore (some place)

/-- `get_conversation`. -/
def getConversationFrom (sign : String → String) (membership : Option Core.Membership) (db : Db)
    (orgId conversationId : String) (limit : ℤ) (before : Option Text) :
    Except PyErr ConversationDetail :=
  getConversation collate sign membership db orgId conversationId limit (codec.startBefore before)

end Calls

/-! ### What is answered -/

/-- A page, or a client error about the query. -/
def ClientLevel {α : Type} : Except PyErr α → Prop
  | .ok _ => True
  | .error e => e.cls = .invalidQueryError

/-- The statement and the driver take what a cursor decodes to. -/
def CursorCodec.Suits (codec : CursorCodec) (nullable : Bool) (cursor : Text) : Prop :=
  ∀ ts id, codec.decodeCursor cursor = .ok (ts, id) →
    (nullable = true ∨ ts.isSome) ∧ (∀ t ∈ ts, (codec.timestamptz t).isSome) ∧ (codec.text id).isSome

namespace CursorCodec

variable {codec : CursorCodec}

/-- A cursor that does not decode is a client error. -/
theorem cls_of_decodeCursor {cursor : Text} {e : PyErr} (h : codec.decodeCursor cursor = .error e) :
    e.cls = .invalidQueryError := by
  unfold decodeCursor at h
  split at h
  · cases h
  · rw [← Except.error.inj h]

/-- What the driver takes is sent. -/
theorem sent_of_isSome {ts : Option Stamp} {id : Text}
    (hts : ∀ t ∈ ts, (codec.timestamptz t).isSome) (hid : (codec.text id).isSome) :
    ∃ ts' id', codec.sent ts id = .ok (encodeCursor ts' id') ∧ ts'.isSome = ts.isSome := by
  obtain ⟨id', hid⟩ := Option.isSome_iff_exists.mp hid
  cases ts with
  | none => exact ⟨none, id', by simp only [sent, sentTimestamp, hid], rfl⟩
  | some t =>
    obtain ⟨t', ht⟩ := Option.isSome_iff_exists.mp (hts t rfl)
    exact ⟨some t', id', by simp only [sent, sentTimestamp, ht, hid, Option.map_some], rfl⟩

/-- What the driver does not take is its error. -/
theorem sent_of_not {ts : Option Stamp} {id : Text}
    (h : ¬((∀ t ∈ ts, (codec.timestamptz t).isSome) ∧ (codec.text id).isSome)) :
    codec.sent ts id = .error ⟨.dbApiError, "invalid input for query argument"⟩ := by
  unfold sent
  split
  · next ts' id' hts hid =>
    refine absurd ⟨?_, by rw [hid]; rfl⟩ h
    rintro t rfl
    obtain ⟨t', ht, -⟩ := Option.map_eq_some_iff.mp hts
    rw [ht]
    rfl
  · rfl

end CursorCodec

section Answers

variable {ι : Type} [LinearOrder ι] (codec : CursorCodec) (collate : String ↪ ι)
  (search : TextSearch) (sign : String → String) (membership : Core.Membership) (db : Db)

/-- The inbox answers a place. -/
theorem listConversations_place (filter : InboxFilter) {sort : String} (hsort : sort ∈ sortFields)
    (limit : ℤ) (ts : Option DateTime) (id : String) :
    ∃ page, listConversations collate search (some membership) db filter sort limit
      (some (encodeCursor ts id)) = .ok page := by
  unfold listConversations
  simp only [Option.isNone_some, Bool.false_eq_true, if_false, not_not.mpr hsort]
  exact ⟨_, rfl⟩

/-- The inbox answers a cursor exactly when it is malformed, or suits the query. -/
theorem clientLevel_list_iff (filter : InboxFilter) (sort : String) (limit : ℤ) (cursor : Text) :
    ClientLevel (listConversationsFrom codec collate search (some membership) db filter sort limit
      (some cursor)) ↔ sort ∉ sortFields ∨ codec.Suits true cursor := by
  by_cases hsort : sort ∈ sortFields
  · have hcall : listConversationsFrom codec collate search (some membership) db filter sort limit
        (some cursor) = (do
          let (ts, id) ← codec.decodeCursor cursor
          let place ← codec.sent ts id
          listConversations collate search (some membership) db filter sort limit (some place)) := by
      unfold listConversationsFrom
      simp only [Option.isNone_some, Bool.false_eq_true, if_false, not_not.mpr hsort]
    rw [hcall, or_iff_right (not_not.mpr hsort)]
    cases hdecode : codec.decodeCursor cursor with
    | error e =>
      refine iff_of_true (codec.cls_of_decodeCursor hdecode) fun ts id h => ?_
      rw [hdecode] at h
      cases h
    | ok place =>
      obtain ⟨ts, id⟩ := place
      show ClientLevel (codec.sent ts id >>= _) ↔ _
      by_cases hsuits : (∀ t ∈ ts, (codec.timestamptz t).isSome) ∧ (codec.text id).isSome
      · obtain ⟨ts', id', hsent, -⟩ := codec.sent_of_isSome hsuits.1 hsuits.2
        obtain ⟨page, hpage⟩ := listConversations_place collate search membership db filter hsort limit
          ts' id'
        rw [hsent]
        refine iff_of_true ?_ fun ts'' id'' h => ?_
        · show ClientLevel (listConversations collate search (some membership) db filter sort limit
            (some (encodeCursor ts' id')))
          rw [hpage]
          trivial
        · rw [hdecode] at h
          cases h
          exact ⟨.inl rfl, hsuits⟩
      · rw [codec.sent_of_not hsuits]
        refine iff_of_false (fun h => ?_) fun h => hsuits (h ts id hdecode).2
        cases h
  · have hcall : listConversationsFrom codec collate search (some membership) db filter sort limit
        (some cursor) = .error ⟨.invalidQueryError, "Unsupported sort " ++ pyRepr sort ++
          "; use one of ('-last_message_at', 'last_message_at')"⟩ := by
      unfold listConversationsFrom
      simp only [Option.isNone_some, Bool.false_eq_true, if_false, if_pos hsort]
      rfl
    rw [hcall]
    exact iff_of_true rfl (.inl hsort)

/-- The thread is answered from a place, where it can be read. -/
theorem getConversation_place {orgId conversationId : String}
    (h : Readable db orgId conversationId) (limit : ℤ) (ts : DateTime) (id : String) :
    ∃ detail, getConversation collate sign (some membership) db orgId conversationId limit
      (startBefore (some (encodeCursor (some ts) id))) = .ok detail := by
  -- the place of a message at that time, with that identifier
  have hpage : threadPage collate sign membership db orgId conversationId limit
      ((some ⟨id, orgId, conversationId, .inbound, "", "", none, none, "", "", none, none, ts⟩ :
        Option Message).map messageCursor) = .ok _ := threadPage_of_readable h
  cases hdetail : getConversation collate sign (some membership) db orgId conversationId limit
      (startBefore (some (encodeCursor (some ts) id))) with
  | ok detail => exact ⟨detail, rfl⟩
  | error e =>
    have herror : threadPage collate sign membership db orgId conversationId limit
        (some (encodeCursor (some ts) id)) = .error e := by
      rw [threadPage, hdetail]
      rfl
    exact nomatch herror.symm.trans hpage

/-- A place that is not given is the error of the call. -/
theorem getConversation_error {orgId conversationId : String}
    (h : Readable db orgId conversationId) (limit : ℤ) (e : PyErr) :
    getConversation collate sign (some membership) db orgId conversationId limit (.error e) =
      .error e := by
  obtain ⟨c, hc, hidentity⟩ := h.conversation
  obtain ⟨identity, hidentity⟩ := Option.isSome_iff_exists.mp hidentity
  unfold getConversation
  simp only [Option.isNone_some, Bool.false_eq_true, if_false, hc, bind, Except.bind, hidentity]

/-- The thread answers a cursor exactly when it is malformed, or has a time and suits the query. -/
theorem clientLevel_get_iff {orgId conversationId : String} (h : Readable db orgId conversationId)
    (limit : ℤ) (before : Text) :
    ClientLevel (getConversationFrom codec collate sign (some membership) db orgId conversationId
      limit (some before)) ↔ codec.Suits false before := by
  have herror : ∀ e, codec.startBefore (some before) = .error e →
      getConversationFrom codec collate sign (some membership) db orgId conversationId limit
        (some before) = .error e := fun e he => by
    rw [getConversationFrom, he]
    exact getConversation_error collate sign membership db h limit e
  cases hdecode : codec.decodeCursor before with
  | error e =>
    have hstart : codec.startBefore (some before) = .error e := by
      simp only [CursorCodec.startBefore, hdecode]
      rfl
    rw [herror e hstart]
    refine iff_of_true (codec.cls_of_decodeCursor hdecode) fun ts id h => ?_
    rw [hdecode] at h
    cases h
  | ok place =>
    obtain ⟨ts, id⟩ := place
    have hstart : codec.startBefore (some before) = (do
        if ts.isNone then throw noComparison
        let place ← codec.sent ts id
        startBefore (some place)) := by
      simp only [CursorCodec.startBefore, hdecode]
      rfl
    cases ts with
    | none =>
      rw [herror noComparison (by rw [hstart]; rfl)]
      refine iff_of_false (fun h => ?_) fun h => ?_
      · cases h
      · exact absurd (h none id hdecode).1 (by simp)
    | some t =>
      by_cases hsuits : (∀ t' ∈ some t, (codec.timestamptz t').isSome) ∧ (codec.text id).isSome
      · obtain ⟨ts', id', hsent, hsome⟩ := codec.sent_of_isSome hsuits.1 hsuits.2
        obtain ⟨t', rfl⟩ := Option.isSome_iff_exists.mp hsome
        obtain ⟨detail, hdetail⟩ := getConversation_place collate sign membership db h limit t' id'
        rw [hsent] at hstart
        refine iff_of_true ?_ fun ts'' id'' h => ?_
        · rw [getConversationFrom, hstart]
          show ClientLevel (getConversation collate sign (some membership) db orgId conversationId
            limit (startBefore (some (encodeCursor (some t') id'))))
          rw [hdetail]
          trivial
        · rw [hdecode] at h
          cases h
          exact ⟨.inr rfl, hsuits⟩
      · rw [codec.sent_of_not hsuits] at hstart
        rw [herror _ hstart]
        refine iff_of_false (fun h => ?_) fun h => hsuits (h _ id hdecode).2
        cases h

/-- **Which cursors are answered** with a page or as a malformed query: those that do not decode, and
those that decode to what the driver takes, and for a thread, to a time that is not null. -/
theorem clientLevel_iff (filter : InboxFilter) (sort : String) (conversationId : String)
    (limit limit' : ℤ) (h : Readable db filter.orgId conversationId) (cursor : Text) :
    (ClientLevel (listConversationsFrom codec collate search (some membership) db filter sort limit
      (some cursor)) ↔ sort ∉ sortFields ∨ codec.Suits true cursor) ∧
    (ClientLevel (getConversationFrom codec collate sign (some membership) db filter.orgId
      conversationId limit' (some cursor)) ↔ codec.Suits false cursor) :=
  ⟨clientLevel_list_iff codec collate search membership db filter sort limit cursor,
    clientLevel_get_iff codec collate sign membership db h limit' cursor⟩

end Answers

/-! ### A cursor without a time -/

/-- The text of a string. -/
def textOf (s : String) : Text := s.toList.map fun c => Fin.ofNat _ c.toNat

/-- The decoders and the driver at the cursors of `[null, "m"]` and `["2026-01-01T00:00:02", "m3"]`. -/
def sampleCodec : CursorCodec where
  loads text :=
    if text = textOf "W251bGwsICJtIl0=" then some (.arr [.null, .str (textOf "m")])
    else if text = textOf "WyIyMDI2LTAxLTAxVDAwOjAwOjAyIiwgIm0zIl0=" then
      some (.arr [.str (textOf "2026-01-01T00:00:02"), .str (textOf "m3")])
    else none
  fromisoformat text :=
    if text = textOf "2026-01-01T00:00:02" then some ⟨⟨⟨2026, 1, 1⟩, 0, 0, 2, 0⟩, none⟩ else none
  repr text := pyRepr (String.ofList (text.map fun c => Char.ofNat c))
  timestamptz ts := some ts.wall
  text text := if 0 ∈ text then none else some (String.ofList (text.map fun c => Char.ofNat c))

/-- A time without an offset suits both calls. -/
theorem suits_naive (nullable : Bool) :
    sampleCodec.Suits nullable (textOf "WyIyMDI2LTAxLTAxVDAwOjAwOjAyIiwgIm0zIl0") := by
  intro ts id hdecode
  have hplace : sampleCodec.decodeCursor (textOf "WyIyMDI2LTAxLTAxVDAwOjAwOjAyIiwgIm0zIl0") =
      .ok (some ⟨⟨⟨2026, 1, 1⟩, 0, 0, 2, 0⟩, none⟩, textOf "m3") := by decide +kernel
  rw [hplace] at hdecode
  cases hdecode
  exact ⟨.inr rfl, fun _ _ => rfl, by decide +kernel⟩

/-- It is answered by both. -/
theorem clientLevel_iff_naive :
    ClientLevel (listConversationsFrom sampleCodec (.refl String) noSearch
      (some ⟨"ada", "org", .member, ⟨⟨2026, 1, 1⟩, 0, 0, 0, 0⟩⟩) (chatDb 3) everything
      "last_message_at" 1 (some (textOf "WyIyMDI2LTAxLTAxVDAwOjAwOjAyIiwgIm0zIl0"))) ∧
    ClientLevel (getConversationFrom sampleCodec (.refl String) id
      (some ⟨"ada", "org", .member, ⟨⟨2026, 1, 1⟩, 0, 0, 0, 0⟩⟩) (chatDb 3) "org" "conversation" 1
      (some (textOf "WyIyMDI2LTAxLTAxVDAwOjAwOjAyIiwgIm0zIl0"))) := by
  obtain ⟨hlist, hget⟩ := clientLevel_iff sampleCodec (.refl String) noSearch id
    ⟨"ada", "org", .member, ⟨⟨2026, 1, 1⟩, 0, 0, 0, 0⟩⟩ (chatDb 3) everything "last_message_at"
    "conversation" 1 1 (readable_chatDb 3) (textOf "WyIyMDI2LTAxLTAxVDAwOjAwOjAyIiwgIm0zIl0")
  exact ⟨hlist.mpr (.inr (suits_naive true)), hget.mpr (suits_naive false)⟩

/-- A null timestamp is decoded, and the thread then fails with an error that is no client error. -/
theorem not_clientLevel : ¬∀ (codec : CursorCodec) (ι : Type) (_ : LinearOrder ι)
    (collate : String ↪ ι) (sign : String → String) (membership : Core.Membership) (db : Db)
    (orgId conversationId : String) (limit : ℤ) (before : Text), Readable db orgId conversationId →
    ClientLevel (getConversationFrom codec collate sign (some membership) db orgId conversationId limit
      (some before)) := by
  intro h
  have hnull := h sampleCodec String inferInstance (.refl String) id
    ⟨"ada", "org", .member, ⟨⟨2026, 1, 1⟩, 0, 0, 0, 0⟩⟩ (chatDb 3) "org" "conversation" 1
    (textOf "W251bGwsICJtIl0") (readable_chatDb 3)
  have hcall : getConversationFrom sampleCodec (.refl String) id
      (some ⟨"ada", "org", .member, ⟨⟨2026, 1, 1⟩, 0, 0, 0, 0⟩⟩) (chatDb 3) "org" "conversation" 1
      (some (textOf "W251bGwsICJtIl0")) = .error noComparison := by decide +kernel
  rw [hcall] at hnull
  cases hnull

end A2ZCore.Omnichannel
