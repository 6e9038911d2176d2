import A2ZCore.Omnichannel.Email

/-!
# What becomes of the parts of an email

An attachment is a part whose disposition is of that type, in letters of any case. The loop of
`_extract_body` takes for one, of a multipart, what has the word anywhere in its `Content-Disposition`, in
small letters, and for the body the first text that has not. So it drops an inline image, a file without
a disposition and an `ATTACHMENT`, and it takes a text that is an `ATTACHMENT` for the body, and a text
named after one for an attachment. Of an email that is no multipart the payload is the body, whatever it
is.

The extraction raises where a lookup does, or the decoding of the body. The sender chooses both: a name
for a charset that is none, or a parameter in pieces that cannot be put together.

## Main definitions

* `Part.IsBody`, `bodyPart` — the part that the loop takes for the body
* `Part.dispositionType`, `Part.IsMain`, `mainPart` — the part that is the body
* `Extracted.add` — what a part adds
* `Legible` — no lookup raises that is made, and the body can be decoded
* `Labelled` — every file has the word in its disposition, and the body is not misread; or the only part
  is the body
* `NothingLost` — every file is among the attachments, and the body is the first text that is none

## Main results

* `extractBody_eq_ok_iff` — when the extraction returns, and what
* `nothingLost_iff` — nothing is lost, exactly when the email is legible and labelled
* `parsed_iff` — an email is parsed, exactly when it is legible and its sender is a string
-/

namespace A2ZCore.Omnichannel

/-! ### What a part adds -/

namespace Part

/-- A text that the loop can take for the body. -/
def IsBody (part : Part) : Prop := ¬part.IsAttachment ∧ part.IsText ∧ part.payload.isSome

instance : DecidablePred IsBody := fun _ => inferInstanceAs (Decidable (_ ∧ _ ∧ _))

/-- The attachment that the part is taken for. -/
def attachment (part : Part) : Option InboundAttachment :=
  if part.IsAttachment then
    match part.payload, part.filename with
    | some payload, .ok filename =>
      some ⟨strOr filename "attachment", part.contentType, payload⟩
    | _, _ => none
  else none

/-- If the part is taken for an attachment, its name can be looked up. -/
def Named (part : Part) : Prop :=
  part.IsAttachment → part.payload.isSome → ∃ filename, part.filename = .ok filename

end Part

section Adapter

variable (decode : String → Bytes → Except PyErr String)

/-- The text of a part. -/
def Part.text (part : Part) : Option String :=
  match part.payload, part.contentCharset with
  | some payload, .ok charset => (decode (strOr charset "utf-8") payload).toOption
  | _, _ => none

/-- The charset of the part can be looked up, and its payload decoded. -/
def Part.Decodes (part : Part) : Prop := part.payload.isSome → (part.text decode).isSome

/-- What there is with what a part adds. -/
def Extracted.add (found : Extracted) (part : Part) : Extracted where
  bodyText := if found.bodyText = none ∧ part.IsBody then part.text decode else found.bodyText
  contentType :=
    if found.bodyText = none ∧ part.IsBody then part.contentType else found.contentType
  attachments := found.attachments ++ part.attachment.toList

variable {decode}

theorem takeBody_eq_ok_iff {found found' : Extracted} {part : Part} {payload : Bytes}
    (h : part.payload = some payload) : takeBody decode found part payload = .ok found' ↔
      ∃ text, part.text decode = some text ∧
        { found with bodyText := some text, contentType := part.contentType } = found' := by
  unfold takeBody Part.text
  rw [h]
  cases part.contentCharset with
  | error e => simp [bind, Except.bind]
  | ok charset =>
    simp only [bind, Except.bind]
    cases decode (strOr charset "utf-8") payload <;> simp [Except.toOption, pure, Except.pure]

theorem takeAttachment_eq_ok_iff {found found' : Extracted} {part : Part} {payload : Bytes} :
    takeAttachment found part payload = .ok found' ↔ ∃ filename, part.filename = .ok filename ∧
      { found with attachments := found.attachments ++
          [⟨strOr filename "attachment", part.contentType, payload⟩] } = found' := by
  unfold takeAttachment
  cases part.filename <;> simp [bind, Except.bind, pure, Except.pure]

theorem Extracted.add_eq_self {found : Extracted} {part : Part}
    (hbody : ¬(found.bodyText = none ∧ part.IsBody)) (hnone : part.attachment = none) :
    found.add decode part = found := by
  simp only [Extracted.add, if_neg hbody, hnone, Option.toList_none, List.append_nil]

/-- What one round of the loop does. -/
theorem extractPart_eq_ok_iff {found found' : Extracted} {part : Part} :
    extractPart decode found part = .ok found' ↔
      part.Named ∧ (found.bodyText = none → part.IsBody → part.Decodes decode) ∧
        found.add decode part = found' := by
  unfold extractPart
  by_cases hattachment : part.IsAttachment
  · have hbody : ¬part.IsBody := fun h => h.1 hattachment
    rw [if_pos hattachment]
    cases hpayload : part.payload with
    | none => simp [Part.Named, Extracted.add, Part.attachment, hattachment, hbody, hpayload]
    | some payload =>
      show takeAttachment found part payload = _ ↔ _
      rw [takeAttachment_eq_ok_iff]
      cases hfilename : part.filename with
      | error e => simp [Part.Named, hattachment, hpayload, hfilename]
      | ok filename =>
        simp [Part.Named, Extracted.add, Part.attachment, hattachment, hbody, hpayload, hfilename]
  · have hnamed : part.Named := fun h => absurd h hattachment
    have hnone : part.attachment = none := if_neg hattachment
    rw [if_neg hattachment]
    -- a part that is not taken for the body either leaves what there is
    have hskip : ¬(found.bodyText = none ∧ part.IsBody) → ((.ok found : Except PyErr Extracted) =
        .ok found' ↔ part.Named ∧ (found.bodyText = none → part.IsBody → part.Decodes decode) ∧
          found.add decode part = found') := by
      intro hbody
      rw [Extracted.add_eq_self hbody hnone, Except.ok.injEq]
      exact ⟨fun h => ⟨hnamed, fun h₁ h₂ => absurd ⟨h₁, h₂⟩ hbody, h⟩, fun h => h.2.2⟩
    by_cases htext : part.IsText ∧ found.bodyText = none
    · rw [if_pos htext]
      cases hpayload : part.payload with
      | none =>
        refine hskip fun h => ?_
        have hsome := h.2.2.2
        rw [hpayload] at hsome
        exact absurd hsome (by decide)
      | some payload =>
        have hbody : part.IsBody := ⟨hattachment, htext.1, by simp [hpayload]⟩
        show takeBody decode found part payload = _ ↔ _
        rw [takeBody_eq_ok_iff hpayload]
        simp only [Part.Decodes, Extracted.add, htext.2, hbody, hnone, hpayload, hnamed]
        cases part.text decode <;> simp
    · rw [if_neg htext]
      exact hskip fun h => htext ⟨h.2.2.1, h.1⟩

/-! ### The loop -/

/-- The first text that the loop can take for the body. -/
def bodyPart (parts : List Part) : Option Part := parts.find? fun part => part.IsBody

theorem bodyPart_cons (part : Part) (parts : List Part) :
    bodyPart (part :: parts) = if part.IsBody then some part else bodyPart parts := by
  unfold bodyPart
  rw [List.find?_cons]
  by_cases h : part.IsBody <;> simp [h]

theorem isBody_of_bodyPart {parts : List Part} {part : Part} (h : bodyPart parts = some part) :
    part.IsBody := by
  simpa using List.find?_some h

theorem Extracted.bodyText_add {found : Extracted} {part : Part} (h : part.IsBody)
    (hnone : found.bodyText = none) : (found.add decode part).bodyText = part.text decode :=
  if_pos ⟨hnone, h⟩

theorem Extracted.bodyText_add_of_not {found : Extracted} {part : Part}
    (h : ¬(found.bodyText = none ∧ part.IsBody)) :
    (found.add decode part).bodyText = found.bodyText := if_neg h

/-- When the loop returns, and what: what the parts add, one after the other. -/
theorem foldlM_extractPart_eq_ok_iff {parts : List Part} {found found' : Extracted} :
    parts.foldlM (extractPart decode) found = .ok found' ↔
      (∀ part ∈ parts, part.Named) ∧
        (found.bodyText = none → ∀ part, bodyPart parts = some part → part.Decodes decode) ∧
        parts.foldl (Extracted.add decode) found = found' := by
  induction parts generalizing found with
  | nil => simp [bodyPart, pure, Except.pure]
  | cons part parts ih =>
    have hbind : (part :: parts).foldlM (extractPart decode) found = .ok found' ↔
        ∃ found₁, extractPart decode found part = .ok found₁ ∧
          parts.foldlM (extractPart decode) found₁ = .ok found' := by
      rw [List.foldlM_cons]
      cases extractPart decode found part <;> simp [bind, Except.bind]
    simp only [hbind, extractPart_eq_ok_iff, ih, List.forall_mem_cons, List.foldl_cons, bodyPart_cons]
    constructor
    · rintro ⟨_, ⟨hnamed, hdecodes, rfl⟩, hrest, hbody, hfold⟩
      refine ⟨⟨hnamed, hrest⟩, fun hnone p hp => ?_, hfold⟩
      by_cases hpart : part.IsBody
      · rw [if_pos hpart] at hp
        exact Option.some.inj hp ▸ hdecodes hnone hpart
      · rw [if_neg hpart] at hp
        exact hbody ((Extracted.bodyText_add_of_not fun h => hpart h.2).trans hnone) p hp
    · rintro ⟨⟨hnamed, hrest⟩, hbody, hfold⟩
      refine ⟨_, ⟨hnamed, fun hnone hpart => hbody hnone part (if_pos hpart), rfl⟩, hrest,
        fun hnone p hp => ?_, hfold⟩
      by_cases hpart : found.bodyText = none ∧ part.IsBody
      · -- the part is the body, so there is one for the parts that follow
        have hsome := hbody hpart.1 part (if_pos hpart.2) hpart.2.2.2
        rw [← Extracted.bodyText_add hpart.2 hpart.1, hnone] at hsome
        exact absurd hsome (by decide)
      · rw [Extracted.bodyText_add_of_not hpart] at hnone
        refine hbody hnone p ?_
        rw [if_neg fun h => hpart ⟨hnone, h⟩]
        exact hp

theorem attachments_foldl_add (parts : List Part) (found : Extracted) :
    (parts.foldl (Extracted.add decode) found).attachments =
      found.attachments ++ parts.filterMap Part.attachment := by
  induction parts generalizing found with
  | nil => simp
  | cons part parts ih =>
    rw [List.foldl_cons, ih, Extracted.add]
    cases h : part.attachment <;> simp [h]

theorem bodyText_foldl_add {parts : List Part} {found : Extracted}
    (h : found.bodyText = none → ∀ part, bodyPart parts = some part → part.Decodes decode) :
    (parts.foldl (Extracted.add decode) found).bodyText =
      found.bodyText.or ((bodyPart parts).bind (Part.text decode)) := by
  induction parts generalizing found with
  | nil => simp [bodyPart]
  | cons part parts ih =>
    rw [List.foldl_cons]
    by_cases hpart : found.bodyText = none ∧ part.IsBody
    · have hbody : bodyPart (part :: parts) = some part := by
        rw [bodyPart_cons, if_pos hpart.2]
      obtain ⟨text, htext⟩ := Option.isSome_iff_exists.mp (h hpart.1 part hbody hpart.2.2.2)
      have hadd : (found.add decode part).bodyText = some text := by
        rw [Extracted.bodyText_add hpart.2 hpart.1, htext]
      rw [ih (by simp [hadd]), hadd, hbody, hpart.1, Option.bind_some, htext]
      simp
    · have hadd : (found.add decode part).bodyText = found.bodyText :=
        Extracted.bodyText_add_of_not hpart
      have hrest : found.bodyText = none → bodyPart (part :: parts) = bodyPart parts := by
        intro hnone
        rw [bodyPart_cons, if_neg fun hbody => hpart ⟨hnone, hbody⟩]
      rw [ih fun hnone p hp => h (hadd ▸ hnone) p (hrest (hadd ▸ hnone) ▸ hp), hadd]
      cases hfound : found.bodyText with
      | none => rw [hrest hfound]
      | some text => simp

/-! ### The body -/

/-- `part.get_content_disposition()`: the type of the disposition, in small letters. -/
def Part.dispositionType (part : Part) : List Char :=
  let upToParameters := part.contentDisposition.toList.takeWhile (· ≠ ';')
  ((upToParameters.dropWhile Char.isWhitespace).rdropWhile Char.isWhitespace).map Char.toLower

/-- A text that is not an attachment. -/
def Part.IsMain (part : Part) : Prop :=
  part.dispositionType ≠ "attachment".toList ∧ part.IsText ∧ part.payload.isSome

instance : DecidablePred Part.IsMain := fun _ => inferInstanceAs (Decidable (_ ∧ _ ∧ _))

/-- The first text that is not an attachment. -/
def mainPart (parts : List Part) : Option Part := parts.find? fun part => part.IsMain

/-- The first with one of two properties is the first with either of them, if it has both. -/
theorem find?_of_find?_or {parts : List Part} {P Q : Part → Prop} [DecidablePred P] [DecidablePred Q]
    {part : Part} (h : parts.find? (fun part => P part ∨ Q part) = some part) (hpart : P part) :
    parts.find? (fun part => P part) = some part := by
  obtain ⟨-, before, after, rfl, hbefore⟩ := List.find?_eq_some_iff_append.mp h
  refine List.find?_eq_some_iff_append.mpr ⟨decide_eq_true hpart, before, after, rfl, fun p hp => ?_⟩
  have hneither := hbefore p hp
  simp only [Bool.not_eq_true', decide_eq_false_iff_not, not_or] at hneither ⊢
  exact hneither.1

/-! ### What is lost -/

/-- What comes of a part that is no text: its type and its content. -/
def Part.file (part : Part) : Option (String × Bytes) :=
  if part.IsText then none else part.payload.map fun payload => (part.contentType, payload)

/-- The attachment, unless it is a text. -/
def file (attachment : InboundAttachment) : Option (String × Bytes) :=
  if attachment.contentType = "text/plain" ∨ attachment.contentType = "text/html" then none
  else some (attachment.contentType, attachment.content)

variable (decode)

/-- The email can be read: whatever is taken for an attachment has a name that can be looked up, and what
is taken for the body can be decoded. -/
def Legible : Mime → Prop
  | .leaf part => part.Decodes decode
  | .multipart parts => (∀ part ∈ (Mime.multipart parts).leaves, part.Named) ∧
      ∀ part, bodyPart (Mime.multipart parts).leaves = some part → part.Decodes decode

/-- The body and the attachments of a legible email. -/
def extracted : Mime → Extracted
  | .leaf part =>
    if part.payload.isSome then
      { Extracted.empty with bodyText := part.text decode, contentType := part.contentType }
    else .empty
  | .multipart parts => (Mime.multipart parts).leaves.foldl (Extracted.add decode) .empty

/-- Every part that is no text and can be decoded is among the attachments, once and in order, and the
body is the text of the first text that is not an attachment. -/
def NothingLost (mime : Mime) : Prop :=
  ∃ found, extractBody decode mime = .ok found ∧
    found.attachments.filterMap file = mime.leaves.filterMap Part.file ∧
    found.bodyText.map some = (mainPart mime.leaves).map (Part.text decode)

/-- The first text that the loop takes for the body, or that is it, is both; or the loop takes another
text for it that reads the same. -/
def BodyLabelled (parts : List Part) : Prop :=
  ∀ part, parts.find? (fun part => part.IsBody ∨ part.IsMain) = some part →
    (part.IsBody ∧ part.IsMain) ∨
      (bodyPart parts).map (Part.text decode) = (mainPart parts).map (Part.text decode)

/-- Every file has the word in its disposition, and the body is not misread. The only part of an email
that is no multipart is the body. -/
def Labelled : Mime → Prop
  | .leaf part => part.payload.isSome → part.IsMain
  | .multipart parts =>
    (∀ part ∈ (Mime.multipart parts).leaves, part.file.isSome → part.IsAttachment) ∧
      BodyLabelled decode (Mime.multipart parts).leaves

variable {decode}

/-- When the extraction returns, and what. -/
theorem extractBody_eq_ok_iff {mime : Mime} {found : Extracted} :
    extractBody decode mime = .ok found ↔ Legible decode mime ∧ extracted decode mime = found := by
  cases mime with
  | leaf part =>
    cases hpayload : part.payload with
    | none => simp [extractBody, Legible, extracted, Part.Decodes, hpayload]
    | some payload =>
      simp only [extractBody, Legible, extracted, Part.Decodes, hpayload,
        takeBody_eq_ok_iff hpayload]
      cases part.text decode <;> simp
  | multipart parts =>
    rw [extractBody_multipart, foldlM_extractPart_eq_ok_iff, ← and_assoc]
    simp [Legible, extracted, Extracted.empty]

/-- An attachment is the file of its part. -/
theorem bind_file_attachment {part : Part} (h : part.Named) :
    part.attachment.bind file = if part.IsAttachment then part.file else none := by
  by_cases hattachment : part.IsAttachment
  · rw [if_pos hattachment, Part.attachment, if_pos hattachment, Part.file]
    cases hpayload : part.payload with
    | none => simp
    | some payload =>
      obtain ⟨filename, hfilename⟩ := h hattachment (by simp [hpayload])
      rw [hfilename]
      rfl
  · rw [if_neg hattachment, Part.attachment, if_neg hattachment, Option.bind_none]

/-- Of the attachments, the files are those of the parts that are taken for them. -/
theorem filterMap_file_attachment {parts : List Part} (h : ∀ part ∈ parts, part.Named) :
    (parts.filterMap Part.attachment).filterMap file =
      (parts.filter fun part => part.IsAttachment).filterMap Part.file := by
  rw [List.filterMap_filterMap, List.filterMap_filter]
  induction parts with
  | nil => rfl
  | cons part parts ih =>
    obtain ⟨hpart, hparts⟩ := List.forall_mem_cons.mp h
    rw [List.filterMap_cons, List.filterMap_cons, bind_file_attachment hpart, ih hparts]
    simp

/-- They are all of them exactly when every file names itself an attachment. -/
theorem filterMap_filter_file_eq_iff {parts : List Part} :
    (parts.filter fun part => part.IsAttachment).filterMap Part.file = parts.filterMap Part.file ↔
      ∀ part ∈ parts, part.file.isSome → part.IsAttachment := by
  have hlength : ∀ parts : List Part,
      ((parts.filter fun part => part.IsAttachment).filterMap Part.file).length ≤
        (parts.filterMap Part.file).length :=
    fun parts => (List.filter_sublist.filterMap _).length_le
  induction parts with
  | nil => simp
  | cons part parts ih =>
    rw [List.forall_mem_cons]
    refine Iff.trans ?_ (and_congr_right fun _ => ih)
    cases hfile : part.file with
    | none =>
      by_cases hattachment : part.IsAttachment <;> simp [hfile, hattachment]
    | some file =>
      by_cases hattachment : part.IsAttachment
      · simp [hfile, hattachment]
      · -- a file that is not taken leaves the list too short
        have hne : (parts.filter fun part => part.IsAttachment).filterMap Part.file ≠
            file :: parts.filterMap Part.file := by
          intro h
          have hle := hlength parts
          rw [h, List.length_cons] at hle
          omega
        simp [hfile, hattachment, hne]

/-- The part that is taken for the body reads as the body does, exactly when the body is not misread. -/
theorem bodyLabelled_iff (parts : List Part) :
    (bodyPart parts).map (Part.text decode) = (mainPart parts).map (Part.text decode) ↔
      BodyLabelled decode parts := by
  refine ⟨fun h _ _ => .inr h, fun h => ?_⟩
  cases hfirst : parts.find? fun part => part.IsBody ∨ part.IsMain with
  | none =>
    have hneither := List.find?_eq_none.mp hfirst
    have hbody : bodyPart parts = none :=
      List.find?_eq_none.mpr fun p hp => by simpa using fun h => hneither p hp (by simp [h])
    have hmain : mainPart parts = none :=
      List.find?_eq_none.mpr fun p hp => by simpa using fun h => hneither p hp (by simp [h])
    rw [hbody, hmain]
  | some part =>
    rcases h part hfirst with ⟨hbody, hmain⟩ | hsame
    · have hbodyPart : bodyPart parts = some part := find?_of_find?_or hfirst hbody
      have hfirst' : parts.find? (fun part => part.IsMain ∨ part.IsBody) = some part := by
        simpa only [or_comm] using hfirst
      have hmainPart : mainPart parts = some part := find?_of_find?_or hfirst' hmain
      rw [hbodyPart, hmainPart]
    · exact hsame

/-- Nothing is lost, exactly when the email can be read and is labelled. -/
theorem nothingLost_iff (mime : Mime) :
    NothingLost decode mime ↔ Legible decode mime ∧ Labelled decode mime := by
  have hok : NothingLost decode mime ↔ Legible decode mime ∧
      (extracted decode mime).attachments.filterMap file = mime.leaves.filterMap Part.file ∧
      (extracted decode mime).bodyText.map some = (mainPart mime.leaves).map (Part.text decode) := by
    simp only [NothingLost, extractBody_eq_ok_iff]
    constructor
    · rintro ⟨_, ⟨hreadable, rfl⟩, h⟩
      exact ⟨hreadable, h⟩
    · rintro ⟨hreadable, h⟩
      exact ⟨_, ⟨hreadable, rfl⟩, h⟩
  rw [hok]
  refine and_congr_right fun hreadable => ?_
  cases mime with
  | leaf part =>
    have hdecodes : part.payload.isSome → (part.text decode).isSome := hreadable
    have hmain : mainPart [part] = if part.IsMain then some part else none := by
      unfold mainPart
      by_cases h : part.IsMain <;> simp [h]
    simp only [extracted, Labelled, Mime.leaves_leaf, hmain, Extracted.empty]
    cases hpayload : part.payload with
    | none =>
      have hnone : ¬part.IsMain := fun h => by simpa [hpayload] using h.2.2
      simp [Part.file, hpayload, hnone]
    | some payload =>
      obtain ⟨text, htext⟩ := Option.isSome_iff_exists.mp (hdecodes (by simp [hpayload]))
      by_cases hbody : part.IsMain
      · simp [Part.file, hbody, hbody.2.1, htext]
      · simp [hbody, htext]
  | multipart parts =>
    obtain ⟨hnamed, hdecodes⟩ := hreadable
    have hbody : (extracted decode (.multipart parts)).bodyText =
        (bodyPart (Mime.multipart parts).leaves).bind (Part.text decode) :=
      bodyText_foldl_add fun _ => hdecodes
    have hattachments : (extracted decode (.multipart parts)).attachments =
        (Mime.multipart parts).leaves.filterMap Part.attachment :=
      attachments_foldl_add _ _
    -- what is taken for the body can be decoded
    have hread : ((bodyPart (Mime.multipart parts).leaves).bind (Part.text decode)).map some =
        (bodyPart (Mime.multipart parts).leaves).map (Part.text decode) := by
      cases hpart : bodyPart (Mime.multipart parts).leaves with
      | none => rfl
      | some part =>
        have hpayload : part.payload.isSome := (isBody_of_bodyPart hpart).2.2
        obtain ⟨text, htext⟩ := Option.isSome_iff_exists.mp (hdecodes part hpart hpayload)
        rw [Option.bind_some, Option.map_some, htext, Option.map_some]
    rw [hattachments, hbody, hread, filterMap_file_attachment hnamed, filterMap_filter_file_eq_iff,
      bodyLabelled_iff]
    rfl

/-! ### The whole email -/

variable (decode) (messageFromBytes : Bytes → Email) (b64decode : String → Except PyErr Bytes)

/-- An email's bytes and its identifier, as a payload. -/
def inboundEmail (externalMessageId : String) (rawMime : Bytes) : EmailPayload :=
  ⟨[("external_message_id", .str externalMessageId)], some rawMime⟩

/-- The adapter returns one message of the email, and raises nothing. -/
def Normalized (w : Core.World) (externalMessageId : String) (rawMime : Bytes) : Prop :=
  ∃ message, emailNormalizeInbound decode messageFromBytes b64decode w
    (inboundEmail externalMessageId rawMime) = .ok [message]

theorem emailNormalizeInbound_inboundEmail (w : Core.World) (externalMessageId : String)
    (rawMime : Bytes) : emailNormalizeInbound decode messageFromBytes b64decode w
      (inboundEmail externalMessageId rawMime) =
        (extractBody decode (messageFromBytes rawMime).mime).bind fun found =>
          ((messageFromBytes rawMime).fromAddr.asStr "external_id").bind fun externalId =>
            .ok [⟨externalId, externalMessageId, some externalId, found.bodyText, found.contentType,
              found.attachments⟩] := rfl

/-- An email is parsed, exactly when its sender is a string and it can be read. -/
theorem parsed_iff (w : Core.World) (externalMessageId : String) (rawMime : Bytes) :
    Normalized decode messageFromBytes b64decode w externalMessageId rawMime ↔
      (messageFromBytes rawMime).fromAddr ≠ .header ∧
        Legible decode (messageFromBytes rawMime).mime := by
  unfold Normalized
  rw [emailNormalizeInbound_inboundEmail]
  constructor
  · rintro ⟨message, h⟩
    cases hfound : extractBody decode (messageFromBytes rawMime).mime with
    | error e => simp [hfound, Except.bind] at h
    | ok found =>
      refine ⟨fun hheader => ?_, (extractBody_eq_ok_iff.mp hfound).1⟩
      simp [hfound, hheader, HeaderValue.asStr, Except.bind] at h
  · rintro ⟨hsender, hreadable⟩
    rw [extractBody_eq_ok_iff.mpr ⟨hreadable, rfl⟩]
    cases hfrom : (messageFromBytes rawMime).fromAddr with
    | str s => exact ⟨_, rfl⟩
    | header => exact absurd hfrom hsender

end Adapter

/-! ### What is lost, and what cannot be read -/

/-- `bytes.decode`, of a text in ASCII. -/
def decodeAscii (charset : String) (payload : Bytes) : Except PyErr String :=
  if charset = "utf-8" then .ok (String.ofList (payload.map fun b => Char.ofNat b.toNat))
  else .error ⟨.exception "LookupError", "unknown encoding: " ++ charset⟩

/-- A text, `Hi`. -/
def greeting : Part := ⟨"", "text/plain", .ok none, .ok none, some [72, 105]⟩

/-- An image that is shown in the text. -/
def inlineImage : Part := ⟨"inline; filename=\"photo.png\"", "image/png", .ok (some "photo.png"),
  .ok none, some [137, 80, 78, 71]⟩

/-- The image of an email is dropped. -/
theorem not_nothingLost : ¬∀ (decode : String → Bytes → Except PyErr String) (mime : Mime),
    NothingLost decode mime := by
  intro h
  obtain ⟨found, hfound, hfiles, -⟩ := h decodeAscii (.multipart [.leaf greeting, .leaf inlineImage])
  obtain ⟨-, rfl⟩ := extractBody_eq_ok_iff.mp hfound
  have hleaves : (Mime.multipart [.leaf greeting, .leaf inlineImage]).leaves =
      [greeting, inlineImage] := rfl
  have hgreeting : greeting.attachment = none := if_neg (by decide +kernel)
  have hinline : inlineImage.attachment = none := if_neg (by decide +kernel)
  rw [extracted, attachments_foldl_add, hleaves, Extracted.empty, List.nil_append,
    List.filterMap_cons_none hgreeting, List.filterMap_cons_none hinline] at hfiles
  exact absurd hfiles (by decide)

/-- `From: kim@example.com`, `Content-Type: text/plain; charset=x-unknown` and `Hi`. -/
def unknownCharsetEmail : Email where
  fromAddr := .str "kim@example.com"
  mime := .leaf { greeting with contentCharset := .ok (some "x-unknown") }

/-- The bytes of that email. -/
def unknownCharsetBytes : Bytes :=
  "From: kim@example.com\nContent-Type: text/plain; charset=x-unknown\n\nHi".toUTF8.data.toList

/-- An email with a charset that is none raises. -/
theorem not_parsed : ¬∀ (decode : String → Bytes → Except PyErr String)
    (messageFromBytes : Bytes → Email) (b64decode : String → Except PyErr Bytes) (w : Core.World)
    (externalMessageId : String) (rawMime : Bytes),
      Normalized decode messageFromBytes b64decode w externalMessageId rawMime := by
  intro h
  obtain ⟨message, hmessage⟩ := h decodeAscii (fun _ => unknownCharsetEmail) (fun _ => .ok [])
    Core.World.initial "ses-1" unknownCharsetBytes
  have hraise : extractBody decodeAscii unknownCharsetEmail.mime =
      .error ⟨.exception "LookupError", "unknown encoding: x-unknown"⟩ := rfl
  rw [emailNormalizeInbound_inboundEmail, hraise] at hmessage
  exact nomatch hmessage

end A2ZCore.Omnichannel
