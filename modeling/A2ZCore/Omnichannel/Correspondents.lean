import A2ZCore.Lib.Mailbox
import A2ZCore.Omnichannel.Effects
import A2ZCore.Omnichannel.Ingestion
import A2ZCore.Omnichannel.MimeParts
import A2ZCore.Omnichannel.Validators
import Mathlib

/-!
# Whom an email is from

The `From` header of an email holds a mailbox: an address, or an address in angle brackets with a name
before it, with blanks, folded lines and comments wherever the grammar of mail headers has them.
`normalize_inbound` takes the whole header for the sender's `external_id`. What a reply is sent to must be
an address for `_validate_address`, which a header is only where it is written without white space, with
no `@` but that of the address, and with a dot inside what follows that; and a sender whose header is
written differently is another identity, with another conversation.

## Main definitions

* `EmailFrom` — the message that `normalize_inbound` makes of an email from a mailbox
* `WrittenPlain` — how a mailbox is written that is taken for an address

## Main results

* `writtenPlain_bare` — an address by itself, of atoms and with a dot in the domain, is written so
* `identity_eq_iff` — an email is from the same identity as another exactly when the headers agree
* `grouped_iff` — when a sender can be answered and is grouped with another email's
-/

namespace A2ZCore.Omnichannel

open Interaction Interaction.Proc Interaction.Contract A2ZCore.Core Regex Relational
open MailGrammar (Mailbox AddrSpec Atom DotAtom IsAtomChar)

/-! ### Mailboxes -/

/-- The mailbox is written without white space, with no `@` but that of the address, and with a dot inside
what follows that. -/
structure WrittenPlain (m : Mailbox) : Prop where
  noSpace : ∀ c ∈ m.text, pyIsSpace c = false
  front : '@' ∉ m.front
  back : '@' ∉ m.back
  dotted : ∃ left right, left ≠ [] ∧ right ≠ [] ∧ m.back = left ++ '.' :: right

theorem addressGrammar_text_iff (m : Mailbox) : AddressGrammar m.text ↔ WrittenPlain m := by
  have hcount : m.text.count '@' = m.front.count '@' + (m.back.count '@' + 1) := by
    rw [m.text_eq, List.count_append, List.count_cons_self]
  constructor
  · rintro ⟨localPart, left, right, hsplit, -, hleft, hright, hone, hspace⟩
    have hfront : '@' ∉ m.front := List.count_eq_zero.mp (by omega)
    have hback : '@' ∉ m.back := List.count_eq_zero.mp (by omega)
    -- there is one way to split at the only one
    rw [m.text_eq] at hsplit
    have htail := ((List.append_cons_inj_of_notMem hfront hback).mp hsplit).2.2
    exact ⟨hspace, hfront, hback, left, right, hleft, hright, htail⟩
  · rintro ⟨hspace, hfront, hback, left, right, hleft, hright, hdotted⟩
    refine ⟨m.front, left, right, ?_, m.front_ne_nil, hleft, hright, ?_, hspace⟩
    · rw [m.text_eq, hdotted]
    · rw [hcount, List.count_eq_zero.mpr hfront, List.count_eq_zero.mpr hback]

/-- What is written is taken for an address exactly when it is plain. -/
theorem matches_text_iff (m : Mailbox) : Matches addressRe m.text ↔ WrittenPlain m := by
  simp only [Regex.Matches, mem_addressRe]
  rw [addressGrammar_text_iff, or_iff_left]
  rintro ⟨u, -, hline⟩
  have hend := m.endsInline_text
  rw [hline] at hend
  exact hend List.getLast?_concat

/-- A character of an atom is no white space and no `@`. -/
theorem ordinary_of_isAtomChar {c : Char} (hc : IsAtomChar c) : pyIsSpace c = false ∧ c ≠ '@' := by
  rcases hc with halphanum | hspecial
  · have hranges : (65 ≤ c.toNat ∧ c.toNat ≤ 90 ∨ 97 ≤ c.toNat ∧ c.toNat ≤ 122) ∨
        48 ≤ c.toNat ∧ c.toNat ≤ 57 := by
      simpa [Char.isAlphanum, Char.isAlpha, Char.isUpper, Char.isLower, Char.isDigit,
        UInt32.le_iff_toNat_le] using halphanum
    refine ⟨?_, ?_⟩
    · simp [pyIsSpace]
      omega
    · rintro rfl
      exact absurd hranges (by decide)
  · have hall : MailGrammar.atomSpecials.all fun c => !pyIsSpace c && c != '@' := by decide
    simpa using List.all_eq_true.mp hall c hspecial

/-- An atom, or atoms with dots between them, is written in ordinary characters. -/
theorem ordinary_of_dotAtom {l : List Char} (h : DotAtom l) :
    ∀ c ∈ l, pyIsSpace c = false ∧ c ≠ '@' := by
  induction h with
  | atom hl => exact fun c hc => ordinary_of_isAtomChar (hl.2 c hc)
  | dot hl _ ih =>
    intro c hc
    rcases List.mem_append.mp hc with hatom | hrest
    · exact ordinary_of_isAtomChar (hl.2 c hatom)
    · rcases List.mem_cons.mp hrest with rfl | hrest
      · decide
      · exact ih c hrest

/-- An address by itself, of atoms and with a dot in the domain, is plain. -/
theorem writtenPlain_bare {address : AddrSpec} {l rest : List Char}
    (hlocal : DotAtom address.localText) (hl : Atom l) (hrest : DotAtom rest)
    (hdomain : address.domainText = l ++ '.' :: rest) : WrittenPlain (.bare address) := by
  have hordinary := ordinary_of_dotAtom hlocal
  have hordinary' : ∀ c ∈ address.domainText, pyIsSpace c = false ∧ c ≠ '@' :=
    ordinary_of_dotAtom (hdomain ▸ DotAtom.dot hl hrest)
  refine ⟨fun c hc => ?_, fun hat => (hordinary _ hat).2 rfl, fun hat => (hordinary' _ hat).2 rfl,
    l, rest, hl.1, hrest.ne_nil, hdomain⟩
  rcases List.mem_append.mp hc with hfront | hback
  · exact (hordinary c hfront).1
  · rcases List.mem_cons.mp hback with rfl | hback
    · decide
    · exact (hordinary' c hback).1

/-! ### The sender of a message -/

section Adapter

variable (decode : String → Bytes → Except PyErr String) (messageFromBytes : Bytes → Email)
  (b64decode : String → Except PyErr Bytes)

/-- The message is what `normalize_inbound` makes of an email with this mailbox in its header. -/
def EmailFrom (m : Mailbox) (item : NormalizedInboundMessage) : Prop :=
  ∃ w payload rawMime, resolveRawMime b64decode w payload = .ok rawMime ∧
    (messageFromBytes rawMime).fromAddr = .str (String.ofList m.text) ∧
    emailNormalizeInbound decode messageFromBytes b64decode w payload = .ok [item]

variable {decode messageFromBytes b64decode} {m : Mailbox} {item : NormalizedInboundMessage}

/-- The sender is the whole header. -/
theorem EmailFrom.externalId (h : EmailFrom decode messageFromBytes b64decode m item) :
    item.externalId = String.ofList m.text := by
  obtain ⟨w, payload, rawMime, hraw, hfrom, h⟩ := h
  unfold emailNormalizeInbound at h
  obtain ⟨id, -, h⟩ := bind_eq_ok.mp h
  obtain ⟨raw, hraw', h⟩ := bind_eq_ok.mp h
  rw [hraw, Except.ok.injEq] at hraw'
  subst hraw'
  obtain ⟨found, -, h⟩ := bind_eq_ok.mp h
  obtain ⟨externalId, hexternal, h⟩ := bind_eq_ok.mp h
  rw [hfrom] at hexternal
  cases hexternal
  obtain ⟨messageId, -, h⟩ := bind_eq_ok.mp h
  cases h
  rfl

/-- A reply can be sent to the sender exactly when the mailbox is written plainly. -/
theorem EmailFrom.answerable_iff (h : EmailFrom decode messageFromBytes b64decode m item) :
    validateAddress item.externalId = .ok () ↔ WrittenPlain m := by
  rw [validateAddress_iff, h.externalId, String.toList_ofList, matches_text_iff]

end Adapter

/-! ### Identities -/

/-- An identifier is generated, and nothing changes. -/
theorem wp_core_uuid4 {w : World} {Q : Except PyErr String → World → Prop}
    (h : ∀ id, Q (.ok id) w) : (solo Call.answer).wp (core (Core.run .uuid4)) w Q := by
  rintro _ rfl x _
  exact ⟨trivial, h x.token⟩

/-- A flush that succeeds is of writes that can be applied. -/
theorem exists_apply_of_flush {writes : List Write} {x : Choice} {w : World} {u : Unit}
    (h : ((Call.flush writes).answer x w).1 = .ok u) : ∃ db, w.db.apply x.now writes = .ok db := by
  have happly := Core.Fate.eq_of_query h
  cases hdb : w.db.apply x.now writes with
  | ok db => exact ⟨db, rfl⟩
  | error v => simp [hdb, Except.mapError, Except.map] at happly

/-- An identity that can be inserted is another than those that are there. -/
theorem ne_of_flush {now : DateTime} {db : Db} {i identity : ChannelIdentity}
    (hi : i ∈ db.identities.rows) (h : ∃ db', db.apply now [.insertIdentity identity] = .ok db') :
    identity.id ≠ i.id := by
  obtain ⟨db', h⟩ := h
  rw [Db.apply_singleton, Write.apply] at h
  cases hinsert : db.identities.insert { identity with createdAt := now } with
  | error v => simp [hinsert, Except.map] at h
  | ok t =>
    have hrows := Table.rows_insert hinsert
    intro hid
    have hpairwise := t.unique
    rw [hrows, List.pairwise_append] at hpairwise
    have hclash := hpairwise.2.2 i hi _ (List.mem_singleton_self _)
    simp [identitySchema, hid] at hclash

/-- Who is found for a sender is the sender of another message exactly when these are the same. -/
theorem wp_identity {orgId channelType externalId : String} {w : World} {i : ChannelIdentity}
    (hi : i ∈ w.db.identities.rows) (hfor : i.IsFor orgId channelType externalId)
    (externalId' : String) (displayName : Option String) :
    (solo Call.answer).wp (findOrCreateIdentity orgId channelType externalId' displayName) w
      fun r _ => ∀ identity pending, r = .ok (identity, pending) →
        (identity.id = i.id ↔ externalId' = externalId) := by
  unfold findOrCreateIdentity
  refine wp_bind (wp_solo_perform fun x => ?_)
  cases hselect : ((Call.selectIdentity orgId channelType externalId').answer x w).1 with
  | error e => exact fun identity pending h => (by cases h)
  | ok found =>
    have hrows := Core.Fate.eq_of_query hselect
    have hsame : ((Call.selectIdentity orgId channelType externalId').answer x w).2 = w :=
      Core.Fate.snd_query ..
    rw [hsame]
    cases found with
    | some found =>
      -- the rows agree on a key either way
      have hmem := List.mem_filter.mp (mem_of_scalarOneOrNone hrows)
      have hfor' : found.IsFor orgId channelType externalId' := by
        simpa [ChannelIdentity.IsFor, and_assoc] using hmem.2
      rintro identity pending h
      cases h
      constructor
      · intro hid
        have heq := w.db.identities.eq_of_clash hmem.1 hi (by simp [identitySchema, hid])
        rw [← hfor'.2.2, heq, hfor.2.2]
      · intro hext
        have heq := w.db.identities.eq_of_clash hmem.1 hi (by
          simp [identitySchema, hfor.1, hfor.2.1, hfor.2.2, hfor'.1, hfor'.2.1, hfor'.2.2, hext])
        rw [heq]
    | none =>
      have hnone := List.filter_eq_nil_iff.mp (eq_nil_of_scalarOneOrNone hrows) i hi
      have hne : externalId' ≠ externalId := by
        rintro rfl
        simp [hfor.1, hfor.2.1, hfor.2.2] at hnone
      -- an identity is created, with an identifier that is not taken
      refine wp_bind (wp_core_uuid4 fun id => ?_)
      refine wp_bind (wp_solo_perform fun x₂ => ?_)
      cases hflush : ((Call.flush [.insertIdentity
          (newIdentity id orgId channelType externalId' displayName)]).answer x₂ w).1 with
      | error e =>
        rw [newIdentity] at hflush
        rw [hflush]
        exact fun identity pending h => (by cases h)
      | ok _ =>
        have hne' := ne_of_flush hi (exists_apply_of_flush hflush)
        rw [newIdentity] at hflush
        rw [hflush]
        intro identity pending h
        cases h
        exact iff_of_false hne' hne

section Grouped

variable {decode : String → Bytes → Except PyErr String} {messageFromBytes : Bytes → Email}
  {b64decode : String → Except PyErr Bytes} {m m' : Mailbox} {item item' : NormalizedInboundMessage}
  {orgId : String} {w w' : World} {i identity : ChannelIdentity} {pending : List Write}
  {o : Oracle Choice}

/-- The identity of an email's sender is that of another's exactly when the headers agree. -/
theorem identity_eq_iff (h : EmailFrom decode messageFromBytes b64decode m item)
    (h' : EmailFrom decode messageFromBytes b64decode m' item') (hi : i ∈ w.db.identities.rows)
    (hfor : i.IsFor orgId "email" item.externalId)
    (hrun : exec Call.answer
      (findOrCreateIdentity orgId "email" item'.externalId item'.displayName) o w =
        (some (.ok (identity, pending)), w')) :
    identity.id = i.id ↔ m'.text = m.text := by
  rw [exec_solo (wp_identity hi hfor item'.externalId item'.displayName) hrun identity pending rfl,
    h.externalId, h'.externalId, String.ofList_inj]

/-- **Senders of emails.** Of an email, and another one that comes when the sender of the first has an
identity: the first can be answered, and the second is from the same identity if it is from the same
address, exactly when the first mailbox is written plainly, and there is one way in which the address
is written. -/
theorem grouped_iff (h : EmailFrom decode messageFromBytes b64decode m item)
    (h' : EmailFrom decode messageFromBytes b64decode m' item') (hi : i ∈ w.db.identities.rows)
    (hfor : i.IsFor orgId "email" item.externalId)
    (hrun : exec Call.answer
      (findOrCreateIdentity orgId "email" item'.externalId item'.displayName) o w =
        (some (.ok (identity, pending)), w')) :
    (validateAddress item.externalId = .ok () ∧
        (m'.address = m.address → identity.id = i.id)) ↔
      WrittenPlain m ∧ (m'.address = m.address → m'.text = m.text) := by
  refine and_congr h.answerable_iff (forall_congr' fun _ => ?_)
  exact identity_eq_iff h h' hi hfor hrun

end Grouped

/-! ### Ada writes twice -/

theorem dotAtom_ada : DotAtom "ada".toList := .atom (by decide)

theorem dotAtom_x_com : DotAtom ("x".toList ++ '.' :: "com".toList) :=
  .dot (by decide) (.atom (by decide))

/-- `ada@x.com`. -/
def adaAddress : AddrSpec where
  localText := "ada".toList
  localPart := "ada".toList
  domainText := "x.com".toList
  domain := "x.com".toList
  isLocalPart := .dotAtom .nil dotAtom_ada .nil
  isDomain := .dotAtom .nil dotAtom_x_com .nil

/-- `Ada <ada@x.com>`. -/
def adaMailbox : Mailbox :=
  .bracketed "Ada ".toList (.inl (.word (l := "Ada".toList) .nil (.atom (by decide))
    (.blank (.inl rfl) .nil)))
    adaAddress [] .nil

/-- Every email is a greeting from this mailbox. -/
def greetingFrom (m : Mailbox) (_ : Bytes) : Email where
  fromAddr := .str (String.ofList m.text)
  mime := .leaf greeting

/-- What the adapter makes of it. -/
def greetingMessage (m : Mailbox) (externalMessageId : String) : NormalizedInboundMessage where
  externalId := String.ofList m.text
  externalMessageId := externalMessageId
  displayName := some (String.ofList m.text)
  bodyText := some "Hi"
  contentType := "text/plain"
  attachments := []

theorem emailFrom_greeting (m : Mailbox) (externalMessageId : String) :
    EmailFrom decodeAscii (greetingFrom m) (fun _ => .ok []) m (greetingMessage m externalMessageId) :=
  ⟨Core.World.initial, inboundEmail externalMessageId [], [], rfl, rfl, rfl⟩

/-- Ada's identity, by her address. -/
def adaIdentity : ChannelIdentity :=
  ⟨"i1", "org", "email", "ada@x.com", none, none, ⟨⟨2026, 1, 1⟩, 0, 0, 0, 0⟩⟩

/-- Nothing but Ada's identity. -/
def adaDb : Db := { Db.empty with identities := ⟨[adaIdentity], by simp [identitySchema], by simp⟩ }

/-- Nothing else. -/
def adaWorld : World := { inboxWorld with db := adaDb }

/-- Two emails without a name. -/
theorem grouped_iff_bare :
    validateAddress (greetingMessage (.bare adaAddress) "ses-1").externalId = .ok () ∧
      ∃ identity, exec Call.answer (findOrCreateIdentity "org" "email"
          (greetingMessage (.bare adaAddress) "ses-2").externalId
          (greetingMessage (.bare adaAddress) "ses-2").displayName) calm adaWorld =
            (some (.ok (identity, [])), adaWorld) ∧ identity.id = adaIdentity.id := by
  have hrun : exec Call.answer (findOrCreateIdentity "org" "email"
      (greetingMessage (.bare adaAddress) "ses-2").externalId
      (greetingMessage (.bare adaAddress) "ses-2").displayName) calm adaWorld =
        (some (.ok (adaIdentity, [])), adaWorld) := rfl
  have hplain : WrittenPlain (.bare adaAddress) :=
    writtenPlain_bare (l := "x".toList) dotAtom_ada (by decide)
      (.atom (l := "com".toList) (by decide)) rfl
  obtain ⟨hanswerable, hidentity⟩ := (grouped_iff (i := adaIdentity) (emailFrom_greeting (.bare adaAddress) "ses-1")
    (emailFrom_greeting (.bare adaAddress) "ses-2") (List.mem_singleton_self _) ⟨rfl, rfl, rfl⟩
    hrun).mpr ⟨hplain, fun _ => rfl⟩
  exact ⟨hanswerable, adaIdentity, hrun, hidentity rfl⟩

/-- A sender with a name cannot be answered. -/
theorem not_grouped : ¬∀ (decode : String → Bytes → Except PyErr String)
    (messageFromBytes : Bytes → Email) (b64decode : String → Except PyErr Bytes) (m : Mailbox)
    (item : NormalizedInboundMessage), EmailFrom decode messageFromBytes b64decode m item →
      validateAddress item.externalId = .ok () := by
  intro h
  have hanswerable := h _ _ _ _ _ (emailFrom_greeting adaMailbox "ses-1")
  have hplain := (emailFrom_greeting adaMailbox "ses-1").answerable_iff.mp hanswerable
  exact absurd (hplain.noSpace ' ' (by decide)) (by decide)

end A2ZCore.Omnichannel
