import A2ZCore.Omnichannel.InboxWalk

/-!
# Reading a thread backwards

An agent opens a thread at its end and scrolls back. Each page is selected newest first and handed out
in reading order, so that a client puts it before what it has. The cursor is the oldest message of the
page, by its time and, for messages of one time, its identifier.

Scrolling back gives the thread in order, each message once, also where messages arrive meanwhile that
are newer than the cursor.

## Main definitions

* `threadPage`, `messageOf` — a page, and the message that it shows
* `Readable` — the conversation can be read
* `OlderKept` — what is older than the cursor stays

## Main results

* `scroll_thread` — scrolling back gives the thread
-/

namespace A2ZCore.Omnichannel

open Keyset Relational

variable {ι : Type} [LinearOrder ι] (collate : String ↪ ι) (sign : String → String)

/-! ### Pages -/

/-- A page of the thread. -/
def threadPage (membership : Core.Membership) (db : Db) (orgId conversationId : String) (limit : ℤ)
    (before : Option Cursor) : Except PyErr (List MessageView × Option Cursor) :=
  (getConversation collate sign (some membership) db orgId conversationId limit
    (startBefore before)).map fun detail => (detail.messages, detail.messagesNextCursor)

/-- What is shown of an attachment. -/
def shown (a : MessageAttachment) : AttachmentView where
  id := a.id
  filename := filenameFromKey a.s3Key
  contentType := a.contentType
  sizeBytes := a.sizeBytes
  url := sign a.s3Key

/-- What is shown of the attachments of a message. -/
def viewsOf (db : Db) (orgId messageId : String) : List AttachmentView :=
  (db.attachments.rows.filter fun a => a.orgId == orgId && a.messageId == messageId).map (shown sign)

/-- What is shown of a message. -/
def messageOf (db : Db) (orgId : String) (m : Message) : MessageView :=
  messageView m (viewsOf sign db orgId m.id)

/-- The conversation is the org's, with its customer's identity, and its attachments are the org's
files. -/
structure Readable (db : Db) (orgId conversationId : String) : Prop where
  conversation : ∃ c, loadedConversation db orgId conversationId = .ok c ∧
    (db.identity c.customerIdentityId).isSome
  attachments : ∀ a ∈ db.attachments.rows, a.orgId = orgId →
    (∃ m ∈ thread db orgId conversationId, m.id = a.messageId) →
      (orgId ++ "/").toList.isPrefixOf a.s3Key.toList

/-- What is older than the cursor stays as it is. -/
structure OlderKept (orgId conversationId : String) (cursor : Cursor) (db db' : Db) : Prop where
  messages : ∀ ts id, cursor = encodeCursor (some ts) id → ∀ m, comesBefore collate ts id m →
    (m ∈ thread db' orgId conversationId ↔ m ∈ thread db orgId conversationId)
  attachments : ∀ ts id, cursor = encodeCursor (some ts) id → ∀ m, comesBefore collate ts id m →
    m ∈ thread db orgId conversationId → viewsOf sign db' orgId m.id = viewsOf sign db orgId m.id

/-- The place of a message, newest first. -/
def threadKey (m : Message) : ℤ ×ₗ ιᵒᵈ :=
  toLex (-(m.createdAt.ordinal : ℤ), OrderDual.toDual (collate m.id))

theorem threadKey_lt (a b : Message) :
    threadKey collate a < threadKey collate b ↔ comesBefore collate a.createdAt a.id b = true := by
  rw [threadKey, threadKey, Prod.Lex.toLex_lt_toLex, comesBefore]
  simp [@eq_comm _ b.createdAt.ordinal]

theorem newestFirst_eq (rows : List Message) :
    newestFirst collate rows = sortBy (threadKey collate) rows :=
  insertionSort_congr (fun a b => by
    rw [Bool.not_eq_true', ← Bool.not_eq_true, ← threadKey_lt, not_lt]) rows

omit [LinearOrder ι] in
/-- No two messages of a thread are in one place. -/
theorem threadKey_ne (db : Db) (orgId conversationId : String) :
    (thread db orgId conversationId).Pairwise fun a b =>
      threadKey collate a ≠ threadKey collate b := by
  refine (db.messages.unique.filter _).imp fun {a b} h heq => ?_
  have hid : a.id = b.id := collate.injective (Prod.ext_iff.mp heq).2
  simp [messageSchema, hid] at h

/-- The cursor that a message at the end of a page is encoded as. -/
def messageCursor (m : Message) : Cursor := encodeCursor (some m.createdAt) m.id

/-- The messages of a page. -/
def threadPageSize (limit : ℤ) : ℕ := (clamp limit defaultMessageLimit).toNat

theorem threadPageSize_pos (limit : ℤ) : 0 < threadPageSize limit := by
  unfold threadPageSize clamp defaultMessageLimit maxLimit
  split <;> omega

/-! ### Attachments -/

section Attachments

variable {sign} {orgId : String}

/-- An attachment is shown where it is the org's file. -/
theorem attachmentView_eq_ok_iff {a : MessageAttachment} {view : String × AttachmentView} :
    attachmentView sign orgId a = .ok view ↔
      (orgId ++ "/").toList.isPrefixOf a.s3Key.toList = true ∧ view = (a.messageId, shown sign a) := by
  unfold attachmentView signedUrlForAttachment
  split
  · next h => exact ⟨fun hview => ⟨h, (Except.ok.inj hview).symm⟩, fun hview => congrArg _ hview.2.symm⟩
  · next h => exact ⟨nofun, fun hview => absurd hview.1 h⟩

/-- Attachments are shown where all of them are the org's files. -/
theorem mapM_attachmentView_eq_ok_iff {rows : List MessageAttachment} :
    ∀ {views : List (String × AttachmentView)}, rows.mapM (attachmentView sign orgId) = .ok views ↔
      (∀ a ∈ rows, (orgId ++ "/").toList.isPrefixOf a.s3Key.toList = true) ∧
        views = rows.map fun a => (a.messageId, shown sign a) := by
  induction rows with
  | nil =>
    intro views
    exact ⟨fun h => ⟨nofun, (Except.ok.inj h).symm⟩, fun h => congrArg Except.ok h.2.symm⟩
  | cons a rows ih =>
    intro views
    rw [List.mapM_cons, bind_eq_ok]
    constructor
    · rintro ⟨view, hview, h⟩
      obtain ⟨views', hviews, h⟩ := bind_eq_ok.mp h
      obtain ⟨ha, rfl⟩ := attachmentView_eq_ok_iff.mp hview
      obtain ⟨hrows, rfl⟩ := ih.mp hviews
      refine ⟨fun b hb => ?_, (Except.ok.inj h).symm⟩
      rcases List.mem_cons.mp hb with rfl | hb
      · exact ha
      · exact hrows b hb
    · rintro ⟨hrows, rfl⟩
      refine ⟨_, attachmentView_eq_ok_iff.mpr ⟨hrows a List.mem_cons_self, rfl⟩, ?_⟩
      exact bind_eq_ok.mpr ⟨_, ih.mpr ⟨fun b hb => hrows b (List.mem_cons_of_mem _ hb), rfl⟩, rfl⟩

/-- What is shown of a message of the page. -/
theorem attachmentsOf_eq {db : Db} {ids : List String} {views : List (String × AttachmentView)}
    (h : attachmentsFor sign db orgId ids = .ok views) {id : String} (hid : id ∈ ids) :
    attachmentsOf views id = viewsOf sign db orgId id := by
  obtain ⟨_, rfl⟩ := mapM_attachmentView_eq_ok_iff.mp h
  rw [attachmentsOf, List.filter_map, List.map_map, List.filter_filter, viewsOf]
  refine congrArg (List.map (shown sign)) (List.filter_congr fun a _ => ?_)
  by_cases ha : a.messageId = id
  · simp [ha, hid]
  · have hne : (a.messageId == id) = false := beq_false_of_ne ha
    simp [hne]

end Attachments

/-! ### Pages -/

section Page

variable (membership : Core.Membership) (db : Db) (orgId conversationId : String) (limit : ℤ)
  (start : Option Message)

/-- The messages after the one that the last page ended with, newest first. -/
def olderThan : List Message := query (threadKey collate) (thread db orgId conversationId) start

/-- A page of them, and the cursor of the next one. -/
def threadCut : List Message × Option Cursor :=
  cut messageCursor (threadPageSize limit) (olderThan collate db orgId conversationId start)

/-- What the query selects. -/
theorem selected_eq : newestFirst collate (threadFrom collate db orgId conversationId
      (start.map fun m => (m.createdAt, m.id))) = olderThan collate db orgId conversationId start := by
  rw [newestFirst_eq, olderThan, query]
  refine congrArg (sortBy (threadKey collate)) ?_
  cases start with
  | none =>
    have hall : (thread db orgId conversationId).filter (follows (threadKey collate) none) =
        thread db orgId conversationId := List.filter_eq_self.mpr fun _ _ => rfl
    rw [hall]
    rfl
  | some m =>
    refine List.filter_congr fun row _ => ?_
    rw [Bool.eq_iff_iff, follows_some]
    exact (threadKey_lt collate m row).symm

/-- What a page is made of. -/
theorem threadPage_eq : threadPage collate sign membership db orgId conversationId limit
      (start.map messageCursor) = (do
        let c ← loadedConversation db orgId conversationId
        match db.identity c.customerIdentityId with
        | none => throw ⟨.conversationNotFoundError,
            "Conversation " ++ pyRepr conversationId ++ " has no customer identity"⟩
        | some _ =>
          let rows := (threadCut collate db orgId conversationId limit start).1.reverse
          let views ← attachmentsFor sign db orgId (rows.map (·.id))
          return (rows.map fun m => messageView m (attachmentsOf views m.id),
            (threadCut collate db orgId conversationId limit start).2)) := by
  have hstart : startBefore (start.map messageCursor) =
      .ok (start.map fun m => (m.createdAt, m.id)) := by
    cases start <;> rfl
  have hselected := selected_eq collate db orgId conversationId start
  have htake : ∀ rows : List Message, (rows.take (threadPageSize limit + 1)).take
      (threadPageSize limit) = rows.take (threadPageSize limit) := fun rows => by
    rw [List.take_take, Nat.min_eq_left (Nat.le_succ _)]
  have hmore : ∀ rows : List Message, (rows.take (threadPageSize limit + 1)).length >
      threadPageSize limit ↔ threadPageSize limit < rows.length := fun rows => by
    rw [List.length_take]
    omega
  unfold threadPage getConversation
  rw [hstart]
  simp only [Option.isNone_some, Bool.false_eq_true, if_false]
  cases loadedConversation db orgId conversationId with
  | error e => rfl
  | ok c =>
    show Except.map _ (match db.identity c.customerIdentityId with | none => _ | some _ => _) =
      match db.identity c.customerIdentityId with | none => _ | some _ => _
    cases db.identity c.customerIdentityId with
    | none => rfl
    | some identity =>
      have hsize : (clamp limit defaultMessageLimit).toNat = threadPageSize limit := rfl
      have hpure : (Except.ok (start.map fun m => (m.createdAt, m.id)) : Except PyErr _) =
          pure (start.map fun m => (m.createdAt, m.id)) := rfl
      simp only [hsize, hpure, pure_bind, hselected, htake, hmore]
      unfold threadCut cut
      cases attachmentsFor sign db orgId (((olderThan collate db orgId conversationId start).take
        (threadPageSize limit)).reverse.map (·.id)) with
      | error e => rfl
      | ok views => rfl

variable {collate sign membership db orgId conversationId limit start}

/-- A page that is given shows the messages of the query, in reading order. -/
theorem eq_of_threadPage {r : List MessageView × Option Cursor}
    (h : threadPage collate sign membership db orgId conversationId limit
      (start.map messageCursor) = .ok r) :
    r = (((threadCut collate db orgId conversationId limit start).1.map
        (messageOf sign db orgId)).reverse,
      (threadCut collate db orgId conversationId limit start).2) := by
  rw [threadPage_eq] at h
  obtain ⟨c, _, h⟩ := bind_eq_ok.mp h
  split at h
  · cases h
  · obtain ⟨views, hviews, h⟩ := bind_eq_ok.mp h
    rw [← Except.ok.inj h, ← List.map_reverse]
    refine Prod.ext (List.map_congr_left fun m hm => ?_) rfl
    rw [messageOf, attachmentsOf_eq hviews (List.mem_map_of_mem hm)]

theorem mem_olderThan {m : Message} (h : m ∈ olderThan collate db orgId conversationId start) :
    m ∈ thread db orgId conversationId :=
  (mem_query.mp h).1

/-- A page is given where the conversation can be read. -/
theorem threadPage_of_readable (h : Readable db orgId conversationId) :
    threadPage collate sign membership db orgId conversationId limit (start.map messageCursor) =
      .ok (((threadCut collate db orgId conversationId limit start).1.map
          (messageOf sign db orgId)).reverse,
        (threadCut collate db orgId conversationId limit start).2) := by
  obtain ⟨c, hc, hidentity⟩ := h.conversation
  obtain ⟨identity, hidentity⟩ := Option.isSome_iff_exists.mp hidentity
  suffices hok : ∃ r, threadPage collate sign membership db orgId conversationId limit
      (start.map messageCursor) = .ok r by
    obtain ⟨r, hr⟩ := hok
    rw [hr, eq_of_threadPage hr]
  have hviews : ∃ views, attachmentsFor sign db orgId ((threadCut collate db orgId conversationId
      limit start).1.reverse.map (·.id)) = .ok views := by
    refine ⟨_, mapM_attachmentView_eq_ok_iff.mpr ⟨fun a ha => ?_, rfl⟩⟩
    simp only [List.mem_filter, Bool.and_eq_true, beq_iff_eq, List.contains_iff_mem,
      List.mem_map, List.mem_reverse] at ha
    obtain ⟨ha, horg, m, hm, hid⟩ := ha
    exact h.attachments a ha horg ⟨m, mem_olderThan (List.mem_of_mem_take hm), hid⟩
  obtain ⟨views, hviews⟩ := hviews
  refine Exists.intro (((threadCut collate db orgId conversationId limit start).1.reverse.map
      fun m => messageView m (attachmentsOf views m.id)),
    (threadCut collate db orgId conversationId limit start).2) ?_
  rw [threadPage_eq, hc]
  refine bind_eq_ok.mpr ⟨c, rfl, ?_⟩
  rw [hidentity]
  exact bind_eq_ok.mpr ⟨views, hviews, rfl⟩

end Page

/-! ### Scrolling back -/

/-- What is older than a cursor is what a query gives from it, and is shown as before. -/
theorem query_of_olderKept {db db' : Db} {orgId conversationId : String} {a : Message}
    (h : OlderKept collate sign orgId conversationId (messageCursor a) db db') :
    query (threadKey collate) (thread db' orgId conversationId) (some a) =
        query (threadKey collate) (thread db orgId conversationId) (some a) ∧
      ∀ b ∈ query (threadKey collate) (thread db orgId conversationId) (some a),
        messageOf sign db' orgId b = messageOf sign db orgId b := by
  have hbefore : ∀ b, follows (threadKey collate) (some a) b = true →
      comesBefore collate a.createdAt a.id b = true := fun b hb =>
    (threadKey_lt collate a b).mp (follows_some.mp hb)
  have : Std.Irrefl fun a b : Message => threadKey collate a < threadKey collate b :=
    ⟨fun a => lt_irrefl (threadKey collate a)⟩
  have : Std.Antisymm fun a b : Message => threadKey collate a < threadKey collate b :=
    ⟨fun a b h h' => absurd h (lt_asymm h')⟩
  refine ⟨List.Pairwise.eq_of_mem_iff
    (sorted_query (threadKey_ne collate db' orgId conversationId) _)
    (sorted_query (threadKey_ne collate db orgId conversationId) _) fun b => ?_, fun b hb => ?_⟩
  · rw [mem_query, mem_query]
    refine and_congr_left fun hb => ?_
    exact h.messages a.createdAt a.id rfl b (hbefore b hb)
  · obtain ⟨hb, hfollows⟩ := mem_query.mp hb
    rw [messageOf, messageOf, h.attachments a.createdAt a.id rfl b (hbefore b hfollows) hb]

theorem OlderKept.refl (orgId conversationId : String) (cursor : Cursor) (db : Db) :
    OlderKept collate sign orgId conversationId cursor db db :=
  ⟨fun _ _ _ _ _ => Iff.rfl, fun _ _ _ _ _ _ => rfl⟩

/-- **Scrolling back through a thread**, with any limit, gives its messages in order, each once,
whatever is written meanwhile to messages that are newer than the cursor that is followed. -/
theorem scroll_thread (membership : Core.Membership) (dbs : ℕ → Db) (orgId conversationId : String)
    (limit : ℤ) (hreadable : ∀ k, Readable (dbs k) orgId conversationId)
    (hkept : ∀ k c, Reached (fun k => threadPage collate sign membership (dbs k) orgId conversationId
      limit) k c → OlderKept collate sign orgId conversationId c (dbs k) (dbs (k + 1))) :
    ∃ rows : List Message, rows.Perm (thread (dbs 0) orgId conversationId) ∧
      rows.Pairwise (fun a b => comesBefore collate b.createdAt b.id a) ∧
      ∀ items, Scrolls (fun k => threadPage collate sign membership (dbs k) orgId conversationId
        limit) 0 none items ↔ items = rows.map (messageOf sign (dbs 0) orgId) := by
  have hne : ∀ k, (thread (dbs k) orgId conversationId).Pairwise fun a b =>
      threadKey collate a ≠ threadKey collate b := fun k =>
    threadKey_ne collate (dbs k) orgId conversationId
  have hnone : query (threadKey collate) (thread (dbs 0) orgId conversationId) none =
      sortBy (threadKey collate) (thread (dbs 0) orgId conversationId) :=
    congrArg (sortBy _) (List.filter_eq_self.mpr fun _ _ => rfl)
  have hscroll := scrolls_query (threadPageSize_pos limit) hne
    (fun k start => threadPage_of_readable (hreadable k))
    (fun k a ha => query_of_olderKept collate sign (hkept k _ ha))
  rw [hnone, ← List.map_reverse] at hscroll
  refine ⟨(sortBy (threadKey collate) (thread (dbs 0) orgId conversationId)).reverse, ?_, ?_, ?_⟩
  · exact (List.reverse_perm _).trans (perm_sortBy _)
  · rw [List.pairwise_reverse]
    exact (pairwise_sortBy (hne 0)).imp fun hlt => (threadKey_lt collate _ _).mp hlt
  · intro items
    constructor
    · intro h
      exact h.unique hscroll
    · rintro rfl
      exact hscroll

/-- The messages of a conversation, two of which are of one time. -/
def chat : List Message :=
  let message (id : String) (second : ℕ) : Message :=
    ⟨id, "org", "conversation", .inbound, "whatsapp", id, some id, none, "text", "received", none,
      none, ⟨⟨2026, 1, 1⟩, 0, 0, second, 0⟩⟩
  [message "m1" 1, message "m3" 2, message "m2" 2, message "m4" 3]

/-- A conversation with the first `n` of them. -/
def chatDb (n : ℕ) : Db :=
  { Db.empty with
    identities := ⟨[⟨"identity", "org", "whatsapp", "4916", some "Kim", none,
        ⟨⟨2026, 1, 1⟩, 0, 0, 0, 0⟩⟩], by simp [identitySchema], by simp [identitySchema]⟩
    conversations := ⟨[⟨"conversation", "org", "identity", "open", none,
        some ⟨⟨2026, 1, 1⟩, 0, 0, 2, 0⟩, some "Hi", 3, ⟨⟨2026, 1, 1⟩, 0, 0, 0, 0⟩⟩],
      by decide, by simp [conversationSchema]⟩
    messages := ⟨chat.take n, by simp [messageSchema],
      List.Pairwise.sublist (List.take_sublist n chat) (by decide)⟩ }

theorem readable_chatDb (n : ℕ) : Readable (chatDb n) "org" "conversation" :=
  ⟨⟨_, rfl, rfl⟩, fun a ha => absurd ha (by simp [chatDb, Db.empty, Table.empty])⟩

/-- The thread with ties is scrolled back one message a page, where a message arrives after the first
page. -/
theorem scroll_thread_chat : ∃ rows : List Message,
    rows.Perm (thread (chatDb 3) "org" "conversation") ∧
      rows.Pairwise (fun a b => comesBefore (.refl String) b.createdAt b.id a) ∧
      ∀ items, Scrolls (fun k => threadPage (.refl String) id
        ⟨"ada", "org", .member, ⟨⟨2026, 1, 1⟩, 0, 0, 0, 0⟩⟩ (if k = 0 then chatDb 3 else chatDb 4)
        "org" "conversation" 1) 0 none items ↔
          items = rows.map (messageOf id (chatDb 3) "org") := by
  refine scroll_thread (.refl String) id _ (fun k => if k = 0 then chatDb 3 else chatDb 4) "org"
    "conversation" 1 (fun k => ?_) (fun k c hc => ?_)
  · by_cases hk : k = 0
    · simpa only [if_pos hk] using readable_chatDb 3
    · simpa only [if_neg hk] using readable_chatDb 4
  · cases hc with
    | next _ _ => exact .refl _ _ _ _ _ _
    | first h =>
      have hfirst : (threadPage (.refl String) id
          ⟨"ada", "org", .member, ⟨⟨2026, 1, 1⟩, 0, 0, 0, 0⟩⟩ (chatDb 3) "org" "conversation" 1
          none).map Prod.snd = .ok (some (messageCursor chat[1])) := by decide +kernel
      have hcursor := (congrArg (Except.map Prod.snd) h).symm.trans hfirst
      obtain rfl : c = messageCursor chat[1] := Option.some.inj (Except.ok.inj hcursor)
      have hnewer : thread (chatDb 4) "org" "conversation" =
          thread (chatDb 3) "org" "conversation" ++ [chat[3]] := by decide +kernel
      refine ⟨fun ts id hc m hm => ?_, fun _ _ _ _ _ _ => rfl⟩
      obtain ⟨hts, rfl⟩ := Cursor.page.inj hc
      obtain rfl := Option.some.inj hts
      have hne : m ≠ chat[3] := by
        rintro rfl
        revert hm
        decide +kernel
      show m ∈ thread (chatDb 4) "org" "conversation" ↔ m ∈ thread (chatDb 3) "org" "conversation"
      rw [hnewer, List.mem_append, List.mem_singleton]
      exact or_iff_left hne

end A2ZCore.Omnichannel
