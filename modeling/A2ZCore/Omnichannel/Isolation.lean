import A2ZCore.Lib.InStep
import A2ZCore.Omnichannel.Cursors
import A2ZCore.Omnichannel.Tenancy
import A2ZCore.Omnichannel.Tenants
import A2ZCore.Omnichannel.Unread

/-!
# The API for one org

What a call of the API replies to a user of an org, and what it writes, is decided by the org's rows.
Some lookups are by primary key, and can find a row of another org: they then reply as if there were none.
Others follow a reference without naming the org: rows refer to rows of their own org. So the API does on
the database what it does on the org's part of it, and the rows of the other orgs stay as they are.

The two runs of a call are taken in step, one on the database and one on the org's part. What the
environment decides is the same in both, the identifiers among it.

## Main definitions

* `Beside` — a state, next to the one with the org's rows alone
* `ApiCall` — the calls of the API that are more than one query
* `SameReads`, `AlikeFor` — nothing of another org is told, and nothing of another org is changed

## Main results

* `matching_own`, `getConversation_own` — the reads of the inbox are reads of the org's rows
* `inStep_apiCall` — the other calls, on the database and on the org's part of it
* `api_isolated`
-/

namespace A2ZCore.Omnichannel

open Interaction Interaction.Proc A2ZCore.Core Relational

/-! ### Lookups by key -/

section Keys

variable {orgId : String} {db : Db}

/-- A lookup by primary key finds in the org's part what it finds, where that is the org's. -/
theorem conversation_own (orgId id : String) (db : Db) :
    (db.own orgId).conversation id = (db.conversation id).filter fun c => c.orgId == orgId :=
  db.conversations.find?_restrict_of_key fun c hc d hd hcid hdid =>
    db.conversations.eq_of_clash hc hd (by simp_all [conversationSchema])

theorem connection_own (orgId id : String) (db : Db) :
    (db.own orgId).connection id = (db.connection id).filter fun c => c.orgId == orgId :=
  db.connections.find?_restrict_of_key fun c hc d hd hcid hdid =>
    db.connections.eq_of_clash hc hd (by simp_all [connectionSchema])

/-- The conversation is one of the org. -/
structure Owned (orgId : String) (db : Db) (c : Conversation) : Prop where
  mem : c ∈ db.conversations.rows
  org : c.orgId = orgId

/-- The identity that a conversation of the org refers to is in the org's part. -/
theorem Owned.identity_own (h : OneOrg db) {c : Conversation} (hc : Owned orgId db c) :
    (db.own orgId).identity c.customerIdentityId = db.identity c.customerIdentityId := by
  refine db.identities.find?_restrict fun i hi hid => ?_
  obtain ⟨horg, _⟩ := h.converses hc.mem hi (by simpa using hid)
  simpa [horg] using hc.org

/-- No row of another org has the id of a conversation of the org. -/
theorem Owned.apart {c : Conversation} (hc : Owned orgId db c) :
    ∀ d ∈ db.conversations.rows, d.orgId ≠ orgId → d.id ≠ c.id :=
  conversation_apart hc.mem ⟨c.createdAt, rfl⟩ hc.org

end Keys

/-! ### The reads of the inbox -/

section Reads

variable {orgId : String} {db : Db}

/-- What is selected of the rows of a part is selected in the part. -/
theorem flatMap_filter_of_nil {α β : Type} {p : α → Bool} {f : α → List β} {rows : List α}
    (h : ∀ a ∈ rows, p a = false → f a = []) : (rows.filter p).flatMap f = rows.flatMap f := by
  induction rows with
  | nil => rfl
  | cons a rows ih =>
    have hrest := ih fun b hb => h b (List.mem_cons_of_mem _ hb)
    cases hp : p a with
    | true => rw [List.filter_cons_of_pos hp, List.flatMap_cons, List.flatMap_cons, hrest]
    | false =>
      rw [List.filter_cons_of_neg (by simp [hp]), List.flatMap_cons, h a List.mem_cons_self hp, hrest,
        List.nil_append]

/-- The filters read rows of their org only. -/
theorem selects_own (search : TextSearch) (filter : InboxFilter) (db : Db)
    (row : Conversation × ChannelIdentity) :
    filter.selects search (db.own filter.orgId) row = filter.selects search db row := by
  have hmessages : ∀ q : Message → Bool, ((db.own filter.orgId).messages.rows.any fun m =>
      m.orgId == filter.orgId && q m) = db.messages.rows.any fun m => m.orgId == filter.orgId && q m := by
    intro q
    rw [Db.own, Table.rows_restrict, List.any_filter]
    refine congrArg (List.any _) (funext fun m => ?_)
    cases m.orgId == filter.orgId <;> rfl
  simp only [InboxFilter.selects, Bool.and_assoc, hmessages]

/-- What matches a filter is with the org's rows. -/
theorem matching_own (search : TextSearch) (filter : InboxFilter) (h : OneOrg db) :
    filter.matching search (db.own filter.orgId) = filter.matching search db := by
  have hselects : filter.selects search (db.own filter.orgId) = filter.selects search db :=
    funext fun row => selects_own search filter db row
  rw [InboxFilter.matching, InboxFilter.matching, hselects, joinIdentities, joinIdentities,
    List.filter_flatMap, List.filter_flatMap]
  have hnone : ∀ c ∈ db.conversations.rows, (c.orgId == filter.orgId) = false →
      (((db.identities.rows.filter fun i => c.customerIdentityId == i.id).map fun i =>
        (c, i)).filter (filter.selects search db)) = [] := by
    intro c _ hc
    refine List.filter_eq_nil_iff.mpr fun row hrow => ?_
    obtain ⟨i, _, rfl⟩ := List.mem_map.mp hrow
    simp [InboxFilter.selects, hc]
  rw [← flatMap_filter_of_nil hnone]
  refine List.flatMap_congr fun c hc => ?_
  obtain ⟨hmem, horg⟩ := List.mem_filter.mp hc
  have hidentities : (db.own filter.orgId).identities.rows.filter (fun i => c.customerIdentityId == i.id) =
      db.identities.rows.filter fun i => c.customerIdentityId == i.id := by
    refine db.identities.filter_restrict fun i hi hid => ?_
    obtain ⟨hiorg, _⟩ := h.converses hmem hi (by simpa using Eq.symm (by simpa using hid))
    simpa [hiorg] using horg
  rw [hidentities]

section Queries

variable {ι : Type} [LinearOrder ι] (collate : String ↪ ι) (codec : CursorCodec)

theorem listConversationsFrom_own (search : TextSearch) (membership : Option Membership)
    (filter : InboxFilter) (sort : String) (limit : ℤ) (cursor : Option Text) (h : OneOrg db) :
    listConversationsFrom codec collate search membership (db.own filter.orgId) filter sort limit cursor =
      listConversationsFrom codec collate search membership db filter sort limit cursor := by
  simp only [listConversationsFrom, listConversations, matching_own search filter h]

/-- What is loaded of the org's part is what is loaded, and is the org's. -/
theorem loadedConversation_own (orgId conversationId : String) (db : Db) :
    loadedConversation (db.own orgId) orgId conversationId =
      loadedConversation db orgId conversationId := by
  rw [loadedConversation, loadedConversation, conversation_own, Option.filter_filter]
  simp only [Bool.and_self]

theorem held_of_loaded {conversationId : String} {c : Conversation}
    (h : loadedConversation db orgId conversationId = .ok c) : Owned orgId db c := by
  rw [loadedConversation] at h
  split at h
  · next conversation hfound =>
    cases h
    obtain ⟨hmem, horg⟩ := Option.filter_eq_some_iff.mp hfound
    exact ⟨List.mem_of_find?_eq_some hmem, by simpa using horg⟩
  · cases h

theorem thread_own (orgId conversationId : String) (db : Db) :
    thread (db.own orgId) orgId conversationId = thread db orgId conversationId :=
  db.messages.filter_restrict fun _ _ hm => (Bool.and_eq_true_iff.mp hm).1

theorem attachmentsFor_own (sign : String → String) (orgId : String) (messageIds : List String)
    (db : Db) :
    attachmentsFor sign (db.own orgId) orgId messageIds = attachmentsFor sign db orgId messageIds := by
  have hrows : ((db.own orgId).attachments.rows.filter fun a =>
      a.orgId == orgId && messageIds.contains a.messageId) =
      db.attachments.rows.filter fun a => a.orgId == orgId && messageIds.contains a.messageId :=
    db.attachments.filter_restrict fun _ _ ha => (Bool.and_eq_true_iff.mp ha).1
  rw [attachmentsFor, attachmentsFor, hrows]

theorem threadFrom_own (orgId conversationId : String) (db : Db) (start : Option (DateTime × String)) :
    threadFrom collate (db.own orgId) orgId conversationId start =
      threadFrom collate db orgId conversationId start := by
  cases start with
  | none => exact thread_own orgId conversationId db
  | some place => simp only [threadFrom, thread_own]

theorem getConversation_own (sign : String → String) (membership : Option Membership)
    (orgId conversationId : String) (limit : ℤ)
    (start : Except PyErr (Option (DateTime × String))) (h : OneOrg db) :
    getConversation collate sign membership (db.own orgId) orgId conversationId limit start =
      getConversation collate sign membership db orgId conversationId limit start := by
  rw [getConversation, getConversation, loadedConversation_own]
  cases hloaded : loadedConversation db orgId conversationId with
  | error e => rfl
  | ok c =>
    have hidentity := (held_of_loaded hloaded).identity_own h
    simp only [Bind.bind, Except.bind, hidentity, threadFrom_own, attachmentsFor_own]

theorem listConnections_own (membership : Option Membership) (orgId : String) (tie : String → ℕ)
    (db : Db) :
    listConnections membership (db.own orgId) orgId tie = listConnections membership db orgId tie := by
  have hrows : ((db.own orgId).connections.rows.filter fun c => c.orgId == orgId) =
      db.connections.rows.filter fun c => c.orgId == orgId :=
    db.connections.filter_restrict fun _ _ hc => hc
  simp only [listConnections, hrows]

end Queries

end Reads

/-! ### Two runs in step -/

/-- No row of another org has the identifier, and no message of another org is about to be sent under
it. -/
structure NewId (orgId : String) (db : Db) (token : String) : Prop where
  unused : (db.others orgId).Unused token
  connections : ∀ c ∈ (db.others orgId).connections.rows, c.id ≠ token
  pending : ∀ m ∈ (db.others orgId).messages.rows, m.externalMessageId ≠ "pending:" ++ token

/-- A state, next to the one with the org's rows alone. `P` holds of the database. -/
structure Beside (orgId : String) (P : Db → Prop) (w v : World) : Prop where
  own : v = w.own orgId
  db : P w.db

/-- Nothing is written yet. -/
abbrev Unwritten (orgId : String) (db : Db) : World → World → Prop := Beside orgId fun db' => db' = db

/-- No row of another org has been touched. -/
abbrev Untouched (orgId : String) (db : Db) : World → World → Prop :=
  Beside orgId fun db' => db'.others orgId = db.others orgId

theorem Beside.untouched {orgId : String} {db : Db} (w v : World) (h : Unwritten orgId db w v) :
    Untouched orgId db w v :=
  ⟨h.own, by rw [h.db]⟩

/-- Two programs in step, where the environment generates new identifiers. -/
abbrev Besides {α α' : Type} (orgId : String) (db : Db) (J : World → World → Prop) (T : α → α' → Prop)
    (p : Prog α) (q : Prog α') (w v : World) : Prop :=
  InStep Call.answer Call.answer (fun x : Choice => NewId orgId db x.token) J T p q w v

/-- The call reads rows of the org only, and writes none. -/
def Call.Aloof (orgId : String) : Call → Prop
  | .core _ | .rollback | .queueUrl _ | .sendMessage _ _ => True
  | .selectByDedupKey org _ _ => org = orgId
  | _ => False

/-- The reply and the URLs that are known then depend on those that were. -/
theorem answer_queueUrl (name : QueueName) (x : Choice) (w : World) :
    ∃ (r : Except PyErr Unit) (urls : List QueueName), ∀ v : World, v.queueUrls = w.queueUrls →
      (Call.queueUrl name).answer x v = (r, { v with queueUrls := urls }) := by
  by_cases hname : name ∈ w.queueUrls
  · refine ⟨.ok (), w.queueUrls, fun v hv => ?_⟩
    rw [Call.answer, if_pos (hv ▸ hname), ← hv]
    rfl
  · cases hfate : x.fate with
    | ok =>
      refine ⟨.ok (), name :: w.queueUrls, fun v hv => ?_⟩
      rw [Call.answer, if_neg (hv ▸ hname), hfate, hv]
      rfl
    | lost e | late e =>
      refine ⟨.error e, w.queueUrls, fun v hv => ?_⟩
      rw [Call.answer, if_neg (hv ▸ hname), hfate, ← hv]
      rfl

theorem Call.Aloof.own {orgId : String} {c : Call} (hc : c.Aloof orgId) (x : Choice) (w : World) :
    c.answer x (w.own orgId) = ((c.answer x w).1, (c.answer x w).2.own orgId) ∧
      (c.answer x w).2.db = w.db := by
  cases c with
  | core c => exact ⟨rfl, rfl⟩
  | selectByDedupKey org conversationId key =>
    obtain rfl : org = orgId := hc
    refine ⟨query_own org x.fate (congrArg scalarOneOrNone ?_) w,
      congrArg World.db (Core.Fate.snd_query ..)⟩
    exact w.db.messages.filter_restrict fun m _ hm => (Bool.and_eq_true_iff.mp
      (Bool.and_eq_true_iff.mp hm).1).1
  | rollback => exact ⟨query_own orgId x.fate rfl w, congrArg World.db (Core.Fate.snd_query ..)⟩
  | queueUrl name =>
    obtain ⟨r, urls, hanswer⟩ := answer_queueUrl name x w
    rw [hanswer w rfl, hanswer (w.own orgId) rfl]
    exact ⟨rfl, rfl⟩
  | sendMessage name entry =>
    simp only [Call.answer, World.own]
    cases x.fate <;> exact ⟨rfl, rfl⟩
  | _ => exact hc.elim

/-- Replies that are the same are alike. -/
theorem alike_of_eq {α : Type} {r r' : Except PyErr α} (h : r = r') : Alike Eq r r' := by
  subst h
  cases r with
  | ok a => rfl
  | error e => rfl

/-- Lookups that both succeed, or both fail. -/
theorem alike_query {α α' : Type} {T : α → α' → Prop} (fate : Core.Fate) {a : α} {a' : α'} (h : T a a')
    (w v : World) : Alike T (fate.query (.ok a) w).1 (fate.query (.ok a') v).1 := by
  cases fate with
  | ok => exact h
  | lost e => rfl
  | late e => rfl

section Calls

variable {orgId : String} {db : Db} {P : Db → Prop} {w v : World}

/-- A program that is aloof. -/
theorem besides_of_aloof {α : Type} {p : Prog α} (hp : p.Calls (Call.Aloof orgId))
    (h : Beside orgId P w v) : Besides orgId db (Beside orgId P) Eq p p w v := by
  refine InStep.of_calls (fun c hc x w v _ hJ => ?_) hp h
  obtain ⟨rfl, hdb⟩ := hJ
  obtain ⟨hanswer, hsame⟩ := hc.own x w
  rw [hanswer]
  exact ⟨rfl, rfl, by rwa [hsame]⟩

theorem aloof_core {α : Type} (p : Core.Prog α) : (core p).Calls (Call.Aloof orgId) :=
  calls_core p fun _ => trivial

theorem aloof_requireMembership (userId org message : String) :
    (requireMembership userId org message).Calls (Call.Aloof orgId) := by
  refine Calls.bind (aloof_core _) fun membership => ?_
  cases membership <;> trivial

theorem aloof_requireRole (userId org : String) (allowed : List Role) (forbiddenMessage : String) :
    (requireRole userId org allowed forbiddenMessage).Calls (Call.Aloof orgId) := by
  refine Calls.bind (aloof_requireMembership _ _ _) fun membership => ?_
  split <;> trivial

/-- A new identifier. -/
theorem besides_uuid4 (h : Beside orgId P w v) : Besides orgId db (Beside orgId P)
    (fun id id' => id' = id ∧ NewId orgId db id) (core (Core.run .uuid4)) (core (Core.run .uuid4))
    w v := by
  obtain ⟨rfl, hdb⟩ := h
  exact .call ⟨rfl, hdb⟩ fun x hx => .ret ⟨rfl, hdb⟩ ⟨rfl, hx⟩

/-- A conversation is loaded where it is the org's. -/
theorem besides_loadConversation (conversationId : String) (h : Unwritten orgId db w v) :
    Besides orgId db (Unwritten orgId db) (fun c c' => c' = c ∧ Owned orgId db c)
      (loadConversation orgId conversationId) (loadConversation orgId conversationId) w v := by
  have hlookup : Besides orgId db (Unwritten orgId db) (fun found found' : Option Conversation =>
      found = db.conversation conversationId ∧
        found' = (db.conversation conversationId).filter fun c => c.orgId == orgId)
      (run (.getConversation conversationId)) (run (.getConversation conversationId)) w v := by
    refine InStep.perform (c := Call.getConversation conversationId)
      (d := Call.getConversation conversationId) h fun x _ => ?_
    obtain ⟨rfl, rfl⟩ := h
    refine ⟨alike_query x.fate ⟨rfl, conversation_own orgId conversationId w.db⟩ _ _, ?_⟩
    rw [Call.answer, Call.answer, Core.Fate.snd_query, Core.Fate.snd_query]
    exact ⟨rfl, rfl⟩
  refine hlookup.bind_lookup (fun c hc => if_pos (by simpa using hc)) (fun w v h => .raise h)
    fun c w v hfound hc h => ?_
  have horg : c.orgId = orgId := by simpa using hc
  dsimp only
  rw [if_neg (not_not.mpr horg)]
  exact .ret h ⟨rfl, List.mem_of_find?_eq_some hfound, horg⟩

/-- The identity of a conversation that is held. -/
theorem besides_getIdentity (hdb : OneOrg db) {c : Conversation} (hc : Owned orgId db c)
    (h : Unwritten orgId db w v) : Besides orgId db (Unwritten orgId db) Eq
      (run (.getIdentity c.customerIdentityId)) (run (.getIdentity c.customerIdentityId)) w v := by
  refine InStep.perform h fun x _ => ?_
  obtain ⟨rfl, rfl⟩ := h
  refine ⟨alike_query x.fate (hc.identity_own hdb).symm _ _, ?_⟩
  rw [Call.answer, Call.answer, Core.Fate.snd_query, Core.Fate.snd_query]
  exact ⟨rfl, rfl⟩

/-- A commit of the org's writes. -/
theorem besides_commit {writes : List Write} (hwrites : ∀ write ∈ writes, write.Apart orgId db)
    (h : Unwritten orgId db w v) :
    Besides orgId db (Untouched orgId db) Eq (run (.commit writes)) (run (.commit writes)) w v := by
  refine InStep.perform h.untouched fun x _ => ?_
  obtain ⟨rfl, rfl⟩ := h
  rw [commit_own hwrites x]
  refine ⟨alike_of_eq rfl, rfl, ?_⟩
  rcases commit_cases writes x w with ⟨_, db', happly, hw⟩ | ⟨_, hw, _⟩
  · rw [hw]
    exact others_eq_apply hwrites happly
  · rw [hw]

end Calls

/-! ### The operations on conversations -/

section Operations

variable {orgId : String} {db : Db} {w v : World}

theorem besides_recordAssignment {c : Conversation} (hc : Owned orgId db c)
    (assignedUserId assignedBy reason : String) (h : Unwritten orgId db w v) :
    Besides orgId db (Untouched orgId db) Eq (recordAssignment c assignedUserId assignedBy reason)
      (recordAssignment c assignedUserId assignedBy reason) w v := by
  refine (besides_uuid4 h).bind_into Beside.untouched ?_
  rintro _ id w v ⟨rfl, hid⟩ h
  refine InStep.bind (besides_commit (fun write hwrite => ?_) h) fun _ _ w v _ h => ?_
  · rcases List.mem_pair.mp hwrite with rfl | rfl
    · exact hc.apart
    · exact ⟨hc.org, fun a ha ho => hid.unused.assignments a (List.mem_filter.mpr ⟨ha, by simpa using ho⟩)⟩
  · exact InStep.bind (besides_of_aloof (aloof_core _) h) fun _ _ w v _ h => .ret h rfl

theorem besides_claim (conversationId userId : String) (h : Unwritten orgId db w v) :
    Besides orgId db (Untouched orgId db) Eq (claim orgId conversationId userId)
      (claim orgId conversationId userId) w v := by
  refine (besides_of_aloof (aloof_requireRole _ _ _ _) h).bind_into Beside.untouched
    fun _ _ w v _ h => ?_
  refine (besides_loadConversation conversationId h).bind_into Beside.untouched ?_
  rintro _ c w v ⟨rfl, hc⟩ h
  split
  · exact .ret h.untouched rfl
  split
  · exact .raise h.untouched
  · exact besides_recordAssignment hc _ _ _ h

theorem besides_reassign (conversationId actorUserId assigneeUserId : String)
    (h : Unwritten orgId db w v) : Besides orgId db (Untouched orgId db) Eq
      (reassign orgId conversationId actorUserId assigneeUserId)
      (reassign orgId conversationId actorUserId assigneeUserId) w v := by
  refine (besides_of_aloof (aloof_requireRole _ _ _ _) h).bind_into Beside.untouched
    fun _ _ w v _ h => ?_
  refine (besides_of_aloof (aloof_requireMembership _ _ _) h).bind_into Beside.untouched
    fun _ _ w v _ h => ?_
  refine (besides_loadConversation conversationId h).bind_into Beside.untouched ?_
  rintro _ c w v ⟨rfl, hc⟩ h
  exact besides_recordAssignment hc _ _ _ h

theorem besides_markRead (conversationId userId : String) (h : Unwritten orgId db w v) :
    Besides orgId db (Untouched orgId db) Eq (markRead orgId conversationId userId)
      (markRead orgId conversationId userId) w v := by
  refine (besides_of_aloof (aloof_requireMembership _ _ _) h).bind_into Beside.untouched
    fun _ _ w v _ h => ?_
  refine (besides_loadConversation conversationId h).bind_into Beside.untouched ?_
  rintro _ c w v ⟨rfl, hc⟩ h
  refine InStep.bind (besides_commit (fun write hwrite => ?_) h) fun _ _ w v _ h => .ret h rfl
  obtain rfl := List.mem_singleton.mp hwrite
  exact hc.apart

theorem aloof_findReplayed (conversationId : String) (clientDedupKey : Option String) :
    (findReplayed orgId conversationId clientDedupKey).Calls (Call.Aloof orgId) := by
  cases clientDedupKey with
  | none => trivial
  | some key => exact Calls.perform rfl

theorem besides_commitReply {message : Message} (horg : message.orgId = orgId)
    (hapart : (Write.insertMessage message).Apart orgId db) (h : Unwritten orgId db w v) :
    Besides orgId db (Untouched orgId db) Eq (commitReply message) (commitReply message) w v := by
  refine InStep.handle (InStep.bind (besides_commit (fun write hwrite => ?_) h) fun _ _ w v _ h =>
    .ret h rfl) fun exc w v h => besides_of_aloof ?_ h
  · rwa [List.mem_singleton.mp hwrite]
  · split
    · refine (Calls.perform trivial).bind fun _ => ?_
      split
      · trivial
      · refine Calls.bind (Calls.perform horg) fun existing => ?_
        cases existing <;> trivial
    · trivial

theorem besides_sendReply (hdb : OneOrg db) (conversationId userId bodyText : String)
    (clientDedupKey subject : Option String) (h : Unwritten orgId db w v) :
    Besides orgId db (Untouched orgId db) Eq
      (sendReply orgId conversationId userId bodyText clientDedupKey subject)
      (sendReply orgId conversationId userId bodyText clientDedupKey subject) w v := by
  refine (besides_of_aloof (aloof_requireRole _ _ _ _) h).bind_into Beside.untouched
    fun _ _ w v _ h => ?_
  refine (besides_loadConversation conversationId h).bind_into Beside.untouched ?_
  rintro _ c w v ⟨rfl, hc⟩ h
  refine (besides_getIdentity hdb hc h).bind_into Beside.untouched ?_
  rintro identity _ w v rfl h
  cases identity with
  | none => exact .raise h.untouched
  | some identity =>
    refine (besides_of_aloof (aloof_findReplayed _ _) h).bind_into Beside.untouched ?_
    rintro replayed _ w v rfl h
    cases replayed with
    | some existing => exact .ret h.untouched rfl
    | none =>
      refine (besides_of_aloof (aloof_core _) h).bind_into Beside.untouched fun _ _ w v _ h => ?_
      refine (besides_uuid4 h).bind_into Beside.untouched ?_
      rintro _ placeholder w v ⟨rfl, hplaceholder⟩ h
      refine (besides_uuid4 h).bind_into Beside.untouched ?_
      rintro _ id w v ⟨rfl, hid⟩ h
      refine InStep.bind (besides_commitReply rfl ⟨rfl, fun m hm ho => ?_⟩ h) ?_
      · have hother : m ∈ (db.others orgId).messages.rows :=
          List.mem_filter.mpr ⟨hm, by simpa using ho⟩
        exact ⟨hid.unused.messages m hother, fun hnamed => hplaceholder.pending m hother hnamed.2⟩
      · rintro existing _ w v rfl h
        cases existing with
        | some existing => exact .ret h rfl
        | none =>
          have hsend : (enqueueOutbound orgId (outboundMessage id placeholder orgId conversationId
              identity.channelType userId bodyText clientDedupKey subject).id).Calls
              (Call.Aloof orgId) :=
            (Calls.perform trivial).bind fun _ => Calls.perform trivial
          exact InStep.bind (besides_of_aloof hsend h) fun _ _ w v _ h => .ret h rfl

end Operations

/-! ### The operations on connections -/

/-- Two programs of connections in step, where the environment generates new identifiers. -/
abbrev BesidesAll {α α' : Type} (orgId : String) (db : Db) (J : World → World → Prop)
    (T : α → α' → Prop) (p : ConnectionProg α) (q : ConnectionProg α') (w v : World) : Prop :=
  InStep ConnectionCall.answer ConnectionCall.answer
    (fun x : ConnectionChoice => NewId orgId db x.token) J T p q w v

/-- The call reads rows of the org only, and writes none. -/
def ConnectionCall.Aloof (orgId : String) : ConnectionCall → Prop
  | .system (.service c) => c.Aloof orgId
  | .selectConnection _ | .insertConnection _ | .commitStatus _ _ | .selectOrg _ _ => False
  | _ => True

theorem outside_aloof (orgId : String) : Outside (ConnectionCall.Aloof orgId) where
  coreCall _ := trivial
  adminCall _ := trivial
  putSecretValue _ _ := trivial
  createSecret _ _ := trivial
  secretCacheDelete _ := trivial
  verifyDomainIdentity _ := trivial
  verifyDomainDkim _ := trivial

/-- What leaves the database is done alike beside the org's part. -/
theorem settle_own {α : Type} {orgId : String} (fate : Core.Fate) {w : World}
    {effect effect' : Except PyErr (α × World)}
    (h : effect' = effect.map fun r => (r.1, r.2.own orgId))
    (hdb : ∀ a w', effect = .ok (a, w') → w'.db = w.db) :
    fate.settle effect' (w.own orgId) =
        ((fate.settle effect w).1, (fate.settle effect w).2.own orgId) ∧
      (fate.settle effect w).2.db = w.db := by
  refine ⟨?_, fate.settle_frame _ w (fun w => w.db) hdb⟩
  subst h
  cases effect with
  | error e => cases fate <;> rfl
  | ok r => cases fate <;> rfl

theorem ConnectionCall.Aloof.own {orgId : String} {c : ConnectionCall} (hc : c.Aloof orgId)
    (x : ConnectionChoice) (w : World) :
    c.answer x (w.own orgId) = ((c.answer x w).1, (c.answer x w).2.own orgId) ∧
      (c.answer x w).2.db = w.db := by
  cases c with
  | system c =>
    cases c with
    | service c => exact Call.Aloof.own hc x.toService w
    | admin c => exact ⟨rfl, rfl⟩
  | putSecretValue name value =>
    refine settle_own x.fate ?_ fun a w' h => ?_
    · simp only [World.own]
      split <;> rfl
    · split at h <;> cases h
      rfl
  | createSecret name value =>
    refine settle_own x.fate ?_ fun a w' h => ?_
    · simp only [World.own]
      split <;> rfl
    · split at h <;> cases h
      rfl
  | secretCacheDelete key => exact ⟨rfl, rfl⟩
  | verifyDomainIdentity | verifyDomainDkim =>
    refine settle_own x.fate rfl fun a w' h => ?_
    cases h
    rfl
  | _ => exact hc.elim

section Connections

variable {orgId : String} {db : Db} {P : Db → Prop} {w v : World}

theorem besidesAll_of_aloof {α : Type} {p : ConnectionProg α}
    (hp : p.Calls (ConnectionCall.Aloof orgId)) (h : Beside orgId P w v) :
    BesidesAll orgId db (Beside orgId P) Eq p p w v := by
  refine InStep.of_calls (fun c hc x w v _ hJ => ?_) hp h
  obtain ⟨rfl, hdb⟩ := hJ
  obtain ⟨hanswer, hsame⟩ := hc.own x w
  rw [hanswer]
  exact ⟨rfl, rfl, by rwa [hsame]⟩

/-- A program of the service, among those of connections. -/
theorem besidesAll_service {α α' : Type} {J : World → World → Prop} {T : α → α' → Prop} {p : Prog α}
    {q : Prog α'} (h : Besides orgId db J T p q w v) :
    BesidesAll orgId db J T (elsewhere (service p)) (elsewhere (service q)) w v := by
  have hservice : ∀ (c : Call) (x : Choice) (w : World), c.answer x w =
      ((SystemCall.answer (.service c) x w).1.map (fun r => r),
        (SystemCall.answer (.service c) x w).2) := fun c x w => by rw [map_id']; rfl
  have hsystem : ∀ (c : SystemCall) (x : ConnectionChoice) (w : World), c.answer x.toService w =
      ((ConnectionCall.answer (.system c) x w).1.map (fun r => r),
        (ConnectionCall.answer (.system c) x w).2) := fun c x w => by rw [map_id']; rfl
  exact (h.among (f := fun x => x) (A := fun x : Choice => NewId orgId db x.token) hservice hservice
    fun _ hx => hx).among (f := ConnectionChoice.toService) hsystem hsystem fun _ hx => hx

/-- A connection is loaded where it is the org's. -/
theorem besidesAll_loadConnection (connectionId : String) (h : Unwritten orgId db w v) :
    BesidesAll orgId db (Unwritten orgId db)
      (fun c c' => c' = c ∧ c ∈ db.connections.rows ∧ c.orgId = orgId)
      (loadConnection orgId connectionId) (loadConnection orgId connectionId) w v := by
  have hlookup : BesidesAll orgId db (Unwritten orgId db) (fun found found' : Option ChannelConnection =>
      found = db.connection connectionId ∧
        found' = (db.connection connectionId).filter fun c => c.orgId == orgId)
      (connectionRun (.selectConnection connectionId)) (connectionRun (.selectConnection connectionId))
      w v := by
    refine InStep.perform (c := ConnectionCall.selectConnection connectionId)
      (d := ConnectionCall.selectConnection connectionId) h fun x _ => ?_
    obtain ⟨rfl, rfl⟩ := h
    refine ⟨alike_query x.fate ⟨rfl, connection_own orgId connectionId w.db⟩ _ _, ?_⟩
    rw [ConnectionCall.answer, ConnectionCall.answer, Core.Fate.snd_query, Core.Fate.snd_query]
    exact ⟨rfl, rfl⟩
  refine hlookup.bind_lookup (fun c hc => if_pos (by simpa using hc)) (fun w v h => .raise h)
    fun c w v hfound hc h => ?_
  have horg : c.orgId = orgId := by simpa using hc
  dsimp only
  rw [if_neg (not_not.mpr horg)]
  exact .ret h ⟨rfl, List.mem_of_find?_eq_some hfound, horg⟩

/-- A commit that changes connections of the org. -/
theorem besides_transact {r r' : Except Violation (Table connectionSchema)} (fate : Core.Fate)
    (hown : r.map (Table.restrict fun c => c.orgId == orgId) = r')
    (hothers : ∀ t, r = .ok t → (t.restrict fun c => c.orgId != orgId) = (db.others orgId).connections)
    (h : Unwritten orgId db w v) :
    (fate.transact r (fun t => { w with db := { w.db with connections := t } }) w).1 =
        (fate.transact r' (fun t => { v with db := { v.db with connections := t } }) v).1 ∧
      Untouched orgId db (fate.transact r (fun t => { w with db := { w.db with connections := t } }) w).2
        (fate.transact r' (fun t => { v with db := { v.db with connections := t } }) v).2 := by
  obtain ⟨rfl, rfl⟩ := h
  subst hown
  cases r with
  | error e => cases fate <;> exact ⟨rfl, rfl, rfl⟩
  | ok t =>
    have hleft : Db.others orgId { w.db with connections := t } = w.db.others orgId :=
      congrArg (Db.mk · _ _ _ _ _) (hothers t rfl)
    cases fate with
    | ok => exact ⟨rfl, rfl, hleft⟩
    | lost e => exact ⟨rfl, rfl, rfl⟩
    | late e => exact ⟨rfl, rfl, hleft⟩

theorem besidesAll_insertConnection {connection : ChannelConnection} (horg : connection.orgId = orgId)
    (hid : NewId orgId db connection.id) (h : Unwritten orgId db w v) :
    BesidesAll orgId db (Untouched orgId db) Eq (connectionRun (.insertConnection connection))
      (connectionRun (.insertConnection connection)) w v := by
  refine InStep.perform (Beside.untouched w v h) fun x _ => ?_
  have hown : (w.db.connections.insert { connection with createdAt := x.now }).map
      (Table.restrict fun c => c.orgId == orgId) =
        v.db.connections.insert { connection with createdAt := x.now } := by
    rw [h.own]
    refine Table.restrict_insert _ (by simpa using horg) fun c hc ho => ?_
    have hother : c ∈ (db.others orgId).connections.rows :=
      List.mem_filter.mpr ⟨h.db ▸ hc, by simpa using ho⟩
    simpa [connectionSchema] using hid.connections c hother
  obtain ⟨hreply, hafter⟩ := besides_transact x.fate hown (fun t ht => by
    rw [Table.restrict_of_insert ht (by simp [horg]), h.db]
    rfl) h
  exact ⟨alike_of_eq hreply, hafter⟩

theorem besidesAll_commitStatus {c : ChannelConnection} (hc : c ∈ db.connections.rows)
    (horg : c.orgId = orgId) (status : String) (h : Unwritten orgId db w v) :
    BesidesAll orgId db (Untouched orgId db) Eq (connectionRun (.commitStatus c.id status))
      (connectionRun (.commitStatus c.id status)) w v := by
  refine InStep.perform (Beside.untouched w v h) fun x _ => ?_
  have hapart : ∀ d ∈ w.db.connections.rows, d.orgId ≠ orgId → d.id ≠ c.id := by
    intro d hd ho hid
    have hsame : d = c := db.connections.eq_of_clash (h.db ▸ hd) hc (by simp [connectionSchema, hid])
    exact ho (hsame ▸ horg)
  have hkept : ∀ row : ChannelConnection, (if row.id = c.id then { row with status } else row).orgId =
      row.orgId ∧ (if row.id = c.id then { row with status } else row).id = row.id := by
    intro row
    split <;> exact ⟨rfl, rfl⟩
  have hown : (w.db.connections.modify fun row => if row.id = c.id then { row with status } else row).map
      (Table.restrict fun c => c.orgId == orgId) =
        v.db.connections.modify fun row => if row.id = c.id then { row with status } else row := by
    rw [h.own]
    refine Table.restrict_modify _ (fun row => by rw [(hkept row).1]) (fun a b => ?_) fun d hd ho => ?_
    · show (_ == _) = (_ == _)
      rw [(hkept a).2, (hkept b).2]
    · exact if_neg (hapart d hd (by simpa using ho))
  obtain ⟨hreply, hafter⟩ := besides_transact x.fate hown (fun t ht => by
    rw [Table.restrict_of_modify ht (fun row => by rw [(hkept row).1]) fun d hd ho =>
      if_neg (hapart d hd (by simpa using ho)), h.db]
    rfl) h
  exact ⟨alike_of_eq hreply, hafter⟩

theorem besidesAll_createConnection (hmacSha256 : String → Bytes → Except PyErr Bytes)
    (actorUserId : String) (request : ConnectionRequest) (h : Unwritten orgId db w v) :
    BesidesAll orgId db (Untouched orgId db) Eq (createConnection hmacSha256 orgId actorUserId request)
      (createConnection hmacSha256 orgId actorUserId request) w v := by
  have houtside := outside_aloof orgId
  refine (besidesAll_of_aloof (houtside.calls_requireRole _ _ _ _) h).bind_into Beside.untouched
    fun _ _ w v _ h => ?_
  split
  · exact .raise h.untouched
  split
  · exact .raise h.untouched
  refine (besidesAll_service (besides_uuid4 h)).bind_into Beside.untouched ?_
  rintro _ id w v ⟨rfl, hid⟩ h
  refine (besidesAll_of_aloof (houtside.calls_provision _ _ _ _ _) h).bind_into Beside.untouched ?_
  rintro provisioned _ w v rfl h
  refine InStep.bind (besidesAll_insertConnection rfl hid h) fun _ _ w v _ h => ?_
  exact InStep.bind (besidesAll_of_aloof (houtside.calls_core _) h) fun _ _ w v _ h => .ret h rfl

theorem besidesAll_getConnection (actorUserId connectionId : String) (h : Unwritten orgId db w v) :
    BesidesAll orgId db (Untouched orgId db) Eq (getConnection orgId actorUserId connectionId)
      (getConnection orgId actorUserId connectionId) w v := by
  refine (besidesAll_of_aloof ((outside_aloof orgId).calls_requireRole _ _ _ _) h).bind_into
    Beside.untouched fun _ _ w v _ h => ?_
  exact (besidesAll_loadConnection connectionId h).mono Beside.untouched fun _ _ hc => hc.1.symm

theorem besidesAll_disableConnection (actorUserId connectionId : String)
    (h : Unwritten orgId db w v) : BesidesAll orgId db (Untouched orgId db) Eq
      (disableConnection orgId actorUserId connectionId)
      (disableConnection orgId actorUserId connectionId) w v := by
  have houtside := outside_aloof orgId
  refine (besidesAll_of_aloof (houtside.calls_requireRole _ _ _ _) h).bind_into Beside.untouched
    fun _ _ w v _ h => ?_
  refine (besidesAll_loadConnection connectionId h).bind_into Beside.untouched ?_
  rintro _ c w v ⟨rfl, hc, horg⟩ h
  refine InStep.bind (besidesAll_commitStatus hc horg _ h) fun _ _ w v _ h => ?_
  exact InStep.bind (besidesAll_of_aloof (houtside.calls_core _) h) fun _ _ w v _ h => .ret h rfl

end Connections

/-! ### The API -/

/-- The calls of the API that are more than one query. -/
inductive ApiCall where
  | markRead (conversationId userId : String)
  | sendReply (conversationId userId bodyText : String) (clientDedupKey subject : Option String)
  | claim (conversationId userId : String)
  | reassign (conversationId actorUserId assigneeUserId : String)
  | createConnection (actorUserId : String) (request : ConnectionRequest)
  | getConnection (actorUserId connectionId : String)
  | disableConnection (actorUserId connectionId : String)

/-- What a call of the API returns. -/
inductive ApiReply where
  | conversation (conversation : Conversation)
  | message (message : Message) (created : Bool)
  | connection (connection : ChannelConnection) (dnsRecords : Option DomainVerificationRecords)

section Api

variable (hmacSha256 : String → Bytes → Except PyErr Bytes) (registry : Registry)

/-- What is done at a call. -/
def ApiCall.program (orgId : String) : ApiCall → ConnectionProg ApiReply
  | .markRead conversationId userId => do
    let conversation ← elsewhere (service (Omnichannel.markRead orgId conversationId userId))
    return .conversation conversation
  | .sendReply conversationId userId bodyText clientDedupKey subject => do
    let reply ← elsewhere (service
      (Omnichannel.sendReply orgId conversationId userId bodyText clientDedupKey subject))
    return .message reply.1 reply.2
  | .claim conversationId userId => do
    let conversation ← elsewhere (service (Omnichannel.claim orgId conversationId userId))
    return .conversation conversation
  | .reassign conversationId actorUserId assigneeUserId => do
    let conversation ← elsewhere (service
      (Omnichannel.reassign orgId conversationId actorUserId assigneeUserId))
    return .conversation conversation
  | .createConnection actorUserId request => do
    let created ← Omnichannel.createConnection hmacSha256 orgId actorUserId request
    return .connection created.1 created.2
  | .getConnection actorUserId connectionId => do
    let connection ← Omnichannel.getConnection orgId actorUserId connectionId
    return .connection connection none
  | .disableConnection actorUserId connectionId => do
    let connection ← Omnichannel.disableConnection orgId actorUserId connectionId
    return .connection connection none

/-- A call on the database, and on the org's part of it. -/
theorem inStep_apiCall {orgId : String} {db : Db} {w v : World} (hdb : OneOrg db) (call : ApiCall)
    (h : Unwritten orgId db w v) : BesidesAll orgId db (Untouched orgId db) Eq
      (call.program hmacSha256 orgId) (call.program hmacSha256 orgId) w v := by
  cases call with
  | markRead conversationId userId =>
    refine InStep.bind (besidesAll_service (besides_markRead conversationId userId h)) ?_
    rintro c _ w v rfl h
    exact .ret h rfl
  | sendReply conversationId userId bodyText clientDedupKey subject =>
    refine InStep.bind (besidesAll_service (besides_sendReply hdb conversationId userId bodyText
      clientDedupKey subject h)) ?_
    rintro reply _ w v rfl h
    exact .ret h rfl
  | claim conversationId userId =>
    refine InStep.bind (besidesAll_service (besides_claim conversationId userId h)) ?_
    rintro c _ w v rfl h
    exact .ret h rfl
  | reassign conversationId actorUserId assigneeUserId =>
    refine InStep.bind (besidesAll_service
      (besides_reassign conversationId actorUserId assigneeUserId h)) ?_
    rintro c _ w v rfl h
    exact .ret h rfl
  | createConnection actorUserId request =>
    refine InStep.bind (besidesAll_createConnection hmacSha256 actorUserId request h) ?_
    rintro created _ w v rfl h
    exact .ret h rfl
  | getConnection actorUserId connectionId =>
    refine InStep.bind (besidesAll_getConnection actorUserId connectionId h) ?_
    rintro connection _ w v rfl h
    exact .ret h rfl
  | disableConnection actorUserId connectionId =>
    refine InStep.bind (besidesAll_disableConnection actorUserId connectionId h) ?_
    rintro connection _ w v rfl h
    exact .ret h rfl

/-- The database is one that jobs have reached, of any orgs and in any interleaving. -/
def Reached (db : Db) : Prop :=
  ∃ (js : List Job) (w : World) (schedule : List (ℕ × ConnectionChoice)), OneOrg w.db ∧
    db = ((jobs hmacSha256 registry js w).run ConnectionCall.answer schedule).world.db

theorem Reached.oneOrg {db : Db} (h : Reached hmacSha256 registry db) : OneOrg db := by
  obtain ⟨js, w, schedule, hstart, rfl⟩ := h
  exact Pool.run_invariant (J := fun w => OneOrg w.db)
    ((linked_jobs hmacSha256 registry js hstart schedule).mono fun _ _ _ h => h.oneOrg) hstart

section Reads

variable {ι : Type} [LinearOrder ι] (collate : String ↪ ι) (codec : CursorCodec)

/-- What a user of the org reads is the same in both databases, whatever is asked for. -/
structure SameReads (orgId : String) (db₁ db₂ : Db) : Prop where
  listConversations : ∀ search membership status assignedUserId q sort limit cursor,
    listConversationsFrom codec collate search membership db₁ ⟨orgId, status, assignedUserId, q⟩ sort
        limit cursor =
      listConversationsFrom codec collate search membership db₂ ⟨orgId, status, assignedUserId, q⟩ sort
        limit cursor
  getConversation : ∀ sign membership conversationId limit before,
    getConversationFrom codec collate sign membership db₁ orgId conversationId limit before =
      getConversationFrom codec collate sign membership db₂ orgId conversationId limit before
  listConnections : ∀ membership tie,
    listConnections membership db₁ orgId tie = listConnections membership db₂ orgId tie

end Reads

/-- The two runs of a call end alike, with the same rows of the org, and neither has changed a row of
another one. -/
structure AlikeFor (orgId : String) (db₁ db₂ : Db) (r₁ r₂ : Option (Except PyErr ApiReply) × World) :
    Prop where
  reply : r₁.1 = r₂.1
  own : r₁.2.own orgId = r₂.2.own orgId
  others₁ : r₁.2.db.others orgId = db₁.others orgId
  others₂ : r₂.2.db.others orgId = db₂.others orgId

/-- **The API isolates an org**: in any two databases that can be reached and have the same rows of the
org, every call for the org replies the same and leaves the rows of the others, whatever its arguments
name. Identifiers and times are the same in both, and the identifiers are new. -/
theorem api_isolated {ι : Type} [LinearOrder ι] (collate : String ↪ ι) (codec : CursorCodec)
    (orgId : String) (u : World) (db₁ db₂ : Db) (hreached₁ : Reached hmacSha256 registry db₁)
    (hreached₂ : Reached hmacSha256 registry db₂) (hsame : db₁.own orgId = db₂.own orgId) :
    SameReads collate codec orgId db₁ db₂ ∧
      ∀ (call : ApiCall) (o : Oracle ConnectionChoice),
        (∀ n x, o n = some x → NewId orgId db₁ x.token ∧ NewId orgId db₂ x.token) →
          AlikeFor orgId db₁ db₂
            (exec ConnectionCall.answer (call.program hmacSha256 orgId) o { u with db := db₁ })
            (exec ConnectionCall.answer (call.program hmacSha256 orgId) o { u with db := db₂ }) := by
  have horg₁ := hreached₁.oneOrg
  have horg₂ := hreached₂.oneOrg
  refine ⟨⟨?_, ?_, ?_⟩, fun call o hnew => ?_⟩
  · intro search membership status assignedUserId q sort limit cursor
    have h₁ := listConversationsFrom_own collate codec search membership
      ⟨orgId, status, assignedUserId, q⟩ sort limit cursor horg₁
    have h₂ := listConversationsFrom_own collate codec search membership
      ⟨orgId, status, assignedUserId, q⟩ sort limit cursor horg₂
    rw [← h₁, ← h₂]
    exact congrArg (fun db => listConversationsFrom codec collate search membership db _ sort limit
      cursor) hsame
  · intro sign membership conversationId limit before
    rw [getConversationFrom, getConversationFrom, ← getConversation_own _ _ _ _ _ _ _ horg₁,
      ← getConversation_own _ _ _ _ _ _ _ horg₂, hsame]
  · intro membership tie
    rw [← listConnections_own membership orgId tie db₁, ← listConnections_own membership orgId tie db₂,
      hsame]
  · have hstart₁ : Unwritten orgId db₁ { u with db := db₁ } (World.own orgId { u with db := db₁ }) :=
      ⟨rfl, rfl⟩
    have hstart₂ : Unwritten orgId db₂ { u with db := db₂ } (World.own orgId { u with db := db₂ }) :=
      ⟨rfl, rfl⟩
    have hstep₁ := inStep_apiCall hmacSha256 horg₁ call hstart₁
    have hstep₂ := inStep_apiCall hmacSha256 horg₂ call hstart₂
    have hstart : World.own orgId { u with db := db₁ } = World.own orgId { u with db := db₂ } := by
      simp only [World.own, hsame]
    have hend₁ := hstep₁.exec_rel fun n x hx => (hnew n x hx).1
    have hend₂ := hstep₂.exec_rel fun n x hx => (hnew n x hx).2
    have hreply₁ := hstep₁.exec_eq fun n x hx => (hnew n x hx).1
    have hreply₂ := hstep₂.exec_eq fun n x hx => (hnew n x hx).2
    rw [hstart] at hend₁ hreply₁
    exact ⟨hreply₁.trans hreply₂.symm, hend₁.own.symm.trans hend₂.own, hend₁.db, hend₂.db⟩

end Api

/-! ### A second org -/

/-- The org's rows, next to a connection and a conversation of another org. -/
def neighbourDb : Db :=
  { sharedDb "wamid.2" with
    connections := ⟨inboxDb.connections.rows ++ [⟨"their-connection", "other", "whatsapp", "WhatsApp",
      "1666", "whatsapp", "active", ⟨⟨2026, 1, 1⟩, 0, 0, 0, 0⟩⟩], by simp [connectionSchema], by decide⟩
    identities := ⟨inboxDb.identities.rows ++ [⟨"their-identity", "other", "whatsapp", "4916",
      some "Lee", none, ⟨⟨2026, 1, 1⟩, 0, 0, 0, 0⟩⟩], by simp [identitySchema], by decide⟩
    conversations := ⟨inboxDb.conversations.rows ++ [⟨"theirs", "other", "their-identity", "open", none,
      none, none, 1, ⟨⟨2026, 1, 1⟩, 0, 0, 0, 0⟩⟩], by decide, by decide⟩ }

theorem oneOrg_neighbourDb : OneOrg neighbourDb where
  conversations c hc := by
    rcases List.mem_pair.mp hc with rfl | rfl
    · exact ⟨"whatsapp", _, List.mem_cons_self, rfl, rfl, rfl⟩
    · exact ⟨"whatsapp", _, List.mem_cons_of_mem _ List.mem_cons_self, rfl, rfl, rfl⟩
  messages m hm := by
    obtain rfl := List.mem_singleton.mp hm
    exact ⟨_, List.mem_cons_of_mem _ List.mem_cons_self, rfl, rfl, _,
      List.mem_cons_of_mem _ List.mem_cons_self, rfl, rfl, rfl⟩
  attachments a ha := absurd ha List.not_mem_nil
  assignments a ha := absurd ha List.not_mem_nil

theorem own_neighbourDb : inboxDb.own "org" = neighbourDb.own "org" := by
  show Db.mk _ _ _ _ _ _ = Db.mk _ _ _ _ _ _
  congr 1

instance (orgId : String) (db : Db) (token : String) : Decidable (NewId orgId db token) :=
  decidable_of_iff ((db.others orgId).Unused token ∧
      (∀ c ∈ (db.others orgId).connections.rows, c.id ≠ token) ∧
        ∀ m ∈ (db.others orgId).messages.rows, m.externalMessageId ≠ "pending:" ++ token)
    ⟨fun h => ⟨h.1, h.2.1, h.2.2⟩, fun h => ⟨h.unused, h.connections, h.pending⟩⟩

/-- The calls of a run, up to the twelfth. -/
def twelveCalls : List ConnectionChoice :=
  (List.range 12).map fun n => ⟨.calm ("c" ++ toString n), []⟩

/-- A call for the org, with these rows. -/
def apiRun (call : ApiCall) (db : Db) : Option (Except PyErr ApiReply) × World :=
  exec ConnectionCall.answer (call.program (fun _ _ => .ok []) "org") (twelveCalls[·]?)
    { inboxWorld with db }

/-- The id of a reply that was created. -/
def ApiReply.createdId : Option (Except PyErr ApiReply) → Option String
  | some (.ok (.message m true)) => some m.id
  | _ => none

/-- A reply in the org's conversation, and a claim of the other org's. -/
theorem api_isolated_neighbour :
    SameReads (.refl String) sampleCodec "org" inboxDb neighbourDb ∧
      (∃ reply : ApiCall, AlikeFor "org" inboxDb neighbourDb (apiRun reply inboxDb)
        (apiRun reply neighbourDb) ∧ ApiReply.createdId (apiRun reply neighbourDb).1 = some "c6") ∧
      AlikeFor "org" inboxDb neighbourDb (apiRun (.claim "theirs" "ada") inboxDb)
        (apiRun (.claim "theirs" "ada") neighbourDb) := by
  have hnew : ∀ (n : ℕ) (x : ConnectionChoice), twelveCalls[n]? = some x →
      NewId "org" inboxDb x.token ∧ NewId "org" neighbourDb x.token := by
    have hall : ∀ x ∈ twelveCalls, NewId "org" inboxDb x.token ∧ NewId "org" neighbourDb x.token := by
      decide +kernel
    exact fun n x hx => hall x (List.mem_of_getElem? hx)
  obtain ⟨hreads, hcalls⟩ := api_isolated (fun _ _ => .ok []) whatsappRegistry (.refl String) sampleCodec
    "org" inboxWorld inboxDb neighbourDb ⟨[], inboxWorld, [], oneOrg_inboxDb, rfl⟩
    ⟨[], { inboxWorld with db := neighbourDb }, [], oneOrg_neighbourDb, rfl⟩ own_neighbourDb
  exact ⟨hreads, ⟨.sendReply "conversation" "ada" "Hello" (some "key") none, hcalls _ _ hnew,
    by decide +kernel⟩, hcalls _ _ hnew⟩

end A2ZCore.Omnichannel
