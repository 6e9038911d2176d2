import A2ZCore.Omnichannel.Accounts
import A2ZCore.Omnichannel.References

/-!
# Rows of one org, next to the admins

The admins of an org register and disable connections while customers, agents and the worker are about
its conversations. What the admins do commits no row of a conversation, a message or an attachment, so
that the rows stay rows of one org next to them too.

## Main definitions

* `ConnectionCall.LeavesRows` — the call commits no row of the message flow
* `Outside` — a property of the calls beyond the database
* `Job`, `jobs` — the activities, the operations on connections, and whatever else commits no such row

## Main results

* `oneOrg_jobs` — the references are in order in every state of a run
-/

namespace A2ZCore.Omnichannel

open Interaction Interaction.Proc Interaction.Contract A2ZCore.Core Relational

/-! ### Calls that commit no row -/

/-- The call commits no row of the message flow. -/
def ConnectionCall.LeavesRows : ConnectionCall → Prop
  | .system (.service (.commit _)) => False
  | _ => True

/-- What one call leaves as it should be. -/
def mixing : Contract ConnectionCall ConnectionCall.Resp PyErr ConnectionChoice World where
  answer := ConnectionCall.answer
  rely := Linked False
  admits _ _ _ := True
  guar _ _ w w' := Linked False w w'
  rely_refl := .refl
  rely_trans h h' := h.trans h'

/-- The tables of the message flow are the same. -/
structure SameRows (db db' : Db) : Prop where
  identities : db'.identities = db.identities
  conversations : db'.conversations = db.conversations
  messages : db'.messages = db.messages
  attachments : db'.attachments = db.attachments
  assignments : db'.assignments = db.assignments

theorem SameRows.of_eq {db db' : Db} (h : db' = db) : SameRows db db' := by
  subst h
  exact ⟨rfl, rfl, rfl, rfl, rfl⟩

theorem SameRows.linked {w w' : World} (h : SameRows w.db w'.db) : Linked False w w' where
  persists := by
    refine ⟨fun i hi => ?_, fun c hc => ?_, fun m hm => ?_⟩
    · rwa [h.identities]
    · rw [h.conversations]
      exact ⟨c, hc, rfl, rfl, rfl⟩
    · rw [h.messages]
      exact ⟨m, hm, rfl, rfl, rfl, rfl⟩
  oneOrg hw := by
    obtain ⟨hconversations, hmessages, hattachments, hassignments⟩ := hw
    refine ⟨?_, ?_, ?_, ?_⟩
    · simpa only [Db.Identifies, h.conversations, h.identities] using hconversations
    · simpa only [Db.Converses, Db.Identifies, h.messages, h.conversations, h.identities] using hmessages
    · simpa only [Db.Stores, h.attachments, h.messages] using hattachments
    · simpa only [Db.Converses, Db.Identifies, h.assignments, h.conversations, h.identities] using
        hassignments
  connections := False.elim
  secrets := False.elim
  coherent := False.elim

theorem linked_of_leavesRows {c : ConnectionCall} (hc : c.LeavesRows) (x : ConnectionChoice) (w : World) :
    Linked False w (c.answer x w).2 := by
  refine SameRows.linked ?_
  have hsettle : ∀ {α : Type} {effect : Except PyErr (α × World)},
      (∀ a w', effect = .ok (a, w') → w'.db = w.db) → SameRows w.db (x.fate.settle effect w).2.db :=
    fun h => .of_eq (x.fate.settle_frame _ w (fun w => w.db) h)
  have htable : ∀ r : Except Violation (Table connectionSchema), SameRows w.db (x.fate.transact r
      (fun t => { w with db := { w.db with connections := t } }) w).2.db := by
    intro r
    rcases x.fate.transact_cases r (fun t => { w with db := { w.db with connections := t } }) w with
      ⟨_, t, _, ht⟩ | ⟨_, hsame, _⟩
    · rw [ht]
      exact ⟨rfl, rfl, rfl, rfl, rfl⟩
    · rw [hsame]
      exact .of_eq rfl
  cases c with
  | system c =>
    cases c with
    | admin => exact .of_eq rfl
    | service c =>
      refine .of_eq (db_answer_of_not_commit ?_ x.toService w)
      rintro writes rfl
      exact hc
  | putSecretValue name value =>
    refine hsettle fun a w' h => ?_
    split at h <;> cases h
    rfl
  | createSecret name value =>
    refine hsettle fun a w' h => ?_
    split at h <;> cases h
    rfl
  | secretCacheDelete => exact .of_eq rfl
  | verifyDomainIdentity | verifyDomainDkim =>
    refine hsettle fun a w' h => ?_
    cases h
    rfl
  | selectConnection | selectOrg => exact .of_eq (congrArg World.db (Core.Fate.snd_query ..))
  | insertConnection | commitStatus => exact htable _

/-! ### Programs -/

/-- A program that commits no row. -/
theorem mixing_of_leavesRows {α : Type} {p : ConnectionProg α} (hp : p.Calls ConnectionCall.LeavesRows)
    (w : World) : mixing.wp p w fun _ _ => True :=
  wp_of_calls (fun _ hc x w _ => ⟨linked_of_leavesRows hc x w, linked_of_leavesRows hc x w⟩) hp
    (returns_true p) (fun _ _ _ _ => trivial) fun _ _ _ => trivial

/-- A program of the service, next to the admins. -/
theorem mixing_of_linking {α : Type} {registry : Registry} {p : Prog α} {w : World}
    {Q : Except PyErr α → World → Prop} (h : (linking registry False).wp p w Q) :
    mixing.wp (elsewhere (service p)) w Q := by
  refine wp_comap (wp_rename ConnectionChoice.toService ?_ ?_ ?_ ?_ h)
  · exact fun _ _ h => h
  · exact fun _ _ _ _ => trivial
  · intro c x w
    show (((c.answer x.toService w).1.map fun r => r).map (fun r => r), (c.answer x.toService w).2) = _
    rw [map_id', map_id']
    rfl
  · exact fun _ _ _ _ h => h.1

/-- The property holds of each call beyond the database: Core's, an admin's, and those to Secrets Manager
and SES. -/
structure Outside (P : ConnectionCall → Prop) : Prop where
  coreCall : ∀ c, P (.system (.service (.core c)))
  adminCall : ∀ c, P (.system (.admin c))
  putSecretValue : ∀ name value, P (.putSecretValue name value)
  createSecret : ∀ name value, P (.createSecret name value)
  secretCacheDelete : ∀ key, P (.secretCacheDelete key)
  verifyDomainIdentity : ∀ domain, P (.verifyDomainIdentity domain)
  verifyDomainDkim : ∀ domain, P (.verifyDomainDkim domain)

namespace Outside

variable {P : ConnectionCall → Prop}

theorem calls_core {α : Type} (hP : Outside P) (p : Core.Prog α) :
    (elsewhere (service (core p))).Calls P :=
  Calls.embed (Calls.embed (Omnichannel.calls_core p hP.coreCall))

theorem calls_admin {α : Type} (hP : Outside P) (p : AdminProg α) : (elsewhere (admin p)).Calls P :=
  Calls.embed (Calls.embed (p.calls_true.mono fun c _ => hP.adminCall c))

theorem calls_requireRole (hP : Outside P) (userId orgId : String) (allowed : List Role)
    (forbiddenMessage : String) :
    (elsewhere (service (requireRole userId orgId allowed forbiddenMessage))).Calls P := by
  refine Calls.embed (Calls.embed (Calls.bind (Calls.bind ?_ fun membership => ?_) fun membership => ?_))
  · exact Omnichannel.calls_core _ hP.coreCall
  · cases membership <;> trivial
  · split <;> trivial

theorem calls_putSecret (hP : Outside P) (orgId serviceType key : String) (value : Json) :
    (putSecret orgId serviceType key value).Calls P := by
  refine Calls.bind (Calls.handle (Calls.perform (hP.putSecretValue _ _)) fun exc => ?_) fun _ =>
    Calls.perform (hP.secretCacheDelete _)
  split
  · refine Calls.handle (Calls.perform (hP.createSecret _ _)) fun createExc => ?_
    split <;> trivial
  · trivial
  · trivial

theorem calls_verifyDomain (hP : Outside P) (domain : String) : (verifyDomain domain).Calls P :=
  (Calls.perform (hP.verifyDomainIdentity _)).bind fun _ =>
    (Calls.perform (hP.verifyDomainDkim _)).bind fun _ => trivial

theorem calls_startDomainVerification (hP : Outside P) (orgId domain changedBy : String) :
    (startDomainVerification orgId domain changedBy).Calls P := by
  unfold startDomainVerification
  split
  · trivial
  refine Calls.bind (Calls.handle (hP.calls_verifyDomain domain) fun exc => ?_) fun tokens => ?_
  · split <;> trivial
  · exact Calls.bind (hP.calls_admin _) fun _ => trivial

theorem calls_provision (hP : Outside P) (adapter : WebhookAdapter)
    (orgId actorUserId connectionId : String) (request : ConnectionRequest) :
    (provision adapter orgId actorUserId connectionId request).Calls P := by
  unfold provision
  split
  · split
    · exact Calls.bind (hP.calls_putSecret _ _ _ _) fun _ => trivial
    · exact Calls.bind (hP.calls_core _) fun _ => trivial
    · trivial
  · split
    · split
      · trivial
      · generalize afterLastAt request.providerAccountId = domain
        have hstart := hP.calls_startDomainVerification orgId domain actorUserId
        generalize startDomainVerification orgId domain actorUserId = start at hstart ⊢
        exact Calls.bind hstart fun _ => trivial
    · trivial

end Outside

theorem outside_leavesRows : Outside ConnectionCall.LeavesRows where
  coreCall _ := trivial
  adminCall _ := trivial
  putSecretValue _ _ := trivial
  createSecret _ _ := trivial
  secretCacheDelete _ := trivial
  verifyDomainIdentity _ := trivial
  verifyDomainDkim _ := trivial

theorem leavesRows_createConnection (hmacSha256 : String → Bytes → Except PyErr Bytes)
    (orgId actorUserId : String) (request : ConnectionRequest) :
    (createConnection hmacSha256 orgId actorUserId request).Calls ConnectionCall.LeavesRows := by
  refine Calls.bind (outside_leavesRows.calls_requireRole _ _ _ _) fun _ => ?_
  split
  · trivial
  split
  · trivial
  refine Calls.bind (outside_leavesRows.calls_core _) fun connectionId => ?_
  refine Calls.bind (outside_leavesRows.calls_provision _ _ _ _ _) fun provisioned => ?_
  exact (Calls.perform trivial).bind fun _ => Calls.bind (outside_leavesRows.calls_core _) fun _ => trivial

theorem leavesRows_disableConnection (orgId actorUserId connectionId : String) :
    (disableConnection orgId actorUserId connectionId).Calls ConnectionCall.LeavesRows := by
  refine Calls.bind (outside_leavesRows.calls_requireRole _ _ _ _) fun _ => Calls.bind ?_ fun connection => ?_
  · refine (Calls.perform trivial).bind fun found => ?_
    cases found with
    | none => trivial
    | some connection =>
      show (if connection.orgId ≠ orgId then _ else _ : ConnectionProg ChannelConnection).Calls _
      split <;> trivial
  · exact (Calls.perform trivial).bind fun _ => Calls.bind (outside_leavesRows.calls_core _) fun _ => trivial

/-! ### The deployment -/

/-- What is done in a deployment: something about conversations, something about connections, or
whatever else commits no row of the message flow, such as a listing. -/
inductive Job where
  | activity (a : Activity)
  | createConnection (orgId actorUserId : String) (request : ConnectionRequest)
  | disableConnection (orgId actorUserId connectionId : String)
  | other (p : ConnectionProg Unit) (hp : p.Calls ConnectionCall.LeavesRows)

section Jobs

variable (hmacSha256 : String → Bytes → Except PyErr Bytes) (registry : Registry)

/-- What is done at a job. -/
def Job.program : Job → ConnectionProg Unit
  | .activity a => elsewhere (service (a.program registry))
  | .createConnection orgId actorUserId request => do
    let _ ← Omnichannel.createConnection hmacSha256 orgId actorUserId request
    return ()
  | .disableConnection orgId actorUserId connectionId => do
    let _ ← Omnichannel.disableConnection orgId actorUserId connectionId
    return ()
  | .other p _ => p

/-- Jobs, none of which has begun. -/
def jobs (js : List Job) (w : World) :
    Pool ConnectionCall ConnectionCall.Resp PyErr Unit World where
  procs := js.map (Job.program hmacSha256 registry)
  world := w

/-- Each call of the jobs leaves the references in order. -/
theorem linked_jobs (js : List Job) {w : World} (hstart : OneOrg w.db)
    (schedule : List (ℕ × ConnectionChoice)) : Pool.Along ConnectionCall.answer
      (fun c x w => Linked False w (c.answer x w).2) (jobs hmacSha256 registry js w) schedule := by
  have horder : w.InOrder False := ⟨hstart, False.elim, False.elim⟩
  have hprocs : ∀ p ∈ (jobs hmacSha256 registry js w).procs, mixing.wp p w fun _ _ => True := by
    intro p hp
    obtain ⟨job, _, rfl⟩ := List.mem_map.mp hp
    cases job with
    | activity a =>
      have hkept : (linking registry False).Preserves (World.InOrder False) (a.program registry) :=
        preserves_activity a
      exact mixing_of_linking (wp_mono (fun _ _ _ => trivial) (hkept w horder))
    | createConnection orgId actorUserId request =>
      have hleaves : (Job.program hmacSha256 registry
          (.createConnection orgId actorUserId request)).Calls ConnectionCall.LeavesRows :=
        Calls.bind (leavesRows_createConnection hmacSha256 orgId actorUserId request) fun _ => trivial
      exact mixing_of_leavesRows hleaves w
    | disableConnection orgId actorUserId connectionId =>
      have hleaves : (Job.program hmacSha256 registry
          (.disableConnection orgId actorUserId connectionId)).Calls ConnectionCall.LeavesRows :=
        Calls.bind (leavesRows_disableConnection orgId actorUserId connectionId) fun _ => trivial
      exact mixing_of_leavesRows hleaves w
    | other p hleaves => exact mixing_of_leavesRows hleaves w
  exact (Pool.run_wp (K := mixing) (fun _ _ _ _ h => h) (fun _ _ _ _ _ => trivial) hprocs
    ((Pool.along_true schedule _).mono fun _ _ _ _ => trivial)).1

/-- **The rows of a conversation are of one org**, in every state that jobs of any orgs in any
interleaving reach, wherever calls fail and however often entries are delivered. -/
theorem oneOrg_jobs (js : List Job) {w : World} (hstart : OneOrg w.db)
    (schedule : List (ℕ × ConnectionChoice)) :
    OneOrg ((jobs hmacSha256 registry js w).run ConnectionCall.answer schedule).world.db :=
  Pool.run_invariant (J := fun w => OneOrg w.db)
    ((linked_jobs hmacSha256 registry js hstart schedule).mono fun _ _ _ h => h.oneOrg) hstart

end Jobs

/-! ### A second connection -/

/-- A reply while an admin disables the connection that it would go out over. -/
def replyWhileDisabled : List Job :=
  (conversationActivities.map Job.activity) ++ [.disableConnection "org" "ada" "connection"]

theorem oneOrg_jobs_disabled :
    OneOrg ((jobs (fun _ _ => .ok []) whatsappRegistry replyWhileDisabled inboxWorld).run
      ConnectionCall.answer ((calmly [0, 1, 2, 3, 4, 0, 4, 2, 3, 4, 4]).map fun m =>
        (m.1, ⟨m.2, []⟩))).world.db :=
  oneOrg_jobs (fun _ _ => .ok []) whatsappRegistry replyWhileDisabled oneOrg_inboxDb _

end A2ZCore.Omnichannel
