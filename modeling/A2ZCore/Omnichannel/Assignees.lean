import A2ZCore.Omnichannel.Commits
import A2ZCore.Omnichannel.RoutingConfig

/-!
# Who is assigned

`claim`, `reassign` and `set_routing_config` look the assignee's membership up, and the worker assigns
whom the settings designate. Nothing ties a membership to what was looked up: `remove_member` leaves the
settings as they are, so that they go on designating the user, and `set_org_settings` writes a
designation that nobody has checked.

Only members are assigned in the runs in which nobody is removed whom the settings designate, or whom a
request under way has found and may still assign, and in which `set_org_settings` designates members.

## Main definitions

* `OrgRequest`, `organization` — what an org's people and its customers do, side by side
* `learn` — what a request finds out about members
* `AssignsMember` — a commit assigns members only
* `Careful` — whom a removal and a change of settings leave alone

## Main results

* `assignsMember_of_careful` — any number of requests, in any interleaving
-/

namespace A2ZCore.Omnichannel

open Interaction Interaction.Proc Interaction.Contract A2ZCore.Core

/-! ### Requests -/

/-- What an org's people and its customers do. -/
inductive OrgRequest where
  | addMember (orgId userId : String) (role : Role) (inviterId : String)
  | changeRole (orgId userId : String) (newRole : Role) (changerId : String)
  | removeMember (orgId userId removerId : String)
  | setOrgSettings (orgId : String) (changes : List (String × Json)) (changedBy : String)
  | setRoutingConfig (orgId actorUserId strategy : String) (singleAssigneeUserId : Option String)
  | claim (orgId conversationId userId : String)
  | reassign (orgId conversationId actorUserId assigneeUserId : String)
  | ingest (sizes : List ℕ)

namespace OrgRequest

/-- What the service does. -/
def program (registry : Registry) : OrgRequest → SystemProg Unit
  | addMember orgId userId role inviterId =>
    (admin (Core.addMember orgId userId role inviterId)).bind fun _ => .ret ()
  | changeRole orgId userId newRole changerId =>
    (admin (Core.changeRole orgId userId newRole changerId)).bind fun _ => .ret ()
  | removeMember orgId userId removerId => admin (Core.removeMember orgId userId removerId)
  | setOrgSettings orgId changes changedBy =>
    (admin (Core.setOrgSettings orgId changes changedBy)).bind fun _ => .ret ()
  | setRoutingConfig orgId actorUserId strategy singleAssigneeUserId =>
    (Omnichannel.setRoutingConfig orgId actorUserId strategy singleAssigneeUserId).bind fun _ =>
      .ret ()
  | claim orgId conversationId userId =>
    (service (Omnichannel.claim orgId conversationId userId)).bind fun _ => .ret ()
  | reassign orgId conversationId actorUserId assigneeUserId =>
    (service (Omnichannel.reassign orgId conversationId actorUserId assigneeUserId)).bind fun _ =>
      .ret ()
  | ingest sizes => service (Omnichannel.ingest registry sizes)

/-- The request may assign the user, or designate them. -/
def concerns (userId : String) : OrgRequest → Bool
  | setRoutingConfig _ _ _ singleAssigneeUserId => singleAssigneeUserId == some userId
  | claim _ _ claimant => userId == claimant
  | reassign _ _ _ assigneeUserId => userId == assigneeUserId
  | ingest _ => true
  | _ => false

/-- The request writes settings that nobody checks. -/
def isDirect : OrgRequest → Bool
  | setOrgSettings _ _ _ => true
  | _ => false

end OrgRequest

/-- Requests that have not begun. -/
def organization (registry : Registry) (requests : List OrgRequest) (w : World) :
    Pool SystemCall SystemCall.Resp PyErr Unit World where
  procs := requests.map (OrgRequest.program registry)
  world := w

/-! ### Members -/

/-- A user and an org. -/
abbrev Member := String × String

/-- The user belongs to the org. -/
def World.HasMember (w : World) (m : Member) : Prop := (w.core.memberships m.1 m.2).isSome

/-- The user that a settings item designates. -/
def designatedIn (orgId : String) (item : Option (List (String × Json))) : Option String :=
  match OrgSettings.ofItem orgId (item.getD []) >>= fun s => designatedUser s.metadata with
  | .ok (some (.str userId)) => some userId
  | _ => none

/-- Each org's settings designate a member, if anyone. -/
def DesignatesMembers (w : World) : Prop :=
  ∀ orgId, ∀ userId ∈ designated w.core orgId, w.HasMember (userId, orgId)

/-- What a request finds out: a membership that it looks up, and the user that the settings designate
when the worker reads them. A commit of the service ends what it was found out for. -/
def learn (c : SystemCall) (r : Except PyErr c.Resp) (found : List Member) : List Member :=
  match c, r with
  | .service (.core (.getMembershipItem userId orgId)), .ok (some _) => (userId, orgId) :: found
  | .service (.core (.getSettingsItem orgId)), .ok item =>
    (designatedIn orgId item).toList.map (·, orgId) ++ found
  | .service (.commit _), _ => []
  | _, _ => found

/-- An assignment that is inserted is a member's. -/
def Write.AssignsMember (w : World) : Write → Prop
  | .insertAssignment a => w.HasMember (a.assignedUserId, a.orgId)
  | _ => True

/-- A commit that takes effect assigns members only. -/
def AssignsMember : SystemCall → Choice → World → Prop
  | .service (.commit writes), x, w =>
    x.fate.Lands (w.db.apply x.now writes) → ∀ write ∈ writes, write.AssignsMember w
  | _, _, _ => True

/-- Nobody is removed whom the settings designate. -/
def SparesDesignated : SystemCall → Choice → World → Prop
  | .admin (.deleteMembershipItem userId orgId), x, w =>
    ¬(SystemCall.answer (.admin (.deleteMembershipItem userId orgId)) x w).2.HasMember
      (userId, orgId) → designated w.core orgId ≠ some userId
  | _, _, _ => True

/-- The settings that are written designate a member, if anyone. -/
def WritesMember : SystemCall → Choice → World → Prop
  | .admin (.updateSettingsItem orgId changes), x, w =>
    ∀ userId ∈ designated (SystemCall.answer (.admin (.updateSettingsItem orgId changes)) x w).2.core
      orgId, w.HasMember (userId, orgId)
  | _, _, _ => True

/-- Nobody is removed whom the request has found and may still assign. -/
def SparesFound (request : Option OrgRequest) (found : List Member) :
    SystemCall → Choice → World → Prop
  | .admin (.deleteMembershipItem userId orgId), x, w =>
    ¬(SystemCall.answer (.admin (.deleteMembershipItem userId orgId)) x w).2.HasMember
      (userId, orgId) → (userId, orgId) ∈ found → request.any (·.concerns userId) = false
  | _, _, _ => True

/-- The condition on a run: a removal spares whom the settings designate and whom another request under
way has found and may still assign, and `set_org_settings` designates members. -/
def Careful (requests : List OrgRequest)
    (s : Pool SystemCall SystemCall.Resp PyErr Unit World) (found : ℕ → List Member) (i : ℕ)
    (c : SystemCall) (x : Choice) : Prop :=
  SparesDesignated c x s.world ∧
  (requests[i]?.any (·.isDirect) = true → WritesMember c x s.world) ∧
  ∀ j < s.procs.length, j ≠ i → s.underWay j = true →
    SparesFound requests[j]? (found j) c x s.world

/-! ### The setting of a request -/

/-- What a request has found out, about those whom it concerns, is so. -/
structure Knows (concerns : String → Bool) (s : World × List Member) : Prop where
  designates : DesignatesMembers s.1
  found : ∀ m ∈ s.2, concerns m.1 = true → s.1.HasMember m

/-- The setting of a request among others. -/
def assigning (concerns : String → Bool) (direct : Bool) :
    Contract SystemCall SystemCall.Resp PyErr Choice (World × List Member) where
  answer := Pool.noting learn SystemCall.answer
  rely s s' := s'.2 = s.2 ∧ (Knows concerns s → Knows concerns s')
  admits c x s := SparesDesignated c x s.1 ∧ (direct = true → WritesMember c x s.1)
  guar c x s s' := DesignatesMembers s'.1 ∧ AssignsMember c x s.1
  rely_refl _ := ⟨rfl, fun h => h⟩
  rely_trans h h' := ⟨h'.1.trans h.1, fun hs => h'.2 (h.2 hs)⟩

/-- The setting of what a request does in the service. -/
abbrev serving (concerns : String → Bool) :
    Contract Call Call.Resp PyErr Choice (World × List Member) :=
  (assigning concerns false).comap SystemCall.service fun _ r => r

/-! ### What a call leaves -/

theorem DesignatesMembers.of_same {w w' : World} (h : DesignatesMembers w)
    (hsettings : w'.core.settings = w.core.settings)
    (hmemberships : w'.core.memberships = w.core.memberships) : DesignatesMembers w' := by
  intro orgId userId huser
  rw [designated, hsettings] at huser
  rw [World.HasMember, hmemberships]
  exact h orgId userId huser

/-- No call of the service changes a membership. -/
theorem memberships_service (c : Call) (x : Choice) (w : World) :
    (c.answer x w).2.core.memberships = w.core.memberships := by
  rcases c.writes_of_answer x w with h | h
  · rw [h]
  · generalize (c.answer x w).2 = w' at h ⊢
    cases h with
    | core c x => exact Core.memberships_answer c x w.core
    | _ => rfl

/-- A call of the service that changes no settings. -/
def Call.Steadies : Call → Prop
  | .core c => c.KeepsSettings
  | _ => True

theorem settings_service {c : Call} (hc : c.Steadies) (x : Choice) (w : World) :
    (c.answer x w).2.core.settings = w.core.settings := by
  rcases c.writes_of_answer x w with h | h
  · rw [h]
  · generalize (c.answer x w).2 = w' at h ⊢
    cases h with
    | core c x => exact (steady_answer hc x w.core).settings
    | _ => rfl

/-- What is found out in a state is so. -/
theorem learn_service (c : Call) (x : Choice) {w : World} (h : DesignatesMembers w)
    {found : List Member} {m : Member} (hm : m ∈ learn (.service c) (c.answer x w).1 found) :
    m ∈ found ∨ w.HasMember m := by
  cases c with
  | commit writes => cases hm
  | core c =>
    cases c with
    | getMembershipItem userId orgId =>
      have hreply : ∀ r, (Call.answer (.core (.getMembershipItem userId orgId)) x w).1 = .ok r →
          r = w.core.memberships userId orgId := by
        intro r hr
        simp only [Call.answer, Core.Call.answer] at hr
        cases hfate : x.fate <;> rw [hfate] at hr <;> cases hr
        rfl
      cases hr : (Call.answer (.core (.getMembershipItem userId orgId)) x w).1 with
      | error e => rw [hr] at hm; exact .inl hm
      | ok r =>
        rw [hr] at hm
        cases r with
        | none => exact .inl hm
        | some membership =>
          rcases List.mem_cons.mp hm with rfl | hold
          · right
            rw [World.HasMember, ← hreply _ hr]
            rfl
          · exact .inl hold
    | getSettingsItem orgId =>
      have hreply : ∀ r, (Call.answer (.core (.getSettingsItem orgId)) x w).1 = .ok r →
          r = w.core.settings orgId := by
        intro r hr
        simp only [Call.answer, Core.Call.answer] at hr
        cases hfate : x.fate <;> rw [hfate] at hr <;> cases hr
        rfl
      cases hr : (Call.answer (.core (.getSettingsItem orgId)) x w).1 with
      | error e => rw [hr] at hm; exact .inl hm
      | ok r =>
        rw [hr] at hm
        rcases List.mem_append.mp hm with hnew | hold
        · right
          obtain ⟨userId, huser, rfl⟩ := List.mem_map.mp hnew
          rw [hreply _ hr, Option.mem_toList] at huser
          exact h orgId userId huser
        · exact .inl hold
    | _ => exact .inl hm
  | _ => exact .inl hm

/-- Nothing that was found out is forgotten before a commit. -/
theorem found_learn {c : Call} (hc : ∀ writes, c ≠ .commit writes) (r : Except PyErr c.Resp)
    {found : List Member} {m : Member} (hm : m ∈ found) : m ∈ learn (.service c) r found := by
  cases c with
  | commit writes => exact absurd rfl (hc writes)
  | core c =>
    cases c with
    | getMembershipItem userId orgId =>
      match r with
      | .ok (some _) => exact List.mem_cons_of_mem _ hm
      | .ok none => exact hm
      | .error _ => exact hm
    | getSettingsItem orgId =>
      match r with
      | .ok _ => exact List.mem_append_right _ hm
      | .error _ => exact hm
    | _ => exact hm
  | _ => exact hm

/-! ### What the service does -/

/-- A call of the service that inserts no assignment. -/
def Call.AssignsNobody : Call → Prop
  | .core c => c.KeepsSettings
  | .commit writes => ∀ write ∈ writes, ∀ a, write ≠ .insertAssignment a
  | _ => True

theorem assignsNobody_of_harmless {c : Call} (hc : c.Harmless) : c.AssignsNobody := by
  cases c with
  | core => exact hc
  | commit => exact hc.elim
  | _ => trivial

theorem steadies_of_assignsNobody {c : Call} (hc : c.AssignsNobody) : c.Steadies := by
  cases c with
  | core => exact hc
  | _ => trivial

section Service

variable {concerns : String → Bool} {α β : Type}

theorem knows_rely {s s' : World × List Member} (h : (serving concerns).rely s s')
    (hs : Knows concerns s) : Knows concerns s' :=
  And.right h hs

theorem found_rely {s s' : World × List Member} (h : (serving concerns).rely s s') {m : Member}
    (hm : m ∈ s.2) : m ∈ s'.2 := by
  have hsame : s'.2 = s.2 := And.left h
  rw [hsame]
  exact hm

/-- What is known stays so over a call of the service. -/
theorem knows_service {c : Call} (hc : c.Steadies) (x : Choice) {s : World × List Member}
    (hs : Knows concerns s) : Knows concerns ((serving concerns).answer c x s).2 := by
  have hmemberships := memberships_service c x s.1
  refine ⟨hs.designates.of_same (settings_service hc x s.1) hmemberships, fun m hm hconcerns => ?_⟩
  have hmember : s.1.HasMember m := by
    rcases learn_service c x hs.designates hm with hold | hnew
    · exact hs.found m hold hconcerns
    · exact hnew
  show ((c.answer x s.1).2.core.memberships m.1 m.2).isSome
  rw [hmemberships]
  exact hmember

/-- A part of a request that assigns nobody. -/
theorem serving_assignsNobody {p : Prog α} (hp : p.Calls Call.AssignsNobody) :
    (serving concerns).Preserves (Knows concerns) p := fun s hs => by
  refine wp_of_stable (fun _ _ => knows_rely) (fun c hc x s hs _ => ?_) hp hs
  have hafter := knows_service (steadies_of_assignsNobody hc) x hs
  refine ⟨⟨hafter.designates, ?_⟩, hafter⟩
  cases c with
  | commit writes =>
    intro _ write hwrite
    cases write with
    | insertAssignment a => exact absurd rfl (hc _ hwrite a)
    | _ => trivial
  | _ => trivial

/-- A part of a request that commits nothing keeps what was found out. -/
theorem serving_harmless {p : Prog α} (hp : p.Calls Call.Harmless) {s : World × List Member}
    (hs : Knows concerns s) :
    (serving concerns).wp p s fun _ s' => Knows concerns s' ∧ ∀ m ∈ s.2, m ∈ s'.2 := by
  refine wp_of_stable (J := fun s' => Knows concerns s' ∧ ∀ m ∈ s.2, m ∈ s'.2)
    (fun s₁ s₂ hrely h => ⟨knows_rely hrely h.1, fun m hm => found_rely hrely (h.2 m hm)⟩)
    (fun c hc x s₁ hs₁ _ => ?_) hp ⟨hs, fun _ hm => hm⟩
  have hother : ∀ writes, c ≠ .commit writes := by
    rintro writes rfl
    exact hc
  have hafter := knows_service (steadies_of_assignsNobody (assignsNobody_of_harmless hc)) x hs₁.1
  refine ⟨⟨hafter.designates, ?_⟩, hafter, fun m hm => found_learn hother _ (hs₁.2 m hm)⟩
  cases c with
  | commit => exact hc.elim
  | _ => trivial

/-- A part of a request that commits nothing, and the rest. -/
theorem serving_bind {p : Prog α} {f : α → Prog β} {V : α → Prop} (hp : p.Calls Call.Harmless)
    (hv : p.Returns V) {s : World × List Member} (hs : Knows concerns s)
    (hf : ∀ a s', V a → Knows concerns s' → (∀ m ∈ s.2, m ∈ s'.2) →
      (serving concerns).wp (f a) s' fun _ => Knows concerns) :
    (serving concerns).wp (p.bind f) s fun _ => Knows concerns := by
  refine wp_bind (wp_mono (fun r s' h => ?_) (wp_and_returns (serving_harmless hp hs) hv))
  cases r with
  | error e => exact h.1.1
  | ok a => exact hf a s' (h.2 a rfl) h.1.1 h.1.2

theorem core_run (c : Core.Call) : core (Core.run c) = run (.core c) := by
  refine congrArg (Proc.call (Call.core c)) (funext fun r => ?_)
  cases r <;> rfl

/-- A call of Core, and what is found out by it. -/
theorem serving_core {c : Core.Call} (hc : c.KeepsSettings) {s : World × List Member}
    (hs : Knows concerns s) {Q : Except PyErr c.Resp → World × List Member → Prop}
    (h : ∀ r s', Knows concerns s' → (∀ m ∈ s.2, m ∈ s'.2) →
      (∃ found, s'.2 = learn (.service (.core c)) r found) → Q r s') :
    (serving concerns).wp (core (Core.run c)) s Q := by
  rw [core_run]
  refine wp_perform fun s₁ hrely x _ => ?_
  have hharmless : (Call.core c).Harmless := hc
  have hs₁ := knows_rely hrely hs
  have hafter := knows_service (steadies_of_assignsNobody (assignsNobody_of_harmless hharmless)) x hs₁
  refine ⟨⟨hafter.designates, trivial⟩, ?_⟩
  have hid : ((serving concerns).answer (.core c) x s₁).1 = ((Call.core c).answer x s₁.1).1 := by
    show ((Call.core c).answer x s₁.1).1.map (fun r => r) = ((Call.core c).answer x s₁.1).1
    cases ((Call.core c).answer x s₁.1).1 <;> rfl
  rw [hid]
  exact h _ _ hafter (fun m hm => found_learn (by simp) _ (found_rely hrely hm)) ⟨s₁.2, rfl⟩

/-- A membership that is looked up is found out. -/
theorem serving_requireMembership (userId orgId message : String) {s : World × List Member}
    (hs : Knows concerns s) :
    (serving concerns).wp (requireMembership userId orgId message) s fun r s' =>
      Knows concerns s' ∧ (∀ m ∈ s.2, m ∈ s'.2) ∧ ∀ a, r = .ok a → (userId, orgId) ∈ s'.2 := by
  have hcall : (Core.Call.getMembershipItem userId orgId).KeepsSettings := trivial
  refine wp_bind (serving_core hcall hs fun r s' hs' hgrows ⟨found, hfound⟩ => ?_)
  cases r with
  | error e => exact ⟨hs', hgrows, nofun⟩
  | ok membership =>
    cases membership with
    | none => exact ⟨hs', hgrows, nofun⟩
    | some membership =>
      refine ⟨hs', hgrows, fun _ _ => ?_⟩
      rw [hfound]
      exact List.mem_cons_self

theorem serving_requireRole (userId orgId : String) (allowed : List Role) (message : String)
    {s : World × List Member} (hs : Knows concerns s) :
    (serving concerns).wp (requireRole userId orgId allowed message) s fun r s' =>
      Knows concerns s' ∧ (∀ m ∈ s.2, m ∈ s'.2) ∧ ∀ a, r = .ok a → (userId, orgId) ∈ s'.2 := by
  refine wp_bind (wp_mono (fun r s' h => ?_) (serving_requireMembership userId orgId _ hs))
  cases r with
  | error e => exact ⟨h.1, h.2.1, nofun⟩
  | ok membership =>
    show (serving concerns).wp (if membership.role ∉ allowed then _ else _) s' _
    split
    · exact ⟨h.1, h.2.1, nofun⟩
    · exact ⟨h.1, h.2.1, fun _ _ => h.2.2 membership rfl⟩

/-- An assignment of a user who was found. -/
theorem serving_recordAssignment {conversation : Conversation} {userId assignedBy reason : String}
    {s : World × List Member} (hs : Knows concerns s) (hconcerns : concerns userId = true)
    (hfound : (userId, conversation.orgId) ∈ s.2) :
    (serving concerns).wp (recordAssignment conversation userId assignedBy reason) s fun _ =>
      Knows concerns := by
  refine serving_bind calls_harmless_uuid4 (returns_true _) hs fun id s₁ _ hs₁ hgrows => ?_
  set writes : List Write := [.updateConversation conversation
    { conversation with assignedUserId := some userId }, .insertAssignment
      (newAssignment id conversation userId assignedBy reason)]
  have hrest : (core (announceAssignment conversation userId assignedBy reason)).Calls
      Call.AssignsNobody :=
    (calls_harmless_core (calls_announceAssignment _ _ _ _)).mono fun _ => assignsNobody_of_harmless
  have hcommit : (serving concerns).wp (run (.commit writes)) s₁ fun _ => Knows concerns := by
    refine wp_perform fun s₂ hrely x _ => ?_
    have hs₂ := knows_rely hrely hs₁
    have hsteady : (Call.commit writes).Steadies := trivial
    have hafter := knows_service hsteady x hs₂
    refine ⟨⟨hafter.designates, fun _ write hwrite => ?_⟩, hafter⟩
    rcases List.mem_pair.mp hwrite with rfl | rfl
    · trivial
    · exact hs₂.found _ (found_rely hrely (hgrows _ hfound)) hconcerns
  refine wp_bind (wp_mono (fun r s₂ hs₂ => ?_) hcommit)
  cases r with
  | error e => exact hs₂
  | ok _ =>
    refine Preserves.bind (serving_assignsNobody hrest) (fun _ => ?_) s₂ hs₂
    exact fun _ h => h

theorem calls_harmless_loadConversation (orgId conversationId : String) :
    (loadConversation orgId conversationId).Calls Call.Harmless := by
  refine Calls.bind (Calls.perform trivial) fun found => ?_
  cases found with
  | none => trivial
  | some conversation =>
    show Calls _ (if conversation.orgId ≠ orgId then _ else _)
    split <;> trivial

theorem returns_loadConversation (orgId conversationId : String) :
    (loadConversation orgId conversationId).Returns fun conversation =>
      conversation.orgId = orgId := by
  refine Returns.bind (returns_true _) fun found _ => ?_
  cases found with
  | none => trivial
  | some conversation =>
    show Returns _ (if conversation.orgId ≠ orgId then _ else _)
    split
    · trivial
    · next h => exact not_not.mp h

theorem serving_claim (orgId conversationId userId : String) :
    (serving (· == userId)).Preserves (Knows (· == userId))
      (claim orgId conversationId userId) := by
  intro s hs
  refine wp_bind (wp_mono (fun r s₁ h => ?_) (serving_requireRole userId orgId _ _ hs))
  obtain ⟨hs₁, _, hfound⟩ := h
  cases r with
  | error e => exact hs₁
  | ok membership =>
    refine serving_bind (calls_harmless_loadConversation _ _) (returns_loadConversation _ _) hs₁
      fun conversation s₂ horg hs₂ hgrows => ?_
    split
    · exact hs₂
    split
    · exact hs₂
    · refine serving_recordAssignment hs₂ (by simp) ?_
      rw [horg]
      exact hgrows _ (hfound membership rfl)

theorem serving_reassign (orgId conversationId actorUserId assigneeUserId : String) :
    (serving (· == assigneeUserId)).Preserves (Knows (· == assigneeUserId))
      (reassign orgId conversationId actorUserId assigneeUserId) := by
  intro s hs
  refine wp_bind (wp_mono (fun r s₁ h => ?_) (serving_requireRole actorUserId orgId _ _ hs))
  cases r with
  | error e => exact h.1
  | ok actor =>
    refine wp_bind (wp_mono (fun r s₂ h => ?_) (serving_requireMembership assigneeUserId orgId _ h.1))
    obtain ⟨hs₂, _, hfound⟩ := h
    cases r with
    | error e => exact hs₂
    | ok assignee =>
      refine serving_bind (calls_harmless_loadConversation _ _) (returns_loadConversation _ _) hs₂
        fun conversation s₃ horg hs₃ hgrows => ?_
      refine serving_recordAssignment hs₃ (by simp) ?_
      rw [horg]
      exact hgrows _ (hfound assignee rfl)

theorem designatedIn_eq {orgId userId : String} {item : Option (List (String × Json))}
    {settings : OrgSettings} (hitem : OrgSettings.ofItem orgId (item.getD []) = .ok settings)
    (huser : designatedUser settings.metadata = .ok (some (.str userId))) :
    designatedIn orgId item = some userId := by
  rw [designatedIn, hitem]
  show (match designatedUser settings.metadata with
    | .ok (some (.str userId)) => some userId
    | _ => none) = some userId
  rw [huser]

/-- The user that the settings designate is found out when they are read. -/
theorem serving_getOrgSettings (orgId : String) {s : World × List Member} (hs : Knows concerns s) :
    (serving concerns).wp (core (getOrgSettings orgId)) s fun r s' => Knows concerns s' ∧
      ∀ settings, r = .ok settings → ∀ userId,
        designatedUser settings.metadata = .ok (some (.str userId)) → (userId, orgId) ∈ s'.2 := by
  have hbind : core (getOrgSettings orgId) = (core (Core.run (.getSettingsItem orgId))).bind
      fun item => core (Proc.ofExcept (OrgSettings.ofItem orgId (Option.getD item []))) :=
    embed_bind _ _ _ _
  have hcall : (Core.Call.getSettingsItem orgId).KeepsSettings := trivial
  rw [hbind]
  refine wp_bind (serving_core hcall hs fun r s' hs' _ ⟨found, hfound⟩ => ?_)
  cases r with
  | error e => exact ⟨hs', nofun⟩
  | ok item =>
    show (serving concerns).wp (core (Proc.ofExcept (OrgSettings.ofItem orgId
      (Option.getD item [])))) s' _
    cases hitem : OrgSettings.ofItem orgId (Option.getD item []) with
    | error e => exact ⟨hs', nofun⟩
    | ok settings =>
      refine ⟨hs', fun settings' hsettings userId huser => ?_⟩
      cases hsettings
      have hdesignated : designatedIn orgId item = some userId := designatedIn_eq hitem huser
      rw [hfound]
      refine List.mem_append_left _ (List.mem_map.mpr ⟨userId, ?_, rfl⟩)
      rw [Option.mem_toList]
      exact hdesignated

theorem serving_applySingleAssignee (conversation : Conversation) :
    (serving fun _ => true).Preserves (Knows fun _ => true)
      (applySingleAssigneeIfConfigured conversation) := by
  intro s hs
  refine wp_bind (wp_mono (fun r s₁ h => ?_) (serving_getOrgSettings conversation.orgId hs))
  obtain ⟨hs₁, hfound⟩ := h
  cases r with
  | error e => exact hs₁
  | ok settings =>
    refine wp_bind (wp_ofExcept.mpr ?_)
    cases huser : designatedUser settings.metadata with
    | error e => exact hs₁
    | ok user =>
      match user with
      | none => exact hs₁
      | some (.str userId) => exact serving_recordAssignment hs₁ rfl (hfound settings rfl userId huser)
      | some .null | some (.bool _) | some (.int _) | some (.float _ _) | some (.arr _)
        | some (.obj _) => exact hs₁

/-- A message that is stored, and the conversation assigned where it is new. -/
theorem serving_storeMessage (orgId channelType : String) {conversation : Conversation}
    (isNew : Bool) {pending : List Write} (hpending : Opens conversation pending)
    (messageId : String) (item : NormalizedInboundMessage) :
    (serving fun _ => true).Preserves (Knows fun _ => true)
      (storeMessage orgId channelType conversation isNew (pending ++ [.insertMessage
        (inboundMessage messageId orgId channelType conversation.id item)]) messageId item) := by
  have hrest : ∀ routed, (serving fun _ => true).Preserves (Knows fun _ => true)
      ((core (announceMessage orgId channelType routed messageId)).bind fun _ => .ret routed) := by
    intro routed
    refine serving_assignsNobody (Calls.mono (fun _ => assignsNobody_of_harmless) ?_)
    exact Calls.bind (calls_harmless_core (calls_announceMessage _ _ _ _)) fun _ => trivial
  intro s hs
  refine serving_bind (calls_harmless_uploadAttachments _ _ _) (returns_true _) hs
    fun uploaded s₁ _ hs₁ _ => ?_
  have hutcnow : (core (Core.run .utcnow)).Calls Call.Harmless :=
    calls_harmless_core (Calls.perform trivial)
  refine serving_bind hutcnow (returns_true _) hs₁ fun now s₂ _ hs₂ _ => ?_
  obtain ⟨hcalls, hreturns⟩ := addAttachments_opens uploaded
  refine serving_bind hcalls hreturns hs₂ fun attachments s₃ hattachments hs₃ _ => ?_
  have hstore : (Call.commit (pending ++ [.insertMessage
      (inboundMessage messageId orgId channelType conversation.id item)] ++
        [.updateConversation conversation (withMessage conversation now item.bodyText)] ++
          attachments)).AssignsNobody := by
    intro write hwrite a
    rw [List.mem_append, List.mem_append, List.mem_append, List.mem_singleton,
      List.mem_singleton] at hwrite
    rcases hwrite with ((hold | rfl) | rfl) | hnew
    · rcases hpending write hold with ⟨identity, rfl⟩ | ⟨rfl, _⟩ <;> simp
    · simp
    · simp
    · obtain ⟨attachment, rfl⟩ := hattachments write hnew
      simp
  refine Preserves.bind (serving_assignsNobody (Calls.perform hstore)) (fun _ => ?_) s₃ hs₃
  · split
    · exact Preserves.bind (serving_applySingleAssignee _) hrest
    · exact hrest _

/-- One message of a payload. -/
theorem serving_processInboundItem (orgId channelType : String) (held : Option Conversation)
    (item : NormalizedInboundMessage) :
    (serving fun _ => true).Preserves (Knows fun _ => true)
      (processInboundItem orgId channelType held item) := by
  intro s hs
  obtain ⟨hcalls, hreturns⟩ :=
    findOrCreateIdentity_opens orgId channelType item.externalId item.displayName
  refine serving_bind hcalls hreturns hs fun r s₁ hr hs₁ _ => ?_
  obtain ⟨hcalls', hreturns'⟩ := findOrCreateConversation_opens held hr orgId r.1.id
  refine serving_bind hcalls' hreturns' hs₁ fun placed s₂ hplaced hs₂ _ => ?_
  refine serving_bind calls_harmless_uuid4 (returns_true _) hs₂ fun messageId s₃ _ hs₃ _ => ?_
  refine serving_bind (calls_harmless_flushMessage _) (returns_true _) hs₃ fun flushed s₄ _ hs₄ _ => ?_
  cases flushed with
  | false => exact hs₄
  | true =>
    refine Preserves.bind (serving_storeMessage _ _ _ hplaced _ _) (fun _ => ?_) s₄ hs₄
    exact fun _ h => h

theorem serving_processInboundMessage (registry : Registry) (msg : QueueMessage) :
    (serving fun _ => true).Preserves (Knows fun _ => true)
      (processInboundMessage registry msg) := by
  refine Preserves.ofExcept_bind fun orgId _ => Preserves.ofExcept_bind fun channelType _ => ?_
  refine Preserves.ofExcept_bind fun adapter _ => Preserves.ofExcept_bind fun rawPayload _ => ?_
  refine Preserves.bind (serving_assignsNobody (Calls.perform trivial)) fun normalized => ?_
  refine Preserves.bind (Preserves.forEach (fun held item =>
    serving_processInboundItem orgId channelType held item) _ _) fun _ => ?_
  refine Preserves.ofExcept_bind fun updates _ => Preserves.forEach (fun _ update => ?_) _ _
  refine serving_assignsNobody ?_
  refine Calls.bind (Calls.perform trivial) fun found => ?_
  cases found with
  | none => trivial
  | some message =>
    show Calls _ (if advances message.status update.status then _ else _)
    split
    · have hdeliver : (Call.commit [.updateMessage message
          { message with status := update.status }]).AssignsNobody := by
        intro write hwrite a
        rw [List.mem_singleton.mp hwrite]
        simp
      refine Calls.bind (Calls.perform hdeliver) fun _ => ?_
      exact (calls_harmless_core (calls_publishUpdate _ _ _)).mono fun _ => assignsNobody_of_harmless
    · trivial

theorem serving_ingest (registry : Registry) (sizes : List ℕ) :
    (serving fun _ => true).Preserves (Knows fun _ => true) (ingest registry sizes) := by
  refine Preserves.forEach (fun _ maxMessages => ?_) _ _
  refine Preserves.bind (Preserves.handle ?_ fun _ => ?_) fun _ => fun _ h => h
  · refine Preserves.bind (serving_assignsNobody (Calls.bind (Calls.perform trivial) fun _ =>
      Calls.perform trivial)) fun messages => ?_
    refine Preserves.bind (Preserves.forEach (fun _ msg => ?_) _ _) fun _ => fun _ h => h
    refine Preserves.bind (serving_processInboundMessage registry msg) fun _ => ?_
    exact serving_assignsNobody (Calls.bind (Calls.perform trivial) fun _ => Calls.perform trivial)
  · exact serving_assignsNobody (Calls.bind (Calls.perform trivial) fun _ => trivial)

end Service

/-! ### What admins do -/

/-- A call that allocates no invoice number. -/
def SystemCall.Steadies : SystemCall → Prop
  | .service c => c.Steadies
  | .admin (.core c) => c.KeepsSettings
  | .admin _ => True

theorem isSome_withMembership (w : Core.World) (userId orgId : String) (item : Option Membership)
    {m : Member} (hm : (w.memberships m.1 m.2).isSome) :
    ((w.withMembership userId orgId item).memberships m.1 m.2).isSome ∨
      item = none ∧ m = (userId, orgId) := by
  obtain ⟨memberId, memberOrgId⟩ := m
  simp only [Core.World.withMembership]
  by_cases huser : memberId = userId
  · by_cases horg : memberOrgId = orgId
    · subst huser horg
      cases item with
      | none => exact .inr ⟨rfl, rfl⟩
      | some item => left; simp
    · left
      subst huser
      rw [Function.update_self, Function.update_of_ne horg]
      exact hm
  · left
    rw [Function.update_of_ne huser]
    exact hm

/-- A member stays one, unless they are removed. -/
theorem hasMember_answer (c : SystemCall) (x : Choice) {w : World} {m : Member}
    (hm : w.HasMember m) :
    (c.answer x w).2.HasMember m ∨ c = .admin (.deleteMembershipItem m.1 m.2) := by
  cases c with
  | service c =>
    left
    rw [World.HasMember, show (SystemCall.answer (.service c) x w).2 = (c.answer x w).2 from rfl,
      memberships_service]
    exact hm
  | admin c =>
    show ((c.answer x.toChoice w.core).2.memberships m.1 m.2).isSome ∨ _
    rcases c.writes_of_answer x.toChoice w.core with h | h
    · rw [h]
      exact .inl hm
    · generalize (c.answer x.toChoice w.core).2 = w' at h ⊢
      cases h with
      | core c x =>
        left
        rw [Core.memberships_answer]
        exact hm
      | settings => exact .inl hm
      | membership item =>
        rcases isSome_withMembership w.core item.userId item.orgId (some item) hm with h | ⟨h, _⟩
        · exact .inl h
        · cases h
      | role userId orgId role item =>
        rcases isSome_withMembership w.core userId orgId (some { item with role }) hm with h | ⟨h, _⟩
        · exact .inl h
        · cases h
      | removal userId orgId =>
        rcases isSome_withMembership w.core userId orgId none hm with h | ⟨_, rfl⟩
        · exact .inl h
        · exact .inr rfl

/-- An org's settings designate whom they did, unless they are written. -/
theorem designated_answer {c : SystemCall} (hc : c.Steadies) (x : Choice) (w : World)
    (orgId : String) : designated (c.answer x w).2.core orgId = designated w.core orgId ∨
      ∃ changes, c = .admin (.updateSettingsItem orgId changes) := by
  have hcore : ∀ {w' : Core.World}, w'.settings orgId = w.core.settings orgId →
      designated w' orgId = designated w.core orgId := by
    intro w' h
    rw [designated, designated, h]
  cases c with
  | service c => exact .inl (hcore (congrFun (settings_service hc x w) orgId))
  | admin c =>
    show designated (c.answer x.toChoice w.core).2 orgId = _ ∨ _
    rcases c.writes_of_answer x.toChoice w.core with h | h
    · rw [h]
      exact .inl rfl
    · generalize (c.answer x.toChoice w.core).2 = w' at h ⊢
      cases h with
      | core c x => exact .inl (hcore (congrFun (steady_answer hc x w.core).settings orgId))
      | settings org changes =>
        by_cases horg : orgId = org
        · exact .inr ⟨changes, by rw [horg]⟩
        · exact .inl (hcore (Function.update_of_ne horg _ _))
      | _ => exact .inl (hcore rfl)

theorem designatesMembers_answer {c : SystemCall} (hc : c.Steadies) {x : Choice} {w : World}
    (h : DesignatesMembers w) (hspares : SparesDesignated c x w) (hwrites : WritesMember c x w) :
    DesignatesMembers (c.answer x w).2 := by
  intro orgId userId huser
  have hmember : w.HasMember (userId, orgId) := by
    rcases designated_answer hc x w orgId with hsame | ⟨changes, rfl⟩
    · rw [hsame] at huser
      exact h orgId userId huser
    · exact hwrites userId huser
  rcases hasMember_answer c x hmember with hafter | rfl
  · exact hafter
  · by_contra hnot
    have hdesignated : designated w.core orgId = some userId := by
      rcases designated_answer hc x w orgId with hsame | ⟨changes, hchanges⟩
      · rwa [← hsame]
      · cases hchanges
    exact hspares hnot hdesignated

/-- A call of an admin's request, which writes settings only where it is one that nobody checks. -/
def MadeByAdmin (direct : Bool) : AdminCall → Prop
  | .core c => c.KeepsSettings
  | .updateSettingsItem _ _ => direct = true
  | _ => True

/-- What is known stays so over a call of an admin's function. -/
theorem knows_admin {concerns : String → Bool} {c : AdminCall} (hc : (SystemCall.admin c).Steadies)
    (hremoval : ∀ userId orgId, c = .deleteMembershipItem userId orgId → concerns userId = false)
    {x : Choice} {s : World × List Member} (hs : Knows concerns s)
    (hspares : SparesDesignated (.admin c) x s.1) (hwrites : WritesMember (.admin c) x s.1) :
    Knows concerns (Pool.noting learn SystemCall.answer (.admin c) x s).2 := by
  refine ⟨designatesMembers_answer hc hs.designates hspares hwrites, fun m hm hconcerns => ?_⟩
  rcases hasMember_answer (.admin c) x (hs.found m hm hconcerns) with hafter | hdelete
  · exact hafter
  · have hfalse := hremoval m.1 m.2 (by simpa using hdelete)
    rw [hconcerns] at hfalse
    cases hfalse

/-- A request of an admin, which assigns nobody. -/
theorem assigning_admin {direct : Bool} {α : Type} {p : AdminProg α}
    (hp : p.Calls (MadeByAdmin direct)) :
    (assigning (fun _ => false) direct).Preserves (Knows fun _ => false) (admin p) := by
  refine fun s hs => wp_comap (wp_of_stable (J := Knows fun _ => false) (fun _ _ h hs => ?_)
    (fun c hc x s hs hx => ?_) hp hs)
  · exact And.right h hs
  · obtain ⟨hspares, hdirect⟩ := hx
    have hsteady : (SystemCall.admin c).Steadies := by
      cases c with
      | core => exact hc
      | _ => trivial
    have hwrites : WritesMember (.admin c) x s.1 := by
      cases c with
      | updateSettingsItem => exact hdirect hc
      | _ => trivial
    have hafter := knows_admin hsteady (fun _ _ _ => rfl) hs hspares hwrites
    exact ⟨⟨hafter.designates, trivial⟩, hafter⟩

theorem calls_conditionalWrite {P : AdminCall → Prop} {c : AdminCall} (hc : P c) (failed : PyErr)
    (pfx : String) : (conditionalWrite c failed pfx).Calls P := by
  refine Calls.handle (Calls.perform hc) fun exc => ?_
  split <;> trivial

section Admin

variable {P : AdminCall → Prop} (hcore : ∀ c : Core.Call, c.Plain → P (.core c))

include hcore

theorem calls_addMember (orgId userId : String) (role : Role) (inviterId : String)
    (hwrite : ∀ item, P (.putMembershipItem item)) :
    (addMember orgId userId role inviterId).Calls P := by
  refine Calls.bind (calls_ofCore hcore (Calls.perform trivial)) fun now => ?_
  refine Calls.bind (calls_conditionalWrite (hwrite _) _ _) fun _ => ?_
  refine Calls.bind (calls_ofCore hcore (Core.plain_logAudit _ _ _ _ _ _)) fun _ => ?_
  exact Calls.bind (calls_ofCore hcore (Core.plain_publishEvent _ _ _ _)) fun _ => trivial

theorem calls_changeRole (orgId userId : String) (newRole : Role) (changerId : String)
    (hwrite : P (.updateRole userId orgId newRole)) :
    (changeRole orgId userId newRole changerId).Calls P := by
  refine Calls.bind (calls_conditionalWrite hwrite _ _) fun old => ?_
  refine Calls.bind (calls_ofCore hcore (Core.plain_logAudit _ _ _ _ _ _)) fun _ => ?_
  exact Calls.bind (calls_ofCore hcore (Core.plain_publishEvent _ _ _ _)) fun _ => trivial

theorem calls_removeMember (orgId userId removerId : String)
    (hwrite : P (.deleteMembershipItem userId orgId)) :
    (removeMember orgId userId removerId).Calls P := by
  refine Calls.bind (calls_conditionalWrite hwrite _ _) fun _ => ?_
  refine Calls.bind (calls_ofCore hcore (Core.plain_logAudit _ _ _ _ _ _)) fun _ => ?_
  exact Calls.bind (calls_ofCore hcore (Core.plain_publishEvent _ _ _ _)) fun _ => trivial

end Admin

/-! ### What `set_routing_config` does -/

/-- Whom the settings designate once a routing configuration is written. -/
theorem designated_of_routing {orgId strategy userId : String} {user : Option String} {now : Json}
    {metadata item : List (String × Json)}
    (h : designatedIn orgId (some (setAttributes (("updated_at", now) :: [("metadata",
      .obj (Json.set "omnichannel" (routingEntry strategy user) metadata))]) item)) = some userId) :
    strategy = "single_assignee" ∧ user = some userId := by
  set after := setAttributes (("updated_at", now) :: [("metadata",
    Json.obj (Json.set "omnichannel" (routingEntry strategy user) metadata))]) item with hafter
  have hread : dictField after "metadata" =
      .ok (Json.set "omnichannel" (routingEntry strategy user) metadata) := by
    rw [dictField, hafter, lookup_setAttributes]
    rfl
  unfold designatedIn at h
  rw [Option.getD_some] at h
  cases hitem : OrgSettings.ofItem orgId after with
  | error e => rw [hitem] at h; cases h
  | ok settings =>
    have hmetadata := metadata_ofItem hitem
    rw [hread] at hmetadata
    have hconfig : (settings.metadata.lookup "omnichannel").getD (.obj []) =
        routingEntry strategy user := by
      rw [← Except.ok.inj hmetadata, Json.lookup_set, if_pos rfl]
      rfl
    rw [hitem] at h
    replace h : (match designatedUser settings.metadata with
      | .ok (some (.str userId)) => some userId
      | _ => none) = some userId := h
    rcases designatedUser_obj hconfig with ⟨hstrategy, hdesignated⟩ | ⟨_, hdesignated⟩
    · have hsingle : strategy = "single_assignee" := by simpa using hstrategy
      refine ⟨hsingle, ?_⟩
      rw [hdesignated] at h
      cases user with
      | none => cases h
      | some name =>
        by_cases hempty : name = ""
        · subst hempty
          cases h
        · have htruthy : (([("routing_strategy", Json.str strategy), ("single_assignee_user_id",
              Json.str name)].lookup "single_assignee_user_id").filter Json.truthy) =
                some (.str name) := by
            have hlookup : [("routing_strategy", Json.str strategy), ("single_assignee_user_id",
                Json.str name)].lookup "single_assignee_user_id" = some (.str name) := rfl
            rw [hlookup]
            simp [Json.truthy, hempty]
          have hname : some name = some userId := by
            rw [show [("routing_strategy", Json.str strategy), ("single_assignee_user_id",
              Json.ofOption (some name))].lookup "single_assignee_user_id" =
                [("routing_strategy", Json.str strategy), ("single_assignee_user_id",
                  Json.str name)].lookup "single_assignee_user_id" from rfl, htruthy] at h
            exact h
          exact hname
    · rw [hdesignated] at h
      cases h

section Routing

variable {orgId actorUserId strategy : String} {user : Option String}

/-- The request is about the user that it designates. -/
def designates (user : Option String) (userId : String) : Bool := user == some userId

/-- The user that is to be designated, if any, has been found. -/
def FoundAssignee (orgId strategy : String) (user : Option String) (found : List Member) : Prop :=
  strategy = "single_assignee" → ∃ userId, user = some userId ∧ (userId, orgId) ∈ found

theorem serving_checkRoutingConfig {s : World × List Member} (hs : Knows (designates user) s) :
    (serving (designates user)).wp (checkRoutingConfig orgId actorUserId strategy user) s fun r s' =>
      Knows (designates user) s' ∧ (r = .ok () → FoundAssignee orgId strategy user s'.2) := by
  refine wp_bind (wp_mono (fun r s₁ h => ?_) (serving_requireRole actorUserId orgId _ _ hs))
  obtain ⟨hs₁, _, _⟩ := h
  cases r with
  | error e => exact ⟨hs₁, nofun⟩
  | ok actor =>
    show (serving (designates user)).wp (if strategy ∉ supportedStrategies then _ else _) s₁ _
    split
    · exact ⟨hs₁, nofun⟩
    split
    · split
      · exact ⟨hs₁, nofun⟩
      · exact ⟨hs₁, nofun⟩
      · next userId _ =>
        refine wp_bind (wp_mono (fun r s₂ h => ?_) (serving_requireMembership userId orgId _ hs₁))
        obtain ⟨hs₂, _, hfound⟩ := h
        cases r with
        | error e => exact ⟨hs₂, nofun⟩
        | ok a => exact ⟨hs₂, fun _ _ => ⟨userId, rfl, hfound a rfl⟩⟩
    · next hother => exact ⟨hs₁, fun _ h => absurd h hother⟩

/-- The configuration that is written designates whoever was found, or whom the settings designate if
nothing is written. -/
theorem writesMember_routing {metadata : List (String × Json)} {c : AdminCall} {x : Choice}
    {s : World × List Member} (hc : WritesChanges orgId [("metadata",
      .obj (Json.set "omnichannel" (routingEntry strategy user) metadata))] c)
    (hs : Knows (designates user) s) (hfound : FoundAssignee orgId strategy user s.2) :
    WritesMember (.admin c) x s.1 := by
  cases c with
  | updateSettingsItem org changes =>
    obtain ⟨rfl, now, rfl⟩ := hc
    intro userId huser
    replace huser : designated ((AdminCall.updateSettingsItem org (("updated_at", now) ::
      [("metadata", .obj (Json.set "omnichannel" (routingEntry strategy user) metadata))])).answer
        x.toChoice s.1.core).2 org = some userId := huser
    rcases AdminCall.writes_of_answer (.updateSettingsItem org (("updated_at", now) :: [("metadata",
      .obj (Json.set "omnichannel" (routingEntry strategy user) metadata))])) x.toChoice s.1.core
        with h | h
    · rw [h] at huser
      exact hs.designates org userId huser
    · generalize (AdminCall.answer (.updateSettingsItem org (("updated_at", now) :: [("metadata",
        .obj (Json.set "omnichannel" (routingEntry strategy user) metadata))])) x.toChoice
          s.1.core).2 = w' at h huser
      cases h with
      | settings =>
        have hstored : designatedIn org (some (setAttributes (("updated_at", now) :: [("metadata",
            .obj (Json.set "omnichannel" (routingEntry strategy user) metadata))])
              ((s.1.core.settings org).getD []))) = some userId := by
          rw [← huser, designated, Core.World.withSettings]
          dsimp only
          rw [Function.update_self]
          rfl
        obtain ⟨hstrategy, rfl⟩ := designated_of_routing hstored
        obtain ⟨userId', hsame, hmem⟩ := hfound hstrategy
        cases hsame
        exact hs.found _ hmem (by simp [designates])
  | _ => trivial

/-- The configuration that is written designates a member. -/
theorem assigning_setRoutingConfig :
    (assigning (designates user) false).Preserves (Knows (designates user))
      (setRoutingConfig orgId actorUserId strategy user) := by
  intro s hs
  refine wp_bind (wp_mono (fun r s₁ h => ?_) (wp_comap (serving_checkRoutingConfig hs)))
  obtain ⟨hs₁, hfound⟩ := h
  cases r with
  | error e => exact hs₁
  | ok _ =>
    have hwrite : (assigning (designates user) false).wp (admin (writeEntry orgId "omnichannel"
        (routingEntry strategy user) actorUserId)) s₁ fun _ s' => Knows (designates user) s' ∧
          FoundAssignee orgId strategy user s'.2 := by
      refine wp_comap (wp_of_stable (P := fun c => ∃ metadata, WritesChanges orgId [("metadata",
        .obj (Json.set "omnichannel" (routingEntry strategy user) metadata))] c)
        (J := fun s' => Knows (designates user) s' ∧ FoundAssignee orgId strategy user s'.2)
        (fun s₂ s₃ h hs₂ => ?_) (fun c hc x s₂ hs₂ hx => ?_)
        (calls_writeEntry (fun _ hc => ⟨[], hc.keepsSettings⟩)
          fun metadata now => ⟨metadata, rfl, now, rfl⟩) ⟨hs₁, hfound rfl⟩)
      · obtain ⟨hsame, hknows⟩ := h
        rw [hsame]
        exact ⟨hknows hs₂.1, hs₂.2⟩
      · obtain ⟨metadata, hc⟩ := hc
        have hsteady : (SystemCall.admin c).Steadies := by
          cases c with
          | core => exact hc
          | _ => trivial
        have hwrites : WritesMember (.admin c) x s₂.1 := writesMember_routing hc hs₂.1 hs₂.2
        have hremoval : ∀ userId orgId, c = .deleteMembershipItem userId orgId →
            designates user userId = false := by
          rintro userId orgId rfl
          exact hc.elim
        have hafter := knows_admin hsteady hremoval hs₂.1 hx.1 hwrites
        exact ⟨⟨hafter.designates, trivial⟩, hafter, hs₂.2⟩
    refine wp_bind (wp_mono (fun r s₂ h => ?_) hwrite)
    cases r with
    | error e => exact h.1
    | ok _ => exact h.1

end Routing

/-! ### Requests side by side -/

/-- The setting of a request of the organization. -/
def settingOf (request : Option OrgRequest) :
    Contract SystemCall SystemCall.Resp PyErr Choice (World × List Member) :=
  assigning (fun userId => request.any (·.concerns userId)) (request.any (·.isDirect))

theorem assigning_program (registry : Registry) (request : OrgRequest) {s : World × List Member}
    (hs : DesignatesMembers s.1) (hnothing : s.2 = []) :
    (settingOf (some request)).wp (request.program registry) s fun _ _ => True := by
  have hknows : ∀ concerns, Knows concerns s := fun concerns =>
    ⟨hs, fun m hm => absurd (hnothing ▸ hm) List.not_mem_nil⟩
  have hcore : ∀ direct, ∀ c : Core.Call, c.Plain → MadeByAdmin direct (.core c) :=
    fun _ _ hc => hc.keepsSettings
  have hunit : ∀ {α : Type} {concerns : String → Bool} {direct : Bool} {p : SystemProg α},
      (assigning concerns direct).Preserves (Knows concerns) p →
        (assigning concerns direct).wp (p.bind fun _ => (.ret () : SystemProg Unit)) s
          fun _ _ => True := by
    intro α concerns direct p hp
    refine wp_mono (fun _ _ _ => trivial) (Preserves.bind hp (fun _ => ?_) s (hknows _))
    exact fun _ h => h
  cases request with
  | addMember orgId userId role inviterId =>
    exact hunit (assigning_admin (calls_addMember (hcore false) orgId userId role inviterId
      fun _ => trivial))
  | changeRole orgId userId newRole changerId =>
    exact hunit (assigning_admin (calls_changeRole (hcore false) orgId userId newRole changerId
      trivial))
  | removeMember orgId userId removerId =>
    exact wp_mono (fun _ _ _ => trivial)
      (assigning_admin
      (calls_removeMember (hcore false) orgId userId removerId trivial) s (hknows _))
  | setOrgSettings orgId changes changedBy =>
    exact hunit (assigning_admin (calls_setOrgSettings (hcore true) fun _ => rfl))
  | setRoutingConfig orgId actorUserId strategy user => exact hunit assigning_setRoutingConfig
  | claim orgId conversationId userId =>
    exact hunit fun s hs => wp_comap (serving_claim orgId conversationId userId s hs)
  | reassign orgId conversationId actorUserId assigneeUserId =>
    exact hunit fun s hs =>
      wp_comap (serving_reassign orgId conversationId actorUserId assigneeUserId s hs)
  | ingest sizes =>
    exact wp_mono (fun _ _ _ => trivial) (wp_comap (serving_ingest registry sizes s (hknows _)))

/-- What another request knows stays so over a call that spares whom it has found. -/
theorem knows_other {request : Option OrgRequest} {found : List Member} {c : SystemCall} {x : Choice}
    {w : World} (hspares : SparesFound request found c x w)
    (hafter : DesignatesMembers (c.answer x w).2) :
    (settingOf request).rely (w, found) ((c.answer x w).2, found) := by
  refine ⟨rfl, fun hs => ⟨hafter, fun m hm hconcerns => ?_⟩⟩
  rcases hasMember_answer c x (hs.found m hm hconcerns) with hstays | rfl
  · exact hstays
  · by_contra hnot
    have hfalse := hspares hnot hm
    rw [hfalse] at hconcerns
    cases hconcerns

/-- In a careful run of requests, only members are assigned. -/
theorem assignsMember_of_careful {registry : Registry} {requests : List OrgRequest} {w : World}
    (hw : DesignatesMembers w) {schedule : List (ℕ × Choice)}
    (h : Pool.AlongNoted learn SystemCall.answer (Careful requests)
      (organization registry requests w) schedule fun _ => []) :
    Pool.Along SystemCall.answer AssignsMember (organization registry requests w) schedule := by
  have hprograms : ∀ (i : ℕ) p, (organization registry requests w).procs[i]? = some p →
      (settingOf requests[i]?).wp p (w, []) fun _ _ => True := by
    intro i p hp
    obtain ⟨request, hrequest, rfl⟩ := Option.map_eq_some_iff.mp
      ((List.getElem?_map ..).symm.trans hp)
    rw [hrequest]
    exact assigning_program registry request hw rfl
  have hrun := Pool.run_wp_noted (K := fun i => settingOf requests[i]?) (fun _ => rfl) hprograms
    (h.mono fun s found i c x hcareful => ?_)
  · exact (hrun.mono fun s found i c x hguar => And.right hguar).along
  obtain ⟨hdesignated, hdirect, hothers⟩ := hcareful
  refine ⟨⟨hdesignated, hdirect⟩, fun hguar j hj hunder => ?_⟩
  have hlt : j < s.procs.length := by
    by_contra hge
    rw [Pool.underWay, List.getElem?_eq_none (not_lt.mp hge)] at hunder
    cases hunder
  exact knows_other (hothers j hlt hj hunder) (And.left hguar)

/-! ### A designated member who leaves -/

instance (w : World) (m : Member) : Decidable (w.HasMember m) :=
  inferInstanceAs (Decidable ((w.core.memberships m.1 m.2).isSome = true))

instance (w : World) (write : Write) : Decidable (write.AssignsMember w) := by
  unfold Write.AssignsMember
  split <;> infer_instance

instance (c : SystemCall) (x : Choice) (w : World) : Decidable (AssignsMember c x w) := by
  unfold AssignsMember
  split <;> infer_instance

instance (c : SystemCall) (x : Choice) (w : World) : Decidable (SparesDesignated c x w) := by
  unfold SparesDesignated
  split <;> infer_instance

instance (c : SystemCall) (x : Choice) (w : World) : Decidable (WritesMember c x w) := by
  unfold WritesMember
  split <;> infer_instance

instance (request : Option OrgRequest) (found : List Member) (c : SystemCall) (x : Choice)
    (w : World) : Decidable (SparesFound request found c x w) := by
  unfold SparesFound
  split <;> infer_instance

instance (requests : List OrgRequest) (s : Pool SystemCall SystemCall.Resp PyErr Unit World)
    (found : ℕ → List Member) (i : ℕ) (c : SystemCall) (x : Choice) :
    Decidable (Careful requests s found i c x) :=
  inferInstanceAs (Decidable (_ ∧ _ ∧ _))

/-- The org's deployment, where a new customer has written. -/
def customerWorld : World :=
  { inboxWorld with
    queues := Function.update inboxWorld.queues .inbound ((inboxWorld.queues .inbound).send
      (inboundEntry "whatsapp" "org" "connection" (whatsappText "4917" "wamid.1" "Hello?"))) }

theorem designatesMembers_customerWorld : DesignatesMembers customerWorld := nofun

/-- kim is to get each new conversation, gets one, and is removed once nobody is to get them. -/
def handover : List OrgRequest :=
  [.setRoutingConfig "org" "ada" "single_assignee" (some "kim"), .ingest [10],
    .setRoutingConfig "org" "ada" "manual" none, .removeMember "org" "kim" "ada"]

/-- One request after the other. -/
def inSuccession (n : ℕ) : List (ℕ × Choice) :=
  calmly ((List.range n).flatMap fun i => List.replicate 30 i)

theorem assignsMember_handover : Pool.Along SystemCall.answer AssignsMember
    (organization whatsappRegistry handover customerWorld) (inSuccession 4) :=
  assignsMember_of_careful designatesMembers_customerWorld (by decide +kernel)

/-- kim is to get each new conversation, and is removed before there is one. -/
def departure : List OrgRequest :=
  [.setRoutingConfig "org" "ada" "single_assignee" (some "kim"), .removeMember "org" "kim" "ada",
    .ingest [10]]

/-- The worker assigns the conversation to kim, who has left. -/
theorem not_assignsMember : ¬∀ (registry : Registry) (requests : List OrgRequest) (w : World)
    (schedule : List (ℕ × Choice)), DesignatesMembers w →
      Pool.Along SystemCall.answer AssignsMember (organization registry requests w) schedule := by
  intro h
  have hrun := h whatsappRegistry departure customerWorld (inSuccession 3) designatesMembers_customerWorld
  exact absurd hrun (by decide +kernel)

end A2ZCore.Omnichannel
