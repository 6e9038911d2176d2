import A2ZCore.Lib.Pool
import A2ZCore.Omnichannel.Assignments

/-!
# Claims of one conversation, side by side

`claim` loads the conversation, checks that nobody has it, and commits. Nothing ties the commit to what
was loaded: two claims that both load the conversation before either commits both go through, and the
later one takes the conversation from the earlier. Claims are exclusive in the runs in which each commit
finds the assignment as its request loaded it.

## Main definitions

* `Kept` — what claims leave alone: an assignment, once there is one
* `Uncontested` — a commit finds the assignment that was loaded
* `Exclusive`, `TurnedAway` — at most one claim succeeds, and the others are told so

## Main results

* `exclusive_of_uncontested` — any number of claims, in any interleaving
-/

namespace A2ZCore.Omnichannel

open Interaction Interaction.Proc Interaction.Contract Relational

/-! ### What claims do to the conversation -/

/-- The conversation with the id is assigned to the user. -/
def Db.AssignedTo (db : Db) (conversationId userId : String) : Prop :=
  ∃ row, db.conversation conversationId = some row ∧ row.assignedUserId = some userId

instance (db : Db) (conversationId userId : String) : Decidable (db.AssignedTo conversationId userId) :=
  decidable_of_iff ((db.conversation conversationId).bind (·.assignedUserId) = some userId) (by
    rw [Db.AssignedTo, Option.bind_eq_some_iff])

/-- The conversation stays in its org, and with the user that it is assigned to. The memberships stay. -/
structure Kept (conversationId : String) (w w' : World) : Prop where
  memberships : w'.core.memberships = w.core.memberships
  row : ∀ row, w.db.conversation conversationId = some row →
    ∃ row', w'.db.conversation conversationId = some row' ∧ row'.orgId = row.orgId ∧
      ∀ userId, row.assignedUserId = some userId → row'.assignedUserId = some userId

section Kept

variable {conversationId : String}

theorem Kept.of_same {w w' : World} (hmemberships : w'.core.memberships = w.core.memberships)
    (hdb : w'.db = w.db) : Kept conversationId w w' := by
  refine ⟨hmemberships, fun row hrow => ⟨row, ?_, rfl, fun _ h => h⟩⟩
  rw [hdb]
  exact hrow

theorem Kept.refl (w : World) : Kept conversationId w w := .of_same rfl rfl

theorem Kept.trans {u v w : World} (h : Kept conversationId u v) (h' : Kept conversationId v w) :
    Kept conversationId u w := by
  refine ⟨h'.memberships.trans h.memberships, fun row hrow => ?_⟩
  obtain ⟨row₁, hrow₁, horg₁, hassigned₁⟩ := h.row row hrow
  obtain ⟨row₂, hrow₂, horg₂, hassigned₂⟩ := h'.row row₁ hrow₁
  exact ⟨row₂, hrow₂, horg₂.trans horg₁, fun u hu => hassigned₂ u (hassigned₁ u hu)⟩

theorem Kept.assignedTo {w w' : World} (h : Kept conversationId w w') {userId : String}
    (hw : w.db.AssignedTo conversationId userId) : w'.db.AssignedTo conversationId userId := by
  obtain ⟨row, hrow, hassigned⟩ := hw
  obtain ⟨row', hrow', _, hkept⟩ := h.row row hrow
  exact ⟨row', hrow', hkept userId hassigned⟩

/-- A call that commits nothing. -/
theorem kept_of_harmless {c : Call} (hc : c.Harmless) (x : Choice) (w : World) :
    Kept conversationId w (c.answer x w).2 := by
  refine .of_same ?_ (calm_answer hc x w).db
  rcases c.writes_of_answer x w with h | h
  · rw [h]
  · generalize (c.answer x w).2 = w' at h ⊢
    cases h with
    | core c x => exact Core.memberships_answer c x w.core
    | _ => rfl

end Kept

/-- The conversation after an update of one. -/
theorem conversation_update {db db' : Db} {loaded current : Conversation}
    (h : db'.conversations.rows = db.conversations.rows.map fun row : Conversation =>
      if row.id = current.id then .patch loaded current row else row) (id : String) :
    db'.conversation id = (db.conversation id).map fun row =>
      if row.id = current.id then .patch loaded current row else row := by
  rw [Db.conversation, Db.conversation, h, List.find?_map]
  have hsame : ((fun c : Conversation => c.id == id) ∘ fun row : Conversation =>
      if row.id = current.id then .patch loaded current row else row) =
        fun c : Conversation => c.id == id := by
    funext row
    rw [Function.comp_apply]
    split <;> rfl
  rw [hsame]

/-- The conversation is assigned to the user by the writes of an assignment. -/
theorem conversation_assign {db db' : Db} {now : DateTime} {loaded row : Conversation}
    {assignment : ConversationAssignment} {userId : String}
    (h : db.apply now [.updateConversation loaded { loaded with assignedUserId := some userId },
      .insertAssignment assignment] = .ok db')
    (hrow : db.conversation loaded.id = some row) :
    db'.conversation loaded.id = some { row with
      assignedUserId := column loaded.assignedUserId (some userId) row.assignedUserId } := by
  have hid : row.id = loaded.id := by simpa using List.find?_some hrow
  have hpatch : Conversation.patch loaded { loaded with assignedUserId := some userId } row =
      { row with
        assignedUserId := column loaded.assignedUserId (some userId) row.assignedUserId } := by
    simp [Conversation.patch]
  rw [conversation_update (assign_conversations h), hrow, Option.map_some, if_pos hid, hpatch]

/-! ### A claim among claims -/

/-- An assignment that takes effect finds the conversation assigned as its request loaded it. -/
def Uncontested : Call → Choice → World → Prop
  | .commit (.updateConversation loaded current :: writes), x, w =>
    x.fate.Lands (w.db.apply x.now (.updateConversation loaded current :: writes)) →
      ∀ row ∈ w.db.conversation loaded.id, row.assignedUserId = loaded.assignedUserId
  | _, _, _ => True

instance (c : Call) (x : Choice) (w : World) : Decidable (Uncontested c x w) := by
  unfold Uncontested
  split <;> infer_instance

/-- The call is answered with a value, and where it is a publish EventBridge takes the event. -/
def GoesThrough : (c : Call) → Except PyErr c.Resp → Prop
  | .core (.putEvents _), r => ∃ eventId, r = .ok (.ok eventId)
  | _, r => ∃ a, r = .ok a

/-- The setting of claims of one conversation, where each call goes through if `goes` says so. -/
def claiming (conversationId : String) (goes : Prop) : Contract Call Call.Resp PyErr Choice World where
  answer := Call.answer
  rely := Kept conversationId
  admits c x w := Uncontested c x w ∧ (goes → GoesThrough c (c.answer x w).1)
  guar _ _ := Kept conversationId
  rely_refl := Kept.refl
  rely_trans h h' := h.trans h'

section Claim

variable {orgId conversationId userId : String} {goes : Prop}

theorem succeeds_announceAssignment (conversation : Conversation) (userId assignedBy reason : String) :
    (core (announceAssignment conversation userId assignedBy reason)).Succeeds GoesThrough := by
  refine Succeeds.embed (A := fun c r => GoesThrough (.core c) r) (fun c r h => ?_) ?_
  · cases r <;> exact h
  refine Succeeds.bind ?_ fun _ => Succeeds.bind ?_ fun _ => Succeeds.bind ?_ fun _ => ?_
  · rintro r ⟨now, rfl⟩ r ⟨eventId, rfl⟩ r ⟨_, rfl⟩
    trivial
  · rintro r ⟨eventId, rfl⟩
    trivial
  · rintro r ⟨_, rfl⟩
    trivial
  · rintro r ⟨_, rfl⟩
    trivial

theorem calls_harmless_announceAssignment (conversation : Conversation)
    (userId assignedBy reason : String) :
    (core (announceAssignment conversation userId assignedBy reason)).Calls Call.Harmless := by
  refine Calls.embed (Calls.bind (Core.calls_logAudit _ _ _ _ _ _) fun _ => ?_)
  refine Calls.bind (Core.calls_publishEvent _ _ _ _) fun _ => ?_
  exact Calls.bind (Core.calls_publishUpdate _ _ _) fun _ => Core.calls_publishUpdate _ _ _

/-- A user who may claim. -/
def Eligible (orgId userId : String) (w : World) : Prop :=
  ∃ membership, w.core.memberships userId orgId = some membership ∧
    membership.role ∈ nonViewerRoles

/-- What is known when a claim has finished. -/
def Settles (orgId conversationId userId : String) (goes : Prop) :
    Except PyErr Conversation → World → Prop
  | .ok _, w => w.db.AssignedTo conversationId userId
  | .error e, w => goes → Eligible orgId userId w → e.cls = .conversationAlreadyAssignedError

theorem Settles.kept {r : Except PyErr Conversation} {w w' : World} (h : Kept conversationId w w')
    (hr : Settles orgId conversationId userId goes r w) :
    Settles orgId conversationId userId goes r w' := by
  cases r with
  | ok c => exact h.assignedTo hr
  | error e =>
    rintro hgoes ⟨membership, hmembership, hrole⟩
    rw [h.memberships] at hmembership
    exact hr hgoes ⟨membership, hmembership, hrole⟩

/-- One call that commits nothing: where it fails, `goes` did not hold. -/
theorem claiming_perform {β : Type} {c : Call} (hc : c.Harmless) {f : c.Resp → Prog β} {w : World}
    {Q : Except PyErr β → World → Prop}
    (hanswered : ∀ e, ¬GoesThrough c (.error e))
    (hf : ∀ a x w', Kept conversationId w w' → (c.answer x w').1 = .ok a →
      Kept conversationId w' (c.answer x w').2 →
        (claiming conversationId goes).wp (f a) (c.answer x w').2 Q)
    (herror : ∀ e w', ¬goes → Q (.error e) w') :
    (claiming conversationId goes).wp ((run c).bind f) w Q := by
  refine wp_bind (wp_perform fun w₁ h₁ x hx => ⟨kept_of_harmless hc x w₁, ?_⟩)
  show (claiming conversationId goes).next f Q (c.answer x w₁).1 (c.answer x w₁).2
  cases hr : (c.answer x w₁).1 with
  | ok a => exact hf a x w₁ h₁ hr (kept_of_harmless hc x w₁)
  | error e =>
    refine herror e _ fun hgoes => hanswered e ?_
    rw [← hr]
    exact hx.2 hgoes

/-- The check that a user may claim. -/
theorem claiming_requireRole {β : Type} {f : Core.Membership → Prog β} {w : World}
    {Q : Except PyErr β → World → Prop}
    (hf : ∀ a w', Kept conversationId w w' → (claiming conversationId goes).wp (f a) w' Q)
    (herror : ∀ e w', ¬(goes ∧ Eligible orgId userId w') → Q (.error e) w') :
    (claiming conversationId goes).wp ((requireRole userId orgId nonViewerRoles
      "Viewers cannot claim conversations").bind f) w Q := by
  have hread : requireRole userId orgId nonViewerRoles "Viewers cannot claim conversations" =
      (run (.core (.getMembershipItem userId orgId))).bind fun found => match found with
        | none => fail .notFoundError "Not a member of this org"
        | some membership =>
          if membership.role ∉ nonViewerRoles then
            fail .forbiddenError "Viewers cannot claim conversations"
          else .ret membership := by
    refine congrArg (Proc.call _) (funext fun r => ?_)
    rcases r with e | (_ | membership) <;> rfl
  have hharmless : (Call.core (.getMembershipItem userId orgId)).Harmless := trivial
  rw [hread, Proc.bind_assoc]
  refine claiming_perform hharmless nofun (fun found x w₁ h₁ hr h₂ => ?_)
    fun e w' hgoes => herror e w' fun h => hgoes h.1
  have hafter := h₁.trans h₂
  have hfound : w₁.core.memberships userId orgId = found := by
    have hquery : (x.fate.query (.ok (w₁.core.memberships userId orgId)) w₁.core).1 = .ok found := hr
    exact Except.ok.inj (Core.Fate.eq_of_query hquery)
  rw [← h₂.memberships] at hfound
  generalize (Call.answer (.core (.getMembershipItem userId orgId)) x w₁).2 = w₂ at hafter hfound ⊢
  cases found with
  | none =>
    refine herror _ _ ?_
    rintro ⟨_, membership, hmembership, _⟩
    rw [hfound] at hmembership
    cases hmembership
  | some membership =>
    show (claiming conversationId goes).wp (Proc.bind (if _ then _ else _) f) w₂ Q
    by_cases hrole : membership.role ∈ nonViewerRoles
    · rw [if_neg (not_not.mpr hrole)]
      exact hf _ _ hafter
    · rw [if_pos hrole]
      refine herror _ _ ?_
      rintro ⟨_, membership', hmembership, hrole'⟩
      rw [hfound] at hmembership
      cases hmembership
      exact hrole hrole'

/-- Loading the conversation. -/
theorem claiming_loadConversation {β : Type} {f : Conversation → Prog β} {w : World}
    {Q : Except PyErr β → World → Prop}
    (hrow : ∃ row, w.db.conversation conversationId = some row ∧ row.orgId = orgId)
    (hf : ∀ c w', Kept conversationId w w' → w'.db.conversation conversationId = some c →
      (claiming conversationId goes).wp (f c) w' Q)
    (herror : ∀ e w', ¬goes → Q (.error e) w') :
    (claiming conversationId goes).wp ((loadConversation orgId conversationId).bind f) w Q := by
  have hharmless : (Call.getConversation conversationId).Harmless := trivial
  unfold loadConversation
  rw [bind_eq, Proc.bind_assoc]
  refine claiming_perform hharmless nofun (fun found x w₁ h₁ hr h₂ => ?_) herror
  obtain ⟨row, hrow, horg⟩ := hrow
  obtain ⟨row₁, hrow₁, horg₁, _⟩ := h₁.row row hrow
  have hread : Except.ok (w₁.db.conversation conversationId) = Except.ok found :=
    Core.Fate.eq_of_query hr
  rw [hrow₁] at hread
  obtain rfl : some row₁ = found := Except.ok.inj hread
  show (claiming conversationId goes).wp (Proc.bind (if row₁.orgId ≠ orgId then _ else _) f) _ Q
  rw [if_neg (not_not.mpr (horg₁.trans horg))]
  refine hf row₁ _ (h₁.trans h₂) ?_
  rw [(calm_answer hharmless x w₁).db]
  exact hrow₁

/-- The assignment of a conversation that was loaded unassigned. -/
theorem claiming_recordAssignment {loaded : Conversation} {w : World}
    (hrow : w.db.conversation conversationId = some loaded) (hnone : loaded.assignedUserId = none) :
    (claiming conversationId goes).wp (recordAssignment loaded userId userId "claim") w
      (Settles orgId conversationId userId goes) := by
  have hid : loaded.id = conversationId := by simpa using List.find?_some hrow
  have hfail : ∀ (e : PyErr) w', ¬goes → Settles orgId conversationId userId goes (.error e) w' :=
    fun _ _ h hgoes => absurd hgoes h
  have huuid : (Call.core .uuid4).Harmless := trivial
  have hread : core (Core.run .uuid4) = run (.core .uuid4) := by
    refine congrArg (Proc.call _) (funext fun r => ?_)
    cases r <;> rfl
  unfold recordAssignment
  rw [hread]
  refine claiming_perform huuid nofun (fun id x₁ w₁ h₁ _ h₂ => ?_) hfail
  have hheld : ∃ row, (Call.answer (.core .uuid4) x₁ w₁).2.db.conversation loaded.id = some row := by
    obtain ⟨row, hrow', _⟩ := (h₁.trans h₂).row loaded hrow
    rw [hid]
    exact ⟨row, hrow'⟩
  generalize (Call.answer (.core .uuid4) x₁ w₁).2 = w₂ at hheld ⊢
  set writes : List Write := [.updateConversation loaded { loaded with assignedUserId := some userId },
    .insertAssignment (newAssignment id loaded userId userId "claim")] with hwrites
  refine wp_bind (wp_perform fun w₃ h₃ x hx => ?_)
  obtain ⟨row₂, hrow₂⟩ := hheld
  rw [hid] at hrow₂
  obtain ⟨row, hrow₃, _⟩ := h₃.row row₂ hrow₂
  show Kept conversationId w₃ ((Call.commit writes).answer x w₃).2 ∧
    (claiming conversationId goes).next _ _ ((Call.commit writes).answer x w₃).1
      ((Call.commit writes).answer x w₃).2
  rcases commit_cases writes x w₃ with ⟨hlands, db, hdb, hw⟩ | ⟨_, hw, e, he⟩
  · -- The commit lands, on a conversation that still nobody has.
    have hfree : row.assignedUserId = none := by
      rw [← hnone]
      exact hx.1 hlands row (by rw [hid]; exact hrow₃)
    have hafter : db.conversation conversationId =
        some { row with assignedUserId := some userId } := by
      rw [← hid] at hrow₃ ⊢
      rw [conversation_assign hdb hrow₃, hnone, hfree]
      rfl
    have hkept : Kept conversationId w₃ ((Call.commit writes).answer x w₃).2 := by
      rw [hw]
      refine ⟨rfl, fun row' hrow' => ⟨_, hafter, ?_, fun u hu => ?_⟩⟩
      · rw [hrow₃] at hrow'
        cases hrow'
        rfl
      · rw [hrow₃] at hrow'
        cases hrow'
        rw [hfree] at hu
        cases hu
    have hassigned : ((Call.commit writes).answer x w₃).2.db.AssignedTo conversationId userId := by
      rw [hw]
      exact ⟨_, hafter, rfl⟩
    refine ⟨hkept, ?_⟩
    generalize ((Call.commit writes).answer x w₃).2 = w₄ at hassigned ⊢
    cases hr : ((Call.commit writes).answer x w₃).1 with
    | error e =>
      refine hfail e w₄ fun hgoes => ?_
      obtain ⟨a, ha⟩ : ∃ a, ((Call.commit writes).answer x w₃).1 = .ok a := hx.2 hgoes
      rw [hr] at ha
      cases ha
    | ok _ =>
      refine wp_bind (wp_of_succeeds (K := claiming conversationId goes) (P := Call.Harmless)
        (A := GoesThrough) (T := goes)
        (fun c hc x w _ => ⟨kept_of_harmless hc x w, kept_of_harmless hc x w⟩)
        (fun hgoes c x w h => h.2 hgoes) (calls_harmless_announceAssignment _ _ _ _)
        (fun _ => succeeds_announceAssignment _ _ _ _) (fun _ w' h => ?_) fun e w' _ => hfail e w')
      exact h.assignedTo hassigned
  · rw [he, hw]
    refine ⟨.refl _, hfail e w₃ fun hgoes => ?_⟩
    obtain ⟨a, ha⟩ : ∃ a, ((Call.commit writes).answer x w₃).1 = .ok a := hx.2 hgoes
    rw [he] at ha
    cases ha

theorem claiming_claim {w : World}
    (hrow : ∃ row, w.db.conversation conversationId = some row ∧ row.orgId = orgId) :
    (claiming conversationId goes).wp (claim orgId conversationId userId) w
      (Settles orgId conversationId userId goes) := by
  refine claiming_requireRole (fun _ w₁ h₁ => ?_)
    fun e w' hnot hgoes heligible => absurd ⟨hgoes, heligible⟩ hnot
  obtain ⟨row, hrow, horg⟩ := hrow
  obtain ⟨row₁, hrow₁, horg₁, _⟩ := h₁.row row hrow
  refine claiming_loadConversation ⟨row₁, hrow₁, horg₁.trans horg⟩ (fun c w₂ _ hc => ?_)
    fun e w' hnot hgoes _ => absurd hgoes hnot
  by_cases hmine : c.assignedUserId = some userId
  · rw [if_pos hmine]
    exact ⟨c, hc, hmine⟩
  rw [if_neg hmine]
  by_cases htaken : c.assignedUserId = none
  · rw [if_neg (not_not.mpr htaken)]
    exact claiming_recordAssignment hc htaken
  · rw [if_pos htaken]
    exact fun _ _ => rfl

end Claim

/-! ### Claims side by side -/

/-- Claims of one conversation, none of which has begun. -/
def claims (orgId conversationId : String) (users : List String) (w : World) :
    Pool Call Call.Resp PyErr Conversation World where
  procs := users.map (claim orgId conversationId)
  world := w

/-- At most one claim has succeeded, and the conversation is its user's. -/
structure Exclusive (conversationId : String) (users : List String)
    (s : Pool Call Call.Resp PyErr Conversation World) : Prop where
  unique : ∀ i j, (s.returned i).isSome → (s.returned j).isSome → i = j
  winner : ∀ i user, users[i]? = some user → (s.returned i).isSome →
    s.world.db.AssignedTo conversationId user

/-- Of the users who may claim, those whose claims have failed were told that the conversation is
assigned. -/
def TurnedAway (orgId : String) (users : List String)
    (s : Pool Call Call.Resp PyErr Conversation World) : Prop :=
  ∀ (i : ℕ) (user : String) (e : PyErr), users[i]? = some user → s.procs[i]? = some (Proc.raise e) →
    Eligible orgId user s.world → e.cls = .conversationAlreadyAssignedError

/-- **Claims are exclusive** in every run in which each assignment that takes effect finds the
conversation assigned as its request loaded it: at most one claim succeeds, and the conversation is then
its user's. Where every call goes through, the others fail because the conversation is assigned. -/
theorem exclusive_of_uncontested {orgId conversationId : String} {users : List String}
    (hdistinct : users.Nodup) {row : Conversation} {w : World}
    (hrow : w.db.conversation conversationId = some row) (horg : row.orgId = orgId)
    {schedule : List (ℕ × Choice)}
    (hrun : Pool.Along Call.answer Uncontested (claims orgId conversationId users w) schedule) :
    Exclusive conversationId users ((claims orgId conversationId users w).run Call.answer schedule) ∧
      (Pool.Along Call.answer (fun c x w => GoesThrough c (c.answer x w).1)
          (claims orgId conversationId users w) schedule →
        TurnedAway orgId users ((claims orgId conversationId users w).run Call.answer schedule)) := by
  set s := claims orgId conversationId users w with hs
  set goes : Prop := Pool.Along Call.answer (fun c x w => GoesThrough c (c.answer x w).1) s schedule
    with hgoes
  have hadmits : Pool.Along Call.answer (claiming conversationId goes).admits s schedule := by
    by_cases hall : goes
    · exact (hrun.and hall).mono fun c x w h => ⟨h.1, fun _ => h.2⟩
    · exact hrun.mono fun c x w h => ⟨h, fun h => absurd h hall⟩
  have hprocs : ∀ (i : ℕ) p, s.procs[i]? = some p → (claiming conversationId goes).wp p s.world
      fun r w => ∀ user : String, users[i]? = some user →
        Settles orgId conversationId user goes r w := by
    intro i p hp
    rw [hs, claims, List.getElem?_map] at hp
    cases huser : users[i]? with
    | none => rw [huser] at hp; cases hp
    | some user =>
      rw [huser] at hp
      cases hp
      refine wp_mono (fun r w' h user' huser' => ?_) (claiming_claim ⟨row, hrow, horg⟩)
      cases huser'
      exact h
  obtain ⟨_, hend⟩ := Pool.run_wp_at
    (Q := fun i r w => ∀ user, users[i]? = some user → Settles orgId conversationId user goes r w)
    (fun _ _ _ _ h => h) (fun i r w w' h hr user huser => (hr user huser).kept h) hprocs hadmits
  set t := s.run Call.answer schedule with ht
  have hwinner : ∀ i user, users[i]? = some user → (t.returned i).isSome →
      t.world.db.AssignedTo conversationId user := by
    intro i user huser hsome
    obtain ⟨c, hc⟩ := Option.isSome_iff_exists.mp hsome
    exact hend i _ (Pool.getElem?_of_returned hc) user huser
  have huser : ∀ i, (t.returned i).isSome → ∃ h : i < users.length, users[i]? = some users[i] := by
    intro i hsome
    obtain ⟨c, hc⟩ := Option.isSome_iff_exists.mp hsome
    obtain ⟨hi, _⟩ := List.getElem?_eq_some_iff.mp (Pool.getElem?_of_returned hc)
    have hlength : t.procs.length = users.length := by
      rw [ht, Pool.length_run, hs, claims, List.length_map]
    exact ⟨hlength ▸ hi, List.getElem?_eq_getElem _⟩
  refine ⟨⟨fun i j hi hj => ?_, hwinner⟩, fun hall i user e hi he heligible => ?_⟩
  · obtain ⟨hi', huseri⟩ := huser i hi
    obtain ⟨hj', huserj⟩ := huser j hj
    obtain ⟨rowi, hrowi, hassignedi⟩ := hwinner i _ huseri hi
    obtain ⟨rowj, hrowj, hassignedj⟩ := hwinner j _ huserj hj
    rw [hrowi] at hrowj
    cases hrowj
    rw [hassignedi] at hassignedj
    exact hdistinct.getElem_inj_iff.mp (Option.some.inj hassignedj)
  · exact hend i _ he user hi hall heligible

/-- Two agents who claim the conversation of `inboxWorld`. -/
def agents : List String := ["ada", "bob"]

/-- One claim after the other: the first succeeds, and the second is turned away. -/
def claimedInTurn : List (ℕ × Choice) := calmly (List.replicate 10 0 ++ List.replicate 10 1)

/-- Both claims load the conversation, and then both commit. -/
def loadThenCommit : List (ℕ × Choice) :=
  calmly ([0, 0, 1, 1] ++ List.replicate 8 0 ++ List.replicate 8 1)

theorem exclusive_of_uncontested_inbox : Exclusive "conversation" agents
    ((claims "org" "conversation" agents inboxWorld).run Call.answer claimedInTurn) := by
  have hrun : Pool.Along Call.answer Uncontested (claims "org" "conversation" agents inboxWorld)
      claimedInTurn := by decide +kernel
  have hdistinct : agents.Nodup := by decide
  have hrow : inboxWorld.db.conversation "conversation" = some ⟨"conversation", "org", "identity",
    "open", none, none, none, 0, ⟨⟨2026, 1, 1⟩, 0, 0, 0, 0⟩⟩ := rfl
  exact (exclusive_of_uncontested hdistinct hrow rfl hrun).1

/-- Two claims that are made together both succeed. -/
theorem not_exclusive : ¬∀ (orgId conversationId : String) (users : List String) (row : Conversation)
    (w : World) (schedule : List (ℕ × Choice)), users.Nodup →
      w.db.conversation conversationId = some row → row.orgId = orgId → row.assignedUserId = none →
        Exclusive conversationId users
          ((claims orgId conversationId users w).run Call.answer schedule) := by
  intro h
  have hboth := (h "org" "conversation" agents _ inboxWorld loadThenCommit (by decide) rfl rfl rfl).unique
    0 1 (by decide +kernel) (by decide +kernel)
  exact absurd hboth (by decide)

end A2ZCore.Omnichannel
