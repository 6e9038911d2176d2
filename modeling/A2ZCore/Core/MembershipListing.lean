import A2ZCore.Core.MembershipViews
import Mathlib

/-!
# Members and their orgs

The listings of the membership table against the memberships that are read one by one, in every state
that calls have led to. An org's members are listed by the index, a user's orgs by the table itself; both
say what `get_membership` says. A listing reads one page, so what it says is all there is where nothing
is beyond the page. The index is read as it stands after the last write: its delay behind the table is
left out.

## Main definitions

* `Says` — what a function returns where no call fails, leaving the state as it is
* `MembersAgree`, `OrgsAgree` — a listing and the reads agree

## Main results

* `views_agree` — they do, in every state that is reached
* `writes_agree` — the functions that write do so where the membership is as they need it
* `membership_agrees` — both, where a listing is on one page
-/

namespace A2ZCore.Core.MembershipTable

open Interaction Interaction.Proc Interaction.Contract

/-! ### What a function says -/

/-- Nothing is stopped, and no call fails. -/
def Unfailing (o : Oracle Choice) : Prop := ∀ n, ∃ x, o n = some x ∧ x.fate = .ok

/-- Where no call fails, the function returns `a` and leaves the state as it is. -/
def Says (size : MemberItem → ℕ) {α : Type} (w : MemberWorld) (p : MemberProg α) (a : α) : Prop :=
  ∀ o, Unfailing o → exec (MemberCall.answer size) p o w = (some (.ok a), w)

section Says

variable {size : MemberItem → ℕ} {α β : Type} {w : MemberWorld}

theorem says_ret (a : α) : Says size w (.ret a) a := fun _ _ => rfl

/-- A call that reads, and what follows it. -/
theorem says_read {c : MemberCall} {f : c.Resp → MemberProg β} {r : c.Resp} {b : β}
    (hread : ∀ x : Choice, x.fate = .ok → c.answer size x w = (.ok r, w)) (h : Says size w (f r) b) :
    Says size w ((memberRun c).bind f) b := by
  intro o ho
  obtain ⟨x, hx, hfate⟩ := ho 0
  show exec (MemberCall.answer size) (.call c _) o w = _
  rw [exec, hx]
  dsimp only
  rw [hread x hfate]
  exact h o.tail fun n => ho (n + 1)

/-- A function says one thing. -/
theorem Says.unique {p : MemberProg α} {a b : α} (ha : Says size w p a) (hb : Says size w p b) : a = b := by
  have ho : Unfailing fun _ => some (.calm "") := fun _ => ⟨_, rfl, rfl⟩
  have h := (ha _ ho).symm.trans (hb _ ho)
  cases h
  rfl

theorem Says.bind {p : MemberProg α} {f : α → MemberProg β} {a : α} {b : β} (hp : Says size w p a)
    (hf : Says size w (f a) b) : Says size w (p.bind f) b := by
  suffices hsuff : ∀ (p : MemberProg α) (w₁ : MemberWorld) (o : Oracle Choice), Unfailing o →
      exec (MemberCall.answer size) p o w₁ = (some (.ok a), w) →
      exec (MemberCall.answer size) (p.bind f) o w₁ = (some (.ok b), w) from
    fun o ho => hsuff p w o ho (hp o ho)
  intro p
  induction p with
  | ret a' =>
    intro w₁ o ho h
    cases h
    exact hf o ho
  | raise e =>
    intro w₁ o ho h
    cases h
  | call c k ih =>
    intro w₁ o ho h
    obtain ⟨x, hx, hfate⟩ := ho 0
    rw [exec, hx] at h
    show exec (MemberCall.answer size) (.call c _) o w₁ = _
    rw [exec, hx]
    exact ih _ _ _ (fun n => ho (n + 1)) h

end Says

section Reads

variable {size : MemberItem → ℕ} {w : MemberWorld}

theorem answer_getItem (pk sk : String) {x : Choice} (hx : x.fate = .ok) :
    MemberCall.answer size (.getItem pk sk) x w = (.ok (findItem pk sk w.items), w) := by
  rw [MemberCall.answer, hx]
  rfl

/-- `get_membership` says what the map gives. -/
theorem says_getMembership (h : Sound w.items) (userId orgId : String) :
    Says size w (getMembership userId orgId) (membershipAt w.items userId orgId) := by
  refine says_read (fun x hx => answer_getItem _ _ hx) ?_
  rcases h.findItem_cases userId orgId with
    ⟨hfind, hnone⟩ | ⟨item, m, hfind, hrecords, rfl, rfl, hsome⟩
  · rw [hfind, hnone]
    exact says_ret none
  · rw [hfind, hsome]
    show Says size w (Proc.bind (Proc.ofExcept (item.membership m.userId m.orgId)) _) _
    rw [hrecords.membership]
    exact says_ret (some m)

theorem says_getMembership_iff (h : Sound w.items) {userId orgId : String} {r : Option Membership} :
    Says size w (getMembership userId orgId) r ↔ membershipAt w.items userId orgId = r :=
  ⟨fun htold => (says_getMembership h userId orgId).unique htold,
    fun heq => heq ▸ says_getMembership h userId orgId⟩

/-- The org that the table gives under an id. -/
def orgAt (items : List MemberItem) (orgId : String) : Option Org :=
  (findItem (orgPk orgId) "METADATA" items).bind fun item => (item.org orgId).toOption

/-- `_get_org` says which org the table holds. -/
theorem says_getOrg (h : Sound w.items) (orgId : String) :
    Says size w (getOrg orgId) (orgAt w.items orgId) := by
  refine says_read (fun x hx => answer_getItem _ _ hx) ?_
  rw [orgAt]
  cases hfind : findItem (orgPk orgId) "METADATA" w.items with
  | none => exact says_ret none
  | some item =>
    obtain ⟨hmem, hkey⟩ := h.findItem_eq_some_iff.mp hfind
    obtain ⟨org, rfl, hdescribes⟩ := (h.written item hmem).describes hkey
    show Says size w (Proc.bind (Proc.ofExcept (item.org org.orgId)) _) (item.org org.orgId).toOption
    rw [hdescribes.org]
    exact says_ret (some org)

theorem orgAt_orgId (h : Sound w.items) {orgId : String} {org : Org}
    (horg : orgAt w.items orgId = some org) : org.orgId = orgId := by
  rw [orgAt] at horg
  obtain ⟨item, hfind, hitem⟩ := Option.bind_eq_some_iff.mp horg
  obtain ⟨hmem, hkey⟩ := h.findItem_eq_some_iff.mp hfind
  obtain ⟨org', rfl, hdescribes⟩ := (h.written item hmem).describes hkey
  rw [hdescribes.org] at hitem
  cases hitem
  rfl

end Reads

/-! ### The members of an org -/

section Members

variable {size : MemberItem → ℕ} {items : List MemberItem} {w : MemberWorld} {orgId userId : String}

/-- The items that a Query on the index reads. -/
def memberPage (size : MemberItem → ℕ) (items : List MemberItem) (orgId : String) : List MemberItem :=
  QueryPage.page size 1048576 (gsi1 (orgPk orgId) items)

/-- The items of members that are beyond the page. -/
def membersBeyond (size : MemberItem → ℕ) (items : List MemberItem) (orgId : String) :
    List MemberItem :=
  QueryPage.rest size 1048576 (gsi1 (orgPk orgId) items)

theorem mem_gsi1 {item : MemberItem} {gsi1pk : String} :
    item ∈ gsi1 gsi1pk items ↔
      item ∈ items ∧ item.get? "GSI1PK" = some gsi1pk ∧ (item.get? "GSI1SK").isSome = true := by
  rw [gsi1, List.mem_mergeSort, List.mem_filter, Bool.and_eq_true, beq_iff_eq]

/-- An item of the index is that of a member. -/
theorem Sound.records_of_gsi1 (h : Sound items) {item : MemberItem} (hitem : item ∈ gsi1 (orgPk orgId) items) :
    ∃ m : Membership, item.Records m ∧ m.orgId = orgId := by
  obtain ⟨hmem, hgsi, _⟩ := mem_gsi1.mp hitem
  cases h.written item hmem with
  | membership m hrecords =>
    exact ⟨m, hrecords, orgPk_injective (Option.some.inj (hrecords.gsi1pk.symm.trans hgsi))⟩
  | org org hdescribes => exact absurd (hdescribes.gsi1pk.symm.trans hgsi) (by simp)
  | user _ _ _ hnone => exact absurd (hnone.symm.trans hgsi) (by simp)

theorem MemberItem.Records.gsi1 {item : MemberItem} {m : Membership} (h : item.Records m)
    (hmem : item ∈ items) : item ∈ gsi1 (orgPk m.orgId) items :=
  mem_gsi1.mpr ⟨hmem, h.gsi1pk, by rw [h.gsi1sk]; rfl⟩

theorem MemberItem.Records.member {item : MemberItem} {m : Membership} (h : item.Records m) :
    item.member m.orgId = .ok m :=
  bind_eq_ok.mpr ⟨_, MemberItem.get_of_get? h.gsi1sk,
    bind_eq_ok.mpr ⟨_, splitAfter_userPk m.userId, h.membership⟩⟩

/-- A function that reads each of a list of items. -/
theorem mapM_eq_map {α β : Type} {f : α → Except PyErr β} {g : α → β} {l : List α}
    (h : ∀ a ∈ l, f a = .ok (g a)) : l.mapM f = .ok (l.map g) := by
  induction l with
  | nil => rfl
  | cons a l ih =>
    rw [List.mapM_cons, h a List.mem_cons_self, ih fun a' ha' => h a' (List.mem_cons_of_mem a ha')]
    rfl

/-- A listing is sorted by role, has each user once, and has every member that `get_membership` finds,
with the same role and date, and no others. -/
structure MembersAgree (size : MemberItem → ℕ) (w : MemberWorld) (orgId : String)
    (members : List Membership) : Prop where
  sorted : members.Pairwise fun m n => roleOrder m.role ≤ roleOrder n.role
  nodup : (members.map Membership.userId).Nodup
  sound : ∀ m ∈ members, m.orgId = orgId ∧ Says size w (getMembership m.userId orgId) (some m)
  complete : membersBeyond size w.items orgId = [] → ∀ userId m,
    Says size w (getMembership userId orgId) (some m) → m ∈ members

/-- The keys of a listing, sorted and cut, are keys of the table. -/
theorem Sound.nodup_keys (h : Sound items) {le : MemberItem → MemberItem → Bool} {p : MemberItem → Bool} :
    ((QueryPage.page size 1048576 ((items.filter p).mergeSort le)).map
      fun item => (item.pk, item.sk)).Nodup := by
  refine List.Nodup.sublist ((List.take_sublist _ _).map _) ?_
  refine (((List.mergeSort_perm _ _).map _).nodup_iff).mpr ?_
  exact h.keys.sublist (List.filter_sublist.map _)

/-- **A membership is listed exactly where it is read.** -/
theorem Sound.listOrgMembers_agrees (h : Sound w.items) (orgId : String) :
    ∃ members, Says size w (listOrgMembers orgId) members ∧ MembersAgree size w orgId members := by
  have hnonempty : Nonempty Membership := ⟨⟨"", "", .guest, ⟨⟨1, 1, 1⟩, 0, 0, 0, 0⟩⟩⟩
  have hpage : ∀ item ∈ memberPage size w.items orgId,
      ∃ m : Membership, item.Records m ∧ m.orgId = orgId := fun item hitem =>
    h.records_of_gsi1 (List.mem_of_mem_take hitem)
  choose! read hread using hpage
  have hperm := List.mergeSort_perm ((memberPage size w.items orgId).map read)
    fun m n => decide (roleOrder m.role ≤ roleOrder n.role)
  refine ⟨((memberPage size w.items orgId).map read).mergeSort
    fun m n => roleOrder m.role ≤ roleOrder n.role, ?_, ?_, ?_, ?_, ?_⟩
  · refine says_read (c := .queryGsi1 (orgPk orgId)) (r := memberPage size w.items orgId)
      (fun x hx => ?_) ?_
    · rw [MemberCall.answer, hx]
      rfl
    rw [mapM_eq_map (g := read) fun item hitem => ?_]
    · exact says_ret _
    · obtain ⟨hrecords, horg⟩ := hread item hitem
      exact horg ▸ hrecords.member
  · refine (@List.pairwise_mergeSort _ (fun m n : Membership =>
      decide (roleOrder m.role ≤ roleOrder n.role)) (fun a b c hab hbc => ?_) (fun a b => ?_)
        _).imp fun hle => by simpa using hle
    · simp only [decide_eq_true_eq] at hab hbc ⊢
      exact hab.trans hbc
    · simpa using Nat.le_total _ _
  · refine ((hperm.map Membership.userId).nodup_iff).mpr ?_
    have hkeys : ((memberPage size w.items orgId).map fun item => (item.pk, item.sk)) =
        (((memberPage size w.items orgId).map read).map Membership.userId).map
          fun userId => (userPk userId, orgPk orgId) := by
      rw [List.map_map, List.map_map]
      refine List.map_congr_left fun item hitem => ?_
      obtain ⟨hrecords, horg⟩ := hread item hitem
      exact Prod.ext hrecords.pk (hrecords.sk.trans (congrArg orgPk horg))
    have hnodup : ((memberPage size w.items orgId).map fun item => (item.pk, item.sk)).Nodup :=
      h.nodup_keys
    exact (hkeys ▸ hnodup).of_map _
  · intro m hm
    obtain ⟨item, hitem, rfl⟩ := List.mem_map.mp (hperm.mem_iff.mp hm)
    obtain ⟨hrecords, horg⟩ := hread item hitem
    refine ⟨horg, (says_getMembership_iff h).mpr (h.membershipAt_eq_some_iff.mpr ?_)⟩
    exact ⟨item, (mem_gsi1.mp (List.mem_of_mem_take hitem)).1, hrecords, rfl, horg⟩
  · intro hrest userId m htold
    obtain ⟨item, hmem, hrecords, rfl, rfl⟩ :=
      h.membershipAt_eq_some_iff.mp ((says_getMembership_iff h).mp htold)
    have hitem : item ∈ memberPage size w.items m.orgId := by
      have hall := QueryPage.page_append_rest size 1048576 (gsi1 (orgPk m.orgId) w.items)
      rw [show QueryPage.rest size 1048576 (gsi1 (orgPk m.orgId) w.items) = [] from hrest,
        List.append_nil] at hall
      rw [memberPage, hall]
      exact hrecords.gsi1 hmem
    obtain ⟨hread', _⟩ := hread item hitem
    have hsame : read item = m := by
      have huser := userPk_injective (hread'.pk.symm.trans hrecords.pk)
      have horg := orgPk_injective (hread'.sk.symm.trans hrecords.sk)
      have hm := hread'.membership
      rw [huser, horg, hrecords.membership] at hm
      exact (Except.ok.inj hm).symm
    exact hperm.mem_iff.mpr (List.mem_map.mpr ⟨item, hitem, hsame⟩)

end Members

/-! ### The orgs of a user -/

section Orgs

variable {size : MemberItem → ℕ} {items : List MemberItem} {w : MemberWorld} {orgId userId : String}

/-- The items that a Query on the table reads. -/
def orgPage (size : MemberItem → ℕ) (items : List MemberItem) (userId : String) : List MemberItem :=
  QueryPage.page size 1048576 (partition (userPk userId) "ORG#" items)

/-- The items of memberships that are beyond the page. -/
def orgsBeyond (size : MemberItem → ℕ) (items : List MemberItem) (userId : String) : List MemberItem :=
  QueryPage.rest size 1048576 (partition (userPk userId) "ORG#" items)

theorem mem_partition {item : MemberItem} {pk skPrefix : String} :
    item ∈ partition pk skPrefix items ↔
      item ∈ items ∧ item.pk = pk ∧ skPrefix.toList <+: item.sk.toList := by
  rw [partition, List.mem_mergeSort, List.mem_filter, Bool.and_eq_true, beq_iff_eq,
    List.isPrefixOf_iff_prefix]

/-- An item under a user's key, with the prefix of an org, is that of a membership. -/
theorem Sound.records_of_partition (h : Sound items) {item : MemberItem}
    (hitem : item ∈ partition (userPk userId) "ORG#" items) :
    ∃ m : Membership, item.Records m ∧ m.userId = userId := by
  obtain ⟨hmem, hpk, hprefix⟩ := mem_partition.mp hitem
  have hnot : ¬"ORG#".toList <+: "METADATA".toList := by decide
  cases h.written item hmem with
  | membership m hrecords =>
    exact ⟨m, hrecords, userPk_injective (hrecords.pk.symm.trans hpk)⟩
  | org org hdescribes => exact absurd (hdescribes.sk ▸ hprefix) hnot
  | user _ _ hsk => exact absurd (hsk ▸ hprefix) hnot

theorem MemberItem.Records.partition {item : MemberItem} {m : Membership} (h : item.Records m)
    (hmem : item ∈ items) : item ∈ partition (userPk m.userId) "ORG#" items := by
  refine mem_partition.mpr ⟨hmem, h.pk, ?_⟩
  rw [h.sk, orgPk, String.toList_append]
  exact List.prefix_append _ _

/-- A listing has each org once, has every org that the table holds and in which `get_membership` finds
the user, and no others. -/
structure OrgsAgree (size : MemberItem → ℕ) (w : MemberWorld) (userId : String) (orgs : List Org) :
    Prop where
  nodup : (orgs.map Org.orgId).Nodup
  sound : ∀ org ∈ orgs, Says size w (getOrg org.orgId) (some org) ∧
    ∃ m, Says size w (getMembership userId org.orgId) (some m)
  complete : orgsBeyond size w.items userId = [] → ∀ org,
    Says size w (getOrg org.orgId) (some org) →
    (∃ m, Says size w (getMembership userId org.orgId) (some m)) → org ∈ orgs

/-- The loop that reads the orgs. -/
theorem says_getOrgs (h : Sound w.items) (orgIds : List String) (orgs : List Org) :
    Says size w (Proc.forEach orgIds orgs fun orgs orgId => do
      match ← getOrg orgId with
      | none => return orgs
      | some org => return orgs ++ [org]) (orgs ++ orgIds.filterMap (orgAt w.items)) := by
  induction orgIds generalizing orgs with
  | nil =>
    rw [List.filterMap_nil, List.append_nil]
    exact says_ret orgs
  | cons orgId orgIds ih =>
    rw [List.filterMap_cons]
    refine Says.bind (a := orgs ++ (orgAt w.items orgId).toList)
      (Says.bind (says_getOrg h orgId) ?_) ?_
    · cases orgAt w.items orgId with
      | none => simpa using says_ret orgs
      | some org => exact says_ret (orgs ++ [org])
    · cases orgAt w.items orgId with
      | none => simpa using ih orgs
      | some org => simpa using ih (orgs ++ [org])

/-- **A user's orgs are those in which the user is read.** -/
theorem Sound.listUserOrgs_agrees (h : Sound w.items) (userId : String) :
    ∃ orgs, Says size w (listUserOrgs userId) orgs ∧ OrgsAgree size w userId orgs := by
  have hnonempty : Nonempty Membership := ⟨⟨"", "", .guest, ⟨⟨1, 1, 1⟩, 0, 0, 0, 0⟩⟩⟩
  have hpage : ∀ item ∈ orgPage size w.items userId,
      ∃ m : Membership, item.Records m ∧ m.userId = userId := fun item hitem =>
    h.records_of_partition (List.mem_of_mem_take hitem)
  choose! read hread using hpage
  set orgIds := (orgPage size w.items userId).map fun item => (read item).orgId with horgIds
  have htold : Says size w (listUserOrgs userId) (orgIds.filterMap (orgAt w.items)) := by
    refine says_read (c := .query (userPk userId) "ORG#") (r := orgPage size w.items userId)
      (fun x hx => ?_) ?_
    · rw [MemberCall.answer, hx]
      rfl
    rw [mapM_eq_map (g := fun item => (read item).orgId) fun item hitem => ?_]
    · exact says_getOrgs h orgIds []
    · rw [(hread item hitem).1.sk]
      exact splitAfter_orgPk _
  have hmember : ∀ orgId ∈ orgIds, ∃ m, Says size w (getMembership userId orgId) (some m) := by
    intro orgId horgId
    obtain ⟨item, hitem, rfl⟩ := List.mem_map.mp horgId
    obtain ⟨hrecords, huser⟩ := hread item hitem
    refine ⟨read item, (says_getMembership_iff h).mpr (h.membershipAt_eq_some_iff.mpr ?_)⟩
    exact ⟨item, (mem_partition.mp (List.mem_of_mem_take hitem)).1, hrecords, huser, rfl⟩
  refine ⟨_, htold, ?_, ?_, ?_⟩
  · have hids : (orgIds.filterMap (orgAt w.items)).map Org.orgId =
        orgIds.filter fun orgId => (orgAt w.items orgId).isSome := by
      rw [← List.filterMap_eq_filter, List.map_filterMap]
      refine List.filterMap_congr fun orgId _ => ?_
      cases horg : orgAt w.items orgId with
      | none => simp [Option.guard, horg]
      | some org => simp [Option.guard, horg, orgAt_orgId h horg]
    have hkeys : ((orgPage size w.items userId).map fun item => (item.pk, item.sk)) =
        orgIds.map fun orgId => (userPk userId, orgPk orgId) := by
      rw [horgIds, List.map_map]
      refine List.map_congr_left fun item hitem => ?_
      obtain ⟨hrecords, huser⟩ := hread item hitem
      exact Prod.ext (hrecords.pk.trans (congrArg userPk huser)) hrecords.sk
    have hnodup : ((orgPage size w.items userId).map fun item => (item.pk, item.sk)).Nodup :=
      h.nodup_keys
    rw [hids]
    exact ((hkeys ▸ hnodup).of_map _).filter _
  · intro org horg
    obtain ⟨orgId, horgId, hat⟩ := List.mem_filterMap.mp horg
    obtain rfl := orgAt_orgId h hat
    exact ⟨hat ▸ says_getOrg h org.orgId, hmember _ horgId⟩
  · rintro hrest org horg ⟨m, hm⟩
    obtain ⟨item, hmem, hrecords, rfl, heq⟩ :=
      h.membershipAt_eq_some_iff.mp ((says_getMembership_iff h).mp hm)
    have hitem : item ∈ orgPage size w.items m.userId := by
      have hall := QueryPage.page_append_rest size 1048576 (partition (userPk m.userId) "ORG#" w.items)
      rw [show QueryPage.rest size 1048576 (partition (userPk m.userId) "ORG#" w.items) = [] from hrest,
        List.append_nil] at hall
      rw [orgPage, hall]
      exact hrecords.partition hmem
    refine List.mem_filterMap.mpr ⟨org.orgId, List.mem_map.mpr ⟨item, hitem, ?_⟩,
      (says_getOrg h org.orgId).unique horg⟩
    exact (orgPk_injective ((hread item hitem).1.sk.symm.trans hrecords.sk)).trans heq

end Orgs

/-! ### What a call says and does -/

/-- The call goes through, at a time that exists, and an event is taken. -/
def GoesWell (x : Choice) : Prop := x.fate = .ok ∧ x.rejected = none ∧ OnTime x

/-- Nothing is stopped, and every call goes well. -/
def AllGoesWell (o : Oracle Choice) : Prop := ∀ n, ∃ x, o n = some x ∧ GoesWell x

/-- A program on the map that runs while nobody else changes a membership, and every call goes well. -/
def well : Contract AdminCall AdminCall.Resp PyErr Choice World where
  answer := AdminCall.answer
  rely v v' := v'.memberships = v.memberships
  admits _ x _ := GoesWell x
  guar _ _ _ _ := True
  rely_refl _ := rfl
  rely_trans h h' := h'.trans h

section Writes

variable {v : World}

theorem wp_logAudit (orgId actorId action resourceType resourceId : String) (metadata : Json) (v : World) :
    well.wp (ofCore (logAudit orgId actorId action resourceType resourceId metadata)) v
      fun r v' => (∃ event, r = .ok event) ∧ v'.memberships = v.memberships := by
  refine wp_comap (wp_bind (wp_perform fun v₁ h₁ x _ => ⟨trivial, ?_⟩))
  refine wp_bind (wp_perform fun v₂ h₂ y _ => ⟨trivial, ?_⟩)
  refine wp_bind (wp_handle (wp_perform fun v₃ h₃ z hz => ⟨trivial, ?_⟩))
  simp only [comap, well, AdminCall.answer, Call.answer, hz.1]
  exact ⟨⟨_, rfl⟩, h₃.trans (h₂.trans h₁)⟩

theorem wp_publishEvent (orgId eventType : String) (data : List (String × Json)) (source : String)
    (v : World) : well.wp (ofCore (publishEvent orgId eventType data source)) v
      fun r v' => (∃ id, r = .ok id) ∧ v'.memberships = v.memberships := by
  refine wp_comap (wp_bind (wp_handle (wp_perform fun v₁ h₁ x hx => ⟨trivial, ?_⟩)))
  simp only [comap, well, AdminCall.answer, Call.answer, hx.1, hx.2.1]
  exact ⟨⟨_, rfl⟩, h₁⟩

/-- A conditional write whose condition does not hold. -/
theorem wp_refused {c : AdminCall} (failed : PyErr) (pfx : String)
    (h : ∀ v' x, v'.memberships = v.memberships → x.fate = .ok →
      c.answer x v' = (.error conditionFailed, v')) :
    well.wp (conditionalWrite c failed pfx) v fun r v' =>
      r = .error failed ∧ v'.memberships = v.memberships := by
  refine wp_handle (wp_perform fun v' hv' x hx => ⟨trivial, ?_⟩)
  have hanswer : well.answer c x v' = (.error conditionFailed, v') := h v' x hv' hx.1
  rw [hanswer]
  exact ⟨rfl, hv'⟩

/-- A conditional write whose condition holds. -/
theorem wp_made (c : AdminCall) (a : c.Resp) (userId orgId : String) (m : Option Membership)
    (failed : PyErr) (pfx : String) (h : ∀ v' x, v'.memberships = v.memberships → x.fate = .ok →
      c.answer x v' = (.ok a, v'.withMembership userId orgId m)) :
    well.wp (conditionalWrite c failed pfx) v fun r v' =>
      r = .ok a ∧ v'.memberships = (v.withMembership userId orgId m).memberships := by
  refine wp_handle (wp_perform fun v' hv' x hx => ⟨trivial, ?_⟩)
  have hanswer : well.answer c x v' = (.ok a, v'.withMembership userId orgId m) := h v' x hv' hx.1
  have hmap : v'.memberships = v.memberships := hv'
  rw [hanswer]
  refine ⟨rfl, ?_⟩
  rw [World.withMembership, World.withMembership, hmap]

/-- An audit event and an event on the bus, and then the end. -/
theorem wp_reported {α : Type} {p : Prog AuditEvent} {q : Prog String} (a : α) (v : World)
    (hp : ∀ v, well.wp (ofCore p) v fun r v' => (∃ event, r = .ok event) ∧ v'.memberships = v.memberships)
    (hq : ∀ v, well.wp (ofCore q) v fun r v' => (∃ id, r = .ok id) ∧ v'.memberships = v.memberships) :
    well.wp ((ofCore p).bind fun _ => (ofCore q).bind fun _ => .ret a) v fun r v' =>
      r = .ok a ∧ v'.memberships = v.memberships := by
  refine wp_bind (wp_mono (fun r v₁ hr => ?_) (hp v))
  obtain ⟨⟨event, rfl⟩, h₁⟩ := hr
  refine wp_bind (wp_mono (fun r v₂ hr => ?_) (hq v₁))
  obtain ⟨⟨id, rfl⟩, h₂⟩ := hr
  exact ⟨rfl, h₂.trans h₁⟩

theorem wp_addMember (orgId userId : String) (role : Role) (inviterId : String) (v : World) :
    well.wp (Core.addMember orgId userId role inviterId) v fun r v' =>
      (v.memberships userId orgId).isSome ∧ r = .error ⟨.exception "AlreadyExistsError",
          "User " ++ userId ++ " already in org " ++ orgId⟩ ∧ v'.memberships = v.memberships ∨
      v.memberships userId orgId = none ∧ ∃ now, r = .ok ⟨userId, orgId, role, now⟩ ∧ v'.memberships =
        (v.withMembership userId orgId (some ⟨userId, orgId, role, now⟩)).memberships := by
  refine wp_bind (wp_comap (wp_perform fun v₁ h₁ x _ => ⟨trivial, ?_⟩))
  have hmap₁ : v₁.memberships = v.memberships := h₁
  show well.wp (Proc.bind (conditionalWrite (.putMembershipItem ⟨userId, orgId, role, x.now⟩) _ _) _)
    v₁ _
  cases hm : v.memberships userId orgId with
  | some m =>
    refine wp_bind (wp_mono (fun r v' hr => ?_) (wp_refused _ _ fun v' x hv' hfate => ?_))
    · obtain ⟨rfl, hv'⟩ := hr
      exact .inl ⟨rfl, rfl, hv'.trans hmap₁⟩
    · rw [AdminCall.answer, hv'.trans hmap₁, hm, hfate]
      rfl
  | none =>
    refine wp_bind (wp_mono (fun r v' hr => ?_) (wp_made
      (.putMembershipItem ⟨userId, orgId, role, x.now⟩) () userId orgId
      (some ⟨userId, orgId, role, x.now⟩) _ _ fun v' x hv' hfate => ?_))
    · obtain ⟨rfl, hv'⟩ := hr
      refine wp_mono (fun r v'' hr => ?_) (wp_reported _ v' (wp_logAudit _ _ _ _ _ _)
        (wp_publishEvent _ _ _ _))
      obtain ⟨rfl, hv''⟩ := hr
      refine .inr ⟨rfl, x.now, rfl, ?_⟩
      rw [hv'', hv', World.withMembership, World.withMembership, hmap₁]
    · rw [AdminCall.answer, hv'.trans hmap₁, hm, hfate]
      rfl

theorem wp_changeRole (orgId userId : String) (newRole : Role) (changerId : String) (v : World) :
    well.wp (Core.changeRole orgId userId newRole changerId) v fun r v' =>
      v.memberships userId orgId = none ∧ r = .error ⟨.notFoundError,
          "No membership for user " ++ userId ++ " in org " ++ orgId⟩ ∧ v'.memberships = v.memberships ∨
      ∃ m, v.memberships userId orgId = some m ∧ r = .ok ⟨userId, orgId, newRole, m.joinedAt⟩ ∧
        v'.memberships =
          (v.withMembership userId orgId (some { m with role := newRole })).memberships := by
  cases hm : v.memberships userId orgId with
  | none =>
    refine wp_bind (wp_mono (fun r v' hr => ?_) (wp_refused _ _ fun v' x hv' hfate => ?_))
    · obtain ⟨rfl, hv'⟩ := hr
      exact .inl ⟨rfl, rfl, hv'⟩
    · rw [AdminCall.answer, hv', hm, hfate]
      rfl
  | some m =>
    refine wp_bind (wp_mono (fun r v' hr => ?_) (wp_made
      (.updateRole userId orgId newRole) m userId orgId (some { m with role := newRole }) _ _ fun v' x hv' hfate => ?_))
    · obtain ⟨rfl, hv'⟩ := hr
      refine wp_mono (fun r v'' hr => ?_) (wp_reported _ v' (wp_logAudit _ _ _ _ _ _)
        (wp_publishEvent _ _ _ _))
      obtain ⟨rfl, hv''⟩ := hr
      exact .inr ⟨m, rfl, rfl, hv''.trans hv'⟩
    · rw [AdminCall.answer, hv', hm, hfate]
      rfl

theorem wp_removeMember (orgId userId removerId : String) (v : World) :
    well.wp (Core.removeMember orgId userId removerId) v fun r v' =>
      v.memberships userId orgId = none ∧ r = .error ⟨.notFoundError,
          "No membership for user " ++ userId ++ " in org " ++ orgId⟩ ∧ v'.memberships = v.memberships ∨
      (v.memberships userId orgId).isSome ∧ r = .ok () ∧
        v'.memberships = (v.withMembership userId orgId none).memberships := by
  cases hm : v.memberships userId orgId with
  | none =>
    refine wp_bind (wp_mono (fun r v' hr => ?_) (wp_refused _ _ fun v' x hv' hfate => ?_))
    · obtain ⟨rfl, hv'⟩ := hr
      exact .inl ⟨rfl, rfl, hv'⟩
    · rw [AdminCall.answer, hv', hm, hfate]
      rfl
  | some m =>
    refine wp_bind (wp_mono (fun r v' hr => ?_) (wp_made
      (.deleteMembershipItem userId orgId) () userId orgId none _ _
      fun v' x hv' hfate => ?_))
    · obtain ⟨rfl, hv'⟩ := hr
      refine wp_mono (fun r v'' hr => ?_) (wp_reported _ v' (wp_logAudit _ _ _ _ _ _)
        (wp_publishEvent _ _ _ _))
      obtain ⟨rfl, hv''⟩ := hr
      exact .inr ⟨rfl, rfl, hv''.trans hv'⟩
    · rw [AdminCall.answer, hv', hm, hfate]
      rfl

end Writes

/-! ### The table after a call -/

/-- `get_membership` says of every user in every org what it said before. -/
def SaysTheSame (size : MemberItem → ℕ) (w w' : MemberWorld) : Prop :=
  ∀ userId orgId r, Says size w' (getMembership userId orgId) r ↔ Says size w (getMembership userId orgId) r

/-- `get_membership` says `m` of one user in one org, and of the others what it said before. -/
structure NowSays (size : MemberItem → ℕ) (w w' : MemberWorld) (userId orgId : String)
    (m : Option Membership) : Prop where
  there : Says size w' (getMembership userId orgId) m
  elsewhere : ∀ userId' orgId', ¬(userId' = userId ∧ orgId' = orgId) → ∀ r,
    Says size w' (getMembership userId' orgId') r ↔ Says size w (getMembership userId' orgId') r

/-- A function that writes raises where its condition on the membership does not hold, and otherwise
changes that membership and no other. -/
structure WritesAgree (size : MemberItem → ℕ) (w : MemberWorld) (o : Oracle Choice) (orgId userId : String) :
    Prop where
  add : ∀ role inviterId, ∃ r w',
    exec (MemberCall.answer size) (addMember orgId userId role inviterId) o w = (some r, w') ∧
      ((∃ m, Says size w (getMembership userId orgId) (some m)) ∧ r = .error
          ⟨.exception "AlreadyExistsError", "User " ++ userId ++ " already in org " ++ orgId⟩ ∧
          SaysTheSame size w w' ∨
        Says size w (getMembership userId orgId) none ∧ ∃ now, r = .ok ⟨userId, orgId, role, now⟩ ∧
          NowSays size w w' userId orgId (some ⟨userId, orgId, role, now⟩))
  change : ∀ newRole changerId, ∃ r w',
    exec (MemberCall.answer size) (changeRole orgId userId newRole changerId) o w = (some r, w') ∧
      (Says size w (getMembership userId orgId) none ∧ r = .error ⟨.notFoundError,
          "No membership for user " ++ userId ++ " in org " ++ orgId⟩ ∧ SaysTheSame size w w' ∨
        ∃ m, Says size w (getMembership userId orgId) (some m) ∧ r = .ok { m with role := newRole } ∧
          NowSays size w w' userId orgId (some { m with role := newRole }))
  remove : ∀ removerId, ∃ r w',
    exec (MemberCall.answer size) (removeMember orgId userId removerId) o w = (some r, w') ∧
      (Says size w (getMembership userId orgId) none ∧ r = .error ⟨.notFoundError,
          "No membership for user " ++ userId ++ " in org " ++ orgId⟩ ∧ SaysTheSame size w w' ∨
        (∃ m, Says size w (getMembership userId orgId) (some m)) ∧ r = .ok () ∧
          NowSays size w w' userId orgId none)

section Main

variable {size : MemberItem → ℕ} {lower : String → String} {w w' : MemberWorld} {orgId userId : String}

theorem saysTheSame_of_asMap (h : Sound w.items) (h' : Sound w'.items)
    (hmap : w'.asMap.memberships = w.asMap.memberships) : SaysTheSame size w w' := by
  intro userId orgId r
  have hat : membershipAt w'.items userId orgId = membershipAt w.items userId orgId :=
    congrFun (congrFun hmap userId) orgId
  rw [says_getMembership_iff h, says_getMembership_iff h', hat]

theorem nowSays_of_asMap {m : Option Membership} (h : Sound w.items) (h' : Sound w'.items)
    (hmap : w'.asMap.memberships = (w.asMap.withMembership userId orgId m).memberships) :
    NowSays size w w' userId orgId m := by
  have hat : membershipAt w'.items = Function.update (membershipAt w.items) userId
      (Function.update (membershipAt w.items userId) orgId m) := hmap
  refine ⟨(says_getMembership_iff h').mpr ?_, fun userId' orgId' hne r => ?_⟩
  · rw [hat, Function.update_self, Function.update_self]
  · rw [says_getMembership_iff h, says_getMembership_iff h', hat]
    by_cases huser : userId' = userId
    · subst huser
      rw [Function.update_self, Function.update_of_ne fun horg => hne ⟨rfl, horg⟩]
    · rw [Function.update_of_ne huser]

/-- A program on the table ends as the program in step with it on the map. -/
theorem exec_of_steps (size : MemberItem → ℕ) {α : Type} {p : MemberProg α} {q : AdminProg α}
    {Q : Except PyErr α → World → Prop} (hsteps : Steps size Eq p q w w.asMap)
    (hq : well.wp q w.asMap Q) {o : Oracle Choice} (ho : AllGoesWell o) :
    ∃ r w', exec (MemberCall.answer size) p o w = (some r, w') ∧ Sound w'.items ∧ Q r w'.asMap := by
  have hwell : ∀ n x, o n = some x → GoesWell x := by
    intro n x hx
    obtain ⟨y, hy, hwell⟩ := ho n
    cases hy.symm.trans hx
    exact hwell
  have hsome : ∀ n, (o n).isSome := by
    intro n
    obtain ⟨x, hx, _⟩ := ho n
    rw [hx]
    rfl
  obtain ⟨r, v', hexec⟩ : ∃ r v', exec AdminCall.answer q o w.asMap = (some r, v') :=
    exists_exec_eq_some q hsome w.asMap
  have hQ : Q r v' :=
    exec_post (K := well) hq (along_of_forall q (fun n x hx _ _ => hwell n x hx) _) hexec
  have htime : KeepsTime o := fun n x hx => (hwell n x hx).2.2
  have heq := hsteps.exec_eq htime
  obtain ⟨hsound, hmap⟩ := hsteps.exec_rel htime
  rw [hexec] at heq hmap
  obtain rfl : v' = (exec (MemberCall.answer size) p o w).2.asMap := hmap
  exact ⟨r, _, Prod.ext heq rfl, hsound, hQ⟩

theorem Sound.writesAgree (h : Sound w.items) {o : Oracle Choice} (ho : AllGoesWell o)
    (orgId userId : String) : WritesAgree size w o orgId userId := by
  have hmap : w.asMap.memberships userId orgId = membershipAt w.items userId orgId := rfl
  have htold : ∀ {m}, membershipAt w.items userId orgId = m →
      Says size w (getMembership userId orgId) m := fun hm => (says_getMembership_iff h).mpr hm
  refine ⟨fun role inviterId => ?_, fun newRole changerId => ?_, fun removerId => ?_⟩
  · obtain ⟨r, w', hexec, h', hQ⟩ := exec_of_steps size
      (steps_addMember orgId userId role inviterId ⟨h, rfl⟩) (wp_addMember _ _ _ _ _) ho
    refine ⟨r, w', hexec, ?_⟩
    rw [hmap] at hQ
    rcases hQ with ⟨hsome, rfl, hsame⟩ | ⟨hnone, now, rfl, hafter⟩
    · obtain ⟨m, hm⟩ := Option.isSome_iff_exists.mp hsome
      exact .inl ⟨⟨m, htold hm⟩, rfl, saysTheSame_of_asMap h h' hsame⟩
    · exact .inr ⟨htold hnone, now, rfl, nowSays_of_asMap h h' hafter⟩
  · obtain ⟨r, w', hexec, h', hQ⟩ := exec_of_steps size
      (steps_changeRole orgId userId newRole changerId ⟨h, rfl⟩) (wp_changeRole _ _ _ _ _) ho
    refine ⟨r, w', hexec, ?_⟩
    rw [hmap] at hQ
    rcases hQ with ⟨hnone, rfl, hsame⟩ | ⟨m, hm, rfl, hafter⟩
    · exact .inl ⟨htold hnone, rfl, saysTheSame_of_asMap h h' hsame⟩
    · obtain ⟨_, _, _, rfl, rfl⟩ := h.membershipAt_eq_some_iff.mp hm
      exact .inr ⟨m, htold hm, rfl, nowSays_of_asMap h h' hafter⟩
  · obtain ⟨r, w', hexec, h', hQ⟩ := exec_of_steps size
      (steps_removeMember orgId userId removerId ⟨h, rfl⟩) (wp_removeMember _ _ _ _) ho
    refine ⟨r, w', hexec, ?_⟩
    rw [hmap] at hQ
    rcases hQ with ⟨hnone, rfl, hsame⟩ | ⟨hsome, rfl, hafter⟩
    · exact .inl ⟨htold hnone, rfl, saysTheSame_of_asMap h h' hsame⟩
    · obtain ⟨m, hm⟩ := Option.isSome_iff_exists.mp hsome
      exact .inr ⟨⟨m, htold hm⟩, rfl, nowSays_of_asMap h h' hafter⟩

/-- **The views agree.** In every state that calls have led to, whichever of them failed or were stopped,
the members of an org are listed as they are read, and the orgs of a user too. -/
theorem views_agree (h : Reached size lower w) :
    (∀ orgId, ∃ members, Says size w (listOrgMembers orgId) members ∧
      MembersAgree size w orgId members) ∧
    ∀ userId, ∃ orgs, Says size w (listUserOrgs userId) orgs ∧ OrgsAgree size w userId orgs :=
  ⟨h.sound.listOrgMembers_agrees, h.sound.listUserOrgs_agrees⟩

/-- **The writes.** In every such state, a member is added exactly where there is none, a role is changed
and a member removed exactly where there is one, and nothing else is touched. -/
theorem writes_agree (h : Reached size lower w) {o : Oracle Choice} (ho : AllGoesWell o)
    (orgId userId : String) : WritesAgree size w o orgId userId :=
  h.sound.writesAgree ho orgId userId

/-- A listing that has everything: each user once, owners first, and a user with a role exactly where
`get_membership` gives that user that role. -/
structure ListsMembers (size : MemberItem → ℕ) (w : MemberWorld) (orgId : String)
    (members : List Membership) : Prop where
  sorted : members.Pairwise fun m n => roleOrder m.role ≤ roleOrder n.role
  nodup : (members.map Membership.userId).Nodup
  mem_iff : ∀ userId role, (∃ m ∈ members, m.userId = userId ∧ m.role = role) ↔
    ∃ m, Says size w (getMembership userId orgId) (some m) ∧ m.role = role

theorem MembersAgree.listsMembers {members : List Membership} (hsound : Sound w.items)
    (hunpaged : membersBeyond size w.items orgId = []) (h : MembersAgree size w orgId members) :
    ListsMembers size w orgId members := by
  refine ⟨h.sorted, h.nodup, fun userId role => ⟨?_, ?_⟩⟩
  · rintro ⟨m, hm, rfl, hrole⟩
    exact ⟨m, (h.sound m hm).2, hrole⟩
  · rintro ⟨m, hsays, hrole⟩
    obtain ⟨_, _, _, huser, _⟩ :=
      hsound.membershipAt_eq_some_iff.mp ((says_getMembership_iff hsound).mp hsays)
    exact ⟨m, h.complete hunpaged userId m hsays, huser, hrole⟩

/-- **One membership, two views.** In every state that calls have led to, whichever of them failed or
were stopped, the members of an org whose items are all on the page are listed as they are read; and the
functions that write do so exactly where the membership is as they need it, and touch no other. -/
theorem membership_agrees (h : Reached size lower w) :
    (∀ orgId, membersBeyond size w.items orgId = [] →
      ∃ members, Says size w (listOrgMembers orgId) members ∧ ListsMembers size w orgId members) ∧
    ∀ o, AllGoesWell o → ∀ orgId userId, WritesAgree size w o orgId userId := by
  refine ⟨fun orgId hunpaged => ?_, fun o ho orgId userId => h.sound.writesAgree ho orgId userId⟩
  obtain ⟨members, hsays, hagree⟩ := h.sound.listOrgMembers_agrees orgId
  exact ⟨members, hsays, hagree.listsMembers h.sound hunpaged⟩

end Main

/-! ### Two members -/

/-- Ada has created an org. -/
def foundedTable : MemberWorld :=
  (exec (MemberCall.answer fun _ => 200) ((Change.createOrg "Acme" "ada").program fun s => s) fair
    emptyTable).2

theorem allGoesWell_fair : AllGoesWell fair := fun n => ⟨_, rfl, rfl, rfl, keepsTime_fair n _ rfl⟩

theorem reached_foundedTable : Reached (fun _ => 200) (fun s => s) foundedTable :=
  .step (.start (w := emptyTable) rfl) (.createOrg "Acme" "ada") keepsTime_fair

/-- The write of a membership is throttled. -/
def throttled : Oracle Choice := fun n => (fair n).map fun x =>
  if n = 1 then { x with fate := .lost ⟨.clientError "ThrottlingException", "throttled"⟩ } else x

theorem keepsTime_throttled : KeepsTime throttled := by
  intro n x hx
  obtain ⟨y, hy, rfl⟩ := Option.map_eq_some_iff.mp hx
  have htime := keepsTime_fair n y hy
  split
  · exact htime
  · exact htime

/-- Bob is to be added as a guest, which fails, and then is. -/
def joinedTable : MemberWorld :=
  let add : Change := .member (.add "cme-01234567" "bob" .guest "ada")
  (exec (MemberCall.answer fun _ => 200) (add.program fun s => s) fair
    (exec (MemberCall.answer fun _ => 200) (add.program fun s => s) throttled foundedTable).2).2

theorem reached_joinedTable : Reached (fun _ => 200) (fun s => s) joinedTable :=
  .step (.step reached_foundedTable (.member (.add "cme-01234567" "bob" .guest "ada"))
    keepsTime_throttled) (.member (.add "cme-01234567" "bob" .guest "ada")) keepsTime_fair

/-- The first attempt has failed, and both are members in the end. -/
example : (membershipAt (exec (MemberCall.answer fun _ => 200) (addMember "cme-01234567" "bob" .guest
      "ada") throttled foundedTable).2.items "bob" "cme-01234567").map Membership.role = none ∧
    (membershipAt joinedTable.items "ada" "cme-01234567").map Membership.role = some .owner ∧
    (membershipAt joinedTable.items "bob" "cme-01234567").map Membership.role = some .guest := by
  decide +kernel

/-- Two small items are on one page. -/
theorem membersBeyond_joinedTable :
    membersBeyond (fun _ => 200) joinedTable.items "cme-01234567" = [] := by
  refine QueryPage.rest_eq_nil ?_
  have hlength : (gsi1 (orgPk "cme-01234567") joinedTable.items).length ≤ joinedTable.items.length := by
    rw [gsi1, List.length_mergeSort]
    exact List.length_filter_le _ _
  rw [List.map_const', List.sum_replicate, smul_eq_mul]
  have hitems : joinedTable.items.length ≤ 10 := by decide +kernel
  omega

theorem views_agree_founded :
    (∀ orgId, ∃ members, Says (fun _ => 200) joinedTable (listOrgMembers orgId) members ∧
      MembersAgree (fun _ => 200) joinedTable orgId members) ∧
    ∀ userId, ∃ orgs, Says (fun _ => 200) joinedTable (listUserOrgs userId) orgs ∧
      OrgsAgree (fun _ => 200) joinedTable userId orgs :=
  views_agree reached_joinedTable

theorem writes_agree_founded :
    WritesAgree (fun _ => 200) joinedTable fair "cme-01234567" "bob" :=
  writes_agree reached_joinedTable allGoesWell_fair _ _

theorem membership_agrees_joined :
    (∃ members, Says (fun _ => 200) joinedTable (listOrgMembers "cme-01234567") members ∧
      ListsMembers (fun _ => 200) joinedTable "cme-01234567" members) ∧
    WritesAgree (fun _ => 200) joinedTable fair "cme-01234567" "carol" := by
  have hagrees := membership_agrees reached_joinedTable
  exact ⟨hagrees.1 _ membersBeyond_joinedTable, hagrees.2 fair allGoesWell_fair _ _⟩

end A2ZCore.Core.MembershipTable
