import A2ZCore.Core.MembershipTable
import A2ZCore.Lib.InStep
import Mathlib

/-!
# What the membership table says

The items of the table stand for a map: the membership of a user in an org. A membership is read by its
own key, and listed by the key of the index, and both give the map. The functions that write do to the
map what the conditions they send say, whichever calls fail and wherever they are stopped.

## Main definitions

* `Sound` — what `membership.py` puts into the table
* `membershipAt`, `MemberWorld.asMap` — the map
* `MemberOp`, `Reached` — the calls, and the states they lead to

## Main results

* `runMap_asMap` — on the table, a run replies and does what it does on the map
* `Reached.sound` — the table is sound in every state that calls have led to
-/

namespace A2ZCore.Core.MembershipTable

open Interaction Interaction.Proc Interaction.Contract

/-! ### Keys -/

theorem userPk_injective : Function.Injective userPk := by
  intro a b h
  have hchars := congrArg String.toList h
  rw [userPk, userPk, String.toList_append, String.toList_append] at hchars
  exact String.toList_inj.mp (List.append_cancel_left hchars)

theorem orgPk_injective : Function.Injective orgPk := by
  intro a b h
  have hchars := congrArg String.toList h
  rw [orgPk, orgPk, String.toList_append, String.toList_append] at hchars
  exact String.toList_inj.mp (List.append_cancel_left hchars)

theorem userPk_ne_orgPk (userId orgId : String) : userPk userId ≠ orgPk orgId := by
  intro h
  have hchars := congrArg String.toList h
  rw [userPk, orgPk, String.toList_append, String.toList_append] at hchars
  have hhead := congrArg List.head? hchars
  simp at hhead

theorem orgPk_ne_metadata (orgId : String) : orgPk orgId ≠ "METADATA" := by
  intro h
  have hchars := congrArg String.toList h
  rw [orgPk, String.toList_append] at hchars
  have hhead := congrArg List.head? hchars
  simp at hhead

/-- The id that was put behind a prefix is what follows it. -/
theorem splitAfter_append (sep s : String) (hsep : sep.toList ≠ []) :
    splitAfter sep (sep ++ s) = .ok s := by
  obtain ⟨c, cs, hcs⟩ := List.exists_cons_of_ne_nil hsep
  have hpre : sep.toList.isPrefixOf (c :: (cs ++ s.toList)) = true := by
    rw [List.isPrefixOf_iff_prefix, ← List.cons_append, ← hcs]
    exact List.prefix_append _ _
  have hdrop : (c :: (cs ++ s.toList)).drop sep.toList.length = s.toList := by
    rw [← List.cons_append, ← hcs, List.drop_left]
  rw [splitAfter, String.toList_append]
  nth_rewrite 2 [hcs]
  rw [List.cons_append, afterFirst, if_pos hpre, hdrop]
  exact congrArg Except.ok String.ofList_toList

theorem splitAfter_userPk (userId : String) : splitAfter "USER#" (userPk userId) = .ok userId :=
  splitAfter_append "USER#" userId (by decide)

theorem splitAfter_orgPk (orgId : String) : splitAfter "ORG#" (orgPk orgId) = .ok orgId :=
  splitAfter_append "ORG#" orgId (by decide)

@[simp] theorem roleOf_value (role : Role) : roleOf role.value = .ok role := by
  cases role <;> rfl

theorem timeOf_isoformat {t : DateTime} (h : t.Valid) : timeOf t.isoformat = .ok t := by
  rw [timeOf, ← h.isoformat_utc, fromisoformat_isoformat]
  rfl

/-! ### Items -/

section Items

variable {items : List MemberItem} {item : MemberItem} {pk sk : String}

theorem mem_withoutKey {other : MemberItem} :
    other ∈ withoutKey pk sk items ↔ other ∈ items ∧ ¬other.HasKey pk sk := by
  rw [withoutKey, List.mem_filter, decide_eq_true_eq]

theorem mem_putItem {other : MemberItem} :
    other ∈ putItem items item ↔ (other ∈ items ∧ ¬other.HasKey item.pk item.sk) ∨ other = item := by
  rw [putItem, List.mem_append, mem_withoutKey, List.mem_singleton]

theorem findItem_withoutKey (pk' sk' : String) :
    findItem pk sk (withoutKey pk' sk' items) =
      if pk = pk' ∧ sk = sk' then none else findItem pk sk items := by
  rw [findItem, withoutKey, List.find?_filter]
  split
  · next h =>
    obtain ⟨rfl, rfl⟩ := h
    exact List.find?_eq_none.mpr fun item _ => by simp
  · next h =>
    refine List.find?_congr fun item _ => ?_
    rw [Bool.eq_iff_iff]
    simp only [decide_eq_true_eq, and_iff_right_iff_imp]
    rintro ⟨rfl, rfl⟩ hkey
    exact h hkey

theorem findItem_putItem :
    findItem pk sk (putItem items item) =
      if pk = item.pk ∧ sk = item.sk then some item else findItem pk sk items := by
  have happend : findItem pk sk (putItem items item) =
      (findItem pk sk (withoutKey item.pk item.sk items)).or (findItem pk sk [item]) :=
    List.find?_append
  have hone : findItem pk sk [item] = if pk = item.pk ∧ sk = item.sk then some item else none := by
    rw [findItem, List.find?_singleton]
    refine if_congr ?_ rfl rfl
    rw [decide_eq_true_eq]
    exact and_congr eq_comm eq_comm
  rw [happend, findItem_withoutKey, hone]
  split <;> simp

end Items

/-! ### What is in the table -/

/-- The item is that of a membership. -/
structure MemberItem.Records (item : MemberItem) (m : Membership) : Prop where
  pk : item.pk = userPk m.userId
  sk : item.sk = orgPk m.orgId
  gsi1pk : item.get? "GSI1PK" = some (orgPk m.orgId)
  gsi1sk : item.get? "GSI1SK" = some (userPk m.userId)
  role : item.get? "role" = some m.role.value
  joinedAt : item.get? "joined_at" = some m.joinedAt.isoformat
  valid : m.joinedAt.Valid

/-- The item is that of an org. -/
structure MemberItem.Describes (item : MemberItem) (org : Org) : Prop where
  pk : item.pk = orgPk org.orgId
  sk : item.sk = "METADATA"
  gsi1pk : item.get? "GSI1PK" = none
  name : item.get? "name" = some org.name
  ownerId : item.get? "owner_id" = some org.ownerId
  createdAt : item.get? "created_at" = some org.createdAt.isoformat
  valid : org.createdAt.Valid

/-- The item is one that these functions write. -/
inductive MemberItem.Written (item : MemberItem) : Prop
  | membership (m : Membership) (h : item.Records m)
  | org (org : Org) (h : item.Describes org)
  | user (userId : String) (hpk : item.pk = userPk userId) (hsk : item.sk = "METADATA")
      (hgsi : item.get? "GSI1PK" = none)

/-- The table holds what these functions write, and no key twice. -/
structure Sound (items : List MemberItem) : Prop where
  written : ∀ item ∈ items, item.Written
  keys : (items.map fun item => (item.pk, item.sk)).Nodup

section Sound

variable {items : List MemberItem} {item : MemberItem}

theorem Sound.nil : Sound [] := ⟨by simp, List.nodup_nil⟩

theorem Sound.withoutKey (h : Sound items) (pk sk : String) : Sound (withoutKey pk sk items) where
  written item hitem := h.written item (mem_withoutKey.mp hitem).1
  keys := h.keys.sublist (List.filter_sublist.map _)

theorem Sound.putItem (h : Sound items) (hitem : item.Written) : Sound (putItem items item) where
  written other hother := by
    rcases mem_putItem.mp hother with ⟨hold, _⟩ | rfl
    · exact h.written other hold
    · exact hitem
  keys := by
    rw [MembershipTable.putItem, List.map_append, List.map_singleton]
    refine List.Nodup.append (h.withoutKey _ _).keys (List.nodup_singleton _) ?_
    rw [List.disjoint_singleton]
    intro hmem
    obtain ⟨other, hother, hkey⟩ := List.mem_map.mp hmem
    exact (mem_withoutKey.mp hother).2 ⟨congrArg Prod.fst hkey, congrArg Prod.snd hkey⟩

/-- An item is found under its key. -/
theorem Sound.findItem_eq_some_iff (h : Sound items) {pk sk : String} :
    findItem pk sk items = some item ↔ item ∈ items ∧ item.HasKey pk sk := by
  refine ⟨fun hfind => ⟨List.mem_of_find?_eq_some hfind, by
    simpa using List.find?_some hfind⟩, fun ⟨hmem, hkey⟩ => ?_⟩
  cases hfind : findItem pk sk items with
  | none => exact absurd hkey (by simpa using List.find?_eq_none.mp hfind item hmem)
  | some other =>
    have hother : other.HasKey pk sk := by simpa using List.find?_some hfind
    refine congrArg some (List.inj_on_of_nodup_map h.keys (List.mem_of_find?_eq_some hfind) hmem ?_)
    exact Prod.ext (hother.1.trans hkey.1.symm) (hother.2.trans hkey.2.symm)

theorem MemberItem.get_of_get? {name value : String} (h : item.get? name = some value) :
    item.get name = .ok value := by
  rw [MemberItem.get, h]

theorem MemberItem.Records.membership {m : Membership} (h : item.Records m) :
    item.membership m.userId m.orgId = .ok m :=
  bind_eq_ok.mpr ⟨_, MemberItem.get_of_get? h.role, bind_eq_ok.mpr ⟨_, roleOf_value m.role,
    bind_eq_ok.mpr ⟨_, MemberItem.get_of_get? h.joinedAt,
      bind_eq_ok.mpr ⟨_, timeOf_isoformat h.valid, rfl⟩⟩⟩⟩

theorem MemberItem.Describes.org {org : Org} (h : item.Describes org) :
    item.org org.orgId = .ok org :=
  bind_eq_ok.mpr ⟨_, MemberItem.get_of_get? h.name, bind_eq_ok.mpr ⟨_, MemberItem.get_of_get? h.ownerId,
    bind_eq_ok.mpr ⟨_, MemberItem.get_of_get? h.createdAt,
      bind_eq_ok.mpr ⟨_, timeOf_isoformat h.valid, rfl⟩⟩⟩⟩

/-- An item under the key of a membership is that of a membership. -/
theorem MemberItem.Written.records (h : item.Written) {userId orgId : String}
    (hkey : item.HasKey (userPk userId) (orgPk orgId)) :
    ∃ m : Membership, m.userId = userId ∧ m.orgId = orgId ∧ item.Records m := by
  cases h with
  | membership m h =>
    exact ⟨m, userPk_injective (h.pk.symm.trans hkey.1), orgPk_injective (h.sk.symm.trans hkey.2), h⟩
  | org org h => exact absurd (hkey.2.symm.trans h.sk) (orgPk_ne_metadata orgId)
  | user _ _ hsk => exact absurd (hkey.2.symm.trans hsk) (orgPk_ne_metadata orgId)

/-- An item under the key of an org is that of an org. -/
theorem MemberItem.Written.describes (h : item.Written) {orgId : String}
    (hkey : item.HasKey (orgPk orgId) "METADATA") :
    ∃ org : Org, org.orgId = orgId ∧ item.Describes org := by
  cases h with
  | membership m h => exact absurd (h.pk.symm.trans hkey.1) (userPk_ne_orgPk _ _)
  | org org h => exact ⟨org, orgPk_injective (h.pk.symm.trans hkey.1), h⟩
  | user userId hpk => exact absurd (hpk.symm.trans hkey.1) (userPk_ne_orgPk _ _)

theorem written_membershipItem {m : Membership} (h : m.joinedAt.Valid) :
    (membershipItem m.orgId m.userId m.role m.joinedAt).Records m :=
  ⟨rfl, rfl, rfl, rfl, rfl, rfl, h⟩

theorem written_orgItem (org : Org) (h : org.createdAt.Valid) :
    (orgItem org.orgId org.name org.ownerId org.createdAt).Describes org :=
  ⟨rfl, rfl, rfl, rfl, rfl, rfl, h⟩

theorem get?_set (name name' value : String) :
    (item.set name value).get? name' = if name' = name then some value else item.get? name' := by
  rw [MemberItem.get?, MemberItem.set, List.lookup_cons]
  by_cases hname : name' = name
  · simp [hname]
  · rw [if_neg hname, beq_false_of_ne hname, MemberItem.get?]
    show List.lookup name' _ = _
    induction item.attributes with
    | nil => rfl
    | cons kv rest ih =>
      obtain ⟨key, value'⟩ := kv
      rw [List.filter_cons]
      split
      · rw [List.lookup_cons, List.lookup_cons, ih]
      · next hkey =>
        have heq : key = name := by simpa using hkey
        rw [List.lookup_cons, beq_false_of_ne (heq ▸ hname), ih]

/-- An item whose role is set records the membership with that role. -/
theorem MemberItem.Records.setRole {m : Membership} (h : item.Records m) (role : Role) :
    (item.set "role" role.value).Records { m with role } where
  pk := h.pk
  sk := h.sk
  gsi1pk := by rw [get?_set, if_neg (by decide)]; exact h.gsi1pk
  gsi1sk := by rw [get?_set, if_neg (by decide)]; exact h.gsi1sk
  role := by rw [get?_set, if_pos rfl]
  joinedAt := by rw [get?_set, if_neg (by decide)]; exact h.joinedAt
  valid := h.valid

end Sound

/-! ### The map -/

/-- The membership that the table gives a user in an org. -/
def membershipAt (items : List MemberItem) (userId orgId : String) : Option Membership :=
  (findItem (userPk userId) (orgPk orgId) items).bind fun item => (item.membership userId orgId).toOption

/-- Core's state with the map for the table. -/
def MemberWorld.asMap (w : MemberWorld) : World := { w.core with memberships := membershipAt w.items }

section Map

variable {items : List MemberItem} {item : MemberItem}

theorem MemberItem.Records.toOption {m : Membership} (h : item.Records m) :
    (item.membership m.userId m.orgId).toOption = some m := by
  rw [h.membership]
  rfl

/-- The item under the key of a membership, where there is one, is the item of what the map gives. -/
theorem Sound.findItem_cases (h : Sound items) (userId orgId : String) :
    findItem (userPk userId) (orgPk orgId) items = none ∧ membershipAt items userId orgId = none ∨
      ∃ item m, findItem (userPk userId) (orgPk orgId) items = some item ∧ item.Records m ∧
        m.userId = userId ∧ m.orgId = orgId ∧ membershipAt items userId orgId = some m := by
  rw [membershipAt]
  cases hfind : findItem (userPk userId) (orgPk orgId) items with
  | none => exact .inl ⟨rfl, rfl⟩
  | some item =>
    obtain ⟨hmem, hkey⟩ := h.findItem_eq_some_iff.mp hfind
    obtain ⟨m, rfl, rfl, hrecords⟩ := (h.written item hmem).records hkey
    exact .inr ⟨item, m, rfl, hrecords, rfl, rfl, hrecords.toOption⟩

/-- The map gives the memberships that items record. -/
theorem Sound.membershipAt_eq_some_iff (h : Sound items) {userId orgId : String} {m : Membership} :
    membershipAt items userId orgId = some m ↔
      ∃ item ∈ items, item.Records m ∧ m.userId = userId ∧ m.orgId = orgId := by
  constructor
  · intro hmap
    rcases h.findItem_cases userId orgId with ⟨_, hnone⟩ | ⟨item, m', hfind, hrecords, huser, horg, hsome⟩
    · rw [hnone] at hmap
      cases hmap
    · obtain rfl := Option.some.inj (hsome.symm.trans hmap)
      exact ⟨item, (h.findItem_eq_some_iff.mp hfind).1, hrecords, huser, horg⟩
  · rintro ⟨item, hmem, hrecords, rfl, rfl⟩
    rw [membershipAt, h.findItem_eq_some_iff.mpr ⟨hmem, hrecords.pk, hrecords.sk⟩]
    exact hrecords.toOption

theorem membershipAt_putItem {m : Membership} (h : item.Records m) :
    membershipAt (putItem items item) = Function.update (membershipAt items) m.userId
      (Function.update (membershipAt items m.userId) m.orgId (some m)) := by
  funext userId orgId
  rw [membershipAt, findItem_putItem, h.pk, h.sk]
  by_cases huser : userId = m.userId
  · subst huser
    rw [Function.update_self]
    by_cases horg : orgId = m.orgId
    · subst horg
      rw [if_pos ⟨rfl, rfl⟩, Function.update_self]
      exact h.toOption
    · rw [if_neg fun hkey => horg (orgPk_injective hkey.2), Function.update_of_ne horg]
      rfl
  · rw [if_neg fun hkey => huser (userPk_injective hkey.1), Function.update_of_ne huser]
    rfl

theorem membershipAt_withoutKey (userId orgId : String) :
    membershipAt (withoutKey (userPk userId) (orgPk orgId) items) = Function.update (membershipAt items)
      userId (Function.update (membershipAt items userId) orgId none) := by
  funext userId' orgId'
  rw [membershipAt, findItem_withoutKey]
  by_cases huser : userId' = userId
  · subst huser
    rw [Function.update_self]
    by_cases horg : orgId' = orgId
    · subst horg
      rw [if_pos ⟨rfl, rfl⟩, Function.update_self]
      rfl
    · rw [if_neg fun hkey => horg (orgPk_injective hkey.2), Function.update_of_ne horg]
      rfl
  · rw [if_neg fun hkey => huser (userPk_injective hkey.1), Function.update_of_ne huser]
    rfl

/-- An item that is put, on the map. -/
theorem asMap_putItem {m : Membership} (h : item.Records m) (w : MemberWorld) :
    (w.withItems (putItem w.items item)).asMap = w.asMap.withMembership m.userId m.orgId (some m) :=
  congrArg (fun memberships => { w.core with memberships }) (membershipAt_putItem h)

/-- An item that is deleted, on the map. -/
theorem asMap_withoutKey (userId orgId : String) (w : MemberWorld) :
    (w.withItems (withoutKey (userPk userId) (orgPk orgId) w.items)).asMap =
      w.asMap.withMembership userId orgId none :=
  congrArg (fun memberships => { w.core with memberships }) (membershipAt_withoutKey userId orgId)

end Map

/-! ### The functions on the map -/

/-- The table holds what it should, and the map is the one that it stands for. -/
def Stands (w : MemberWorld) (v : World) : Prop := Sound w.items ∧ v = w.asMap

/-- The environment's clock shows a time that exists. -/
def OnTime (x : Choice) : Prop := x.now.Valid

/-- A call with which something is reported. -/
def Reporting : Call → Prop
  | .utcnow | .uuid4 | .putAuditItem _ | .putEvents _ => True
  | _ => False

theorem reports_reporting : Reports Reporting where
  utcnow := trivial
  uuid4 := trivial
  putAuditItem _ := trivial
  putEvents _ := trivial

section Steps

variable {size : MemberItem → ℕ} {w : MemberWorld} {v : World}

/-- A report is the same next to the table and next to the map. -/
theorem answer_asMap {c : Call} (hc : Reporting c) (x : Choice) (w : MemberWorld) :
    c.answer x w.asMap = ((c.answer x w.core).1, (⟨(c.answer x w.core).2, w.items⟩ : MemberWorld).asMap) := by
  cases c with
  | utcnow | uuid4 => rfl
  | putAuditItem event =>
    rw [Call.answer, Call.answer]
    cases x.fate <;> rfl
  | putEvents entry =>
    rw [Call.answer, Call.answer]
    cases x.rejected <;> cases x.fate <;> rfl
  | _ => exact hc.elim

/-- The two programs are in step. -/
abbrev Steps {α α' : Type} (size : MemberItem → ℕ) (T : α → α' → Prop) (p : MemberProg α)
    (q : AdminProg α') (w : MemberWorld) (v : World) : Prop :=
  InStep (MemberCall.answer size) AdminCall.answer OnTime Stands T p q w v

theorem steps_reports {α : Type} {p : Prog α} (hp : p.Calls Reporting) (h : Stands w v) :
    Steps size Eq (fromCore p) (ofCore p) w v := by
  refine InStep.embed (fun c hc x w v _ hstands => ?_) hp h
  obtain ⟨hsound, rfl⟩ := hstands
  show ((c.answer x w.core).1.map _ = (c.answer x w.asMap).1.map _) ∧
    Stands ⟨(c.answer x w.core).2, w.items⟩ (c.answer x w.asMap).2
  rw [answer_asMap hc]
  exact ⟨rfl, hsound, rfl⟩

theorem steps_utcnow (h : Stands w v) :
    Steps size (fun now now' => now = now' ∧ now.Valid) (fromCore (run .utcnow))
      (ofCore (run .utcnow)) w v :=
  .call h fun _ hx => .ret h ⟨rfl, hx⟩

/-- A conditional write, where the writes are alike. -/
theorem steps_guardedWrite {c : MemberCall} {d : AdminCall} {T : c.Resp → d.Resp → Prop} {failed : PyErr}
    {pfx : String} (hJ : Stands w v) (h : ∀ x, OnTime x → Alike T (c.answer size x w).1 (d.answer x v).1 ∧
      Stands (c.answer size x w).2 (d.answer x v).2) :
    Steps size T (guardedWrite c failed pfx) (conditionalWrite d failed pfx) w v := by
  refine InStep.handle (InStep.perform hJ h) fun e w v hstands => ?_
  -- both catch the same class of error
  cases hcls : e.cls with
  | clientError code =>
    by_cases hcode : code = "ConditionalCheckFailedException"
    · subst hcode
      exact .raise hstands
    · simp only
      exact .raise hstands
  | _ => exact .raise hstands

/-- A write that is settled alike on the table and on the map. -/
theorem alike_settle {α α' : Type} {T : α → α' → Prop} {fate : Fate} {w w' : MemberWorld} {v v' : World}
    {a : α} {a' : α'} (hT : T a a') (h : Stands w v) (h' : Stands w' v') :
    Alike T (fate.settle (.ok (a, w')) w).1 (fate.settle (.ok (a', v')) v).1 ∧
      Stands (fate.settle (.ok (a, w')) w).2 (fate.settle (.ok (a', v')) v).2 := by
  cases fate with
  | ok => exact ⟨hT, h'⟩
  | lost e => exact ⟨rfl, h⟩
  | late e => exact ⟨rfl, h'⟩

/-- A write whose condition does not hold. -/
theorem alike_settle_error {α α' : Type} {T : α → α' → Prop} (fate : Fate) (e : PyErr) (h : Stands w v) :
    Alike T (fate.settle (.error e : Except PyErr (α × MemberWorld)) w).1
        (fate.settle (.error e : Except PyErr (α' × World)) v).1 ∧
      Stands (fate.settle (.error e : Except PyErr (α × MemberWorld)) w).2
        (fate.settle (.error e : Except PyErr (α' × World)) v).2 := by
  rw [Fate.settle_error, Fate.settle_error]
  exact ⟨rfl, h⟩

theorem steps_getMembership (userId orgId : String) (h : Stands w v) :
    Steps size Eq (getMembership userId orgId) (ofCore (Core.getMembership userId orgId)) w v := by
  obtain ⟨hsound, rfl⟩ := h
  refine .call ⟨hsound, rfl⟩ fun x _ => ?_
  cases hfate : x.fate with
  | lost e | late e =>
    have htable : MemberCall.answer size (.getItem (userPk userId) (orgPk orgId)) x w = (.error e, w) := by
      rw [MemberCall.answer, hfate]
      rfl
    have hmap : (AdminCall.core (.getMembershipItem userId orgId)).answer x w.asMap =
        (.error e, w.asMap) := by
      rw [AdminCall.answer, Call.answer, hfate]
      rfl
    rw [htable, hmap]
    exact .raise ⟨hsound, rfl⟩
  | ok =>
    have htable : MemberCall.answer size (.getItem (userPk userId) (orgPk orgId)) x w =
        (.ok (findItem (userPk userId) (orgPk orgId) w.items), w) := by
      rw [MemberCall.answer, hfate]
      rfl
    have hmap : (AdminCall.core (.getMembershipItem userId orgId)).answer x w.asMap =
        (.ok (membershipAt w.items userId orgId), w.asMap) := by
      rw [AdminCall.answer, Call.answer, hfate]
      rfl
    rw [htable, hmap]
    rcases hsound.findItem_cases userId orgId with
      ⟨hfind, hnone⟩ | ⟨item, m, hfind, hrecords, rfl, rfl, hsome⟩
    · rw [hfind, hnone]
      exact .ret ⟨hsound, rfl⟩ rfl
    · rw [hfind, hsome]
      show Steps size Eq (Proc.bind (Proc.ofExcept (item.membership m.userId m.orgId)) _) _ w w.asMap
      rw [hrecords.membership]
      exact .ret ⟨hsound, rfl⟩ rfl

theorem steps_addMember (orgId userId : String) (role : Role) (inviterId : String) (h : Stands w v) :
    Steps size Eq (addMember orgId userId role inviterId) (Core.addMember orgId userId role inviterId)
      w v := by
  refine InStep.bind (steps_utcnow h) fun now _ w v ⟨hnow, hvalid⟩ hstands => ?_
  subst hnow
  refine InStep.bind (T := fun _ _ => True) (steps_guardedWrite
      (c := .putNewItem (membershipItem orgId userId role now))
      (d := .putMembershipItem ⟨userId, orgId, role, now⟩) hstands fun x _ => ?_)
    fun _ _ w v _ hstands => ?_
  · obtain ⟨hsound, rfl⟩ := hstands
    have hrecords : (membershipItem orgId userId role now).Records ⟨userId, orgId, role, now⟩ :=
      written_membershipItem (m := ⟨userId, orgId, role, now⟩) hvalid
    have hafter : Stands (w.withItems (putItem w.items (membershipItem orgId userId role now)))
        (w.asMap.withMembership userId orgId (some ⟨userId, orgId, role, now⟩)) :=
      ⟨hsound.putItem (.membership _ hrecords), (asMap_putItem hrecords w).symm⟩
    rw [MemberCall.answer, AdminCall.answer]
    have hmap : w.asMap.memberships userId orgId = membershipAt w.items userId orgId := rfl
    rw [hmap]
    rcases hsound.findItem_cases userId orgId with ⟨hfind, hnone⟩ | ⟨item, m, hfind, _, _, _, hsome⟩
    · have hfind' : findItem (membershipItem orgId userId role now).pk
          (membershipItem orgId userId role now).sk w.items = none := hfind
      rw [hfind', hnone]
      exact alike_settle trivial ⟨hsound, rfl⟩ hafter
    · have hfind' : findItem (membershipItem orgId userId role now).pk
          (membershipItem orgId userId role now).sk w.items = some item := hfind
      rw [hfind', hsome]
      exact alike_settle_error x.fate _ ⟨hsound, rfl⟩
  refine InStep.bind (steps_reports (reports_reporting.calls_logAudit _ _ _ _ _ _) hstands)
    fun _ _ w v _ hstands => ?_
  refine InStep.bind (steps_reports (reports_reporting.calls_publishEvent _ _ _ _) hstands)
    fun _ _ w v _ hstands => ?_
  exact .ret hstands rfl

/-- A text that `isoformat` writes is not empty. -/
theorem isoformat_ne_empty {t : DateTime} (h : t.Valid) : t.isoformat ≠ "" := by
  intro hempty
  have htime := timeOf_isoformat h
  rw [hempty] at htime
  cases htime

theorem steps_changeRole (orgId userId : String) (newRole : Role) (changerId : String)
    (h : Stands w v) : Steps size Eq (changeRole orgId userId newRole changerId)
      (Core.changeRole orgId userId newRole changerId) w v := by
  refine InStep.bind (T := fun item m => MemberItem.Records item m)
    (steps_guardedWrite (c := .setRole (userPk userId) (orgPk orgId) newRole.value)
      (d := .updateRole userId orgId newRole) h fun x _ => ?_) fun item m w v hrecords hstands => ?_
  · obtain ⟨hsound, rfl⟩ := h
    rw [MemberCall.answer, AdminCall.answer]
    have hmap : w.asMap.memberships userId orgId = membershipAt w.items userId orgId := rfl
    rw [hmap]
    rcases hsound.findItem_cases userId orgId with
      ⟨hfind, hnone⟩ | ⟨item, m, hfind, hrecords, rfl, rfl, hsome⟩
    · rw [hfind, hnone]
      exact alike_settle_error x.fate _ ⟨hsound, rfl⟩
    · rw [hfind, hsome]
      exact alike_settle hrecords ⟨hsound, rfl⟩
        ⟨hsound.putItem (.membership _ (hrecords.setRole newRole)),
          (asMap_putItem (hrecords.setRole newRole) w).symm⟩
  have hold : textOrNull (MemberItem.get? item "role") = .str m.role.value := by
    rw [hrecords.role]
    rfl
  show Steps size Eq (Proc.bind (fromCore (logAudit orgId changerId "member.role_changed" "user" userId
    (.obj [("old_role", textOrNull (MemberItem.get? item "role")), ("new_role", .str newRole.value)]))) _)
    _ w v
  refine InStep.bind (T := Eq) ?_ fun _ _ w v _ hstands => ?_
  · rw [hold]
    exact steps_reports (reports_reporting.calls_logAudit _ _ _ _ _ _) hstands
  refine InStep.bind (T := Eq) ?_ fun _ _ w v _ hstands => ?_
  · rw [hold]
    exact steps_reports (reports_reporting.calls_publishEvent _ _ _ _) hstands
  have hjoined : (MemberItem.get? item "joined_at").getD "" = m.joinedAt.isoformat := by
    rw [hrecords.joinedAt]
    rfl
  rw [hjoined]
  split
  · next hempty => exact absurd hempty (isoformat_ne_empty hrecords.valid)
  · rw [timeOf_isoformat hrecords.valid]
    exact .ret hstands rfl

theorem steps_removeMember (orgId userId removerId : String) (h : Stands w v) :
    Steps size Eq (removeMember orgId userId removerId) (Core.removeMember orgId userId removerId)
      w v := by
  refine InStep.bind (T := fun _ _ => True) (steps_guardedWrite
      (c := .deleteItem (userPk userId) (orgPk orgId)) (d := .deleteMembershipItem userId orgId) h
      fun x _ => ?_) fun _ _ w v _ hstands => ?_
  · obtain ⟨hsound, rfl⟩ := h
    rw [MemberCall.answer, AdminCall.answer]
    have hmap : w.asMap.memberships userId orgId = membershipAt w.items userId orgId := rfl
    rw [hmap]
    rcases hsound.findItem_cases userId orgId with ⟨hfind, hnone⟩ | ⟨item, m, hfind, _, _, _, hsome⟩
    · rw [hfind, hnone]
      exact alike_settle_error x.fate _ ⟨hsound, rfl⟩
    · rw [hfind, hsome]
      exact alike_settle trivial ⟨hsound, rfl⟩
        ⟨hsound.withoutKey _ _, (asMap_withoutKey userId orgId w).symm⟩
  refine InStep.bind (steps_reports (reports_reporting.calls_logAudit _ _ _ _ _ _) hstands)
    fun _ _ w v _ hstands => ?_
  refine InStep.bind (steps_reports (reports_reporting.calls_publishEvent _ _ _ _) hstands)
    fun _ _ w v _ hstands => ?_
  exact .ret hstands rfl

end Steps

/-- A call of one of the functions about a membership. -/
inductive MemberOp where
  | get (userId orgId : String)
  | add (orgId userId : String) (role : Role) (inviterId : String)
  | change (orgId userId : String) (newRole : Role) (changerId : String)
  | remove (orgId userId removerId : String)

/-- The call, on the table. -/
def MemberOp.onTable : MemberOp → MemberProg (Option Membership)
  | get userId orgId => getMembership userId orgId
  | add orgId userId role inviterId => do return some (← addMember orgId userId role inviterId)
  | change orgId userId newRole changerId => do
    return some (← changeRole orgId userId newRole changerId)
  | remove orgId userId removerId => do
    removeMember orgId userId removerId
    return none

/-- The call, on the map. -/
def MemberOp.onMap : MemberOp → AdminProg (Option Membership)
  | get userId orgId => ofCore (Core.getMembership userId orgId)
  | add orgId userId role inviterId => do return some (← Core.addMember orgId userId role inviterId)
  | change orgId userId newRole changerId => do
    return some (← Core.changeRole orgId userId newRole changerId)
  | remove orgId userId removerId => do
    Core.removeMember orgId userId removerId
    return none

/-- The times that the oracle gives exist. -/
def KeepsTime (o : Oracle Choice) : Prop := ∀ n x, o n = some x → OnTime x

/-- What successive calls reply on the table, and what they leave. -/
def runTable (size : MemberItem → ℕ) : List (MemberOp × Oracle Choice) → MemberWorld →
    List (Option (Except PyErr (Option Membership))) × MemberWorld
  | [], w => ([], w)
  | (op, o) :: ops, w =>
    let r := exec (MemberCall.answer size) op.onTable o w
    let rest := runTable size ops r.2
    (r.1 :: rest.1, rest.2)

/-- What they reply on the map, and what they leave. -/
def runMap : List (MemberOp × Oracle Choice) → World →
    List (Option (Except PyErr (Option Membership))) × World
  | [], v => ([], v)
  | (op, o) :: ops, v =>
    let r := exec AdminCall.answer op.onMap o v
    let rest := runMap ops r.2
    (r.1 :: rest.1, rest.2)

section Refinement

variable {size : MemberItem → ℕ} {w : MemberWorld}

theorem steps_op (size : MemberItem → ℕ) (op : MemberOp) {v : World} (h : Stands w v) : Steps size Eq op.onTable op.onMap w v := by
  cases op with
  | get userId orgId => exact steps_getMembership userId orgId h
  | add orgId userId role inviterId =>
    refine InStep.bind (steps_addMember orgId userId role inviterId h) fun m _ w v hm hstands => ?_
    exact .ret hstands (congrArg some hm)
  | change orgId userId newRole changerId =>
    refine InStep.bind (steps_changeRole orgId userId newRole changerId h) fun m _ w v hm hstands => ?_
    exact .ret hstands (congrArg some hm)
  | remove orgId userId removerId =>
    refine InStep.bind (steps_removeMember orgId userId removerId h) fun _ _ w v _ hstands => ?_
    exact .ret hstands rfl

/-- **One call on the table and on the map.** -/
theorem exec_onTable (size : MemberItem → ℕ) (op : MemberOp) (h : Sound w.items) {o : Oracle Choice} (ho : KeepsTime o) :
    Sound (exec (MemberCall.answer size) op.onTable o w).2.items ∧
      exec AdminCall.answer op.onMap o w.asMap = ((exec (MemberCall.answer size) op.onTable o w).1,
        (exec (MemberCall.answer size) op.onTable o w).2.asMap) := by
  have hsteps := steps_op size op ⟨h, rfl⟩
  obtain ⟨hsound, hmap⟩ := hsteps.exec_rel ho
  exact ⟨hsound, Prod.ext (hsteps.exec_eq ho).symm hmap⟩

/-- **The table refines the map.** In every run of calls, each of which may fail anywhere or be stopped
anywhere, the table replies what the map does, and stands for what the map has become. -/
theorem runMap_asMap {ops : List (MemberOp × Oracle Choice)} (h : Sound w.items)
    (hops : ∀ op ∈ ops, KeepsTime op.2) :
    runMap ops w.asMap = ((runTable size ops w).1, (runTable size ops w).2.asMap) := by
  induction ops generalizing w with
  | nil => rfl
  | cons op ops ih =>
    obtain ⟨op, o⟩ := op
    obtain ⟨hsound, hexec⟩ :=
      exec_onTable size op h (hops _ List.mem_cons_self)
    rw [runMap, runTable, hexec]
    dsimp only
    rw [ih hsound fun op hop => hops op (List.mem_cons_of_mem _ hop)]

end Refinement

/-- No items. -/
def emptyTable : MemberWorld := ⟨World.initial, []⟩

/-- Every call goes well. -/
def fair : Oracle Choice := fun _ => some (.calm "0123456789abcdef")

theorem keepsTime_fair : KeepsTime fair := by
  intro n x hx
  cases hx
  refine ⟨?_, by decide, by decide, by decide, by decide⟩
  constructor <;> decide

/-- Bob is added to an org, and read. -/
def twoOps : List (MemberOp × Oracle Choice) :=
  [(.add "acme" "bob" .member "ada", fair), (.get "bob" "acme", fair)]

theorem runMap_asMap_two : runMap twoOps emptyTable.asMap =
    ((runTable (fun _ => 200) twoOps emptyTable).1,
      (runTable (fun _ => 200) twoOps emptyTable).2.asMap) :=
  runMap_asMap Sound.nil (by simp [twoOps, keepsTime_fair])

/-! ### The states that are reached -/

/-- A call of one of the functions that write. -/
inductive Change where
  | createOrg (orgName ownerId : String)
  | createUser (userId email : String)
  | member (op : MemberOp)

/-- The call. -/
def Change.program (lower : String → String) : Change → MemberProg Unit
  | createOrg orgName ownerId => do let _ ← MembershipTable.createOrg lower orgName ownerId
  | createUser userId email => createUserIfNotExists userId email
  | member op => do let _ ← op.onTable

/-- The states that any calls lead to, which may fail anywhere or be stopped anywhere. -/
inductive Reached (size : MemberItem → ℕ) (lower : String → String) : MemberWorld → Prop
  | start {w : MemberWorld} (h : w.items = []) : Reached size lower w
  | step {w : MemberWorld} (hw : Reached size lower w) (c : Change) {o : Oracle Choice}
      (ho : KeepsTime o) : Reached size lower (exec (MemberCall.answer size) (c.program lower) o w).2

section Reached

variable {size : MemberItem → ℕ} {lower : String → String} {w : MemberWorld}

/-- A program that runs alone, and keeps the table sound. -/
def keeping (size : MemberItem → ℕ) : Contract MemberCall MemberCall.Resp PyErr Choice MemberWorld where
  answer := MemberCall.answer size
  rely w w' := w = w'
  admits _ x _ := OnTime x
  guar _ _ w w' := Sound w.items → Sound w'.items
  rely_refl _ := rfl
  rely_trans h h' := h.trans h'

/-- What the call puts into the table is something that these functions write. -/
def MemberCall.Puts : MemberCall → Prop
  | putNewItem item => item.Written
  | transactPut items => ∀ item ∈ items, item.Written
  | setRole _ _ _ => False
  | _ => True

theorem sound_foldl_putItem {items new : List MemberItem} (h : Sound items)
    (hnew : ∀ item ∈ new, item.Written) : Sound (new.foldl putItem items) := by
  induction new generalizing items with
  | nil => exact h
  | cons item new ih =>
    exact ih (h.putItem (hnew item List.mem_cons_self)) fun other hother =>
      hnew other (List.mem_cons_of_mem _ hother)

theorem sound_answer {c : MemberCall} (hc : c.Puts) (x : Choice) (h : Sound w.items) :
    Sound (c.answer size x w).2.items := by
  have hsettle : ∀ {α : Type} (effect : Except PyErr (α × MemberWorld)),
      (∀ a w', effect = .ok (a, w') → Sound w'.items) → Sound (x.fate.settle effect w).2.items := by
    intro α effect heffect
    rcases x.fate.settle_cases effect w with ⟨e, he⟩ | ⟨a, w', heff, he | ⟨e, he⟩⟩
    · rw [he]; exact h
    · rw [he]; exact heffect a w' heff
    · rw [he]; exact heffect a w' heff
  cases c with
  | core c => exact h
  | getItem | queryGsi1 | query =>
    refine hsettle _ fun a w' heff => ?_
    cases heff
    exact h
  | putNewItem item =>
    refine hsettle _ fun a w' heff => ?_
    split at heff <;> cases heff
    exact h.putItem hc
  | setRole => exact hc.elim
  | deleteItem pk sk =>
    refine hsettle _ fun a w' heff => ?_
    split at heff <;> cases heff
    exact h.withoutKey pk sk
  | transactPut items =>
    refine hsettle _ fun a w' heff => ?_
    cases heff
    exact sound_foldl_putItem h hc

/-- A program that puts nothing else into the table keeps it sound. -/
theorem wp_of_puts {α : Type} {p : MemberProg α} (hp : p.Calls MemberCall.Puts) (h : Sound w.items) :
    (keeping size).wp p w fun _ w' => Sound w'.items :=
  wp_of_stable (J := fun w : MemberWorld => Sound w.items) (by rintro w _ rfl hw; exact hw)
    (fun c hc x w hw _ => ⟨fun _ => sound_answer hc x hw, sound_answer hc x hw⟩) hp h

theorem puts_reports {α : Type} {p : Prog α} (hp : p.Calls Reporting) :
    (fromCore p).Calls MemberCall.Puts :=
  Calls.embed (hp.mono fun _ _ => trivial)

theorem wp_createOrg (orgName ownerId : String) (h : Sound w.items) :
    (keeping size).wp (createOrg lower orgName ownerId) w fun _ w' => Sound w'.items := by
  rintro _ rfl x hx
  refine ⟨id, wp_of_puts ?_ h⟩
  show Calls _ (Proc.bind (fromCore (run .uuid4)) _)
  refine Calls.bind (puts_reports (Calls.perform trivial)) fun uuid => ?_
  refine Calls.bind (Calls.handle (Calls.perform ?_) fun exc => ?_) fun _ => ?_
  · intro item hitem
    rcases List.mem_cons.mp hitem with rfl | hitem
    · exact .org _ (written_orgItem ⟨_, orgName, ownerId, x.now⟩ hx)
    · obtain rfl := List.mem_singleton.mp hitem
      exact .membership _ (written_membershipItem (m := ⟨ownerId, _, .owner, x.now⟩) hx)
  · split <;> trivial
  · exact Calls.bind (puts_reports (reports_reporting.calls_logAudit _ _ _ _ _ _)) fun _ => trivial

theorem wp_createUserIfNotExists (userId email : String) (h : Sound w.items) :
    (keeping size).wp (createUserIfNotExists userId email) w fun _ w' => Sound w'.items := by
  rintro _ rfl x hx
  refine ⟨id, wp_of_puts ?_ h⟩
  have hwritten : (MemberCall.putNewItem (userItem userId email x.now)).Puts :=
    MemberItem.Written.user userId rfl rfl rfl
  refine Calls.handle (Calls.perform hwritten) fun exc => ?_
  split <;> trivial

/-- The table is sound in every state that is reached. -/
theorem Reached.sound (h : Reached size lower w) : Sound w.items := by
  have hrun : ∀ {α : Type} {p : MemberProg α} {w : MemberWorld} {o : Oracle Choice}, KeepsTime o →
      (keeping size).wp p w (fun _ w' => Sound w'.items) → Sound w.items →
      Sound (exec (MemberCall.answer size) p o w).2.items := fun {_} p w o ho hwp hw =>
    exec_invariant (K := keeping size) (fun _ _ _ _ hguar => hguar) hwp
      (along_of_forall p (fun n x hx _ _ => ho n x hx) w) hw
  induction h with
  | start h => exact h ▸ Sound.nil
  | @step w hw c o ho ih =>
    cases c with
    | createOrg orgName ownerId =>
      rw [Change.program, Proc.bind_eq, Proc.pure_eq, exec_bind_ret]
      exact hrun ho (wp_createOrg orgName ownerId ih) ih
    | createUser userId email => exact hrun ho (wp_createUserIfNotExists userId email ih) ih
    | member op =>
      rw [Change.program, Proc.bind_eq, Proc.pure_eq, exec_bind_ret]
      exact (exec_onTable size op ih ho).1

end Reached

end A2ZCore.Core.MembershipTable
