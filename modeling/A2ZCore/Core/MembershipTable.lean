import A2ZCore.Core.Admin
import A2ZCore.Core.IsoFormat
import A2ZCore.Core.Orgs
import A2ZCore.Lib.QueryPage
import Mathlib

/-!
# The membership table

`core/membership.py` as it is written, over the items of its one table: users, orgs and memberships,
each under a key that is put together of a prefix and an id. A membership's item names the user before
the org, and the index `GSI1` reads it the other way round.

## Main definitions

* `MemberItem`, `MemberWorld` — the items, and the state with them
* `MemberCall`, `MemberCall.answer` — the calls, and what they do to the items
* `createOrg`, `addMember`, `changeRole`, `removeMember`, `createUserIfNotExists`
* `getMembership`, `listOrgMembers`, `listUserOrgs`
-/

namespace A2ZCore.Core.MembershipTable

open Interaction

/-! ### The items -/

/-- An item of the table: its key, and its other attributes. -/
structure MemberItem where
  pk : String
  sk : String
  attributes : List (String × String)
  deriving DecidableEq, Repr

namespace MemberItem

/-- `data.get(name)` -/
def get? (item : MemberItem) (name : String) : Option String := item.attributes.lookup name

/-- `data[name]` -/
def get (item : MemberItem) (name : String) : Except PyErr String :=
  match item.get? name with
  | some value => .ok value
  | none => .error ⟨.keyError, pyRepr name⟩

/-- `SET` of one attribute. -/
def set (item : MemberItem) (name value : String) : MemberItem :=
  { item with attributes := (name, value) :: item.attributes.filter fun kv => kv.1 != name }

/-- The item has this primary key. -/
def HasKey (pk sk : String) (item : MemberItem) : Prop := item.pk = pk ∧ item.sk = sk

instance (pk sk : String) : DecidablePred (HasKey pk sk) := fun _ =>
  inferInstanceAs (Decidable (_ ∧ _))

end MemberItem

/-- `get_item` -/
def findItem (pk sk : String) (items : List MemberItem) : Option MemberItem :=
  items.find? fun item => item.HasKey pk sk

/-- `delete_item` -/
def withoutKey (pk sk : String) (items : List MemberItem) : List MemberItem :=
  items.filter fun item => ¬item.HasKey pk sk

/-- `put_item` -/
def putItem (items : List MemberItem) (item : MemberItem) : List MemberItem :=
  withoutKey item.pk item.sk items ++ [item]

/-- The items of one partition of `GSI1`, in the order of its sort key. -/
def gsi1 (gsi1pk : String) (items : List MemberItem) : List MemberItem :=
  (items.filter fun item => item.get? "GSI1PK" == some gsi1pk && (item.get? "GSI1SK").isSome).mergeSort
    fun item other => (item.get? "GSI1SK").getD "" ≤ (other.get? "GSI1SK").getD ""

/-- The items of one partition of the table whose sort key begins with a prefix, in its order. -/
def partition (pk skPrefix : String) (items : List MemberItem) : List MemberItem :=
  (items.filter fun item => item.pk == pk && skPrefix.toList.isPrefixOf item.sk.toList).mergeSort
    fun item other => item.sk ≤ other.sk

/-! ### The calls -/

/-- Core's state, and the table. -/
structure MemberWorld where
  core : World
  items : List MemberItem

/-- The calls of these functions: Core's, and those to the table. -/
inductive MemberCall where
  | core (c : Call)
  | getItem (pk sk : String)
  | queryGsi1 (gsi1pk : String)
  | query (pk skPrefix : String)
  | putNewItem (item : MemberItem)
  | setRole (pk sk role : String)
  | deleteItem (pk sk : String)
  | transactPut (items : List MemberItem)

/-- What a call replies. An update replies with the item as it was. -/
def MemberCall.Resp : MemberCall → Type
  | core c => c.Resp
  | getItem _ _ => Option MemberItem
  | queryGsi1 _ => List MemberItem
  | query _ _ => List MemberItem
  | putNewItem _ => Unit
  | setRole _ _ _ => MemberItem
  | deleteItem _ _ => Unit
  | transactPut _ => Unit

/-- The state with other items. -/
def MemberWorld.withItems (w : MemberWorld) (items : List MemberItem) : MemberWorld := { w with items }

/-- The reply to a call and the state it leaves. A Query reads a page of 1 MB. -/
def MemberCall.answer (size : MemberItem → ℕ) (c : MemberCall) (x : Choice) (w : MemberWorld) :
    Except PyErr c.Resp × MemberWorld :=
  match c with
  | .core c =>
    let r := c.answer x w.core
    (r.1, { w with core := r.2 })
  | .getItem pk sk => x.fate.settle (.ok (findItem pk sk w.items, w)) w
  | .queryGsi1 gsi1pk =>
    x.fate.settle (.ok (QueryPage.page size 1048576 (gsi1 gsi1pk w.items), w)) w
  | .query pk skPrefix =>
    x.fate.settle (.ok (QueryPage.page size 1048576 (partition pk skPrefix w.items), w)) w
  | .putNewItem item =>
    x.fate.settle (match findItem item.pk item.sk w.items with
      | some _ => .error conditionFailed
      | none => .ok ((), w.withItems (putItem w.items item))) w
  | .setRole pk sk role =>
    x.fate.settle (match findItem pk sk w.items with
      | some item => .ok (item, w.withItems (putItem w.items (item.set "role" role)))
      | none => .error conditionFailed) w
  | .deleteItem pk sk =>
    x.fate.settle (match findItem pk sk w.items with
      | some _ => .ok ((), w.withItems (withoutKey pk sk w.items))
      | none => .error conditionFailed) w
  | .transactPut items =>
    x.fate.settle (.ok ((), w.withItems (items.foldl putItem w.items))) w

/-- A program of these functions. -/
abbrev MemberProg := Proc MemberCall MemberCall.Resp PyErr

/-- One call. -/
def memberRun (c : MemberCall) : MemberProg c.Resp := Proc.perform c

/-- A program of Core, run next to the table. -/
def fromCore {α : Type} (p : Prog α) : MemberProg α := p.embed MemberCall.core fun _ r => r

/-! ### What is read off an item -/

/-- `_user_pk` -/
def userPk (userId : String) : String := "USER#" ++ userId

/-- `_org_pk` -/
def orgPk (orgId : String) : String := "ORG#" ++ orgId

/-- `Role(value)` -/
def roleOf (value : String) : Except PyErr Role :=
  match value with
  | "owner" => .ok .owner
  | "admin" => .ok .admin
  | "member" => .ok .member
  | "guest" => .ok .guest
  | _ => .error ⟨.exception "ValueError", pyRepr value ++ " is not a valid Role"⟩

/-- `_ROLE_ORDER` -/
def roleOrder : Role → ℕ
  | .owner => 0
  | .admin => 1
  | .member => 2
  | .guest => 3

/-- `datetime.fromisoformat` of a time in UTC. -/
def timeOf (s : String) : Except PyErr DateTime :=
  match fromisoformat s with
  | some moment => .ok moment.wall
  | none => .error ⟨.exception "ValueError", "Invalid isoformat string: " ++ pyRepr s⟩

/-- What follows the first occurrence of a separator. -/
def afterFirst (sep : List Char) : List Char → Option (List Char)
  | [] => none
  | c :: cs =>
    if sep.isPrefixOf (c :: cs) then some ((c :: cs).drop sep.length) else afterFirst sep cs

/-- `s.split(sep, 1)[1]` -/
def splitAfter (sep s : String) : Except PyErr String :=
  match afterFirst sep.toList s.toList with
  | some cs => .ok (String.ofList cs)
  | none => .error ⟨.exception "IndexError", "list index out of range"⟩

/-- The membership that an item is read as. -/
def MemberItem.membership (item : MemberItem) (userId orgId : String) : Except PyErr Membership := do
  let role ← roleOf (← item.get "role")
  let joinedAt ← timeOf (← item.get "joined_at")
  return ⟨userId, orgId, role, joinedAt⟩

/-- `membership.Org` -/
structure Org where
  orgId : String
  name : String
  ownerId : String
  createdAt : DateTime
  deriving DecidableEq, Repr

/-- The org that an item is read as. -/
def MemberItem.org (item : MemberItem) (orgId : String) : Except PyErr Org := do
  let name ← item.get "name"
  let ownerId ← item.get "owner_id"
  let createdAt ← timeOf (← item.get "created_at")
  return ⟨orgId, name, ownerId, createdAt⟩

/-! ### Reading -/

/-- `get_membership` -/
def getMembership (userId orgId : String) : MemberProg (Option Membership) := do
  match ← memberRun (.getItem (userPk userId) (orgPk orgId)) with
  | none => return none
  | some item => return some (← Proc.ofExcept (item.membership userId orgId))

/-- `_get_org` -/
def getOrg (orgId : String) : MemberProg (Option Org) := do
  match ← memberRun (.getItem (orgPk orgId) "METADATA") with
  | none => return none
  | some item => return some (← Proc.ofExcept (item.org orgId))

/-- `list_user_orgs`. The orgs are read one after the other. -/
def listUserOrgs (userId : String) : MemberProg (List Org) := do
  let items ← memberRun (.query (userPk userId) "ORG#")
  let orgIds ← Proc.ofExcept (items.mapM fun item => splitAfter "ORG#" item.sk)
  Proc.forEach orgIds [] fun orgs orgId => do
    match ← getOrg orgId with
    | none => return orgs
    | some org => return orgs ++ [org]

/-- One member of `list_org_members`. -/
def MemberItem.member (item : MemberItem) (orgId : String) : Except PyErr Membership := do
  let userId ← splitAfter "USER#" (← item.get "GSI1SK")
  item.membership userId orgId

/-- `list_org_members` -/
def listOrgMembers (orgId : String) : MemberProg (List Membership) := do
  let items ← memberRun (.queryGsi1 (orgPk orgId))
  let members ← Proc.ofExcept (items.mapM fun item => item.member orgId)
  return members.mergeSort fun m n => roleOrder m.role ≤ roleOrder n.role

/-! ### Writing -/

/-- `_membership_item` -/
def membershipItem (orgId userId : String) (role : Role) (now : DateTime) : MemberItem where
  pk := userPk userId
  sk := orgPk orgId
  attributes := [("GSI1PK", orgPk orgId), ("GSI1SK", userPk userId), ("role", role.value),
    ("joined_at", DateTime.isoformat now)]

/-- The item of an org. -/
def orgItem (orgId orgName ownerId : String) (now : DateTime) : MemberItem where
  pk := orgPk orgId
  sk := "METADATA"
  attributes := [("name", orgName), ("owner_id", ownerId), ("created_at", DateTime.isoformat now)]

/-- The item of a user. -/
def userItem (userId email : String) (now : DateTime) : MemberItem where
  pk := userPk userId
  sk := "METADATA"
  attributes := [("email", email), ("created_at", DateTime.isoformat now)]

/-- `uuid.uuid4().hex[:8]`, of the text of a UUID. -/
def hex8 (uuid : String) : String := String.ofList ((uuid.toList.filter fun c => c ≠ '-').take 8)

/-- `create_org`. `lower` is `str.lower`. -/
def createOrg (lower : String → String) (orgName ownerId : String) : MemberProg Org := do
  let now ← fromCore (run .utcnow)
  let uuid ← fromCore (run .uuid4)
  let orgId := newOrgId (lower orgName) (hex8 uuid)
  try memberRun (.transactPut [orgItem orgId orgName ownerId now, membershipItem orgId ownerId .owner now])
  catch exc => match exc.cls with
    | .clientError _ => .raise ⟨.exception "MembershipError", "Failed to create org: " ++ exc.text⟩
    | _ => throw exc
  let _ ← fromCore (logAudit orgId ownerId "org.created" "org" orgId (.obj [("name", .str orgName)]))
  return ⟨orgId, orgName, ownerId, now⟩

/-- A conditional write: where the condition does not hold, the error is `failed`. -/
def guardedWrite (c : MemberCall) (failed : PyErr) (pfx : String) : MemberProg c.Resp :=
  try memberRun c
  catch exc => match exc.cls with
    | .clientError "ConditionalCheckFailedException" => .raise failed
    | .clientError _ => .raise ⟨.exception "MembershipError", pfx ++ exc.text⟩
    | _ => throw exc

/-- `add_member` -/
def addMember (orgId userId : String) (role : Role) (inviterId : String) : MemberProg Membership := do
  let now ← fromCore (run .utcnow)
  guardedWrite (.putNewItem (membershipItem orgId userId role now))
    ⟨.exception "AlreadyExistsError", "User " ++ userId ++ " already in org " ++ orgId⟩
    "Failed to add member: "
  let _ ← fromCore (logAudit orgId inviterId "member.added" "user" userId
    (.obj [("role", .str role.value)]))
  let _ ← fromCore (publishEvent orgId "member.added" [("user_id", .str userId),
    ("role", .str role.value), ("inviter_id", .str inviterId)] "a2z.core")
  return ⟨userId, orgId, role, now⟩

/-- An attribute that an item may not have, as a value of a JSON document. -/
def textOrNull : Option String → Json
  | some s => .str s
  | none => .null

/-- `change_role` -/
def changeRole (orgId userId : String) (newRole : Role) (changerId : String) :
    MemberProg Membership := do
  let attributes ← guardedWrite (.setRole (userPk userId) (orgPk orgId) newRole.value)
    ⟨.notFoundError, "No membership for user " ++ userId ++ " in org " ++ orgId⟩
    "Failed to change role: "
  let old := textOrNull (attributes.get? "role")
  let _ ← fromCore (logAudit orgId changerId "member.role_changed" "user" userId
    (.obj [("old_role", old), ("new_role", .str newRole.value)]))
  let _ ← fromCore (publishEvent orgId "member.role_changed" [("user_id", .str userId),
    ("old_role", old), ("new_role", .str newRole.value)] "a2z.core")
  match (attributes.get? "joined_at").getD "" with
  | "" => do
    let now ← fromCore (run .utcnow)
    return ⟨userId, orgId, newRole, now⟩
  | joined => return ⟨userId, orgId, newRole, ← Proc.ofExcept (timeOf joined)⟩

/-- `remove_member` -/
def removeMember (orgId userId removerId : String) : MemberProg Unit := do
  guardedWrite (.deleteItem (userPk userId) (orgPk orgId))
    ⟨.notFoundError, "No membership for user " ++ userId ++ " in org " ++ orgId⟩
    "Failed to remove member: "
  let _ ← fromCore (logAudit orgId removerId "member.removed" "user" userId (.obj []))
  let _ ← fromCore (publishEvent orgId "member.removed"
    [("user_id", .str userId), ("remover_id", .str removerId)] "a2z.core")
  return ()

/-- `create_user_if_not_exists` -/
def createUserIfNotExists (userId email : String) : MemberProg Unit := do
  let now ← fromCore (run .utcnow)
  try memberRun (.putNewItem (userItem userId email now))
  catch exc => match exc.cls with
    | .clientError "ConditionalCheckFailedException" => pure ()
    | .clientError _ => .raise ⟨.exception "MembershipError", "Failed to create user: " ++ exc.text⟩
    | _ => throw exc

end A2ZCore.Core.MembershipTable
