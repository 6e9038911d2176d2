import A2ZCore.Core.Steady

/-!
# Settings and memberships

The functions of `app.core` that an org's admins call: `set_org_settings`, and the membership functions
that change who belongs to the org. They write items that the other services only read, so their calls
are kept apart from those.

An item of the settings table is what DynamoDB returns for it. A value is stored as it is, but for
numbers: boto3 writes none of more than 38 digits, and DynamoDB takes none out of its range.

## Main definitions

* `AdminCall`, `AdminCall.answer` — the writes of these functions, and their effect
* `setOrgSettings` — validates names, writes, reports, and reads the settings back
* `addMember`, `changeRole`, `removeMember`
-/

namespace A2ZCore.Core

open Interaction Interaction.Proc

/-! ### What is stored -/

/-- boto3 writes the number, in a context of 38 digits: a double is written as `repr` has it. -/
def writable (m : ℤ) (s : ℕ) : Bool :=
  m = 0 || isExact m && m.natAbs < 10 ^ (127 + s) && m * 10 ^ 165 % 10 ^ s = 0

mutual

/-- The serializer takes the value: it writes each number in it. -/
def storable : Json → Bool
  | .int n => digits n.natAbs ≤ 38
  | .float m s => writable m s
  | .arr items => storableItems items
  | .obj fields => storableFields fields
  | .null | .bool _ | .str _ => true

/-- Each item is one that the serializer takes. -/
def storableItems : List Json → Bool
  | [] => true
  | item :: items => storable item && storableItems items

/-- Each value of a map is one that the serializer takes. -/
def storableFields : List (String × Json) → Bool
  | [] => true
  | (_, value) :: fields => storable value && storableFields fields

end

mutual

/-- DynamoDB takes the value: each number in it is in range. -/
def ranged : Json → Bool
  | .int n => inRange n 0
  | .float m s => inRange m s
  | .arr items => rangedItems items
  | .obj fields => rangedFields fields
  | .null | .bool _ | .str _ => true

/-- Each item is one that DynamoDB takes. -/
def rangedItems : List Json → Bool
  | [] => true
  | item :: items => ranged item && rangedItems items

/-- Each value of a map is one that DynamoDB takes. -/
def rangedFields : List (String × Json) → Bool
  | [] => true
  | (_, value) :: fields => ranged value && rangedFields fields

end

/-- `_ddb.to_value`. -/
def toValue (value : Json) : Except PyErr Json :=
  if storable value then .ok value
  else .error ⟨.exception "Inexact", "[<class 'decimal.Inexact'>, <class 'decimal.Rounded'>]"⟩

/-- `SET` of an update expression: the named attributes are replaced, the others stay. -/
def setAttributes (changes item : List (String × Json)) : List (String × Json) :=
  changes ++ item.filter fun kv => (changes.lookup kv.1).isNone

/-! ### The calls -/

/-- The calls of these functions: Core's, and the writes to settings and membership items. -/
inductive AdminCall where
  | core (c : Call)
  | updateSettingsItem (orgId : String) (changes : List (String × Json))
  | putMembershipItem (item : Membership)
  | updateRole (userId orgId : String) (role : Role)
  | deleteMembershipItem (userId orgId : String)

/-- What a call replies. `update_item` on a membership replies with the item it replaces. -/
def AdminCall.Resp : AdminCall → Type
  | core c => c.Resp
  | updateSettingsItem _ _ => Unit
  | putMembershipItem _ => Unit
  | updateRole _ _ _ => Membership
  | deleteMembershipItem _ _ => Unit

/-- A condition expression that does not hold. -/
def conditionFailed : PyErr :=
  ⟨.clientError "ConditionalCheckFailedException", "The conditional request failed"⟩

/-- The settings where the item of one org is another. -/
def World.withSettings (w : World) (orgId : String) (item : List (String × Json)) : World :=
  { w with settings := Function.update w.settings orgId (some item) }

/-- The memberships where that of one user in one org is another. -/
def World.withMembership (w : World) (userId orgId : String) (item : Option Membership) : World :=
  { w with memberships :=
      Function.update w.memberships userId (Function.update (w.memberships userId) orgId item) }

/-- The reply to a call and the state it leaves. -/
def AdminCall.answer (c : AdminCall) (x : Choice) (w : World) : Except PyErr c.Resp × World :=
  match c with
  | .core c => c.answer x w
  | .updateSettingsItem orgId changes =>
    x.fate.settle (if rangedFields changes then
        .ok ((), w.withSettings orgId (setAttributes changes ((w.settings orgId).getD [])))
      else .error numberOverflow) w
  | .putMembershipItem item =>
    x.fate.settle (match w.memberships item.userId item.orgId with
      | some _ => .error conditionFailed
      | none => .ok ((), w.withMembership item.userId item.orgId (some item))) w
  | .updateRole userId orgId role =>
    x.fate.settle (match w.memberships userId orgId with
      | some item => .ok (item, w.withMembership userId orgId (some { item with role }))
      | none => .error conditionFailed) w
  | .deleteMembershipItem userId orgId =>
    x.fate.settle (match w.memberships userId orgId with
      | some _ => .ok ((), w.withMembership userId orgId none)
      | none => .error conditionFailed) w

/-- What a call that changes the state changes. -/
inductive AdminCall.Writes (w : World) : AdminCall → World → Prop where
  | core (c : Call) (x : Choice) : Writes w (.core c) (c.answer x w).2
  | settings (orgId : String) (changes : List (String × Json)) :
    Writes w (.updateSettingsItem orgId changes)
      (w.withSettings orgId (setAttributes changes ((w.settings orgId).getD [])))
  | membership (item : Membership) :
    Writes w (.putMembershipItem item) (w.withMembership item.userId item.orgId (some item))
  | role (userId orgId : String) (role : Role) (item : Membership) :
    Writes w (.updateRole userId orgId role) (w.withMembership userId orgId (some { item with role }))
  | removal (userId orgId : String) :
    Writes w (.deleteMembershipItem userId orgId) (w.withMembership userId orgId none)

/-- A call leaves the state as it was, or changes the one thing it is about. -/
theorem AdminCall.writes_of_answer (c : AdminCall) (x : Choice) (w : World) :
    (c.answer x w).2 = w ∨ c.Writes w (c.answer x w).2 := by
  have hsettle : ∀ {α : Type} (effect : Except PyErr (α × World)),
      (∀ a w', effect = .ok (a, w') → c.Writes w w') →
        (x.fate.settle effect w).2 = w ∨ c.Writes w (x.fate.settle effect w).2 := by
    intro α effect h
    rcases x.fate.settle_cases effect w with ⟨e, he⟩ | ⟨a, w', heff, he | ⟨e, he⟩⟩
    · exact .inl (congrArg Prod.snd he)
    · rw [he]; exact .inr (h a w' heff)
    · rw [he]; exact .inr (h a w' heff)
  cases c with
  | core c => exact .inr (.core c x)
  | updateSettingsItem orgId changes =>
    refine hsettle _ fun a w' h => ?_
    split at h <;> cases h
    exact .settings orgId changes
  | putMembershipItem item =>
    refine hsettle _ fun a w' h => ?_
    split at h <;> cases h
    exact .membership item
  | updateRole userId orgId role =>
    refine hsettle _ fun a w' h => ?_
    split at h <;> cases h
    exact .role userId orgId role _
  | deleteMembershipItem userId orgId =>
    refine hsettle _ fun a w' h => ?_
    split at h <;> cases h
    exact .removal userId orgId

/-- A write of the settings takes effect: it is not lost, and DynamoDB takes its numbers. -/
def takesEffect (changes : List (String × Json)) : Fate → Bool
  | .lost _ => false
  | .ok | .late _ => rangedFields changes

/-- What a write of the settings leaves. -/
theorem updateSettingsItem_world (orgId : String) (changes : List (String × Json)) (x : Choice)
    (w : World) : ((AdminCall.updateSettingsItem orgId changes).answer x w).2 =
      if takesEffect changes x.fate then
        w.withSettings orgId (setAttributes changes ((w.settings orgId).getD []))
      else w := by
  rw [AdminCall.answer]
  cases hranged : rangedFields changes with
  | false =>
    rw [if_neg Bool.false_ne_true, Fate.settle_error]
    cases x.fate with
    | lost e => rfl
    | ok | late e => exact (if_neg (Bool.eq_false_iff.mp hranged)).symm
  | true =>
    rw [if_pos rfl]
    cases x.fate with
    | lost e => rfl
    | ok | late e => exact (if_pos hranged).symm

/-- A write of the settings leaves everything as it was, or it is not lost and sets the attributes. -/
theorem updateSettingsItem_cases (orgId : String) (changes : List (String × Json)) (x : Choice)
    (w : World) : ((AdminCall.updateSettingsItem orgId changes).answer x w).2 = w ∨
      (∀ e, x.fate ≠ .lost e) ∧ ((AdminCall.updateSettingsItem orgId changes).answer x w).2 =
        w.withSettings orgId (setAttributes changes ((w.settings orgId).getD [])) := by
  rw [updateSettingsItem_world]
  split
  · next heffect =>
    refine .inr ⟨fun e he => ?_, rfl⟩
    rw [he] at heffect
    cases heffect
  · exact .inl rfl

/-- A program of these functions. -/
abbrev AdminProg := Proc AdminCall AdminCall.Resp PyErr

/-- One call. -/
def runAdmin (c : AdminCall) : AdminProg c.Resp := Proc.perform c

/-- A program of Core's services, run from one of these functions. -/
def ofCore {α : Type} (p : Prog α) : AdminProg α := p.embed AdminCall.core fun _ r => r

/-- A call whose `ClientError` is reported as `cls`. -/
def wrapClientError (c : AdminCall) (cls : ErrClass) (pfx : String) : AdminProg c.Resp :=
  try runAdmin c
  catch exc => match exc.cls with
    | .clientError _ => .raise ⟨cls, pfx ++ exc.text⟩
    | _ => throw exc

/-! ### `settings` -/

/-- `settings._MUTABLE_FIELDS`. -/
def mutableFields : List String :=
  ["timezone", "currency", "locale", "domain", "invoice_number_prefix", "next_invoice_number",
    "plan_tier", "sender_name", "metadata"]

/-- `sorted(names)`. -/
def sortedNames (names : List String) : List String := names.mergeSort fun a b => a ≤ b

/-- `f"{names}"` of a list of strings. -/
def pyReprList (names : List String) : String :=
  "[" ++ String.intercalate ", " (names.map pyRepr) ++ "]"

/-- The names that `set_org_settings` does not know. -/
def unknownFields (changes : List (String × Json)) : List String :=
  (changes.map Prod.fst).filter fun field => field ∉ mutableFields

/-- `settings.set_org_settings`. -/
def setOrgSettings (orgId : String) (changes : List (String × Json)) (changedBy : String) :
    AdminProg OrgSettings := do
  if unknownFields changes ≠ [] then
    .raise ⟨.settingsError,
      "Unknown settings field(s): " ++ pyReprList (sortedNames (unknownFields changes))⟩
  else if changes.isEmpty then .raise ⟨.settingsError, "No changes provided"⟩
  else
    let now ← ofCore (run .utcnow)
    let values ← Proc.ofExcept (changes.mapM fun change => do return (change.1, ← toValue change.2))
    wrapClientError
      (.updateSettingsItem orgId (("updated_at", .str (DateTime.isoformat now)) :: values))
      .settingsError "Failed to update settings: "
    let changedFields := Json.obj
      [("changed_fields", .arr ((sortedNames (changes.map Prod.fst)).map .str))]
    let _ ← ofCore (logAudit orgId changedBy "settings.changed" "settings" orgId changedFields)
    let _ ← ofCore (publishEvent orgId "settings.changed"
      [("changed_fields", .arr ((sortedNames (changes.map Prod.fst)).map .str))] "a2z.core")
    ofCore (getOrgSettings orgId)

/-! ### `membership` -/

/-- `Role.value`. -/
def Role.value : Role → String
  | .owner => "owner"
  | .admin => "admin"
  | .member => "member"
  | .guest => "guest"

/-- A conditional write: where the condition does not hold, the error is `failed`. -/
def conditionalWrite (c : AdminCall) (failed : PyErr) (pfx : String) : AdminProg c.Resp :=
  try runAdmin c
  catch exc => match exc.cls with
    | .clientError "ConditionalCheckFailedException" => .raise failed
    | .clientError _ => .raise ⟨.exception "MembershipError", pfx ++ exc.text⟩
    | _ => throw exc

/-- `membership.add_member`. -/
def addMember (orgId userId : String) (role : Role) (inviterId : String) : AdminProg Membership := do
  let now ← ofCore (run .utcnow)
  let item : Membership := ⟨userId, orgId, role, now⟩
  conditionalWrite (.putMembershipItem item)
    ⟨.exception "AlreadyExistsError", "User " ++ userId ++ " already in org " ++ orgId⟩
    "Failed to add member: "
  let _ ← ofCore (logAudit orgId inviterId "member.added" "user" userId
    (.obj [("role", .str role.value)]))
  let _ ← ofCore (publishEvent orgId "member.added" [("user_id", .str userId),
    ("role", .str role.value), ("inviter_id", .str inviterId)] "a2z.core")
  return item

/-- `membership.change_role`. -/
def changeRole (orgId userId : String) (newRole : Role) (changerId : String) :
    AdminProg Membership := do
  let old ← conditionalWrite (.updateRole userId orgId newRole)
    ⟨.notFoundError, "No membership for user " ++ userId ++ " in org " ++ orgId⟩
    "Failed to change role: "
  let _ ← ofCore (logAudit orgId changerId "member.role_changed" "user" userId
    (.obj [("old_role", .str old.role.value), ("new_role", .str newRole.value)]))
  let _ ← ofCore (publishEvent orgId "member.role_changed" [("user_id", .str userId),
    ("old_role", .str old.role.value), ("new_role", .str newRole.value)] "a2z.core")
  return ⟨userId, orgId, newRole, old.joinedAt⟩

/-- `membership.remove_member`. -/
def removeMember (orgId userId removerId : String) : AdminProg Unit := do
  conditionalWrite (.deleteMembershipItem userId orgId)
    ⟨.notFoundError, "No membership for user " ++ userId ++ " in org " ++ orgId⟩
    "Failed to remove member: "
  let _ ← ofCore (logAudit orgId removerId "member.removed" "user" userId (.obj []))
  let _ ← ofCore (publishEvent orgId "member.removed"
    [("user_id", .str userId), ("remover_id", .str removerId)] "a2z.core")
  return ()

/-! ### What is written, and what is called -/

theorem lookup_setAttributes (changes item : List (String × Json)) (field : String) :
    (setAttributes changes item).lookup field = (changes.lookup field).or (item.lookup field) := by
  rw [setAttributes, List.lookup_append]
  cases hchanges : changes.lookup field with
  | some value => rfl
  | none =>
    rw [Option.none_or, Option.none_or]
    induction item with
    | nil => rfl
    | cons kv item ih =>
      obtain ⟨key, value⟩ := kv
      by_cases hkey : field = key
      · subst hkey
        rw [List.filter_cons_of_pos (by simp [hchanges])]
        simp
      · have hne : (field == key) = false := by simpa using hkey
        rw [List.lookup_cons, hne, List.filter_cons]
        split
        · rw [List.lookup_cons, hne]
          exact ih
        · exact ih

theorem mapM_toValue (changes : List (String × Json)) :
    ((changes.mapM fun change => do return (change.1, ← toValue change.2)) = .ok changes ∧
        ∀ change ∈ changes, storable change.2 = true) ∨
      (∃ change ∈ changes, storable change.2 = false) ∧
        (changes.mapM fun change => do return (change.1, ← toValue change.2)) = .error
          (⟨.exception "Inexact", "[<class 'decimal.Inexact'>, <class 'decimal.Rounded'>]"⟩ : PyErr) := by
  induction changes with
  | nil => exact .inl ⟨rfl, nofun⟩
  | cons change changes ih =>
    rw [List.mapM_cons]
    cases hstorable : storable change.2 with
    | false =>
      have herror : toValue change.2 = .error
          ⟨.exception "Inexact", "[<class 'decimal.Inexact'>, <class 'decimal.Rounded'>]"⟩ :=
        if_neg (by rw [hstorable]; exact Bool.false_ne_true)
      refine .inr ⟨⟨change, List.mem_cons_self, hstorable⟩, ?_⟩
      rw [herror]
      rfl
    | true =>
      have hvalue : toValue change.2 = .ok change.2 := if_pos hstorable
      rw [hvalue]
      rcases ih with ⟨hrest, hall⟩ | ⟨⟨bad, hbad, hfalse⟩, hrest⟩
      · rw [hrest]
        refine .inl ⟨rfl, fun other hother => ?_⟩
        rcases List.mem_cons.mp hother with rfl | hother
        · exact hstorable
        · exact hall other hother
      · rw [hrest]
        exact .inr ⟨⟨bad, List.mem_cons_of_mem _ hbad, hfalse⟩, rfl⟩

/-- What `wrapClientError` makes of an error. -/
def wrapped (cls : ErrClass) (pfx : String) (e : PyErr) : PyErr :=
  match e.cls with
  | .clientError _ => ⟨cls, pfx ++ e.text⟩
  | _ => e

theorem wrapClientError_eq (c : AdminCall) (cls : ErrClass) (pfx : String) :
    wrapClientError c cls pfx = (runAdmin c).handle fun e => .raise (wrapped cls pfx e) := by
  refine congrArg (Proc.handle (runAdmin c)) (funext fun e => ?_)
  unfold wrapped
  cases e.cls <;> rfl

theorem wrapped_cases (cls : ErrClass) (pfx : String) (e : PyErr) :
    (wrapped cls pfx e).cls = cls ∨ wrapped cls pfx e = e := by
  unfold wrapped
  split
  · exact .inl rfl
  · exact .inr rfl

theorem calls_ofCore {α : Type} {P : AdminCall → Prop} {Q : Call → Prop} {p : Core.Prog α}
    (hP : ∀ c, Q c → P (.core c)) (hp : p.Calls Q) : (ofCore p).Calls P :=
  (hp.mono hP).embed

theorem calls_setOrgSettings {orgId changedBy : String} {changes : List (String × Json)}
    {P : AdminCall → Prop} (hcore : ∀ c : Call, c.Plain → P (.core c))
    (hwrite : ∀ now, P (.updateSettingsItem orgId (("updated_at", now) :: changes))) :
    (setOrgSettings orgId changes changedBy).Calls P := by
  unfold setOrgSettings
  split
  · trivial
  split
  · trivial
  refine Calls.bind (calls_ofCore hcore (Calls.perform trivial)) fun now => ?_
  rcases mapM_toValue changes with ⟨hvalues, _⟩ | ⟨_, hvalues⟩
  case inr =>
    rw [hvalues]
    trivial
  rw [hvalues, Proc.ofExcept_ok]
  show Calls _ (Proc.bind (wrapClientError _ _ _) _)
  rw [wrapClientError_eq]
  refine Calls.bind (Calls.handle (Calls.perform (hwrite _)) fun _ => trivial) fun _ => ?_
  refine Calls.bind (calls_ofCore hcore (plain_logAudit _ _ _ _ _ _)) fun _ => ?_
  refine Calls.bind (calls_ofCore hcore (plain_publishEvent _ _ _ _)) fun _ => ?_
  exact calls_ofCore hcore (plain_getOrgSettings _)

end A2ZCore.Core
