import A2ZCore.Lib.Pool
import A2ZCore.Omnichannel.Assignments
import A2ZCore.Omnichannel.SettingsWrites

/-!
# Writers of the settings' metadata, side by side

`set_routing_config` keeps its configuration in one entry of the settings' metadata, but writes the
metadata as a whole: it reads them, changes its entry, and stores everything it has read with it. What
another writer stores in between, under another name, is lost. Every entry holds what was last written to
it in the runs in which each such write finds the other entries as it has read them.

## Main definitions

* `SystemCall` — the calls of the service, and of Core's functions for admins
* `setRoutingConfig` — checks, and the change of one entry
* `Writer` — writers of one entry, and of the settings as such
* `Current` — a write finds the entries of the others as it has read them

## Main results

* `metadata_iff_current` — any number of writers, in any interleaving
-/

namespace A2ZCore.Omnichannel

open Interaction Interaction.Proc A2ZCore.Core

/-! ### The calls -/

/-- The calls of the service, and those of Core's functions for admins. -/
inductive SystemCall where
  | service (c : Call)
  | admin (c : AdminCall)

/-- What a call replies. -/
def SystemCall.Resp : SystemCall → Type
  | service c => c.Resp
  | admin c => c.Resp

/-- The reply to a call and the state it leaves. -/
def SystemCall.answer (c : SystemCall) (x : Choice) (w : World) : Except PyErr c.Resp × World :=
  match c with
  | .service c => c.answer x w
  | .admin c =>
    let r := c.answer x.toChoice w.core
    (r.1, { w with core := r.2 })

/-- A program of the service that also changes settings. -/
abbrev SystemProg := Proc SystemCall SystemCall.Resp PyErr

/-- A program of the service. -/
def service {α : Type} (p : Prog α) : SystemProg α := p.embed SystemCall.service fun _ r => r

/-- A program of Core's functions for admins. -/
def admin {α : Type} (p : AdminProg α) : SystemProg α := p.embed SystemCall.admin fun _ r => r

/-! ### `routing.set_routing_config` -/

/-- `_SUPPORTED_STRATEGIES`. -/
def supportedStrategies : List String := ["manual", "single_assignee"]

/-- The checks of `set_routing_config`. -/
def checkRoutingConfig (orgId actorUserId strategy : String) (singleAssigneeUserId : Option String) :
    Prog Unit := do
  let _ ← requireRole actorUserId orgId adminRoles "Only Owner/Admin can configure routing"
  if strategy ∉ supportedStrategies then
    fail (.exception "RoutingError") ("Unsupported routing strategy " ++ pyRepr strategy ++
      " (round-robin/sticky are deferred, §15)")
  else if strategy = "single_assignee" then
    match singleAssigneeUserId with
    | none | some "" =>
      fail (.exception "RoutingError") "single_assignee requires single_assignee_user_id"
    | some userId =>
      let _ ← requireMembership userId orgId (pyRepr userId ++ " is not a member of this org")
      return ()
  else return ()

/-- The entry that `set_routing_config` writes. -/
def routingEntry (strategy : String) (singleAssigneeUserId : Option String) : Json :=
  .obj [("routing_strategy", .str strategy),
    ("single_assignee_user_id", .ofOption singleAssigneeUserId)]

/-- Reading the metadata, and writing them back with another entry. -/
def writeEntry (orgId name : String) (entry : Json) (changedBy : String) : AdminProg OrgSettings := do
  let orgSettings ← ofCore (getOrgSettings orgId)
  setOrgSettings orgId [("metadata", .obj (Json.set name entry orgSettings.metadata))] changedBy

/-- `set_routing_config`. -/
def setRoutingConfig (orgId actorUserId strategy : String) (singleAssigneeUserId : Option String) :
    SystemProg Json := do
  service (checkRoutingConfig orgId actorUserId strategy singleAssigneeUserId)
  let _ ← admin (writeEntry orgId "omnichannel" (routingEntry strategy singleAssigneeUserId)
    actorUserId)
  return routingEntry strategy singleAssigneeUserId

/-! ### Writers -/

/-- A writer of an org's settings: of the routing configuration, of another entry of the metadata in the
same manner, or of any fields. -/
inductive Writer where
  | routing (actorUserId strategy : String) (singleAssigneeUserId : Option String)
  | entry (name : String) (value : Json) (changedBy : String)
  | fields (changes : List (String × Json)) (changedBy : String)

namespace Writer

/-- What a writer does. -/
def program (orgId : String) : Writer → SystemProg Unit
  | routing actorUserId strategy singleAssigneeUserId => do
    let _ ← setRoutingConfig orgId actorUserId strategy singleAssigneeUserId
    return ()
  | entry name value changedBy => do
    let _ ← admin (writeEntry orgId name value changedBy)
    return ()
  | fields changes changedBy => do
    let _ ← admin (setOrgSettings orgId changes changedBy)
    return ()

/-- The entry that a writer changes, if it changes one. -/
def entry? : Writer → Option (String × Json)
  | routing _ strategy singleAssigneeUserId =>
    some ("omnichannel", routingEntry strategy singleAssigneeUserId)
  | entry name value _ => some (name, value)
  | fields _ _ => none

end Writer

/-- The metadata of a settings item. -/
def metadataIn (item : List (String × Json)) : List (String × Json) :=
  match item.lookup "metadata" with
  | some (.obj metadata) => metadata
  | _ => []

/-- The metadata of an org. -/
def metadataOf (orgId : String) (w : World) : List (String × Json) :=
  metadataIn ((w.core.settings orgId).getD [])

/-- What a writer's write makes of the metadata: it sets its entry, and otherwise the metadata that are
among its fields. -/
def Writer.intend (writer : Writer) (changes metadata : List (String × Json)) :
    List (String × Json) :=
  match writer.entry? with
  | some (name, value) => Json.set name value metadata
  | none => if (changes.lookup "metadata").isSome then metadataIn changes else metadata

/-- The metadata as the writes so far have left each entry. A write that has no effect leaves
nothing. -/
def lastWritten (writers : List Writer) (metadata : List (String × Json)) (i : ℕ) (c : SystemCall)
    (x : Choice) (_ : World) : List (String × Json) :=
  match c, writers[i]? with
  | .admin (.updateSettingsItem _ changes), some writer =>
    if takesEffect changes x.fate then writer.intend changes metadata else metadata
  | _, _ => metadata

/-- A write of one entry that takes effect writes the other entries as they are. -/
def Current (orgId : String) (writers : List Writer) (i : ℕ) (c : SystemCall) (x : Choice) (w : World) :
    Prop :=
  match c, writers[i]?.bind Writer.entry? with
  | .admin (.updateSettingsItem _ changes), some (name, _) => takesEffect changes x.fate →
    ∀ other, other ≠ name → (metadataIn changes).lookup other = (metadataOf orgId w).lookup other
  | _, _ => True

/-! ### The calls of a writer -/

/-- What `set_org_settings` calls. -/
def WritesChanges (orgId : String) (changes : List (String × Json)) : AdminCall → Prop
  | .core c => c.KeepsSettings
  | .updateSettingsItem org written => org = orgId ∧ ∃ now, written = ("updated_at", now) :: changes
  | _ => False

theorem writesChanges_setOrgSettings (orgId changedBy : String) (changes : List (String × Json)) :
    (setOrgSettings orgId changes changedBy).Calls (WritesChanges orgId changes) :=
  calls_setOrgSettings (fun _ hc => hc.keepsSettings) fun now => ⟨rfl, now, rfl⟩

/-- What a writer calls: a write of its entry into metadata that it has read, or of its fields. -/
def WritesAs (orgId : String) (writer : Writer) : SystemCall → Prop
  | .service c => c.Harmless
  | .admin c => ∃ changes, WritesChanges orgId changes c ∧ match writer with
    | .fields fields _ => changes = fields
    | .routing _ strategy singleAssigneeUserId => ∃ metadata, changes = [("metadata",
        .obj (Json.set "omnichannel" (routingEntry strategy singleAssigneeUserId) metadata))]
    | .entry name value _ => ∃ metadata, changes = [("metadata", .obj (Json.set name value metadata))]

theorem calls_writeEntry {orgId name changedBy : String} {value : Json} {P : AdminCall → Prop}
    (hcore : ∀ c : Core.Call, c.Plain → P (.core c))
    (hwrite : ∀ metadata now, P (.updateSettingsItem orgId
      [("updated_at", now), ("metadata", .obj (Json.set name value metadata))])) :
    (writeEntry orgId name value changedBy).Calls P :=
  Calls.bind (calls_ofCore hcore (Core.plain_getOrgSettings _)) fun s =>
    calls_setOrgSettings hcore (hwrite s.metadata)

theorem calls_writer (orgId : String) (writer : Writer) :
    (writer.program orgId).Calls (WritesAs orgId writer) := by
  cases writer with
  | routing actorUserId strategy singleAssigneeUserId =>
    refine Calls.bind (Calls.bind (Calls.embed ?_) fun _ => Calls.bind (Calls.embed ?_) fun _ => ?_)
      fun _ => trivial
    · refine Calls.bind (calls_harmless_requireRole _ _ _ _) fun _ => ?_
      split
      · trivial
      split
      · split
        · trivial
        · trivial
        · exact Calls.bind (calls_harmless_requireMembership _ _ _) fun _ => trivial
      · trivial
    · exact calls_writeEntry (fun c hc => ⟨_, hc.keepsSettings, [], rfl⟩)
        fun metadata now => ⟨_, ⟨rfl, now, rfl⟩, metadata, rfl⟩
    · trivial
  | entry name value changedBy =>
    exact Calls.bind (Calls.embed (calls_writeEntry (fun c hc => ⟨_, hc.keepsSettings, [], rfl⟩)
        fun metadata now => ⟨_, ⟨rfl, now, rfl⟩, metadata, rfl⟩))
      fun _ => trivial
  | fields changes changedBy =>
    exact Calls.bind (Calls.embed ((writesChanges_setOrgSettings _ _ _).mono fun c hc => ⟨_, hc, rfl⟩))
      fun _ => trivial

/-! ### One write -/

/-- The metadata of the org have each entry as it was last written. -/
def Agrees (orgId : String) (w : World) (metadata : List (String × Json)) : Prop :=
  ∀ name, (metadataOf orgId w).lookup name = metadata.lookup name

/-- A call that changes no settings changes no metadata. -/
theorem metadataOf_of_settings {orgId : String} {w w' : World}
    (h : w'.core.settings = w.core.settings) : metadataOf orgId w' = metadataOf orgId w := by
  rw [metadataOf, h, metadataOf]

/-- The metadata after a write of an entry, or of fields. -/
theorem metadataIn_setAttributes (changes item : List (String × Json)) (now : Json) :
    metadataIn (setAttributes (("updated_at", now) :: changes) item) =
      if (changes.lookup "metadata").isSome then metadataIn changes else metadataIn item := by
  have hskip : (("updated_at", now) :: changes).lookup "metadata" = changes.lookup "metadata" := rfl
  rw [metadataIn, lookup_setAttributes, hskip]
  cases hlookup : changes.lookup "metadata" with
  | none => rfl
  | some value => rw [metadataIn, hlookup]; rfl

/-- The change of an entry leaves every entry as it was last written exactly when the other entries are
written as they are. -/
theorem agrees_set_iff {orgId name : String} {value : Json} {read metadata : List (String × Json)}
    {w w' : World} (h : Agrees orgId w metadata)
    (hw' : metadataOf orgId w' = Json.set name value read) :
    Agrees orgId w' (Json.set name value metadata) ↔ ∀ other, other ≠ name →
      (Json.set name value read).lookup other = (metadataOf orgId w).lookup other := by
  constructor
  · intro hagrees other hother
    have hsame := hagrees other
    rw [hw', Json.lookup_set name other value metadata, if_neg hother] at hsame
    rw [hsame, h other]
  · intro hothers other
    rw [hw']
    by_cases hother : other = name
    · rw [Json.lookup_set, Json.lookup_set, if_pos hother, if_pos hother]
    · rw [hothers other hother, Json.lookup_set, if_neg hother, h other]

theorem current_update {orgId org : String} {changes : List (String × Json)} {writers : List Writer}
    {i : ℕ} {writer : Writer} (hwriter : writers[i]? = some writer) {x : Choice}
    (heffect : takesEffect changes x.fate = true) (w : World) :
    Current orgId writers i (.admin (.updateSettingsItem org changes)) x w ↔
      ∀ name value, writer.entry? = some (name, value) → ∀ other, other ≠ name →
        (metadataIn changes).lookup other = (metadataOf orgId w).lookup other := by
  unfold Current
  rw [hwriter, Option.bind_some]
  cases hentry : writer.entry? with
  | none => exact ⟨fun _ _ _ h => (nomatch h), fun _ => trivial⟩
  | some entry =>
    refine ⟨fun h name value hname => ?_, fun h _ => h entry.1 entry.2 rfl⟩
    cases hname
    exact h heffect

/-- A write without effect leaves the world, and what is recorded, as they are. -/
theorem idle_of_noEffect (orgId org : String) {changes : List (String × Json)} (writers : List Writer)
    {i : ℕ} {x : Choice} (heffect : takesEffect changes x.fate = false) (w : World)
    (metadata : List (String × Json)) :
    (SystemCall.answer (.admin (.updateSettingsItem org changes)) x w).2 = w ∧
      lastWritten writers metadata i (.admin (.updateSettingsItem org changes)) x w = metadata ∧
      Current orgId writers i (.admin (.updateSettingsItem org changes)) x w := by
  refine ⟨?_, ?_, ?_⟩
  · refine congrArg (fun core => { w with core }) ((updateSettingsItem_world _ _ _ _).trans ?_)
    exact if_neg (Bool.eq_false_iff.mp heffect)
  · unfold lastWritten
    cases writers[i]? with
    | none => rfl
    | some writer => exact if_neg (Bool.eq_false_iff.mp heffect)
  · unfold Current
    cases writers[i]?.bind Writer.entry? with
    | none => trivial
    | some entry => exact fun h => absurd h (Bool.eq_false_iff.mp heffect)

/-- A write that takes effect sets the changed attributes of the item. -/
theorem settings_of_effect (org : String) {changes : List (String × Json)} {x : Choice}
    (heffect : takesEffect changes x.fate = true) (w : World) :
    (SystemCall.answer (.admin (.updateSettingsItem org changes)) x w).2.core.settings org =
      some (setAttributes changes ((w.core.settings org).getD [])) := by
  refine (congrArg (fun core => core.settings org) ((updateSettingsItem_world _ _ _ _).trans
    (if_pos heffect))).trans ?_
  exact Function.update_self _ _ _

/-- What a write of a writer holds: its entry among entries that it has read, or its fields. -/
theorem WritesAs.shape {orgId org : String} {writer : Writer} {written : List (String × Json)}
    (h : WritesAs orgId writer (.admin (.updateSettingsItem org written))) :
    org = orgId ∧ ∃ now changes, written = ("updated_at", now) :: changes ∧
      ∀ name value, writer.entry? = some (name, value) →
        ∃ read, changes = [("metadata", .obj (Json.set name value read))] := by
  obtain ⟨changes, ⟨horg, now, hwritten⟩, hshape⟩ := h
  refine ⟨horg, now, changes, hwritten, fun name value hentry => ?_⟩
  cases writer with
  | routing | entry =>
    cases hentry
    exact hshape
  | fields => cases hentry

/-- A write that takes effect. -/
theorem agrees_iff_of_update {orgId : String} {writer : Writer} {changes : List (String × Json)}
    {now : Json} (hshape : ∀ name value, writer.entry? = some (name, value) →
      ∃ read, changes = [("metadata", .obj (Json.set name value read))])
    {metadata : List (String × Json)} {w w' : World} (h : Agrees orgId w metadata)
    (hw' : w'.core.settings orgId = some (setAttributes (("updated_at", now) :: changes)
      ((w.core.settings orgId).getD []))) :
    Agrees orgId w' (writer.intend (("updated_at", now) :: changes) metadata) ↔
      ∀ name value, writer.entry? = some (name, value) → ∀ other, other ≠ name →
        (metadataIn (("updated_at", now) :: changes)).lookup other =
          (metadataOf orgId w).lookup other := by
  have hlookup : metadataIn (("updated_at", now) :: changes) = metadataIn changes := rfl
  have hafter : metadataOf orgId w' = if (changes.lookup "metadata").isSome then metadataIn changes
      else metadataOf orgId w := by
    rw [metadataOf, hw', Option.getD_some, metadataIn_setAttributes, metadataOf]
  rw [hlookup, Writer.intend]
  cases hentry : writer.entry? with
  | none =>
    refine ⟨fun _ _ _ h => (nomatch h), fun _ name => ?_⟩
    have hskip : (("updated_at", now) :: changes).lookup "metadata" = changes.lookup "metadata" := rfl
    rw [hafter]
    dsimp only
    rw [hskip, hlookup]
    split
    · rfl
    · exact h name
  | some entry =>
    obtain ⟨name, value⟩ := entry
    obtain ⟨read, rfl⟩ := hshape name value hentry
    have hset : metadataIn [("metadata", Json.obj (Json.set name value read))] =
        Json.set name value read := rfl
    have hw'' : metadataOf orgId w' = Json.set name value read := by
      rw [hafter, hset]
      rfl
    rw [hset]
    refine (agrees_set_iff h hw'').trans ⟨fun hothers name' value' hname => ?_,
      fun hothers => hothers name value rfl⟩
    cases hname
    exact hothers

theorem agrees_iff_current {orgId : String} {writers : List Writer} {i : ℕ} {writer : Writer}
    (hwriter : writers[i]? = some writer) {c : SystemCall} (hc : WritesAs orgId writer c) (x : Choice)
    (w : World) (metadata : List (String × Json)) (h : Agrees orgId w metadata) :
    Agrees orgId (c.answer x w).2 (lastWritten writers metadata i c x w) ↔
      Current orgId writers i c x w := by
  have hsame : ∀ {w'}, w'.core.settings = w.core.settings → Agrees orgId w' metadata := by
    intro w' hw' name
    rw [metadataOf_of_settings hw']
    exact h name
  match c, hc with
  | .service c, hc =>
    exact ⟨fun _ => trivial, fun _ => hsame (calm_answer hc x w).core.settings⟩
  | .admin (.core c), ⟨_, hc, _⟩ =>
    exact ⟨fun _ => trivial, fun _ => hsame (Core.steady_answer hc x.toChoice w.core).settings⟩
  | .admin (.updateSettingsItem org written), hc =>
    obtain ⟨rfl, now, changes, rfl, hshape⟩ := hc.shape
    cases heffect : takesEffect (("updated_at", now) :: changes) x.fate with
    | false =>
      obtain ⟨hw, hlast, hcurrent⟩ := idle_of_noEffect org org writers (i := i) heffect w
        metadata
      rw [hw, hlast]
      exact ⟨fun _ => hcurrent, fun _ => h⟩
    | true =>
      have hlast : lastWritten writers metadata i
          (.admin (.updateSettingsItem org (("updated_at", now) :: changes))) x w =
            writer.intend (("updated_at", now) :: changes) metadata := by
        unfold lastWritten
        rw [hwriter]
        exact if_pos heffect
      rw [hlast, current_update hwriter heffect]
      exact agrees_iff_of_update hshape h (settings_of_effect org heffect w)

/-! ### Writers side by side -/

/-- Writers of an org's settings, none of which has begun. -/
def settingsWriters (orgId : String) (writers : List Writer) (w : World) :
    Pool SystemCall SystemCall.Resp PyErr Unit World where
  procs := writers.map (Writer.program orgId)
  world := w

/-- **Writers of the metadata.** At every point of every interleaving of writers of an org's settings,
each entry of the metadata is as it was last written, exactly when each write of one entry that takes
effect writes the other entries as they are. -/
theorem metadata_iff_current (orgId : String) (writers : List Writer) (w : World)
    (schedule : List (ℕ × Choice)) :
    (∀ n, Agrees orgId ((settingsWriters orgId writers w).run SystemCall.answer (schedule.take n)).world
        (Pool.recorded SystemCall.answer (lastWritten writers) (settingsWriters orgId writers w)
          (schedule.take n) (metadataOf orgId w))) ↔
      Pool.AlongAt SystemCall.answer (Current orgId writers) (settingsWriters orgId writers w)
        schedule := by
  refine Pool.recorded_iff (P := fun i c => ∃ writer, writers[i]? = some writer ∧
    WritesAs orgId writer c) (fun i c x w metadata ⟨writer, hwriter, hc⟩ h =>
      agrees_iff_current hwriter hc x w metadata h) (fun i p hp => ?_) fun _ => rfl
  rw [settingsWriters, List.getElem?_map] at hp
  cases hwriter : writers[i]? with
  | none => rw [hwriter] at hp; cases hp
  | some writer =>
    rw [hwriter] at hp
    cases hp
    exact (calls_writer orgId writer).mono fun c hc => ⟨writer, rfl, hc⟩

/-- The routing configuration is set while another entry is being added. -/
def rivals : List Writer := [.routing "ada" "manual" none, .entry "billing" (.str "monthly") "bob"]

/-- Both writers read the settings, and then both write them. -/
def readThenWrite : List (ℕ × Choice) :=
  calmly ([0, 0, 1] ++ List.replicate 8 1 ++ List.replicate 8 0)

/-- Both writers succeed, and the entry of the first to write is lost. -/
theorem not_agrees : ¬∀ (orgId : String) (writers : List Writer) (w : World)
    (schedule : List (ℕ × Choice)),
      (∀ i < writers.length, (((settingsWriters orgId writers w).run SystemCall.answer
        schedule).returned i).isSome) →
      Agrees orgId ((settingsWriters orgId writers w).run SystemCall.answer schedule).world
        (Pool.recorded SystemCall.answer (lastWritten writers) (settingsWriters orgId writers w) schedule
          (metadataOf orgId w)) := by
  intro h
  have hagrees := h "org" rivals inboxWorld readThenWrite (by decide +kernel) "billing"
  have hlost : ((metadataOf "org" ((settingsWriters "org" rivals inboxWorld).run SystemCall.answer
      readThenWrite).world).lookup "billing").isSome = false := by decide +kernel
  have hwritten : ((Pool.recorded SystemCall.answer (lastWritten rivals)
      (settingsWriters "org" rivals inboxWorld) readThenWrite
        (metadataOf "org" inboxWorld)).lookup "billing").isSome = true := by decide +kernel
  rw [hagrees, hwritten] at hlost
  cases hlost

end A2ZCore.Omnichannel
