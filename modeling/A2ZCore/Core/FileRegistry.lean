import A2ZCore.Core.Orgs
import A2ZCore.Core.Storage
import Mathlib

/-!
# The registry of an org's files

The files that have been uploaded, and which of them are deleted, against what `list_files` and
`get_file_metadata` say. They say the same as long as every key that is deleted is that of an uploaded
file, no upload takes the key of a file that is there, and no file that should be listed is beyond the
page that is read. The table and its index are read as they stand after the last call: DynamoDB's own
delays, between a write and a read or between the table and an index, are left out.

A key that was never uploaded can be deleted: `update_item` makes an item of it, which has no metadata
to return. An upload can take a key that is taken, since the service type and the filename may have
slashes in them. And a listing reads one page.

## Main definitions

* `Entry`, `FileEvent`, `Recorded` — the log of an org's files, and the states with such a log
* `FileEvent.Smooth` — a step after which the registry still says what the log says
* `FileEvent.Orderly` — a step that is smooth after orderly ones
* `ListsFiles`, `FindsFile` — what the two functions should return

## Main results

* `wp_uploadFile`, `wp_deleteFile` — what a call that succeeds does to the table
* `Recorded.smooth` — orderly runs are runs of smooth steps
* `registry_faithful` — in a run of smooth steps, what they do return
* `registry_of_smooth` — the same of a listing and a key in one state
* `getFileMetadata_of_deleted` — what is said of a key that was deleted and never uploaded
-/

namespace A2ZCore.Core

open Interaction Interaction.Proc Interaction.Contract FixedWidth

/-! ### The log -/

/-- A file that has been uploaded, and whether it has been deleted. -/
structure Entry where
  file : StoredFile
  deleted : Bool

/-- The item of a file. -/
def Entry.item (orgId : String) (e : Entry) : FileItem where
  orgId := orgId
  key := e.file.key
  filename := e.file.filename
  sizeBytes := e.file.sizeBytes
  mimeType := e.file.mimeType
  uploadedAt := e.file.uploadedAt.isoformat
  uploadedBy := e.file.uploadedBy
  serviceType := e.file.serviceType
  isDeleted := e.deleted

/-- The file but for its signed URL, which is another each time. -/
def StoredFile.unsigned (file : StoredFile) : StoredFile := { file with signedUrl := "" }

/-- A call that has succeeded: the file that was uploaded, or the key that was deleted. -/
inductive FileEvent where
  | uploaded (file : StoredFile)
  | deleted (key : String)

/-- The log after a call. -/
def FileEvent.record (log : List Entry) : FileEvent → List Entry
  | .uploaded file => log ++ [⟨file, false⟩]
  | .deleted key => log.map fun e => if e.file.key = key then { e with deleted := true } else e

/-- The files that are there. -/
def live (log : List Entry) : List StoredFile := (log.filter fun e => !e.deleted).map Entry.file

/-- The file that was uploaded last under a key. -/
def latest (log : List Entry) (key : String) : Option StoredFile :=
  (log.reverse.find? fun e => e.file.key == key).map Entry.file

/-- The environment's clock shows times that exist. -/
def Timely (o : Oracle Choice) : Prop := ∀ n x, o n = some x → x.now.Valid

/-- The states reached by successful calls of an org, each of them one that may happen after the log so
far, and their log. -/
inductive Recorded (store : Store) (orgId : String) (May : List Entry → FileEvent → Prop) :
    StorageWorld → List Entry → Prop where
  | start {w : StorageWorld} (h : ∀ row ∈ w.rows, row.orgId ≠ orgId) : Recorded store orgId May w []
  | uploaded {w w' : StorageWorld} {log : List Entry} (hw : Recorded store orgId May w log)
      (serviceType filename : String) (content : Bytes) (mimeType uploadedBy : String)
      {o : Oracle Choice} (ho : Timely o) {file : StoredFile}
      (h : exec (StorageCall.answer store) (fromFiles
        (uploadFile orgId serviceType filename content mimeType uploadedBy)) o w =
          (some (.ok file), w'))
      (hmay : May log (.uploaded file)) :
    Recorded store orgId May w' (FileEvent.record log (.uploaded file))
  | deleted {w w' : StorageWorld} {log : List Entry} (hw : Recorded store orgId May w log)
      (key deletedBy : String) {o : Oracle Choice}
      (h : exec (StorageCall.answer store) (deleteFile orgId key deletedBy) o w =
        (some (.ok ()), w'))
      (hmay : May log (.deleted key)) :
    Recorded store orgId May w' (FileEvent.record log (.deleted key))

/-- Uploads are made at distinct times. -/
def AtDistinctTimes (log : List Entry) : FileEvent → Prop
  | .uploaded file => ∀ e ∈ log, e.file.uploadedAt ≠ file.uploadedAt
  | .deleted _ => True

/-- An upload does not take the key of a file that is there, and a key that is deleted has been uploaded. -/
def FileEvent.Smooth (log : List Entry) : FileEvent → Prop
  | .uploaded file => ∀ e ∈ log, e.deleted = false → e.file.key ≠ file.key
  | .deleted key => ∃ e ∈ log, e.file.key = key

/-! ### What a call does to the table -/

/-- A program that runs while nobody else writes to the table. -/
def tabled (store : Store) (A : Choice → Prop) :
    Contract StorageCall StorageCall.Resp PyErr Choice StorageWorld where
  answer := StorageCall.answer store
  rely w w' := w'.rows = w.rows
  admits _ x _ := A x
  guar _ _ _ _ := True
  rely_refl _ := rfl
  rely_trans h h' := h'.trans h

/-- The call does not write to the table. -/
def StorageCall.KeepsRows : StorageCall → Prop
  | core (.putFileItem _) => False
  | updateFileItem _ _ => False
  | _ => True

section Rows

variable {store : Store} {A : Choice → Prop}

theorem rows_answer {c : StorageCall} (hc : c.KeepsRows) (x : Choice) (w : StorageWorld) :
    (c.answer store x w).2.rows = w.rows := by
  cases c with
  | core c =>
    cases c with
    | putFileItem => exact hc.elim
    | _ => rfl
  | updateFileItem => exact hc.elim
  | getFileItem | queryFiles | deleteObject =>
    refine Fate.settle_frame _ _ _ StorageWorld.rows fun a w' h => ?_
    cases h
    rfl

/-- A call that keeps the table does no more than the others. -/
theorem keeps_tabled (c : StorageCall) (hc : c.KeepsRows) (x : Choice) (w : StorageWorld)
    (_ : (tabled store A).admits c x w) :
    (tabled store A).guar c x w ((tabled store A).answer c x w).2 ∧
      (tabled store A).rely w ((tabled store A).answer c x w).2 :=
  ⟨trivial, rows_answer hc x w⟩

theorem reports_keepsRows : Reports fun c => (StorageCall.core c).KeepsRows where
  utcnow := trivial
  uuid4 := trivial
  putAuditItem _ := trivial
  putEvents _ := trivial

/-- What is said of a program if it returns. -/
def IfReturns {α : Type} (P : α → StorageWorld → Prop) (r : Except PyErr α) (w : StorageWorld) : Prop :=
  ∀ a, r = .ok a → P a w

theorem ifReturns_error {α : Type} {P : α → StorageWorld → Prop} (e : PyErr) (w : StorageWorld) :
    IfReturns P (.error e) w := by
  intro a h
  cases h

/-- The setting of Core's programs. -/
def shelved (store : Store) (A : Choice → Prop) : Contract Call Call.Resp PyErr Choice StorageWorld :=
  (tabled store A).comap StorageCall.core fun _ r => r

theorem keeps_shelved (c : Call) (hc : (StorageCall.core c).KeepsRows) (x : Choice)
    (w : StorageWorld) (_ : (shelved store A).admits c x w) :
    (shelved store A).guar c x w ((shelved store A).answer c x w).2 ∧
      (shelved store A).rely w ((shelved store A).answer c x w).2 :=
  ⟨trivial, rows_answer hc x w⟩

/-- A part of a program that keeps the table. -/
theorem wp_shelved_bind {α β : Type} {p : Prog α} {f : α → Prog β} {w : StorageWorld}
    {P : β → StorageWorld → Prop} (hp : p.Calls fun c => (StorageCall.core c).KeepsRows)
    (hf : ∀ a w', w'.rows = w.rows → (shelved store A).wp (f a) w' (IfReturns P)) :
    (shelved store A).wp (p.bind f) w (IfReturns P) :=
  wp_bind_of_calls keeps_shelved hp (returns_true _) (fun a w' h _ => hf a w' h)
    fun e w' _ => ifReturns_error e w'

/-- An item is put. -/
theorem wp_shelved_put {β : Type} {item : FileItem} {f : Unit → Prog β} {w : StorageWorld}
    {P : β → StorageWorld → Prop}
    (hf : ∀ w', w'.rows = putRow (.file item) w.rows →
      (shelved store A).wp (f ()) w' (IfReturns P)) :
    (shelved store A).wp ((run (.putFileItem item)).bind f) w (IfReturns P) := by
  refine wp_bind (wp_perform fun w₁ h₁ x _ => ⟨trivial, ?_⟩)
  have hanswer : (shelved store A).answer (.putFileItem item) x w₁ = x.fate.settle (.ok ((),
      { core := { w₁.core with files := w₁.core.files ++ [item] }
        rows := putRow (.file item) w₁.rows })) w₁ := by
    have hput : StorageCall.answer store (.core (.putFileItem item)) x w₁ = x.fate.settle (.ok ((),
        { core := { w₁.core with files := w₁.core.files ++ [item] }
          rows := putRow (.file item) w₁.rows })) w₁ := rfl
    simp only [shelved, comap, tabled]
    rw [hput]
    cases x.fate <;> rfl
  have hrows : w₁.rows = w.rows := h₁
  rw [hanswer]
  cases x.fate with
  | ok =>
    refine hf _ ?_
    rw [← hrows]
    rfl
  | lost e | late e => exact ifReturns_error (P := P) e _

/-- The key of a file is made of its other fields. -/
def StoredFile.IsKeyed (orgId : String) (file : StoredFile) : Prop :=
  file.key = orgId ++ "/" ++ file.serviceType ++ "/" ++ DateTime.stamp file.uploadedAt ++ "_" ++
    file.filename

/-- The item that is put for a file. -/
theorem wp_uploadFile (orgId serviceType filename : String) (content : Bytes)
    (mimeType uploadedBy : String) (w : StorageWorld) :
    (tabled store fun x => x.now.Valid).wp (fromFiles
      (uploadFile orgId serviceType filename content mimeType uploadedBy)) w (IfReturns fun file w' =>
        (file.uploadedAt.Valid ∧ file.IsKeyed orgId) ∧
          w'.rows = putRow (.file (Entry.item orgId ⟨file, false⟩)) w.rows) := by
  refine wp_comap ?_
  show (shelved store fun x => x.now.Valid).wp _ w _
  unfold uploadFile
  split
  · exact ifReturns_error _ _
  refine wp_bind (wp_perform fun w₁ h₁ x hx => ⟨trivial, ?_⟩)
  have hnow : x.now.Valid := hx
  refine wp_shelved_bind ?_ fun _ w₂ h₂ => ?_
  · refine Calls.handle (Calls.perform trivial) fun exc => ?_
    split <;> trivial
  refine wp_shelved_put fun w₃ h₃ => ?_
  refine wp_shelved_bind (reports_keepsRows.calls_logAudit _ _ _ _ _ _) fun _ w₄ h₄ => ?_
  refine wp_shelved_bind (Calls.perform trivial) fun signedUrl w₅ h₅ => ?_
  intro file hfile
  cases hfile
  refine ⟨⟨hnow, rfl⟩, ?_⟩
  rw [h₅, h₄, h₃, h₂]
  exact congrArg _ h₁

/-- A deletion that succeeds marks the item. -/
theorem wp_deleteFile (orgId key deletedBy : String) (w : StorageWorld) :
    (tabled store fun _ => True).wp (deleteFile orgId key deletedBy) w (IfReturns fun _ w' =>
      w'.rows = markRow orgId key w.rows) := by
  unfold deleteFile
  refine wp_bind (wp_ofExcept.mpr ?_)
  cases assertOrgScope orgId key with
  | error e => exact ifReturns_error (P := fun _ w' => w'.rows = _) e w
  | ok _ =>
    refine wp_bind_of_calls keeps_tabled (P := StorageCall.KeepsRows) ?_ (returns_true _)
      (fun _ w₁ h₁ _ => ?_) fun e w' _ => ifReturns_error e w'
    · refine Calls.handle (Calls.perform trivial) fun exc => ?_
      split <;> trivial
    refine wp_bind (wp_perform fun w₂ h₂ x _ => ⟨trivial, ?_⟩)
    have hanswer : (tabled store fun _ => True).answer (.updateFileItem orgId key) x w₂ =
        x.fate.settle (.ok ((), { w₂ with rows := markRow orgId key w₂.rows })) w₂ := rfl
    rw [hanswer]
    cases x.fate with
    | lost e | late e => exact ifReturns_error (P := fun _ w' => w'.rows = _) e _
    | ok =>
      refine wp_bind_of_calls keeps_tabled (P := StorageCall.KeepsRows)
        (Calls.embed (reports_keepsRows.calls_logAudit _ _ _ _ _ _)) (returns_true _)
        (fun _ w₃ h₃ _ => ?_) fun e w' _ => ifReturns_error e w'
      intro _ _
      have hrows : w₂.rows = w.rows := h₂.trans h₁
      rw [h₃, ← hrows]
      rfl

end Rows

/-! ### The table under a put and a mark -/

section Table

variable {orgId key key' : String} {rows : List FileRow}

theorem findRow_cons (row : FileRow) : findRow orgId key (row :: rows) =
    if row.HasKey orgId key then some row else findRow orgId key rows := by
  rw [findRow, List.find?_cons]
  by_cases h : row.HasKey orgId key
  · simp [h]
  · simp [h, findRow]

/-- Items with other keys are not found. -/
theorem findRow_filter_ne {other : FileRow} : findRow orgId key
    (rows.filter fun row => ¬row.HasKey other.orgId other.key) =
      if other.HasKey orgId key then none else findRow orgId key rows := by
  induction rows with
  | nil => simp [findRow]
  | cons row rows ih =>
    rw [List.filter_cons, findRow_cons]
    by_cases hother : other.HasKey orgId key
    · rw [if_pos hother] at ih ⊢
      by_cases hrow : row.HasKey other.orgId other.key
      · simpa [hrow] using ih
      · have hne : ¬row.HasKey orgId key := fun h =>
          hrow ⟨h.1.trans hother.1.symm, h.2.trans hother.2.symm⟩
        simpa [hrow, findRow_cons, hne] using ih
    · rw [if_neg hother] at ih ⊢
      by_cases hrow : row.HasKey other.orgId other.key
      · have hne : ¬row.HasKey orgId key := fun h =>
          hother ⟨hrow.1.symm.trans h.1, hrow.2.symm.trans h.2⟩
        simpa [hrow, hne] using ih
      · simpa [hrow, findRow_cons] using if_congr Iff.rfl rfl ih

theorem findRow_putRow (row : FileRow) : findRow orgId key (putRow row rows) =
    if row.HasKey orgId key then some row else findRow orgId key rows := by
  rw [putRow, findRow, List.find?_append, ← findRow, findRow_filter_ne, ← findRow, findRow_cons]
  by_cases h : row.HasKey orgId key
  · simp [h]
  · simp [h, findRow]

/-- A mark leaves the key of an item. -/
theorem hasKey_marked (row : FileRow) :
    (if row.HasKey orgId key' then row.deleted else row).HasKey orgId key ↔ row.HasKey orgId key := by
  split
  · cases row <;> exact Iff.rfl
  · exact Iff.rfl

theorem findRow_markRow (h : (findRow orgId key' rows).isSome) :
    findRow orgId key (markRow orgId key' rows) =
      (findRow orgId key rows).map fun row => if row.key = key' then row.deleted else row := by
  rw [markRow, if_pos h, findRow, List.find?_map]
  have hsame : ((fun row : FileRow => decide (row.HasKey orgId key)) ∘
      fun row : FileRow => if row.HasKey orgId key' then row.deleted else row) =
        fun row => decide (row.HasKey orgId key) := by
    funext row
    exact decide_eq_decide.mpr (hasKey_marked row)
  rw [hsame]
  cases hfind : rows.find? fun row => decide (row.HasKey orgId key) with
  | none => simp [findRow, hfind]
  | some row =>
    have hkey : row.HasKey orgId key := by simpa using List.find?_some hfind
    have hif : row.HasKey orgId key' ↔ row.key = key' := and_iff_right hkey.1
    rw [findRow, hfind, Option.map_some, Option.map_some, if_congr hif rfl rfl]

end Table

/-! ### The table and the log -/

/-- The entry that was made last under a key. -/
def lastEntry (log : List Entry) (key : String) : Option Entry :=
  log.reverse.find? fun e => e.file.key == key

theorem latest_eq (log : List Entry) (key : String) :
    latest log key = (lastEntry log key).map Entry.file := rfl

theorem lastEntry_uploaded (log : List Entry) (file : StoredFile) (key : String) :
    lastEntry (FileEvent.record log (.uploaded file)) key =
      if file.key = key then some ⟨file, false⟩ else lastEntry log key := by
  rw [lastEntry, FileEvent.record, List.reverse_append, List.reverse_singleton, List.singleton_append,
    List.find?_cons]
  by_cases h : file.key = key
  · simp [h]
  · rw [if_neg h, beq_false_of_ne h]
    rfl

theorem lastEntry_deleted (log : List Entry) (key key' : String) :
    lastEntry (FileEvent.record log (.deleted key')) key = (lastEntry log key).map fun e =>
      if e.file.key = key' then { e with deleted := true } else e := by
  rw [lastEntry, FileEvent.record, ← List.map_reverse, List.find?_map]
  refine congrArg _ (congrArg (fun p => List.find? p log.reverse) ?_)
  funext e
  simp only [Function.comp]
  split <;> rfl

/-- An item of the table is listed for an org where it is the org's, and not deleted. -/
def FileRow.IsLive (orgId : String) (row : FileRow) : Prop :=
  row.orgId = orgId ∧ row.isDeleted = false

instance (orgId : String) : DecidablePred (FileRow.IsLive orgId) := fun _ =>
  inferInstanceAs (Decidable (_ ∧ _))

/-- The item of a file that is there. -/
def liveRow (orgId : String) (file : StoredFile) : FileRow := .file (Entry.item orgId ⟨file, false⟩)

/-- What the table has of an org is what the log says. -/
structure Mirrors (orgId : String) (rows : List FileRow) (log : List Entry) : Prop where
  found : ∀ key, findRow orgId key rows = (lastEntry log key).map fun e => .file (e.item orgId)
  listing : (rows.filter fun row => row.IsLive orgId) = (live log).map (liveRow orgId)
  nodup : ((live log).map StoredFile.key).Nodup
  valid : ∀ e ∈ log, e.file.uploadedAt.Valid

theorem live_uploaded (log : List Entry) (file : StoredFile) :
    live (FileEvent.record log (.uploaded file)) = live log ++ [file] := by
  simp [live, FileEvent.record]

theorem live_deleted (log : List Entry) (key : String) :
    live (FileEvent.record log (.deleted key)) = (live log).filter fun file => file.key ≠ key := by
  induction log with
  | nil => rfl
  | cons e log ih =>
    simp only [FileEvent.record, live, List.map_cons, List.filter_cons] at ih ⊢
    by_cases hkey : e.file.key = key
    · by_cases hdeleted : e.deleted = true
      · simpa [hkey, hdeleted] using ih
      · simpa [hkey, hdeleted] using ih
    · by_cases hdeleted : e.deleted = true
      · simpa [hkey, hdeleted] using ih
      · simpa [hkey, hdeleted] using ih

/-- An upload does not take the key of a file that is there. -/
theorem FileEvent.Smooth.live {log : List Entry} {file : StoredFile} (h : FileEvent.Smooth log (.uploaded file)) :
    ∀ file' ∈ live log, file'.key ≠ file.key := by
  intro file' hfile'
  obtain ⟨e, he, rfl⟩ := List.mem_map.mp hfile'
  obtain ⟨hmem, hlive⟩ := List.mem_filter.mp he
  exact h e hmem (by simpa using hlive)

theorem mirrors_start {orgId : String} {rows : List FileRow} (h : ∀ row ∈ rows, row.orgId ≠ orgId) :
    Mirrors orgId rows [] where
  found key := List.find?_eq_none.mpr fun row hrow => by simp [FileRow.HasKey, h row hrow]
  listing := List.filter_eq_nil_iff.mpr fun row hrow => by simp [FileRow.IsLive, h row hrow]
  nodup := List.nodup_nil
  valid := by simp

/-- An upload. -/
theorem Mirrors.uploaded {orgId : String} {rows : List FileRow} {log : List Entry}
    (h : Mirrors orgId rows log) {file : StoredFile} (hvalid : file.uploadedAt.Valid)
    (hsmooth : FileEvent.Smooth log (.uploaded file)) :
    Mirrors orgId (putRow (liveRow orgId file) rows) (FileEvent.record log (.uploaded file)) where
  found key := by
    rw [findRow_putRow, lastEntry_uploaded, h.found]
    have hkey : (liveRow orgId file).HasKey orgId key ↔ file.key = key := and_iff_right rfl
    rw [if_congr hkey rfl rfl]
    split <;> rfl
  listing := by
    have hkeep : ((live log).map (liveRow orgId)).filter (fun row => ¬row.HasKey orgId file.key) =
        (live log).map (liveRow orgId) := by
      refine List.filter_eq_self.mpr fun row hrow => ?_
      obtain ⟨file', hfile', rfl⟩ := List.mem_map.mp hrow
      simpa using fun hkey : (liveRow orgId file').HasKey orgId file.key =>
        hsmooth.live file' hfile' hkey.2
    have hrow : (liveRow orgId file).IsLive orgId := ⟨rfl, rfl⟩
    rw [putRow, List.filter_append, List.filter_comm, h.listing, live_uploaded, List.map_append]
    exact congrArg₂ _ hkeep (by simp [hrow])
  nodup := by
    rw [live_uploaded, List.map_append, List.nodup_append]
    refine ⟨h.nodup, List.nodup_singleton _, fun key hkey key' hkey' => ?_⟩
    obtain ⟨file', hfile', rfl⟩ := List.mem_map.mp hkey
    rw [List.mem_singleton.mp hkey']
    exact hsmooth.live file' hfile'
  valid e he := by
    rcases List.mem_append.mp he with hold | hnew
    · exact h.valid e hold
    · rw [List.mem_singleton.mp hnew]
      exact hvalid

/-- A deletion. -/
theorem Mirrors.deleted {orgId key : String} {rows : List FileRow} {log : List Entry}
    (h : Mirrors orgId rows log) (hsmooth : FileEvent.Smooth log (.deleted key)) :
    Mirrors orgId (markRow orgId key rows) (FileEvent.record log (.deleted key)) := by
  obtain ⟨e, he, hkey⟩ := hsmooth
  have hfound : (findRow orgId key rows).isSome := by
    rw [h.found, Option.isSome_map, lastEntry, List.find?_isSome]
    exact ⟨e, List.mem_reverse.mpr he, by simp [hkey]⟩
  have hlive : ((markRow orgId key rows).filter fun row => row.IsLive orgId) =
      (rows.filter fun row => row.IsLive orgId).filter fun row => row.key ≠ key := by
    rw [markRow, if_pos hfound]
    clear h hfound
    induction rows with
    | nil => rfl
    | cons row rows ih =>
      rw [List.map_cons, List.filter_cons, ih, List.filter_cons]
      by_cases hrow : row.IsLive orgId
      · by_cases hkey : row.key = key
        · have hhas : row.HasKey orgId key := ⟨hrow.1, hkey⟩
          have hdead : ¬row.deleted.IsLive orgId := by
            cases row <;> simp [FileRow.IsLive, FileRow.deleted, FileRow.isDeleted]
          simp [hrow, hkey, hhas, hdead]
        · have hhas : ¬row.HasKey orgId key := fun h => hkey h.2
          simp [hrow, hkey, hhas]
      · have hdead : ¬(if row.HasKey orgId key then row.deleted else row).IsLive orgId := by
          split
          · cases row <;> simp [FileRow.IsLive, FileRow.deleted, FileRow.isDeleted]
          · exact hrow
        simp [hrow, hdead]
  refine ⟨fun key' => ?_, ?_, ?_, ?_⟩
  · rw [findRow_markRow hfound, h.found, lastEntry_deleted, Option.map_map, Option.map_map]
    refine congrArg (fun f => Option.map f _) ?_
    funext e'
    simp only [Function.comp]
    have hitem : (FileRow.file (e'.item orgId)).key = e'.file.key := rfl
    rw [hitem]
    split <;> rfl
  · rw [hlive, h.listing, live_deleted, List.filter_map]
    rfl
  · rw [live_deleted]
    exact h.nodup.sublist (List.filter_sublist.map _)
  · intro e' he'
    obtain ⟨e'', he'', rfl⟩ := List.mem_map.mp he'
    split <;> exact h.valid e'' he''

/-- The table of a run of smooth steps mirrors its log. -/
theorem Recorded.mirrors {store : Store} {orgId : String} {w : StorageWorld} {log : List Entry}
    (h : Recorded store orgId FileEvent.Smooth w log) : Mirrors orgId w.rows log := by
  induction h with
  | start h => exact mirrors_start h
  | uploaded _ serviceType filename content mimeType uploadedBy ho hrun hmay ih =>
    obtain ⟨⟨hvalid, -⟩, hrows⟩ := exec_post (wp_uploadFile _ _ _ _ _ _ _)
      (along_of_forall _ (fun n x hx _ _ => ho n x hx) _) hrun _ rfl
    rw [hrows]
    exact ih.uploaded hvalid hmay
  | deleted _ key deletedBy hrun hmay ih =>
    have hrows := exec_post (wp_deleteFile _ _ _ _)
      (along_of_forall _ (fun _ _ _ _ _ => trivial) _) hrun _ rfl
    rw [hrows]
    exact ih.deleted hmay

/-! ### Keys -/

theorem toList_stamp {t : DateTime} (h : t.Valid) : t.stamp.toList =
    pad 4 t.date.year ++ (pad 2 t.date.month ++ (pad 2 t.date.day ++ '-' :: (pad 2 t.hour ++
      (pad 2 t.minute ++ (pad 2 t.second ++ '-' :: pad 6 t.microsecond))))) := by
  obtain ⟨hy, hm, hd, hh, hmi, hs⟩ := h.fields_lt
  have hmicro : t.microsecond < 10 ^ 6 := h.microsecond_lt
  simp only [DateTime.stamp, String.toList_append, List.append_assoc]
  rw [toList_zeroPad (by decide) hy, toList_zeroPad (by decide) hm, toList_zeroPad (by decide) hd,
    toList_zeroPad (by decide) hh, toList_zeroPad (by decide) hmi, toList_zeroPad (by decide) hs,
    toList_zeroPad (by decide) hmicro]
  rfl

/-- The text of a time in a key says which time it is. -/
theorem stamp_inj {a b : DateTime} (ha : a.Valid) (hb : b.Valid)
    (h : a.stamp.toList = b.stamp.toList) : a = b := by
  rw [toList_stamp ha, toList_stamp hb] at h
  obtain ⟨hy, hm, hd, hh, hmi, hs⟩ := ha.fields_lt
  obtain ⟨hy', hm', hd', hh', hmi', hs'⟩ := hb.fields_lt
  obtain ⟨hyear, h⟩ := List.append_inj h (by simp)
  obtain ⟨hmonth, h⟩ := List.append_inj h (by simp)
  obtain ⟨hday, h⟩ := List.append_inj h (by simp)
  obtain ⟨hhour, h⟩ := List.append_inj (List.cons_injective h) (by simp)
  obtain ⟨hminute, h⟩ := List.append_inj h (by simp)
  obtain ⟨hsecond, h⟩ := List.append_inj h (by simp)
  have hmicro := pad_inj ha.microsecond_lt hb.microsecond_lt (List.cons_injective h)
  obtain ⟨⟨year, month, day⟩, hour, minute, second, micro⟩ := a
  obtain ⟨⟨year', month', day'⟩, hour', minute', second', micro'⟩ := b
  obtain rfl : year = year' := pad_inj hy hy' hyear
  obtain rfl : month = month' := pad_inj hm hm' hmonth
  obtain rfl : day = day' := pad_inj hd hd' hday
  obtain rfl : hour = hour' := pad_inj hh hh' hhour
  obtain rfl : minute = minute' := pad_inj hmi hmi' hminute
  obtain rfl : second = second' := pad_inj hs hs' hsecond
  obtain rfl : micro = micro' := hmicro
  rfl

/-- The service type and the time can be read off a key. -/
theorem eq_of_key_eq {orgId : String} {file file' : StoredFile} (h : file.IsKeyed orgId)
    (h' : file'.IsKeyed orgId) (hslash : '/' ∉ file.serviceType.toList)
    (hslash' : '/' ∉ file'.serviceType.toList) (hvalid : file.uploadedAt.Valid)
    (hvalid' : file'.uploadedAt.Valid) (hkey : file.key = file'.key) :
    file.uploadedAt = file'.uploadedAt := by
  have hslashes : "/".toList = ['/'] := rfl
  rw [StoredFile.IsKeyed] at h h'
  rw [h, h'] at hkey
  have hchars := congrArg String.toList hkey
  simp only [String.toList_append, List.append_assoc, hslashes, List.singleton_append] at hchars
  obtain ⟨-, hrest⟩ := append_cons_inj_of_not_mem hslash hslash'
    (List.cons_injective (List.append_cancel_left hchars))
  have hlength : file.uploadedAt.stamp.toList.length = file'.uploadedAt.stamp.toList.length := by
    simp [toList_stamp hvalid, toList_stamp hvalid']
  exact stamp_inj hvalid hvalid' (List.append_inj_left hrest hlength)

/-- A service type has no slash, uploads are made at distinct times, and a key that is deleted has been
uploaded. -/
def FileEvent.Orderly (log : List Entry) : FileEvent → Prop
  | .uploaded file => '/' ∉ file.serviceType.toList ∧ AtDistinctTimes log (.uploaded file)
  | .deleted key => ∃ e ∈ log, e.file.key = key

/-- In an orderly run every key is made of the other fields, and no service type has a slash. -/
theorem Recorded.keyed {store : Store} {orgId : String} {w : StorageWorld} {log : List Entry}
    (h : Recorded store orgId FileEvent.Orderly w log) : ∀ e ∈ log,
      e.file.uploadedAt.Valid ∧ e.file.IsKeyed orgId ∧ '/' ∉ e.file.serviceType.toList := by
  induction h with
  | start => simp
  | uploaded _ serviceType filename content mimeType uploadedBy ho hrun hmay ih =>
    obtain ⟨⟨hvalid, hkeyed⟩, -⟩ := exec_post (wp_uploadFile _ _ _ _ _ _ _)
      (along_of_forall _ (fun n x hx _ _ => ho n x hx) _) hrun _ rfl
    intro e he
    rcases List.mem_append.mp he with hold | hnew
    · exact ih e hold
    · rw [List.mem_singleton.mp hnew]
      exact ⟨hvalid, hkeyed, hmay.1⟩
  | deleted _ key deletedBy hrun hmay ih =>
    intro e he
    obtain ⟨e', he', rfl⟩ := List.mem_map.mp he
    split <;> exact ih e' he'

/-- An orderly run takes smooth steps: keys of uploads at distinct times differ. -/
theorem Recorded.smooth {store : Store} {orgId : String} {w : StorageWorld} {log : List Entry}
    (h : Recorded store orgId FileEvent.Orderly w log) : Recorded store orgId FileEvent.Smooth w log := by
  induction h with
  | start h => exact .start h
  | uploaded hw serviceType filename content mimeType uploadedBy ho hrun hmay ih =>
    refine ih.uploaded serviceType filename content mimeType uploadedBy ho hrun ?_
    obtain ⟨⟨hvalid, hkeyed⟩, -⟩ := exec_post (wp_uploadFile _ _ _ _ _ _ _)
      (along_of_forall _ (fun n x hx _ _ => ho n x hx) _) hrun _ rfl
    intro e he _ hkey
    obtain ⟨hvalid', hkeyed', hslash⟩ := hw.keyed e he
    exact hmay.2 e he (eq_of_key_eq hkeyed' hkeyed hslash hmay.1 hvalid' hvalid hkey)
  | deleted _ key deletedBy hrun hmay ih => exact ih.deleted key deletedBy hrun hmay

/-! ### What is read -/

section Read

variable {store : Store} {orgId : String}

/-- The metadata that was written is read. -/
theorem stored_item {e : Entry} (h : e.file.uploadedAt.Valid) (signedUrl : String) :
    (FileRow.file (e.item orgId)).stored signedUrl = .ok { e.file with signedUrl } := by
  have hitem : (e.item orgId).uploadedAt = e.file.uploadedAt.isoformat := rfl
  have hread : fromisoformat (e.item orgId).uploadedAt = some h.utc := by
    rw [hitem, ← h.isoformat_utc, fromisoformat_isoformat]
  simp only [FileRow.stored, hread]
  rfl

/-- The store answers. -/
def Choice.Answered (x : Choice) : Prop := x.fate = .ok

/-- A URL is signed, and something is made of it without a call. -/
theorem wp_signedUrl {α : Type} (key : String) (expiresIn : ℕ) (g : String → Except PyErr α)
    {w : StorageWorld} {Q : Except PyErr α → StorageWorld → Prop}
    (hQ : ∀ signedUrl w', w'.rows = w.rows → Q (g signedUrl) w') :
    (tabled store Choice.Answered).wp ((fromFiles (run (.generatePresignedUrl key expiresIn))).bind
      fun signedUrl => Proc.ofExcept (g signedUrl)) w Q := by
  intro w₁ h₁ x _
  exact ⟨trivial, wp_ofExcept.mpr (hQ x.token w₁ h₁)⟩

theorem wp_toStoredFile {e : Entry} (h : e.file.uploadedAt.Valid) {w : StorageWorld}
    {Q : Except PyErr StoredFile → StorageWorld → Prop}
    (hQ : ∀ signedUrl w', w'.rows = w.rows → Q (.ok { e.file with signedUrl }) w') :
    (tabled store Choice.Answered).wp (toStoredFile (.file (e.item orgId))) w Q := by
  refine wp_signedUrl _ _ _ fun signedUrl w' hw' => ?_
  rw [stored_item h]
  exact hQ signedUrl w' hw'

/-- The loop over the items of files that are there. -/
theorem wp_storedFiles {files : List StoredFile} (h : ∀ file ∈ files, file.uploadedAt.Valid)
    (before : List StoredFile) (w : StorageWorld) :
    (tabled store Choice.Answered).wp (Proc.forEach (files.map (liveRow orgId)) before fun files row => do
      let file ← toStoredFile row
      return files ++ [file]) w fun r _ =>
        ∃ after, r = .ok (before ++ after) ∧
          after.map StoredFile.unsigned = files.map StoredFile.unsigned := by
  induction files generalizing before w with
  | nil => exact ⟨[], by rw [List.append_nil], rfl⟩
  | cons file files ih =>
    have hfile : file.uploadedAt.Valid := h file List.mem_cons_self
    refine wp_bind (wp_bind (wp_toStoredFile (e := ⟨file, false⟩) hfile fun signedUrl w₁ _ => ?_))
    show (tabled store Choice.Answered).wp (Proc.forEach (files.map (liveRow orgId))
      (before ++ [{ file with signedUrl }]) _) w₁ _
    refine wp_mono (fun r _ hr => ?_)
      (ih (fun f hf => h f (List.mem_cons_of_mem _ hf)) (before ++ [{ file with signedUrl }]) w₁)
    obtain ⟨after, rfl, hafter⟩ := hr
    refine ⟨{ file with signedUrl } :: after, by rw [List.append_assoc]; rfl, ?_⟩
    rw [List.map_cons, List.map_cons, hafter]
    rfl

/-- A listing returns the files whose items are read and not skipped. -/
theorem wp_listFiles {serviceType filenamePrefix : Option String} {w : StorageWorld}
    {files : List StoredFile} (h : ∀ file ∈ files, file.uploadedAt.Valid)
    (hread : ∀ rows, rows = w.rows →
      ((store.page rows orgId serviceType).filter fun row => row.Listed filenamePrefix) =
        files.map (liveRow orgId)) :
    (tabled store Choice.Answered).wp (listFiles orgId serviceType filenamePrefix) w fun r _ =>
      ∃ listed, r = .ok listed ∧ listed.map StoredFile.unsigned = files.map StoredFile.unsigned := by
  refine wp_bind (wp_perform fun w₁ h₁ x hx => ⟨trivial, ?_⟩)
  have hanswer : (tabled store Choice.Answered).answer (.queryFiles orgId serviceType) x w₁ =
      (.ok (store.page w₁.rows orgId serviceType), w₁) := by
    have hfate : x.fate = .ok := hx
    simp only [tabled, StorageCall.answer, hfate]
    rfl
  rw [hanswer]
  show (tabled store Choice.Answered).wp (Proc.forEach ((store.page w₁.rows orgId serviceType).filter
    fun row => row.Listed filenamePrefix) [] _) w₁ _
  rw [hread _ h₁]
  refine wp_mono (fun r _ hr => ?_) (wp_storedFiles h [] w₁)
  simpa using hr

/-- The metadata of a key is read, or there is none. -/
theorem wp_getFileMetadata {key : String} {w : StorageWorld} {log : List Entry}
    (hmirrors : Mirrors orgId w.rows log) (hscope : assertOrgScope orgId key = .ok ()) :
    (tabled store Choice.Answered).wp (getFileMetadata orgId key) w fun r _ =>
      match latest log key with
      | some file => ∃ stored, r = .ok stored ∧ stored.unsigned = file.unsigned
      | none => r = .error ⟨.exception "StorageNotFoundError", "File metadata not found: " ++ key⟩ := by
  refine wp_bind (wp_ofExcept.mpr ?_)
  rw [hscope]
  refine wp_bind (wp_perform fun w₁ h₁ x hx => ⟨trivial, ?_⟩)
  have hrows : w₁.rows = w.rows := h₁
  have hanswer : (tabled store Choice.Answered).answer (.getFileItem orgId key) x w₁ =
      (.ok ((lastEntry log key).map fun e => .file (e.item orgId)), w₁) := by
    have hfate : x.fate = .ok := hx
    simp only [tabled, StorageCall.answer, hfate, hrows, hmirrors.found]
    rfl
  rw [hanswer, latest_eq]
  cases hlast : lastEntry log key with
  | none => rfl
  | some e =>
    have hmem : e ∈ log := List.mem_reverse.mp (List.mem_of_find?_eq_some hlast)
    exact wp_toStoredFile (hmirrors.valid e hmem) fun signedUrl _ _ =>
      ⟨{ e.file with signedUrl }, rfl, rfl⟩

end Read

/-! ### What the registry says -/

/-- The filters of a listing, of a file. -/
def StoredFile.Wanted (serviceType filenamePrefix : Option String) (file : StoredFile) : Prop :=
  (∀ service ∈ serviceType, file.serviceType = service) ∧
    ∀ pfx ∈ filenamePrefix, pfx.toList <+: file.filename.toList

instance (serviceType filenamePrefix : Option String) :
    DecidablePred (StoredFile.Wanted serviceType filenamePrefix) := fun file =>
  inferInstanceAs (Decidable ((∀ service ∈ serviceType, file.serviceType = service) ∧
    ∀ pfx ∈ filenamePrefix, pfx.toList <+: file.filename.toList))

/-- No call of a run fails. -/
def AllAnswered (o : Oracle Choice) : Prop := ∀ n x, o n = some x → Choice.Answered x

section Spec

variable (store : Store) (orgId : String) (w : StorageWorld) (log : List Entry)

/-- `list_files` returns the files that have been uploaded and not deleted and that pass the filters,
each once. -/
def ListsFiles (serviceType filenamePrefix : Option String) : Prop :=
  ∀ o r w', AllAnswered o →
    exec (StorageCall.answer store) (listFiles orgId serviceType filenamePrefix) o w = (some r, w') →
    ∃ listed, r = .ok listed ∧ (listed.map StoredFile.key).Nodup ∧
      (listed.map StoredFile.unsigned).Perm
        (((live log).filter fun file => file.Wanted serviceType filenamePrefix).map
          StoredFile.unsigned)

/-- `get_file_metadata` returns the metadata of the file that was uploaded under the key, and raises
where there was none. -/
def FindsFile (key : String) : Prop :=
  ∀ o r w', AllAnswered o →
    exec (StorageCall.answer store) (getFileMetadata orgId key) o w = (some r, w') →
    match latest log key with
    | some file => ∃ stored, r = .ok stored ∧ stored.unsigned = file.unsigned
    | none => r = .error ⟨.exception "StorageNotFoundError", "File metadata not found: " ++ key⟩

end Spec

section Main

variable {store : Store} {orgId : String} {w : StorageWorld} {log : List Entry}

variable (store) in
/-- The items of a Query that are not skipped, read or not. -/
theorem filter_order (h : Mirrors orgId w.rows log) (serviceType filenamePrefix : Option String) :
    ((store.order w.rows orgId serviceType).filter fun row => row.Listed filenamePrefix).Perm
      (((live log).filter fun file => file.Wanted serviceType filenamePrefix).map
        (liveRow orgId)) := by
  refine ((store.perm w.rows orgId serviceType).filter _).trans (.of_eq ?_)
  have hwanted : ((fun row : FileRow => decide ((∀ service ∈ serviceType,
      row.serviceType = some service) ∧ ∀ pfx ∈ filenamePrefix, pfx.toList <+: row.filename.toList)) ∘
        liveRow orgId) = fun file => decide (file.Wanted serviceType filenamePrefix) := by
    funext file
    refine decide_eq_decide.mpr (and_congr_left fun _ => forall₂_congr fun service _ => ?_)
    exact Option.some_inj
  calc (w.rows.filter fun row => row.IsOf orgId serviceType).filter
        (fun row => row.Listed filenamePrefix)
      = (w.rows.filter fun row => row.IsLive orgId).filter fun row => decide ((∀ service ∈ serviceType,
          row.serviceType = some service) ∧
            ∀ pfx ∈ filenamePrefix, pfx.toList <+: row.filename.toList) := by
        rw [List.filter_filter, List.filter_filter]
        refine List.filter_congr fun row _ => ?_
        rw [Bool.eq_iff_iff]
        simp only [Bool.and_eq_true, decide_eq_true_eq]
        simp only [FileRow.Listed, FileRow.IsOf, FileRow.IsLive]
        tauto
    _ = _ := by rw [h.listing, List.filter_map, hwanted]

/-- What is read is everything that is listed, where nothing that is listed is beyond the page. -/
theorem filter_page {serviceType filenamePrefix : Option String} {rows : List FileRow}
    (h : ∀ row ∈ store.unread rows orgId serviceType, ¬row.Listed filenamePrefix) :
    ((store.page rows orgId serviceType).filter fun row => row.Listed filenamePrefix) =
      (store.order rows orgId serviceType).filter fun row => row.Listed filenamePrefix :=
  QueryPage.filter_page fun row hrow => decide_eq_false (h row hrow)

/-- A rearrangement of images is the image of a rearrangement. -/
theorem exists_map_of_perm {α β : Type} {f : α → β} {xs : List α} {ys : List β}
    (h : ys.Perm (xs.map f)) : ∃ xs' : List α, ys = xs'.map f ∧ xs'.Perm xs := by
  have himage : List.Forall₂ (fun y x => y = f x) (xs.map f) xs :=
    List.forall₂_map_left_iff.mpr (List.forall₂_same.mpr fun _ _ => rfl)
  obtain ⟨xs', hxs', hperm⟩ := List.perm_comp_forall₂ h himage
  refine ⟨xs', ?_, hperm⟩
  have hmap : List.Forall₂ (fun y y' => y = y') ys (xs'.map f) :=
    List.forall₂_map_right_iff.mpr hxs'
  rwa [List.forall₂_eq_eq_eq] at hmap

theorem valid_live (h : Mirrors orgId w.rows log) : ∀ file ∈ live log, file.uploadedAt.Valid := by
  intro file hfile
  obtain ⟨e, he, rfl⟩ := List.mem_map.mp hfile
  exact h.valid e (List.mem_of_mem_filter he)

/-- Where the table mirrors the log, and the page holds what is to be listed, the listing is right. -/
theorem Mirrors.listsFiles (h : Mirrors orgId w.rows log)
    {serviceType filenamePrefix : Option String}
    (hpage : ∀ row ∈ store.unread w.rows orgId serviceType, ¬row.Listed filenamePrefix) :
    ListsFiles store orgId w log serviceType filenamePrefix := by
  intro o r w' ho hrun
  obtain ⟨files, hfiles, hperm⟩ := exists_map_of_perm
    (filter_order store h serviceType filenamePrefix)
  have hvalid : ∀ file ∈ files, file.uploadedAt.Valid := fun file hfile =>
    valid_live h file (List.mem_of_mem_filter (hperm.mem_iff.mp hfile))
  have hread : ∀ rows, rows = w.rows →
      ((store.page rows orgId serviceType).filter fun row => row.Listed filenamePrefix) =
        files.map (liveRow orgId) := by
    rintro _ rfl
    rw [filter_page hpage, hfiles]
  obtain ⟨listed, rfl, hlisted⟩ := exec_post (wp_listFiles hvalid hread)
    (along_of_forall _ (fun n x hx _ _ => ho n x hx) _) hrun
  have hkeys : listed.map StoredFile.key = files.map StoredFile.key := by
    have hsame : StoredFile.key = StoredFile.key ∘ StoredFile.unsigned := rfl
    rw [hsame, ← List.map_map, ← List.map_map, hlisted]
  refine ⟨listed, rfl, ?_, hlisted ▸ hperm.map _⟩
  rw [hkeys]
  exact (hperm.map StoredFile.key).nodup_iff.mpr
    (h.nodup.sublist (List.filter_sublist.map StoredFile.key))

/-- Where the table mirrors the log, the metadata is found. -/
theorem Mirrors.findsFile (h : Mirrors orgId w.rows log) {key : String}
    (hscope : assertOrgScope orgId key = .ok ()) : FindsFile store orgId w log key := by
  intro o r w' ho hrun
  exact exec_post (wp_getFileMetadata h hscope) (along_of_forall _ (fun n x hx _ _ => ho n x hx) _)
    hrun

/-- **The registry.** In every run in which no upload takes the key of a file that is there, and every
key that is deleted has been uploaded, a listing returns the files that are there, if those that pass
its filters are all on the page that is read; and the metadata of a key is that of the file that was
uploaded under it last, or is not found. -/
theorem registry_faithful (h : Recorded store orgId FileEvent.Smooth w log) :
    (∀ serviceType filenamePrefix,
      (∀ row ∈ store.unread w.rows orgId serviceType, ¬row.Listed filenamePrefix) →
        ListsFiles store orgId w log serviceType filenamePrefix) ∧
    ∀ key, assertOrgScope orgId key = .ok () → FindsFile store orgId w log key :=
  ⟨fun _ _ hpage => h.mirrors.listsFiles hpage, fun _ hscope => h.mirrors.findsFile hscope⟩

/-- **A listing and a key.** In every run in which no upload takes the key of a file that is there, and
every key that is deleted has been uploaded, a listing whose files are all on the page that is read
returns the files that are there, and the metadata of a key of the org is that of its file, or not
found. -/
theorem registry_of_smooth (h : Recorded store orgId FileEvent.Smooth w log)
    {serviceType filenamePrefix : Option String}
    (hpage : ∀ row ∈ store.unread w.rows orgId serviceType, ¬row.Listed filenamePrefix) {key : String}
    (hscope : assertOrgScope orgId key = .ok ()) :
    ListsFiles store orgId w log serviceType filenamePrefix ∧ FindsFile store orgId w log key :=
  ⟨h.mirrors.listsFiles hpage, h.mirrors.findsFile hscope⟩

/-- A key that is not there is marked. -/
theorem findRow_markRow_of_none {key : String} {rows : List FileRow}
    (h : findRow orgId key rows = none) :
    findRow orgId key (markRow orgId key rows) = some (.mark orgId key) := by
  have hmark : (FileRow.mark orgId key).HasKey orgId key := ⟨rfl, rfl⟩
  rw [markRow, h, if_neg (by simp), findRow, List.find?_append]
  rw [findRow] at h
  rw [h]
  simp [hmark]

/-- **A deletion of nothing.** After a key that is not in the table is deleted, its metadata is not found
to be missing: the item that the deletion made is read, and has none. -/
theorem getFileMetadata_of_deleted {key deletedBy : String} {o o' : Oracle Choice}
    {w' w'' : StorageWorld} {r : Except PyErr StoredFile}
    (hnone : findRow orgId key w.rows = none)
    (hdelete : exec (StorageCall.answer store) (deleteFile orgId key deletedBy) o w =
      (some (.ok ()), w'))
    (ho : AllAnswered o')
    (hget : exec (StorageCall.answer store) (getFileMetadata orgId key) o' w' = (some r, w'')) :
    r = .error ⟨.keyError, pyRepr "filename"⟩ := by
  have hrows : w'.rows = markRow orgId key w.rows := exec_post (wp_deleteFile _ _ _ _)
    (along_of_forall _ (fun _ _ _ _ _ => trivial) _) hdelete _ rfl
  have hscope : assertOrgScope orgId key = .ok () := by
    cases hscope : assertOrgScope orgId key with
    | ok _ => rfl
    | error e =>
      unfold deleteFile at hdelete
      rw [hscope] at hdelete
      cases hdelete
  have hread : (tabled store Choice.Answered).wp (getFileMetadata orgId key) w' fun r _ =>
      r = .error ⟨.keyError, pyRepr "filename"⟩ := by
    refine wp_bind (wp_ofExcept.mpr ?_)
    rw [hscope]
    refine wp_bind (wp_perform fun w₁ h₁ x hx => ⟨trivial, ?_⟩)
    have hrows₁ : w₁.rows = markRow orgId key w.rows := Eq.trans h₁ hrows
    have hanswer : (tabled store Choice.Answered).answer (.getFileItem orgId key) x w₁ =
        (.ok (some (.mark orgId key)), w₁) := by
      have hfate : x.fate = .ok := hx
      simp only [tabled, StorageCall.answer, hfate, hrows₁, findRow_markRow_of_none hnone]
      rfl
    rw [hanswer]
    exact wp_signedUrl _ _ _ fun _ _ _ => rfl
  exact exec_post hread (along_of_forall _ (fun n x hx _ _ => ho n x hx) _) hget

end Main

/-! ### Two files -/

/-- A store that reads items in the order in which they were put, and has small ones. -/
def smallStore : Store where
  size _ := 1000
  order rows orgId serviceType := rows.filter fun row => row.IsOf orgId serviceType
  perm _ _ _ := .refl _

/-- No files. -/
def emptyStorage : StorageWorld := ⟨World.initial, []⟩

/-- Everything works, in the `n`th second of the year. -/
def atSecond (n : ℕ) : Oracle Choice := fun _ =>
  some { Choice.calm "t" with now := ⟨⟨2026, 1, 1⟩, 0, 0, n, 0⟩ }

/-- A file of Ada's, uploaded in that second. -/
def adaFile (filename : String) (second : ℕ) : StoredFile where
  key := "org" ++ "/" ++ "invoicing" ++ "/" ++ DateTime.stamp ⟨⟨2026, 1, 1⟩, 0, 0, second, 0⟩ ++ "_" ++
    filename
  filename := filename
  signedUrl := "t"
  sizeBytes := 1
  mimeType := "application/pdf"
  uploadedAt := ⟨⟨2026, 1, 1⟩, 0, 0, second, 0⟩
  uploadedBy := "ada"
  serviceType := "invoicing"

/-- What is left by an upload in that second. -/
def uploadedWorld (filename : String) (second : ℕ) (w : StorageWorld) : StorageWorld :=
  (exec (StorageCall.answer smallStore) (fromFiles (uploadFile "org" "invoicing" filename [0]
    "application/pdf" "ada")) (atSecond second) w).2

theorem exec_upload_ada (filename : String) (second : ℕ) (w : StorageWorld) :
    exec (StorageCall.answer smallStore) (fromFiles (uploadFile "org" "invoicing" filename [0]
      "application/pdf" "ada")) (atSecond second) w =
        (some (.ok (adaFile filename second)), uploadedWorld filename second w) := rfl

/-- Two files, and then the first is deleted. -/
def deletedWorld : StorageWorld :=
  (exec (StorageCall.answer smallStore) (deleteFile "org" (adaFile "june.pdf" 0).key "ada")
    (atSecond 2) (uploadedWorld "july.pdf" 1 (uploadedWorld "june.pdf" 0 emptyStorage))).2

theorem timely_atSecond {n : ℕ} (hn : n < 60) : Timely (atSecond n) := by
  intro m x hx
  cases hx
  have hdate : Date.Valid ⟨2026, 1, 1⟩ := by constructor <;> decide
  exact ⟨hdate, Nat.zero_lt_succ _, Nat.zero_lt_succ _, hn, Nat.zero_lt_succ _⟩

theorem recorded_two : Recorded smallStore "org" FileEvent.Smooth deletedWorld
    [⟨adaFile "june.pdf" 0, true⟩, ⟨adaFile "july.pdf" 1, false⟩] := by
  have hdelete : exec (StorageCall.answer smallStore) (deleteFile "org" (adaFile "june.pdf" 0).key "ada")
      (atSecond 2) (uploadedWorld "july.pdf" 1 (uploadedWorld "june.pdf" 0 emptyStorage)) =
        (some (.ok ()), deletedWorld) := rfl
  have hjune : Recorded smallStore "org" FileEvent.Smooth (uploadedWorld "june.pdf" 0 emptyStorage)
      [⟨adaFile "june.pdf" 0, false⟩] :=
    .uploaded (.start (by simp [emptyStorage])) _ _ _ _ _ (timely_atSecond (by decide))
      (exec_upload_ada "june.pdf" 0 _) (by simp [FileEvent.Smooth])
  have hjuly := hjune.uploaded _ _ _ _ _ (timely_atSecond (by decide))
    (exec_upload_ada "july.pdf" 1 _) (by simp [FileEvent.Smooth]; decide)
  exact hjuly.deleted _ _ hdelete ⟨_, List.mem_cons_self, rfl⟩

/-- The other file is listed, and the metadata of both is found. -/
theorem registry_faithful_two :
    live [⟨adaFile "june.pdf" 0, true⟩, ⟨adaFile "july.pdf" 1, false⟩] = [adaFile "july.pdf" 1] ∧
      ListsFiles smallStore "org" deletedWorld
        [⟨adaFile "june.pdf" 0, true⟩, ⟨adaFile "july.pdf" 1, false⟩] (some "invoicing") none ∧
      FindsFile smallStore "org" deletedWorld
        [⟨adaFile "june.pdf" 0, true⟩, ⟨adaFile "july.pdf" 1, false⟩] (adaFile "june.pdf" 0).key := by
  have hfaithful := registry_faithful recorded_two
  have hunread : smallStore.unread deletedWorld.rows "org" (some "invoicing") = [] :=
    QueryPage.rest_eq_nil (by decide +kernel)
  refine ⟨rfl, hfaithful.1 _ _ (by simp [hunread]), hfaithful.2 _ (by decide +kernel)⟩

theorem recorded_orderly : Recorded smallStore "org" FileEvent.Orderly deletedWorld
    [⟨adaFile "june.pdf" 0, true⟩, ⟨adaFile "july.pdf" 1, false⟩] := by
  have hdelete : exec (StorageCall.answer smallStore) (deleteFile "org" (adaFile "june.pdf" 0).key "ada")
      (atSecond 2) (uploadedWorld "july.pdf" 1 (uploadedWorld "june.pdf" 0 emptyStorage)) =
        (some (.ok ()), deletedWorld) := rfl
  have hslash : '/' ∉ "invoicing".toList := by decide
  have hjune : Recorded smallStore "org" FileEvent.Orderly (uploadedWorld "june.pdf" 0 emptyStorage)
      [⟨adaFile "june.pdf" 0, false⟩] :=
    .uploaded (.start (by simp [emptyStorage])) _ _ _ _ _ (timely_atSecond (by decide))
      (exec_upload_ada "june.pdf" 0 _) ⟨hslash, fun e he => absurd he List.not_mem_nil⟩
  have hjuly := hjune.uploaded _ _ _ _ _ (timely_atSecond (by decide))
    (exec_upload_ada "july.pdf" 1 _) ⟨hslash, fun e he => by
      obtain rfl := List.mem_singleton.mp he
      simp [adaFile]⟩
  exact hjuly.deleted _ _ hdelete ⟨_, List.mem_cons_self, rfl⟩

/-- Uploads at distinct times, to a service type without a slash, do not meet. -/
theorem registry_of_smooth_orderly :
    ListsFiles smallStore "org" deletedWorld
        [⟨adaFile "june.pdf" 0, true⟩, ⟨adaFile "july.pdf" 1, false⟩] none (some "ju") ∧
      FindsFile smallStore "org" deletedWorld
        [⟨adaFile "june.pdf" 0, true⟩, ⟨adaFile "july.pdf" 1, false⟩] "org/invoicing/none.pdf" := by
  have hunread : smallStore.unread deletedWorld.rows "org" none = [] :=
    QueryPage.rest_eq_nil (by decide +kernel)
  exact registry_of_smooth recorded_orderly.smooth (by simp [hunread]) (by decide +kernel)

/-- What is left where a key is deleted that was never uploaded. -/
def unknownDeleted : StorageWorld :=
  (exec (StorageCall.answer smallStore) (deleteFile "org" "org/invoicing/none.pdf" "ada") (atSecond 0)
    emptyStorage).2

theorem recorded_unknownDeleted : Recorded smallStore "org" AtDistinctTimes unknownDeleted [] := by
  have hdelete : exec (StorageCall.answer smallStore) (deleteFile "org" "org/invoicing/none.pdf" "ada")
      (atSecond 0) emptyStorage = (some (.ok ()), unknownDeleted) := rfl
  exact .deleted (.start (by simp [emptyStorage])) _ _ hdelete trivial

/-- The metadata of a key that was never uploaded is not always not found. -/
theorem not_registry :
    ¬∀ (store : Store) (orgId : String) (w : StorageWorld) (log : List Entry),
      Recorded store orgId AtDistinctTimes w log → ∀ key, assertOrgScope orgId key = .ok () →
        FindsFile store orgId w log key := by
  intro h
  have hfinds := h smallStore "org" unknownDeleted [] recorded_unknownDeleted "org/invoicing/none.pdf"
    (by decide +kernel)
  have hget : (exec (StorageCall.answer smallStore) (getFileMetadata "org" "org/invoicing/none.pdf")
      (atSecond 1) unknownDeleted).1 = some (.error ⟨.keyError, pyRepr "filename"⟩) := by
    decide +kernel
  have hanswered : AllAnswered (atSecond 1) := by
    intro n x hx
    cases hx
    rfl
  have hnotFound : (Except.error ⟨.keyError, pyRepr "filename"⟩ : Except PyErr StoredFile) =
      .error ⟨.exception "StorageNotFoundError", "File metadata not found: org/invoicing/none.pdf"⟩ :=
    hfinds (atSecond 1) _ _ hanswered (Prod.ext hget rfl)
  have hcls := congrArg PyErr.cls (Except.error.inj hnotFound)
  cases hcls

/-- A key is deleted that was never uploaded. -/
theorem getFileMetadata_of_deleted_unknown : ∃ w' w'',
    exec (StorageCall.answer smallStore) (deleteFile "org" "org/invoicing/none.pdf" "ada") (atSecond 0)
      emptyStorage = (some (.ok ()), w') ∧
    exec (StorageCall.answer smallStore) (getFileMetadata "org" "org/invoicing/none.pdf") (atSecond 1)
      w' = (some (.error ⟨.keyError, pyRepr "filename"⟩), w'') := by
  have hanswered : AllAnswered (atSecond 1) := by
    intro n x hx
    cases hx
    rfl
  have hdelete : exec (StorageCall.answer smallStore) (deleteFile "org" "org/invoicing/none.pdf" "ada")
      (atSecond 0) emptyStorage = (some (.ok ()), (exec (StorageCall.answer smallStore)
        (deleteFile "org" "org/invoicing/none.pdf" "ada") (atSecond 0) emptyStorage).2) := rfl
  generalize (exec (StorageCall.answer smallStore)
    (deleteFile "org" "org/invoicing/none.pdf" "ada") (atSecond 0) emptyStorage).2 = w' at hdelete
  obtain ⟨r, w'', hget⟩ : ∃ r w'', exec (StorageCall.answer smallStore)
      (getFileMetadata "org" "org/invoicing/none.pdf") (atSecond 1) w' = (some r, w'') :=
    exists_exec_eq_some _ (fun _ => rfl) w'
  have hr := getFileMetadata_of_deleted rfl hdelete hanswered hget
  exact ⟨w', w'', hdelete, hr ▸ hget⟩

end A2ZCore.Core
