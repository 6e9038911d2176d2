import A2ZCore.Core.IsoFormat
import A2ZCore.Core.Services
import A2ZCore.Lib.Contract
import A2ZCore.Lib.QueryPage
import Mathlib

/-!
# The files of an org

`core/storage.py`, beyond `upload_file`: the check of a key's prefix, and reading, deleting and listing
the metadata in the `files` table. `delete_file` marks an item with an `update_item`, which makes an item
where there is none; and a listing is one Query, which reads a page.

`World.files` is the log of what `upload_file` has put. The table itself is `StorageWorld.rows`, where a
put replaces the item with its key.

## Main definitions

* `FileRow` — an item of the table
* `Store` — how large items are, and in which order a Query reads them
* `StorageWorld`, `StorageCall`, `StorageCall.answer` — the state, the calls and their effect
* `assertOrgScope`, `getFileMetadata`, `deleteFile`, `listFiles`
-/

namespace A2ZCore.Core

open Interaction

/-! ### The table -/

/-- An item of the `files` table: a file's metadata, or what `update_item` makes of a key that is not
there. -/
inductive FileRow where
  | file (item : FileItem)
  | mark (orgId key : String)
  deriving DecidableEq, Repr

namespace FileRow

/-- `org_id` -/
def orgId : FileRow → String
  | file item => item.orgId
  | mark orgId _ => orgId

/-- `key` -/
def key : FileRow → String
  | file item => item.key
  | mark _ key => key

/-- `data.get("is_deleted")` -/
def isDeleted : FileRow → Bool
  | file item => item.isDeleted
  | mark _ _ => true

/-- `data.get("filename", "")` -/
def filename : FileRow → String
  | file item => item.filename
  | mark _ _ => ""

/-- `data.get("service_type")` -/
def serviceType : FileRow → Option String
  | file item => some item.serviceType
  | mark _ _ => none

/-- `SET is_deleted = :true`. -/
def deleted : FileRow → FileRow
  | file item => file { item with isDeleted := true }
  | mark orgId key => mark orgId key

/-- The item has this primary key. -/
def HasKey (orgId key : String) (row : FileRow) : Prop := row.orgId = orgId ∧ row.key = key

instance (orgId key : String) : DecidablePred (HasKey orgId key) := fun _ =>
  inferInstanceAs (Decidable (_ ∧ _))

/-- The item is one that a Query on an org, or on a service of it, reads. -/
def IsOf (orgId : String) (serviceType : Option String) (row : FileRow) : Prop :=
  row.orgId = orgId ∧ ∀ service ∈ serviceType, row.serviceType = some service

instance (orgId : String) (serviceType : Option String) : DecidablePred (IsOf orgId serviceType) :=
  fun row => inferInstanceAs (Decidable (row.orgId = orgId ∧
    ∀ service ∈ serviceType, row.serviceType = some service))

end FileRow

/-- `get_item` -/
def findRow (orgId key : String) (rows : List FileRow) : Option FileRow :=
  rows.find? fun row => row.HasKey orgId key

/-- `put_item` -/
def putRow (row : FileRow) (rows : List FileRow) : List FileRow :=
  (rows.filter fun other => ¬other.HasKey row.orgId row.key) ++ [row]

/-- `update_item`, with `SET is_deleted = :true`. -/
def markRow (orgId key : String) (rows : List FileRow) : List FileRow :=
  if (findRow orgId key rows).isSome then
    rows.map fun row => if row.HasKey orgId key then row.deleted else row
  else rows ++ [.mark orgId key]

/-- The store: how large an item is, and in which order the items of an org, or of a service of it, are
read. -/
structure Store where
  size : FileRow → ℕ
  order : List FileRow → String → Option String → List FileRow
  perm : ∀ rows orgId serviceType,
    (order rows orgId serviceType).Perm (rows.filter fun row => row.IsOf orgId serviceType)

/-- The items that a Query reads: a page of 1 MB. -/
def Store.page (store : Store) (rows : List FileRow) (orgId : String) (serviceType : Option String) :
    List FileRow :=
  QueryPage.page store.size 1048576 (store.order rows orgId serviceType)

/-- The items that it does not read. -/
def Store.unread (store : Store) (rows : List FileRow) (orgId : String)
    (serviceType : Option String) : List FileRow :=
  QueryPage.rest store.size 1048576 (store.order rows orgId serviceType)

/-! ### The calls -/

/-- Core's state, and the table. -/
structure StorageWorld where
  core : World
  rows : List FileRow

/-- The calls of these functions: Core's, and those to the table and to S3. -/
inductive StorageCall where
  | core (c : Call)
  | getFileItem (orgId key : String)
  | updateFileItem (orgId key : String)
  | queryFiles (orgId : String) (serviceType : Option String)
  | deleteObject (key : String)

/-- What a call replies. -/
def StorageCall.Resp : StorageCall → Type
  | core c => c.Resp
  | getFileItem _ _ => Option FileRow
  | updateFileItem _ _ => Unit
  | queryFiles _ _ => List FileRow
  | deleteObject _ => Unit

/-- Core's state after a call, and the table as it was. -/
def StorageWorld.withCore (w : StorageWorld) (core : World) : StorageWorld := { w with core }

/-- The reply to a call and the state it leaves. -/
def StorageCall.answer (store : Store) (c : StorageCall) (x : Choice) (w : StorageWorld) :
    Except PyErr c.Resp × StorageWorld :=
  match c with
  | .core (.putFileItem item) =>
    x.fate.settle (.ok ((), { core := { w.core with files := w.core.files ++ [item] }
                              rows := putRow (.file item) w.rows })) w
  | .core c =>
    let r := c.answer x w.core
    (r.1, w.withCore r.2)
  | .getFileItem orgId key => x.fate.settle (.ok (findRow orgId key w.rows, w)) w
  | .updateFileItem orgId key =>
    x.fate.settle (.ok ((), { w with rows := markRow orgId key w.rows })) w
  | .queryFiles orgId serviceType =>
    x.fate.settle (.ok (store.page w.rows orgId serviceType, w)) w
  | .deleteObject key =>
    x.fate.settle (.ok ((), w.withCore { w.core with
      objects := w.core.objects.filter fun object => object.key != key })) w

/-! ### The functions -/

/-- A program of these functions. -/
abbrev StorageProg := Proc StorageCall StorageCall.Resp PyErr

/-- One call. -/
def storageRun (c : StorageCall) : StorageProg c.Resp := Proc.perform c

/-- A program of Core, run next to the table. -/
def fromFiles {α : Type} (p : Prog α) : StorageProg α := p.embed StorageCall.core fun _ r => r

/-- `_assert_org_scope`. -/
def assertOrgScope (orgId key : String) : Except PyErr Unit :=
  if (orgId ++ "/").toList.isPrefixOf key.toList then .ok ()
  else .error ⟨.storageError, "File does not belong to this org"⟩

/-- What `_to_stored_file` makes of an item and a signed URL. -/
def FileRow.stored (row : FileRow) (signedUrl : String) : Except PyErr StoredFile :=
  match row with
  | .mark _ _ => .error ⟨.keyError, pyRepr "filename"⟩
  | .file item =>
    match fromisoformat item.uploadedAt with
    | none => .error ⟨.exception "ValueError",
        "Invalid isoformat string: " ++ pyRepr item.uploadedAt⟩
    | some uploadedAt => .ok
      { key := item.key, filename := item.filename, signedUrl, sizeBytes := item.sizeBytes,
        mimeType := item.mimeType, uploadedAt := uploadedAt.wall, uploadedBy := item.uploadedBy,
        serviceType := item.serviceType }

/-- `_to_stored_file`. -/
def toStoredFile (row : FileRow) : StorageProg StoredFile := do
  let signedUrl ← fromFiles (run (.generatePresignedUrl row.key 3600))
  Proc.ofExcept (row.stored signedUrl)

/-- `get_file_metadata`. -/
def getFileMetadata (orgId key : String) : StorageProg StoredFile := do
  Proc.ofExcept (assertOrgScope orgId key)
  match ← storageRun (.getFileItem orgId key) with
  | none => .raise ⟨.exception "StorageNotFoundError", "File metadata not found: " ++ key⟩
  | some row => toStoredFile row

/-- `delete_file`. -/
def deleteFile (orgId key deletedBy : String) : StorageProg Unit := do
  Proc.ofExcept (assertOrgScope orgId key)
  try storageRun (.deleteObject key)
  catch exc => match exc.cls with
    | .clientError _ => .raise ⟨.storageError, "Failed to delete file: " ++ exc.text⟩
    | _ => throw exc
  storageRun (.updateFileItem orgId key)
  let _ ← fromFiles (logAudit orgId deletedBy "file.deleted" "file" key (.obj []))

/-- An item that the loop of `list_files` does not skip. -/
def FileRow.Listed (filenamePrefix : Option String) (row : FileRow) : Prop :=
  row.isDeleted = false ∧ ∀ pfx ∈ filenamePrefix, pfx.toList <+: row.filename.toList

instance (filenamePrefix : Option String) : DecidablePred (FileRow.Listed filenamePrefix) :=
  fun row => inferInstanceAs (Decidable (row.isDeleted = false ∧
    ∀ pfx ∈ filenamePrefix, pfx.toList <+: row.filename.toList))

/-- `list_files`. An empty prefix is no filter, and is a prefix of every name. -/
def listFiles (orgId : String) (serviceType filenamePrefix : Option String) :
    StorageProg (List StoredFile) := do
  let items ← storageRun (.queryFiles orgId serviceType)
  Proc.forEach (items.filter fun row => row.Listed filenamePrefix) [] fun files row => do
    let file ← toStoredFile row
    return files ++ [file]

end A2ZCore.Core
