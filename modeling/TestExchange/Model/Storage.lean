import TestExchange.Model.Requests

/-!
# Evidence files

The files behind evidence items lie in the bucket `test-evidence`, into which
users put them without the API. What they may do there is decided by three policy
functions of the database; an upload to a name that is taken would need another
one, which does not exist. A `Backend` is the service together with its bucket.
-/

namespace TestExchange

open Txn

/-! ## `text::uuid` -/

/-- The value of a hexadecimal digit, in either case. -/
def hexValue (c : Char) : Option Nat :=
  if '0' ≤ c ∧ c ≤ '9' then some (c.toNat - '0'.toNat)
  else if 'a' ≤ c ∧ c ≤ 'f' then some (c.toNat - 'a'.toNat + 10)
  else if 'A' ≤ c ∧ c ≤ 'F' then some (c.toNat - 'A'.toNat + 10)
  else none

/-- Read some bytes, with a hyphen allowed after every second one but the last. -/
def readBytes : Nat → Nat → List Char → Option (Nat × List Char)
  | 0, acc, cs => some (acc, cs)
  | left + 1, acc, a :: b :: cs => do
      let high ← hexValue a
      let low ← hexValue b
      let cs := if cs.head? = some '-' ∧ left % 2 = 0 ∧ left ≠ 0 then cs.tail else cs
      readBytes left (acc * 256 + high * 16 + low) cs
  | _ + 1, _, _ => none

/-- `folder::uuid`, or `none` where it raises `invalid_text_representation`. -/
def castUuid (text : String) : Option Uuid :=
  match text.toList with
  | '{' :: cs =>
      match readBytes 16 0 cs with
      | some (u, ['}']) => some u
      | _ => none
  | cs =>
      match readBytes 16 0 cs with
      | some (u, []) => some u
      | _ => none

/-! ## Policies -/

/-- `(storage.foldername(name))[1]`: null for a name without a folder. -/
def firstFolder (name : String) : Option String :=
  match name.toList.splitOn '/' with
  | folder :: _ :: _ => some (String.ofList folder)
  | _ => none

/-- `testexchange_can_read_evidence` -/
def canReadEvidence (db : Db) (userId : Uuid) (folder : Option String) : Bool :=
  (folder.bind castUuid).any fun id => (db.assignments.get? id).any fun a =>
    (db.campaigns.get? a.campaignId).any fun c =>
      (db.profiles.get? userId).any (fun p => !p.isSuspended)
        && (a.testerId = userId || c.ownerId = userId)

/-- The folder is that of an assignment the user tests, in one of the listed statuses. -/
def testsInFolder (db : Db) (userId : Uuid) (statuses : List AssignmentStatus)
    (folder : Option String) : Bool :=
  (folder.bind castUuid).any fun id => (db.assignments.get? id).any fun a =>
    (db.profiles.get? userId).any (fun p => !p.isSuspended)
      && a.testerId = userId && a.status ∈ statuses

/-- `testexchange_can_upload_evidence` -/
def canUploadEvidence (db : Db) (userId : Uuid) (folder : Option String) : Bool :=
  testsInFolder db userId [.accepted, .inProgress, .changesRequested] folder

/-- `testexchange_can_delete_orphan_evidence` -/
def canDeleteOrphanEvidence (db : Db) (userId : Uuid) (folder : Option String)
    (objectName : String) : Bool :=
  testsInFolder db userId [.inProgress, .changesRequested] folder
    && !db.evidenceItems.any fun _ item => item.storageKey = some objectName

/-! ## The service and its bucket -/

/-- The service, and the content of each object in the bucket. -/
structure Backend (C : Type) where
  service : Service
  objects : String → Option C

/-- What users do. -/
inductive BackendEvent (C : Type) where
  | api (now : Time) (user : CurrentUser) (request : Request)
  | upload (userId : Uuid) (name : String) (content : C)
  | delete (userId : Uuid) (name : String)

namespace Backend

variable {C : Type}

/-- Nothing has happened yet. -/
def init : Backend C := ⟨.init, fun _ => none⟩

/-- The upload is performed: the name is free and the policy allows it. -/
def accepts (b : Backend C) (userId : Uuid) (name : String) : Bool :=
  (b.objects name).isNone && canUploadEvidence b.service.db userId (firstFolder name)

def step (settings : Settings) (b : Backend C) : BackendEvent C → Backend C
  | .api now user request => { b with service := b.service.serve settings now user request }
  | .upload userId name content =>
      if b.accepts userId name then { b with objects := Function.update b.objects name (some content) }
      else b
  | .delete userId name =>
      if canDeleteOrphanEvidence b.service.db userId (firstFolder name) name then
        { b with objects := Function.update b.objects name none }
      else b

/-- One event after the other. -/
def run (settings : Settings) (b : Backend C) (events : List (BackendEvent C)) : Backend C :=
  events.foldl (step settings) b

@[simp] theorem run_nil {settings : Settings} {b : Backend C} : b.run settings [] = b := rfl

theorem run_append {settings : Settings} {b : Backend C} {events more : List (BackendEvent C)} :
    b.run settings (events ++ more) = (b.run settings events).run settings more :=
  List.foldl_append

end Backend

example : castUuid (Uuid.str 27) = some 27 := by decide

example : firstFolder "a/b/c" = some "a" := by decide

end TestExchange
