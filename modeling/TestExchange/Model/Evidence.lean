import TestExchange.Model.Moderation
import TestExchange.Model.Profiles

/-!
# Private evidence links

A moderator opens an attachment of a dispute through a short-lived link signed
by the storage service. What comes of asking for it is an argument here.
-/

namespace TestExchange

open Txn Txn.Session

/-- The characters `quote(…, safe="/")` keeps. -/
def isQuoteSafe (b : UInt8) : Bool :=
  let c := Char.ofNat b.toNat
  b < 128 && (c.isAlphanum || c ∈ ['_', '.', '-', '~', '/'])

/-- One byte, kept or percent-encoded. -/
def quoteByte (b : UInt8) : List Char :=
  if isQuoteSafe b then [Char.ofNat b.toNat]
  else '%' :: (hexDigits 2 b.toNat).map Char.toUpper

/-- `quote(s, safe="/")`: percent-encoding of the UTF-8 bytes. -/
def quote (s : String) : String := String.ofList (s.toUTF8.toList.flatMap quoteByte)

/-- `url.rstrip("/")` -/
def rstripSlash (url : String) : String :=
  String.ofList (url.toList.reverse.dropWhile (· = '/')).reverse

/-- What an answer's body can be. A number is kept as its text. -/
inductive JsonBody where
  | null
  | bool (b : Bool)
  | number (text : String)
  | string (s : String)
  | array (items : List JsonBody)
  | object (fields : List (String × JsonBody))

/-- What comes of the request to sign a link. -/
inductive SigningAnswer where
  /-- No answer, a status that is no success, or a body that is no JSON. -/
  | failed
  /--
  An exception that `except` does not list, above all the `RecursionError` that
  `json()` raises for a body whose arrays or objects are nested too deeply.
  -/
  | uncaught (exception : String)
  | json (body : JsonBody)

/--
`response.json()["signedURL"]`, if there is one and it is a string. Of several
fields of that name the last one counts.
-/
def SigningAnswer.signedUrl : SigningAnswer → Option String
  | .json (.object fields) =>
      match fields.reverse.lookup "signedURL" with
      | some (.string s) => some s
      | _ => none
  | _ => none

/-- What is raised if there is no such string: `expected`, unless `except` was passed by. -/
def SigningAnswer.failure (expected : Failure) : SigningAnswer → Failure
  | .uncaught exception => .unhandled exception
  | _ => expected

/-- A setting that is set and not empty. -/
def configured (setting : Option String) : Option String := setting.filter (· ≠ "")

/-- `sign_storage_evidence`, given what comes of its request. -/
def signStorageEvidence (settings : Settings) (storageKey : String) (answer : SigningAnswer) :
    Session String := do
  match configured settings.supabaseUrl, configured settings.supabaseServiceRoleKey with
  | some supabaseUrl, some _ => do
      let path := "/object/sign/test-evidence/" ++ quote storageKey
      let failure : Failure := .domain "Unable to open this attachment. Please try again." 502
      let signedPath ← orRaise (answer.failure failure) answer.signedUrl
      raiseIf (¬(path ++ "?token=").toList <+: signedPath.toList) failure
      pure (rstripSlash supabaseUrl ++ "/storage/v1" ++ signedPath)
  | _, _ =>
      raise (.domain "Moderator evidence access is not configured. Contact support." 503)

def moderatorEvidenceUrl (settings : Settings) (disputeId evidenceId moderatorId : Uuid)
    (answer : SigningAnswer) : Session String := do
  let failure : Failure := .domain "Attachment not found in this moderation case" 404
  let dispute ← query fun db => db.disputes.get? disputeId
  let item ← query fun db => db.evidenceItems.get? evidenceId
  let submission ← query fun db =>
    item.bind fun item => db.evidenceSubmissions.get? item.submissionId
  let dispute ← orRaise failure dispute
  let item ← orRaise failure item
  let submission ← orRaise failure submission
  raiseIf (submission.assignmentId ≠ dispute.assignmentId) failure
  let storageKey ← orRaise failure (configured item.storageKey)
  validateStorageKey dispute.assignmentId storageKey
  let url ← signStorageEvidence settings storageKey answer
  addAuditEvent (some moderatorId) "moderation.evidence_opened" "assignment" dispute.assignmentId
    [("dispute_id", .str (Uuid.str disputeId)), ("evidence_id", .str (Uuid.str evidenceId))]
  flush
  pure url

end TestExchange
