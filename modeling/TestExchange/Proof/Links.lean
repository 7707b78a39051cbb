import TestExchange.Refine.Refusals
import TestExchange.Spec.Links

/-!
# Links to attachments

A moderator opens an attachment through a link. Whatever the signing service
answers, the link is to the file the case is about: the answer has to start with
that file's path, and nothing in the path can end it early.

Where there is no link to give, the moderator should be told so. There are two ways
in which they are not: an exception that signing does not catch, and a moderator
who never joined, whom the audit trail cannot name.
-/

namespace TestExchange

open Txn Txn.Session

variable {assignmentId moderatorId disputeId evidenceId : Uuid} {storageKey : String}
  {settings : Settings} {answer : SigningAnswer} {now n : Nat} {c : Conn} {db : Db}

/-- The segments `PurePosixPath` keeps. -/
def keptSegments (storageKey : String) : List (List Char) :=
  (rawSegments storageKey).filter fun s => s ≠ [] && s ≠ ['.']

theorem KeyAccepted.no_parent (h : KeyAccepted assignmentId storageKey) :
    ['.', '.'] ∉ rawSegments storageKey := by
  intro hmem
  have hparents := h.parents
  rw [pathParts_relative h.relative] at hparents
  exact hparents (List.mem_filter.mpr ⟨hmem, by decide⟩)

theorem KeyAccepted.kept (h : KeyAccepted assignmentId storageKey) :
    (keptSegments storageKey).head? = some (Uuid.str assignmentId).toList := by
  have hfolder := h.folder
  rw [pathParts_relative h.relative] at hfolder
  exact hfolder

/-- The attachment is a file of the case: in a submission of the assignment, and in its folder. -/
structure CaseFile (db : Db) (disputeId evidenceId : Uuid) (storageKey : String) : Prop where
  found : ∃ dispute item submission, db.disputes.get? disputeId = some dispute
    ∧ db.evidenceItems.get? evidenceId = some item
    ∧ db.evidenceSubmissions.get? item.submissionId = some submission
    ∧ submission.assignmentId = dispute.assignmentId
    ∧ item.storageKey = some storageKey
    ∧ (keptSegments storageKey).head? = some (Uuid.str dispute.assignmentId).toList
  no_parent : ['.', '.'] ∉ rawSegments storageKey

/-- The link leads to the file with that key, below the base, whatever comes with it as a token. -/
def LinksTo (base storageKey url : String) : Prop :=
  ∃ q r, url = base ++ "/storage/v1/object/sign/test-evidence/" ++ q ++ "?token=" ++ r
    ∧ (∀ c ∈ q.toList, c ∉ ['?', '#', '\\']) ∧ Percent.decodeText q = some storageKey

/-- What a moderator's request for a link came to. -/
structure LinkGiven (settings : Settings) (db db' : Db) (disputeId evidenceId moderatorId : Uuid)
    (url : String) : Prop where
  link : ∃ b storageKey, settings.supabaseUrl = some b ∧ LinksTo (rstripSlash b) storageKey url
    ∧ CaseFile db disputeId evidenceId storageKey
  audit : ∃ event, event.action = "moderation.evidence_opened" ∧ event.actorId = some moderatorId
    ∧ db' = { db with auditEvents := db.auditEvents ++ [event] }

/-- `DomainError` -/
def Failure.IsDomain (e : Failure) : Prop := ∃ detail statusCode, e = .domain detail statusCode

theorem unhandled_not_domain {exception : String} : ¬(Failure.unhandled exception).IsDomain := by
  rintro ⟨detail, statusCode, h⟩
  cases h

theorem integrity_not_domain {constraint : String} : ¬(Failure.integrity constraint).IsDomain := by
  rintro ⟨detail, statusCode, h⟩
  cases h

theorem configured_eq {setting : Option String} {s : String} (h : configured setting = some s) :
    setting = some s := by
  unfold configured at h
  exact (Option.filter_eq_some_iff.mp h).1

/-! ## What the request comes to -/

theorem link_text {base storageKey rest : String} : base ++ linkPath storageKey ++ rest
    = base ++ "/storage/v1/object/sign/test-evidence/" ++ quote storageKey ++ "?token="
      ++ rest := by
  unfold linkPath
  simp only [String.append_assoc]

/-- A link that was signed for a key leads to its file. -/
theorem linksTo_of_signs {base signedPath : String} (h : answer.Signs storageKey signedPath) :
    LinksTo base storageKey (base ++ "/storage/v1" ++ signedPath) := by
  obtain ⟨rest, hlink⟩ : ∃ rest, base ++ "/storage/v1" ++ signedPath
      = base ++ linkPath storageKey ++ rest := link_of_prefix h.2
  refine ⟨quote storageKey, rest, ?_, fun c hc => quote_clean hc, decode_quote storageKey⟩
  rw [hlink, link_text]

/--
**A link stays in its case.** The request gives a link to a file of the disputed
assignment, and writes so in the audit trail; or it fails with a `DomainError`, or
one of the two ways it was not meant to.
-/
theorem moderatorEvidenceUrl_ends :
    Ends (moderatorEvidenceUrl settings disputeId evidenceId moderatorId answer) now ⟨db, [], n⟩
      (fun url c => c.pending = []
        ∧ LinkGiven settings db c.db disputeId evidenceId moderatorId url)
      fun e => e.IsDomain ∨ db.Trips settings disputeId evidenceId answer
        ∨ db.Opens settings disputeId evidenceId answer ∧ ¬db.Knows moderatorId := by
  unfold moderatorEvidenceUrl
  dsimp only
  refine ends_query_bind <| ends_query_bind <| ends_query_bind ?_
  refine ends_orRaise_bind (fun _ => Or.inl ⟨_, _, rfl⟩) fun dispute hdispute => ?_
  refine ends_orRaise_bind (fun _ => Or.inl ⟨_, _, rfl⟩) fun item hitem => ?_
  refine ends_orRaise_bind (fun _ => Or.inl ⟨_, _, rfl⟩) fun submission hsubmission => ?_
  refine ends_raiseIf_bind (fun _ => Or.inl ⟨_, _, rfl⟩) fun hcase => ?_
  refine ends_orRaise_bind (fun _ => Or.inl ⟨_, _, rfl⟩) fun storageKey hkey => ?_
  have hitem' : db.evidenceItems.get? evidenceId = some item := hitem
  have hbind : (db.evidenceItems.get? evidenceId).bind
      (fun item => db.evidenceSubmissions.get? item.submissionId) = some submission := hsubmission
  rw [hitem'] at hbind
  rcases validateStorageKey_cases dispute.assignmentId storageKey with ⟨hok, hvalid⟩ | ⟨-, hvalid⟩
  · rw [hvalid]
    refine ends_pure_bind ?_
    have hattached : ∀ base, settings.Signs base →
        db.Attached settings disputeId evidenceId storageKey := fun base hbase =>
      ⟨dispute, item, submission, base, hdispute, hitem', hbind, not_not.mp hcase, hkey, hok, hbase⟩
    refine Ends.there (ends_signStorageEvidence (fun _ _ _ => Or.inl ⟨_, _, rfl⟩) ?_) ?_
    · exact fun base exception hbase huncaught =>
        Or.inr (Or.inl ⟨storageKey, exception, hattached base hbase, huncaught⟩)
    rintro url ⟨base, signedPath, hbase, hsigned, rfl⟩
    refine ends_add_bind (ends_flush_one_bind (fun e hrefused => ?_) fun _ => ?_)
    · -- the only constraint on the row is that its actor is a user
      refine Or.inr (Or.inr ⟨⟨storageKey, signedPath, hattached base hbase, hsigned⟩, ?_⟩)
      intro hknown
      rw [insertAuditEvent_accepted rfl hknown] at hrefused
      cases hrefused
    · refine ends_pure ⟨rfl, ⟨base, storageKey, configured_eq hbase.1, linksTo_of_signs hsigned,
        ?_⟩, ⟨_, rfl, rfl, rfl⟩⟩
      exact ⟨⟨dispute, item, submission, hdispute, hitem', hbind, not_not.mp hcase,
        configured_eq hkey, hok.kept⟩, hok.no_parent⟩
  · rw [hvalid]
    exact ends_raise_bind (Or.inl ⟨_, _, rfl⟩)

/-! ## What it was not meant to come to -/

theorem firstViolated_integrity {checks : List (Bool × String)} {e : Failure}
    (h : firstViolated checks = some e) : ∃ constraint, e = .integrity constraint := by
  induction checks with
  | nil => exact absurd h (by simp)
  | cons check checks ih =>
      obtain ⟨violated, constraint⟩ := check
      unfold firstViolated at h
      split at h
      · exact ⟨constraint, (Option.some.inj h).symm⟩
      · exact ih h

section Unexpected

variable {u : Uuid} {R : String → Conn → Prop} {E : Failure → Prop}

/-- Up to the signing, nothing stands in the way of an attachment of the case. -/
theorem ends_attached (h : db.Attached settings disputeId evidenceId storageKey)
    (hsign : ∀ assignmentId details, Ends (do
      let url ← signStorageEvidence settings storageKey answer
      addAuditEvent (some u) "moderation.evidence_opened" "assignment" assignmentId details
      flush
      pure url : Session String) now ⟨db, [], n⟩ R E) :
    Ends (moderatorEvidenceUrl settings disputeId evidenceId u answer) now ⟨db, [], n⟩ R E := by
  obtain ⟨d, item, e, base, hd, hitem, he, hcase, hkey, hfits, -⟩ := h
  unfold moderatorEvidenceUrl
  dsimp only
  refine ends_query_bind <| ends_query_bind <| ends_query_bind <| ends_found_bind hd <|
    ends_found_bind hitem <| ends_found_bind (a := e) ?_ <|
    ends_passed_bind (not_not.mpr hcase) <| ends_found_bind hkey ?_
  · show (db.evidenceItems.get? evidenceId).bind _ = some e
    rw [hitem]
    exact he
  · rw [validateStorageKey_accepts.mpr hfits]
    exact hsign _ _

/-- An exception that is not caught goes all the way up. -/
theorem tripped_ends (h : db.Trips settings disputeId evidenceId answer)
    (hE : ∀ exception, E (.unhandled exception)) :
    Ends (moderatorEvidenceUrl settings disputeId evidenceId u answer) now ⟨db, [], n⟩
      (fun _ _ => False) E := by
  obtain ⟨storageKey, exception, hattached, rfl⟩ := h
  obtain ⟨_, _, _, base, _, _, _, _, _, _, hbase, role, hrole⟩ := id hattached
  refine ends_attached hattached fun _ _ => ?_
  unfold signStorageEvidence
  rw [hbase, hrole]
  exact hE exception

/-- Nor can the audit trail name a moderator who never joined. -/
theorem unaudited_ends (h : db.Opens settings disputeId evidenceId answer) (hu : ¬db.Knows u)
    (hE : ∀ constraint, E (.integrity constraint)) :
    Ends (moderatorEvidenceUrl settings disputeId evidenceId u answer) now ⟨db, [], n⟩
      (fun _ _ => False) E := by
  obtain ⟨storageKey, signedPath, hattached, hpath, hprefix⟩ := h
  obtain ⟨_, _, _, base, _, _, _, _, _, _, hbase, role, hrole⟩ := id hattached
  refine ends_attached hattached fun assignmentId details => ?_
  have hsigned : (signStorageEvidence settings storageKey answer).alone now ⟨db, [], n⟩
      = .ok (rstripSlash base ++ "/storage/v1" ++ signedPath, ⟨db, [], n⟩) := by
    unfold signStorageEvidence
    rw [hbase, hrole]
    exact alone_bind.mpr ⟨signedPath, _, alone_orRaise.mpr ⟨hpath, rfl⟩, alone_bind.mpr
      ⟨(), _, alone_raiseIf.mpr ⟨not_not.mpr hprefix, rfl⟩, alone_pure.mpr ⟨rfl, rfl⟩⟩⟩
  refine ends_after hsigned (ends_add_bind
    (ends_flush_one_bind (fun e hrefused => ?_) fun hdone => ?_))
  · obtain ⟨name, rfl⟩ := firstViolated_integrity hrefused
    exact hE name
  · exact absurd hdone (event_refused hu)

end Unexpected

/--
**A moderator gets the link or is told that there is none**, and only a link that
was given is in the audit trail, exactly if the signing ends in no exception that
goes past the service and a moderator who gets a link has a profile.
-/
theorem moderator_link_iff (settings : Settings) (disputeId evidenceId moderatorId : Uuid)
    (answer : SigningAnswer) (now : Time) (db : Db) (next : Nat) :
    let result := (moderatorEvidenceUrl settings disputeId evidenceId moderatorId
      answer).commit.alone now db next
    ((∀ url db' next', result = .ok (url, db', next') →
        LinkGiven settings db db' disputeId evidenceId moderatorId url)
      ∧ ∀ failure, result = .error failure → failure.IsDomain
        ∧ (databaseAfter db result).auditEvents = db.auditEvents)
    ↔ ¬db.Trips settings disputeId evidenceId answer
      ∧ (db.Opens settings disputeId evidenceId answer → db.Knows moderatorId) := by
  intro result
  constructor
  · rintro ⟨-, hfails⟩
    have hdomain : ¬Ends (moderatorEvidenceUrl settings disputeId evidenceId moderatorId answer) now
        ⟨db, [], next⟩ (fun _ _ => False) fun e => ¬e.IsDomain := by
      intro hends
      obtain ⟨e, he, hnot⟩ := hends.commit_fails
      exact hnot (hfails e he).1
    refine ⟨fun htrips => ?_, fun hopens => ?_⟩
    · exact hdomain (tripped_ends htrips fun _ => unhandled_not_domain)
    · by_contra hu
      exact hdomain (unaudited_ends hopens hu fun _ => integrity_not_domain)
  · rintro ⟨hcaught, hknown⟩
    obtain ⟨hgiven, hfails⟩ := moderatorEvidenceUrl_ends.commit (Q := fun url db' _ =>
      LinkGiven settings db db' disputeId evidenceId moderatorId url)
    refine ⟨hgiven, fun failure herror => ⟨?_, ?_⟩⟩
    · rcases hfails failure herror with hdomain | htrips | ⟨hopens, hu⟩
      · exact hdomain
      · exact absurd htrips hcaught
      · exact absurd (hknown hopens) hu
    · rw [herror]
      rfl

/-! ### A photo of the bench

The first tester's submission is a photo (item 13). It is rejected, and they open a
dispute, which is number 17. Of the two moderators only the first has joined.
-/

def photoSettings : Settings where
  moderatorUserIds := [9, 10]
  supabaseUrl := some "https://project.example/"
  supabaseServiceRoleKey := some "secret"

def photoEvidence : SubmissionCreate where
  summary := "I found a bench and sat on it"
  items :=
    [{ taskId := some 6, kind := .screenshot,
       storageKey := some "00000000-0000-0000-0000-000000000008/photo.png" }]

def photoDispute : List (Time × CurrentUser × Request) :=
  [(0, ⟨2, none⟩, .submit 8 photoEvidence),
   (0, ⟨1, none⟩, .review 12 ⟨.rejected, "No bench here"⟩),
   (0, ⟨2, none⟩, .openDispute 8 ⟨some 12, "There is a bench in the picture"⟩)]

def photoService : Service :=
  Service.init.run photoSettings (benchLaunch ++ benchTests.take 3 ++ photoDispute)

def photoAnswer : SigningAnswer := .json (.object [("signedURL", .string
  "/object/sign/test-evidence/00000000-0000-0000-0000-000000000008/photo.png?token=abc")])

/-- The request for a link to the photo. -/
def photoLink (moderatorId : Uuid) (answer : SigningAnswer) : Except Failure (String × Db × Nat) :=
  (moderatorEvidenceUrl photoSettings 17 13 moderatorId answer).commit.alone 0 photoService.db
    photoService.nextId

theorem moderator_link_iff_photo :
    ∃ url db n, photoLink 9 photoAnswer = .ok (url, db, n)
      ∧ url = "https://project.example/storage/v1/object/sign/test-evidence/"
        ++ "00000000-0000-0000-0000-000000000008/photo.png?token=abc"
      ∧ LinkGiven photoSettings photoService.db db 17 13 9 url := by
  have hurl : (photoLink 9 photoAnswer).toOption.map (·.1)
      = some ("https://project.example/storage/v1/object/sign/test-evidence/"
        ++ "00000000-0000-0000-0000-000000000008/photo.png?token=abc") := by decide +kernel
  have hjoined : photoService.db.profiles.contains 9 = true := by decide +kernel
  have hcaught : ¬photoService.db.Trips photoSettings 17 13 photoAnswer := by
    rintro ⟨_, _, -, huncaught⟩
    cases huncaught
  obtain ⟨hgiven, -⟩ := (moderator_link_iff photoSettings 17 13 9 photoAnswer 0 photoService.db
    photoService.nextId).mpr ⟨hcaught, fun _ => Table.contains_eq_true.mp hjoined⟩
  cases hrun : photoLink 9 photoAnswer with
  | error e =>
      rw [hrun] at hurl
      cases hurl
  | ok r =>
      rw [hrun] at hurl
      exact ⟨r.1, r.2.1, r.2.2, rfl, Option.some.inj hurl, hgiven _ _ _ hrun⟩

/-- Neither a result nor a `DomainError`. -/
def unexpected {α : Type} : Except Failure α → Bool
  | .ok _ | .error (.domain _ _) => false
  | .error _ => true

theorem fails_of_unexpected {α : Type} {result : Except Failure α} (h : unexpected result = true) :
    ∃ e, result = .error e ∧ ¬e.IsDomain := by
  cases result with
  | ok r => cases h
  | error e =>
      refine ⟨e, rfl, ?_⟩
      rintro ⟨detail, statusCode, rfl⟩
      cases h

/-- The second moderator asks; and the first, when the answer is nested too deeply. -/
theorem moderator_link_unexpected :
    Reachable photoSettings photoService
      ∧ (∃ e, photoLink 10 photoAnswer = .error e ∧ ¬e.IsDomain)
      ∧ ∃ e, photoLink 9 (.uncaught "RecursionError") = .error e ∧ ¬e.IsDomain :=
  ⟨reachable_run .init _, fails_of_unexpected (by decide +kernel),
    fails_of_unexpected (by decide +kernel)⟩

end TestExchange
