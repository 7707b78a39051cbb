import TestExchange.Proof.Attachments
import TestExchange.Proof.Evidence
import TestExchange.Proof.Failures
import TestExchange.Proof.Quality
import TestExchange.Proof.Views
import TestExchange.Spec.Folders

/-!
# Who reads the evidence

A file of evidence is reached in two ways: through the service, which shows the
submission, and from the bucket, whose policy goes by the folder of the name. They
let the same people in, because a submission is accepted only with keys in the
folder of its assignment, and a file only in the folder of one.

A key may still begin with a dot segment, which the service skips and the bucket
does not. No file ever lies under such a name.
-/

namespace TestExchange

open Txn Txn.Session

variable {settings : Settings} {db db' : Db} {u id n n' : Nat} {s : Service} {now : Time} {c : Conn}
  {user : CurrentUser} {request : Request}

/-! ## Keys lie in the folder of their assignment -/

/-- Every key is one that was accepted for the assignment its submission is of. -/
def Db.Filed (db : Db) : Prop :=
  ∀ i item key, db.evidenceItems.get? i = some item → item.storageKey = some key →
    ∃ e, db.evidenceSubmissions.get? item.submissionId = some e ∧ KeyAccepted e.assignmentId key

section Submitting

variable {submissionId : Uuid} {items : List EvidenceItemCreate}

theorem ends_checkItems : Ends (checkItems id items) now c
    (fun _ c' => (∀ item ∈ items, ∀ key ∈ item.storageKey, KeyAccepted id key) ∧ c' = c)
    fun _ => True := by
  unfold Ends
  cases hok : (checkItems id items).alone now c with
  | error e => exact trivial
  | ok r => exact ⟨fun item hitem => (checkItems_checked hok item hitem).2, checkItems_ok hok⟩

/-- While the items of a new submission are added, the submission is there. -/
structure Filing (submissionId assignmentId : Uuid) (db : Db) : Prop where
  filed : db.Filed
  submission : ∃ e, db.evidenceSubmissions.get? submissionId = some e
    ∧ e.assignmentId = assignmentId

theorem filing_keeps {w : Write}
    (hw : Keeps (fun t : Db => (t.evidenceSubmissions, t.evidenceItems)) w) :
    Preserves (Filing submissionId id) w := by
  refine preserves_of_keeps fun t ht => ?_
  obtain ⟨hsubmissions, hitems⟩ := Prod.mk.inj (hw t)
  constructor
  · intro i item key hitem hkey
    rw [hitems] at hitem
    rw [hsubmissions]
    exact ht.filed i item key hitem hkey
  · rw [hsubmissions]
    exact ht.submission

theorem filing_item {k : Uuid} {item : EvidenceItemCreate}
    (hkeys : ∀ key ∈ item.storageKey, KeyAccepted id key) :
    Preserves (Filing submissionId id) (insertEvidenceItem k (item.item submissionId)) := by
  refine preserves_of_keeps fun t ht => ⟨?_, ht.submission⟩
  intro i other key hother hkey
  rcases Table.get?_insert_cases hother with hold | ⟨-, rfl, -⟩
  · exact ht.filed i other key hold hkey
  · obtain ⟨e, he, hof⟩ := ht.submission
    exact ⟨e, he, hof ▸ hkeys key hkey⟩

theorem filed_insert {e : EvidenceSubmission} (hnew : db.evidenceSubmissions.get? n = none)
    (hof : e.assignmentId = id) (h : db.Filed) :
    Filing n id ((insertEvidenceSubmission n e).effect db) := by
  constructor
  · intro i item key hitem hkey
    obtain ⟨f, hf, haccepted⟩ := h i item key hitem hkey
    exact ⟨f, Table.get?_insert_of_some hf, haccepted⟩
  · exact ⟨e, Table.get?_insert_self hnew, hof⟩

/-- A submission adds no key but those its items were checked for. -/
theorem createSubmission_filing {testerId : Uuid} {payload : SubmissionCreate} (h : db.Filed) :
    Ends (createSubmission id testerId payload) now ⟨db, [], n⟩ (fun _ => Abides (Filing n id))
      fun _ => True := by
  refine ends_select_bind (ends_orRaise_bind (fun _ => trivial) fun a ha =>
    ends_raiseIf_bind (fun _ => trivial) fun _ => ends_raiseIf_bind (fun _ => trivial) fun _ =>
    Ends.bind (Q := fun _ c => c = ⟨db, [], n⟩) ?_ ?_)
  · exact ends_query_bind (ends_orRaise_bind (fun _ => trivial) fun _ _ =>
      ends_query_bind (ends_pure rfl))
  rintro ⟨contract, tasks⟩ _ rfl
  refine ends_utcnow_bind (ends_orRaise_bind (fun _ => trivial) fun _ _ =>
    ends_raiseIf_bind (fun _ => trivial) fun _ => ends_query_bind (ends_raiseIf_bind
    (fun _ => trivial) fun _ => ends_raiseIf_bind (fun _ => trivial) fun _ =>
    ends_raiseIf_bind (fun _ => trivial) fun _ => ends_checkItems.bind ?_))
  rintro _ _ ⟨hkeys, rfl⟩
  refine ends_query_bind (ends_uuid4_bind (ends_utcnow_bind (ends_add_bind
    (ends_flush_one_bind (fun _ _ => trivial) fun hv => ?_))))
  -- the submission has been sent; its items and the rest are queued behind it
  have hstart : Filing n id ((insertEvidenceSubmission n
      { assignmentId := id, version := db.latestVersion id + 1, summary := payload.summary,
        submittedAt := now }).effect db) := filed_insert (free_of_accepted hv) rfl h
  have hrest : Only (Preserves (Filing n id)) (addItems n payload.items) :=
    only_addItems_mem fun k item hitem => filing_item (hkeys item hitem)
  refine Confined.abides (Only.confined ?_) (abides_start hstart) fun _ => trivial
  exact hrest.bind fun _ => only_utcnow.bind fun _ => (only_add (filing_keeps fun _ => rfl)).bind
    fun _ => (only_addAuditEvent (filing_keeps fun _ => rfl)).bind fun _ => only_getCampaign.bind
    fun _ => only_testerDisplayName.bind fun _ =>
    (only_addNotification fun _ => filing_keeps fun _ => rfl).bind fun _ =>
    only_flush.bind fun _ => only_pure

theorem createSubmission_filed {testerId : Uuid} {payload : SubmissionCreate} :
    Yields (createSubmission id testerId payload) fun _ db db' => db.Filed → db'.Filed := by
  intro now db n r c db' hok hf h
  have hends : Ends (createSubmission id testerId payload) now ⟨db, [], n⟩
      (fun _ => Abides (Filing n id)) fun _ => True := createSubmission_filing h
  unfold Ends at hends
  rw [hok] at hends
  exact (applyAll_preserves hends.queued hf hends.holds).filed

end Submitting

/-- Without a submission, no item is new and none has its key changed. -/
theorem items_before
    (hok : (handle settings user request).commit.alone now db n = .ok ((), db', n'))
    (hsubmit : ∀ id payload, request ≠ .submit id payload) {i : Uuid} {item : EvidenceItem}
    (hitem : db'.evidenceItems.get? i = some item) :
    ∃ old, db.evidenceItems.get? i = some old ∧ old.submissionId = item.submissionId
      ∧ old.storageKey = item.storageKey := by
  have hnot : .evidenceItems ∉ request.relations := by
    cases request with
    | submit id payload => exact absurd rfl (hsubmit id payload)
    | _ => simp [Request.relations]
  refine (handle_within request).invariant (fun t => ∀ i item,
    t.evidenceItems.get? i = some item → ∃ old, db.evidenceItems.get? i = some old
      ∧ old.submissionId = item.submissionId ∧ old.storageKey = item.storageKey) hok
    (fun i item hitem => ⟨item, hitem, rfl, rfl⟩) ?_ i item hitem
  rintro w t ⟨r, hr, hw⟩ hv ht
  cases hw with
  | insertEvidenceItem => exact absurd hr hnot
  | deleteContractTasks =>
      intro i item hitem
      obtain ⟨mid, hmid, rfl⟩ := Option.map_eq_some_iff.mp (Table.get?_map.symm.trans hitem)
      exact ht i mid hmid
  | _ => exact ht

theorem filed_commit (hs : Reachable settings s) (h : s.db.Filed)
    (hok : (handle settings user request).commit.alone now s.db s.nextId = .ok ((), db', n)) :
    db'.Filed := by
  by_cases hsubmit : ∃ id payload, request = .submit id payload
  · obtain ⟨id, payload, rfl⟩ := hsubmit
    obtain ⟨c, halone, hf, -⟩ := commit_alone.mp hok
    exact yields_active (yields_validated fun p _ => yields_discard createSubmission_filed)
      now s.db s.nextId _ c db' halone hf h
  · have houtlasts : s.db.Outlasts (s.serve settings now user request).db := outlasts_serve hs
    have hserved : (s.serve settings now user request).db = db' := by
      unfold Service.serve
      rw [hok]
    rw [hserved] at houtlasts
    intro i item key hitem hkey
    obtain ⟨old, hold, hsubmission, hsame⟩ :=
      items_before hok (fun id payload hr => hsubmit ⟨id, payload, hr⟩) hitem
    obtain ⟨e, he, haccepted⟩ := h i old key hold (hsame.trans hkey)
    obtain ⟨f, hf, hof⟩ := houtlasts.submissions _ e he
    exact ⟨f, hsubmission ▸ hf, hof ▸ haccepted⟩

theorem filed_reachable (h : Reachable settings s) : s.db.Filed := by
  refine reachable_invariant Db.Filed h ?_ ?_
  · exact fun i item key hitem => absurd hitem (by simp [Db.empty])
  · exact fun s now user request u db nextId hs hinv hok => filed_commit hs hinv hok

/-! ## Files lie in the folder of an assignment -/

namespace Backend

variable {C : Type} {b : Backend C}

/-- Every file in the bucket has a folder, and that is the folder of an assignment. -/
def Housed (b : Backend C) : Prop :=
  ∀ name content, b.objects name = some content → ∃ id a,
    (firstFolder name).bind castUuid = some id ∧ b.service.db.assignments.get? id = some a

theorem housed_step {event : BackendEvent C} (hs : Reachable settings b.service) (h : b.Housed) :
    Reachable settings (b.step settings event).service ∧ (b.step settings event).Housed := by
  cases event with
  | api now user request =>
      refine ⟨hs.tail now user request, fun name content hfile => ?_⟩
      obtain ⟨id, a, hfolder, ha⟩ := h name content hfile
      have houtlasts : b.service.db.Outlasts (b.service.serve settings now user request).db :=
        outlasts_serve hs
      obtain ⟨a', ha', -⟩ := houtlasts.assignments id a ha
      exact ⟨id, a', hfolder, ha'⟩
  | upload userId name content =>
      unfold step
      dsimp only
      split
      · rename_i haccepted
        refine ⟨hs, fun other content' hfile => ?_⟩
        by_cases hname : other = name
        · subst hname
          have hmay := (Bool.and_eq_true_iff.mp haccepted).2
          unfold canUploadEvidence testsInFolder at hmay
          obtain ⟨id, hfolder, hmay⟩ := (Option.any_eq_true _ _).mp hmay
          obtain ⟨a, ha, -⟩ := (Option.any_eq_true _ _).mp hmay
          exact ⟨id, a, hfolder, ha⟩
        · exact h other content' ((Function.update_of_ne hname _ _).symm.trans hfile)
      · exact ⟨hs, h⟩
  | delete userId name =>
      unfold step
      dsimp only
      split
      · refine ⟨hs, fun other content hfile => ?_⟩
        by_cases hname : other = name
        · subst hname
          cases (Function.update_self other none b.objects).symm.trans hfile
        · exact h other content ((Function.update_of_ne hname _ _).symm.trans hfile)
      · exact ⟨hs, h⟩

theorem housed_run {events : List (BackendEvent C)} (hs : Reachable settings b.service)
    (h : b.Housed) :
    Reachable settings (b.run settings events).service ∧ (b.run settings events).Housed := by
  induction events generalizing b with
  | nil => exact ⟨hs, h⟩
  | cons event events ih =>
      have hnext : Reachable settings (b.step settings event).service
          ∧ (b.step settings event).Housed := housed_step hs h
      exact ih hnext.1 hnext.2

end Backend

/-! ## The two ways to a file -/

/-- A file lies in the folder its key names, segments that are skipped aside. -/
theorem KeyAccepted.folder_eq {name : String} (h : KeyAccepted id name)
    (hfolder : (firstFolder name).bind castUuid = some n) : n = id := by
  have hkept := h.kept
  obtain ⟨folder, hfirst, hcast⟩ := Option.bind_eq_some_iff.mp hfolder
  unfold firstFolder at hfirst
  split at hfirst
  · rename_i first second rest hsplit
    cases hfirst
    unfold keptSegments rawSegments at hkept
    rw [hsplit] at hkept
    -- a first segment that is skipped is no identifier
    by_cases hempty : first = []
    · subst hempty
      cases hcast
    by_cases hdot : first = ['.']
    · subst hdot
      cases hcast
    rw [List.filter_cons_of_pos (by simp [hempty, hdot]), List.head?_cons] at hkept
    rw [Option.some.inj hkept, String.ofList_toList] at hcast
    exact castUuid_str_eq hcast
  · cases hfirst

/-- The policy of the bucket, in the words of the service. -/
theorem canReadEvidence_iff {folder : Option String} (hs : Reachable settings s)
    (hfolder : folder.bind castUuid = some id) :
    canReadEvidence s.db u folder = true ↔ ¬s.db.Suspended u ∧ s.db.TakesPart u id := by
  -- whoever tests or owns anything has a profile, as the bucket's policy wants
  have horderly := orderly_reachable hs
  unfold canReadEvidence
  rw [hfolder]
  simp only [Option.any_some, Option.any_eq_true, Bool.and_eq_true, Bool.or_eq_true,
    decide_eq_true_iff, Bool.not_eq_true']
  constructor
  · rintro ⟨a, ha, x, hx, hactive, hparty⟩
    refine ⟨not_suspended hactive, ?_⟩
    rcases hparty with htester | howner
    · exact .inl ⟨a, ha, htester⟩
    · exact .inr ⟨a, ha, x, hx, howner⟩
  · rintro ⟨hactive, ⟨a, ha, htester⟩ | ⟨a, ha, x, hx, howner⟩⟩
    · obtain ⟨x, hx, -⟩ := (joined_reachable hs).hosted id a ha
      have hknown : s.db.Knows u := htester ▸ horderly.testers id a ha
      exact ⟨a, ha, x, hx, inGoodStanding_of_knows hknown hactive, .inl htester⟩
    · have hknown : s.db.Knows u := howner ▸ horderly.owners a.campaignId x hx
      exact ⟨a, ha, x, hx, inGoodStanding_of_knows hknown hactive, .inr howner⟩

/-- A file of the assignment, and who is let at it: by the bucket, and as evidence. -/
structure FileOf (settings : AppSettings) (s : Service) (name : String) (id : Uuid) : Prop where
  assigned : ∃ a, s.db.assignments.get? id = some a
  bucket : ∀ u, canReadEvidence s.db u (firstFolder name) = true
    ↔ ¬s.db.Suspended u ∧ s.db.TakesPart u id
  /-- The submission is shown to those who can open the file, and to nobody else. -/
  service : ∀ i item, s.db.evidenceItems.get? i = some item → item.storageKey = some name →
    ∀ now user, canReadEvidence s.db user.id (firstFolder name) = true
      ↔ ∃ r, (s.respond settings ⟨now, user, .read (.submission item.submissionId)⟩).1 = .ok r

/--
**The bucket and the service let the same people at a file.** Whatever was done, a
file in the bucket is of one assignment. The tester and the owner of the campaign
can open it unless they are suspended, and nobody else; and if it is evidence, they
are also the ones whom the service shows the submission.
-/
theorem evidence_readers {C : Type} (settings : AppSettings) (events : List (BackendEvent C))
    (name : String) (content : C)
    (hfile : (Backend.init.run settings.toSettings events).objects name = some content) :
    ∃ id, FileOf settings (Backend.init.run settings.toSettings events).service name id := by
  obtain ⟨hs, hhoused⟩ : Reachable settings.toSettings
      (Backend.init.run settings.toSettings events).service
        ∧ (Backend.init.run settings.toSettings events).Housed :=
    Backend.housed_run .init fun name content hnone => by cases hnone
  obtain ⟨id, a, hfolder, ha⟩ := hhoused name content hfile
  refine ⟨id, ⟨a, ha⟩, fun u => canReadEvidence_iff hs hfolder, ?_⟩
  intro i item hitem hkey now user
  obtain ⟨e, he, haccepted⟩ := filed_reachable hs i item name hitem hkey
  have hsame : id = e.assignmentId := haccepted.folder_eq hfolder
  rw [canReadEvidence_iff hs hfolder, respond_read_ok hs]
  refine and_congr_right fun _ => ?_
  constructor
  · exact fun hpart => ⟨e, he, hsame ▸ hpart⟩
  · rintro ⟨f, hf, hpart⟩
    rw [he] at hf
    cases hf
    rw [hsame]
    exact hpart

/-- After the review the picture of the bench is uploaded all the same. -/
def picturedEvents : List (BackendEvent String) :=
  pictureEvents ++ [.upload 2 pictureKey "a bench"]

/-- The owner may open it, another tester may not. -/
theorem evidence_readers_bench :
    canReadEvidence (Backend.init.run benchSettings picturedEvents).service.db 1
        (firstFolder pictureKey) = true
      ∧ canReadEvidence (Backend.init.run benchSettings picturedEvents).service.db 3
        (firstFolder pictureKey) = false
      ∧ ∃ id, FileOf { moderatorUserIds := [9] }
        (Backend.init.run benchSettings picturedEvents).service pictureKey id := by
  have hsettings : ({ moderatorUserIds := [9] } : AppSettings).toSettings = benchSettings := rfl
  have hfile : (Backend.init.run benchSettings picturedEvents).objects pictureKey
      = some "a bench" := by decide +kernel
  refine ⟨by decide +kernel, by decide +kernel, ?_⟩
  have hreaders := evidence_readers { moderatorUserIds := [9] } picturedEvents pictureKey "a bench"
  rw [hsettings] at hreaders
  exact hreaders hfile

end TestExchange
