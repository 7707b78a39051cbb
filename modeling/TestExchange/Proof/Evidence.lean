import TestExchange.Model.Storage
import TestExchange.Proof.Lifecycle
import TestExchange.Refine.Relations
import TestExchange.Spec.Bucket

/-!
# Submitted evidence stays as it is

The keys of evidence items are the pinned names of the bucket. The API only adds
to them, and the policy for deletions looks them up. The policy for uploads does
not: a key that was submitted without a file behind it can still get one, as soon
as the assignment is open for uploads again.
-/

namespace TestExchange

open Txn Txn.Session

/-- The evidence item has this storage key. -/
def Db.Files (db : Db) (id : Uuid) (key : String) : Prop :=
  ∃ item, db.evidenceItems.get? id = some item ∧ item.storageKey = some key

/-- The storage keys of the evidence items. -/
def Db.storageKeys (db : Db) : Set String := {key | ∃ id, db.Files id key}

variable {db : Db} {id : Uuid} {key : String}

theorem WritesTo.files {r : Relation} {w : Write} (hw : WritesTo r w) (h : db.Files id key) :
    (w.effect db).Files id key := by
  obtain ⟨item, hitem, hkey⟩ := h
  cases hw with
  | insertEvidenceItem => exact ⟨item, Table.get?_insert_of_some hitem, hkey⟩
  | @deleteContractTasks ids =>
      refine ⟨{ item with taskId := item.taskId.filter fun taskId => taskId ∉ ids }, ?_, hkey⟩
      show (db.evidenceItems.map _).get? id = _
      rw [Table.get?_map, hitem]
      rfl
  | _ => exact ⟨item, hitem, hkey⟩

/-- A request takes no key away. -/
theorem serve_files {settings : Settings} {s : Service} {now : Time} {user : CurrentUser}
    {request : Request} (h : s.db.Files id key) :
    (s.serve settings now user request).db.Files id key := by
  unfold Service.serve
  split
  · rename_i db nextId hok
    exact (handle_within request).invariant (fun db => db.Files id key) hok h
      fun w t ⟨_, _, hw⟩ _ ht => hw.files ht
  · exact h

theorem mem_storageKeys :
    key ∈ db.storageKeys ↔ (db.evidenceItems.any fun _ item => item.storageKey = some key) = true := by
  simp only [Db.storageKeys, Db.Files, Set.mem_ofPred_eq, Table.any_eq_true, decide_eq_true_eq]

/-! ## The bucket -/

namespace Backend

variable {C : Type} {b : Backend C} {settings : Settings} {event : BackendEvent C}
  {events : List (BackendEvent C)}

/-- The bucket, with what was submitted pinned. -/
def bucket (b : Backend C) : Bucket String C := ⟨b.objects, b.service.db.storageKeys⟩

/-- An upload that is performed under a name that was submitted already. -/
def late (b : Backend C) : BackendEvent C → Bool
  | .upload userId name _ =>
      b.accepts userId name && b.service.db.evidenceItems.any fun _ item => item.storageKey = some name
  | _ => false

/-- A request pins what it submits. -/
theorem bucket_api {now : Time} {user : CurrentUser} {request : Request} :
    (b.step settings (.api now user request)).bucket
      = b.bucket.pin (b.step settings (.api now user request)).service.db.storageKeys := by
  have hkeys : b.service.db.storageKeys
      ⊆ (b.service.serve settings now user request).db.storageKeys := by
    rintro key ⟨id, h⟩
    exact ⟨id, serve_files h⟩
  unfold Bucket.pin
  show (⟨b.objects, (b.service.serve settings now user request).db.storageKeys⟩ : Bucket String C)
    = ⟨b.objects, b.service.db.storageKeys
        ∪ (b.service.serve settings now user request).db.storageKeys⟩
  rw [Set.union_eq_right.mpr hkeys]

/-- An upload is a put, if the policy allows it. -/
theorem bucket_upload {userId : Uuid} {name : String} {content : C} :
    (b.step settings (.upload userId name content)).bucket
      = if canUploadEvidence b.service.db userId (firstFolder name) then b.bucket.put name content
        else b.bucket := by
  unfold step accepts Bucket.put
  dsimp only
  cases canUploadEvidence b.service.db userId (firstFolder name) with
  | false =>
      rw [Bool.and_false]
      rfl
  | true =>
      rw [Bool.and_true, if_pos rfl]
      show (if (b.objects name).isNone then _ else _ : Backend C).bucket
        = if (b.objects name).isNone then _ else _
      split
      · rfl
      · rfl

/-- A deletion is a removal, if the policy allows it. -/
theorem bucket_delete {userId : Uuid} {name : String} :
    (b.step settings (.delete userId name)).bucket
      = if canDeleteOrphanEvidence b.service.db userId (firstFolder name) name then b.bucket.remove name
        else b.bucket := by
  unfold step
  dsimp only
  split
  · rename_i hpolicy
    have hloose : name ∉ b.bucket.pinned := by
      intro hpinned
      simp only [canDeleteOrphanEvidence, Bool.and_eq_true, Bool.not_eq_true'] at hpolicy
      exact absurd (mem_storageKeys.mp hpinned) (by simp [hpolicy.2])
    unfold Bucket.remove
    rw [if_neg hloose]
    rfl
  · rfl

/-- Nothing that was submitted is taken back. -/
theorem pinned_step : b.bucket.pinned ⊆ (b.step settings event).bucket.pinned := by
  cases event with
  | api now user request =>
      rw [bucket_api]
      exact Bucket.keeps_pin.pinned
  | delete userId name =>
      rw [bucket_delete]
      split
      · exact Bucket.keeps_remove.pinned
      · exact subset_rfl
  | upload userId name content =>
      unfold step
      dsimp only
      split
      · exact subset_rfl
      · exact subset_rfl

/-- **One event keeps what was submitted**, unless it is a late upload. -/
theorem keeps_step_iff :
    b.bucket.Keeps (b.step settings event).bucket ↔ b.late event = false := by
  cases event with
  | api now user request =>
      rw [bucket_api]
      exact iff_of_true Bucket.keeps_pin rfl
  | delete userId name =>
      rw [bucket_delete]
      refine iff_of_true ?_ rfl
      split
      · exact Bucket.keeps_remove
      · exact .refl b.bucket
  | upload userId name content =>
      rw [bucket_upload]
      simp only [late, accepts, Bool.and_eq_false_iff]
      split
      · rename_i hpolicy
        rw [Bucket.keeps_put_iff]
        show ¬(name ∈ b.service.db.storageKeys ∧ b.objects name = none) ↔ _
        rw [mem_storageKeys, hpolicy, ← Option.isNone_iff_eq_none]
        cases (b.objects name).isNone <;>
          cases b.service.db.evidenceItems.any fun _ item => item.storageKey = some name <;> simp
      · rename_i hpolicy
        have hrefused := Bool.eq_false_iff.mpr hpolicy
        exact iff_of_true (.refl b.bucket) (Or.inl (Or.inr hrefused))

/-- What a run keeps, step by step. -/
theorem keeps_run (h : ∀ before event after, events = before ++ event :: after →
      (b.run settings before).late event = false) : b.bucket.Keeps (b.run settings events).bucket := by
  induction events generalizing b with
  | nil => exact .refl b.bucket
  | cons event events ih =>
      have hfirst : b.bucket.Keeps (b.step settings event).bucket :=
        keeps_step_iff.mpr (h [] event events rfl)
      refine hfirst.trans (ih fun before event' after heq => ?_)
      exact h (event :: before) event' after (by rw [heq]; rfl)

end Backend

/-! ## Submitted evidence -/

/-- From every moment of a run on, what is stored under the keys submitted by then stays the same. -/
def EvidenceImmutable {C : Type} (settings : Settings) (b : Backend C)
    (events : List (BackendEvent C)) : Prop :=
  ∀ before middle after, events = before ++ middle ++ after → ∀ id item key,
    (b.run settings before).service.db.evidenceItems.get? id = some item →
    item.storageKey = some key →
    (b.run settings (before ++ middle)).objects key = (b.run settings before).objects key

/-- **Submitted evidence is immutable exactly in the runs without a late upload.** -/
theorem evidence_immutable {C : Type} (settings : Settings) (b : Backend C)
    (events : List (BackendEvent C)) :
    EvidenceImmutable settings b events ↔
      ∀ before event after, events = before ++ event :: after →
        (b.run settings before).late event = false := by
  constructor
  · intro h before event after heq
    have hkeeps : (b.run settings before).bucket.Keeps
        ((b.run settings before).step settings event).bucket := by
      refine ⟨Backend.pinned_step, ?_⟩
      rintro key ⟨id, item, hitem, hkey⟩
      have hsame := h before [event] after (by rw [heq]; simp) id item key hitem hkey
      rw [Backend.run_append] at hsame
      exact hsame
    exact Backend.keeps_step_iff.mp hkeeps
  · intro h before middle after heq id item key hitem hkey
    rw [Backend.run_append]
    refine (Backend.keeps_run ?_).objects key ⟨id, item, hitem, hkey⟩
    intro before' event after' hmiddle
    rw [← Backend.run_append]
    refine h (before ++ before') event (after' ++ after) ?_
    rw [heq, hmiddle]
    simp

/-! ## The gap -/

/-- A list of requests, as events. -/
def apiEvents (requests : List (Time × CurrentUser × Request)) : List (BackendEvent String) :=
  requests.map fun r => .api r.1 r.2.1 r.2.2

/-- A file in the folder of the first tester's assignment. -/
def pictureKey : String := Uuid.str 8 ++ "/bench.png"

/-- The first tester submits a picture without having uploaded it, and is asked for changes. -/
def pictureEvents : List (BackendEvent String) :=
  apiEvents (benchLaunch ++ benchTests.take 3 ++
    [(0, ⟨2, none⟩, .submit 8 { benchEvidence with
        items := [{ taskId := some 6, kind := .screenshot, storageKey := some pictureKey }] }),
     (0, ⟨1, none⟩, .review 12 ⟨.changesRequested, "Where is the picture?"⟩)])

/-- The evidence item, and what is stored under its key. -/
def pictureOutcome (b : Backend String) : Option String × Option String :=
  ((b.service.db.evidenceItems.get? 13).bind (·.storageKey), b.objects pictureKey)

/-- After the review a file is put under the key of the first submission. -/
theorem evidence_replaced :
    ¬∀ (settings : Settings) (events : List (BackendEvent String)),
      EvidenceImmutable settings .init events := by
  intro h
  have hbefore : pictureOutcome (Backend.init.run benchSettings pictureEvents)
      = (some pictureKey, none) := by decide +kernel
  have hafter : pictureOutcome (Backend.init.run benchSettings
      (pictureEvents ++ [.upload 2 pictureKey "a bench"])) = (some pictureKey, some "a bench") := by
    decide +kernel
  obtain ⟨hfile, hnone⟩ := Prod.mk.inj hbefore
  obtain ⟨-, hsome⟩ := Prod.mk.inj hafter
  obtain ⟨item, hitem, hkey⟩ := Option.bind_eq_some_iff.mp hfile
  have hsame := h benchSettings (pictureEvents ++ [.upload 2 pictureKey "a bench"]) pictureEvents
    [.upload 2 pictureKey "a bench"] [] (by simp) 13 item pictureKey hitem hkey
  rw [hnone, hsome] at hsame
  exact absurd hsame (by simp)

end TestExchange
