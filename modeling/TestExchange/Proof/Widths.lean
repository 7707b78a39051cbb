import Mathlib.Data.String.Basic
import TestExchange.Proof.Lifecycle
import TestExchange.Refine.Coverage
import TestExchange.Refine.Relations
import TestExchange.Refine.Widths
import TestExchange.Txn.Checked

/-!
# What is accepted fits its column

The bounds of the schemas and the widths of the columns agree, and what the
services compose of bounded parts fits too, with two exceptions: a URL may be
longer than the column it goes to, above all once it is normalised, and nothing
bounds the e-mail address that comes with the token.
-/

namespace TestExchange

open Txn Txn.Session

variable {settings : Settings} {s : Service} {user : CurrentUser} {request : Request} {now n : Nat}
  {db : Db} {u : Unit}

/-! ## What a request does not shorten -/

theorem keeps_grantSignupCredits {grant : Nat} {userId : Uuid} :
    Only (Keeps Db.profiles) (grantSignupCredits grant userId) := by
  unfold grantSignupCredits
  split
  · exact (only_recordCreditEntry (fun _ => rfl) (fun _ _ => rfl) fun _ _ => rfl).bind
      fun _ => only_pure
  · exact only_pure

/-- A saved profile holds the address of the token and the picture of the body, normalised. -/
theorem upsertProfile_stores {userId : Uuid} {email : Option String} {payload : ProfileUpsert} :
    Yields (upsertProfile settings userId email payload) fun _ _ db' => ∃ p,
      db'.profiles.get? userId = some p ∧ p.email = email
        ∧ p.avatarUrl = payload.avatarUrl.map HttpUrl.str := by
  intro now db n r c db' h hf
  simp only [upsertProfile, alone_bind, alone_query, alone_raiseIf, and_assoc, exists_and_left,
    exists_eq_left, exists_const] at h
  obtain ⟨_, h⟩ := h
  cases hx : db.profiles.get? userId with
  | none =>
      rw [hx] at h
      simp only [alone_bind, alone_raiseIf, alone_add, addAuditEvent_ok, alone_flush, alone_pure,
        and_assoc, exists_and_left, exists_eq_left, exists_const] at h
      obtain ⟨_, state, c₁, hlock, _, c₂, ⟨d₂, hd₂, rfl⟩, _, c₃, hensure, _, c₄, hgrant, c₅,
        ⟨d₅, hd₅, rfl⟩, _, rfl⟩ := h
      obtain ⟨d₁, rfl, _, hprofiles⟩ := lockBetaState_ok hlock
      obtain ⟨d₄, hd₄, hevent⟩ := flushes_append hd₅
      obtain ⟨d₃, hd₃, hgranted⟩ := keeps_grantSignupCredits.flushes hgrant hd₄
      obtain ⟨d, hd, hensured⟩ :=
        (only_ensureCreditAccount (W := Keeps Db.profiles) fun _ => rfl).flushes hensure hd₃
      simp only [Flushes, applyAll_nil] at hf hd
      simp only [List.nil_append, List.cons_append, applyAll_cons, applyAll_nil] at hd₂ hevent
      have hinserted : d₂.profiles.get? userId = some (payload.profile email) := by
        rw [hd₂.2.2]
        exact Table.get?_insert_self (by rw [← hx, ← hprofiles]; rfl)
      refine ⟨payload.profile email, ?_, rfl, rfl⟩
      rw [hf, hevent.2]
      show d₄.profiles.get? userId = _
      rw [hgranted, hensured, hd, hinserted]
  | some p =>
      rw [hx] at h
      simp only [alone_bind, alone_add, addAuditEvent_ok, alone_flush, alone_pure, and_assoc,
        exists_and_left, exists_eq_left, exists_const, List.nil_append, List.cons_append,
        applyAll_cons, applyAll_nil] at h
      obtain ⟨_, _, _, rfl⟩ := h
      rw [Flushes, applyAll_nil] at hf
      refine ⟨payload.set email p p, ?_, setIfChanged_self _ _, setIfChanged_self _ _⟩
      rw [hf]
      show (db.profiles.modify userId _).get? userId = _
      rw [Table.get?_modify_self, hx]
      rfl

/-- If what a request commits fits, the strings its schema does not bound were short. -/
theorem short_of_committed {db' : Db} {n' : Nat}
    (hok : (handle settings user request).commit.alone now db n = .ok (u, db', n'))
    (hfits : db'.Fits) : request.Short user := by
  obtain ⟨c, halone, hf, -⟩ := commit_alone.mp hok
  cases request with
  | saveProfile payload =>
      have hstores : Yields (handle settings user (.saveProfile payload)) fun _ _ d =>
          ∃ q, payload.parse = some q ∧ ∃ p, d.profiles.get? user.id = some p
            ∧ p.email = user.email ∧ p.avatarUrl = q.avatarUrl.map HttpUrl.str :=
        yields_active (yields_validated fun q hq =>
          yields_mono (yields_discard upsertProfile_stores) fun _ _ _ h => ⟨q, hq, h⟩)
      obtain ⟨q, hq, p, hp, hemail, hurl⟩ := hstores now db n u c db' halone hf
      have hrow : p.Fits := hfits.profiles user.id p hp
      refine ⟨hemail ▸ hrow.email, fun q' hq' => ?_⟩
      obtain rfl := Option.some.inj (hq.symm.trans hq')
      exact Option.forall_mem_map.mp (hurl ▸ hrow.avatarUrl)
  | submit id payload =>
      have hstores : Yields (handle settings user (.submit id payload)) fun _ _ d =>
          ∃ q, payload.parse = some q ∧ ∃ k, ∀ item ∈ q.items, ∃ m,
            d.evidenceItems.get? m = some (item.item k) :=
        yields_active (yields_validated fun q hq =>
          yields_mono (yields_discard createSubmission_stores)
            fun _ _ _ ⟨k, _, _, _, h⟩ => ⟨q, hq, k, h⟩)
      obtain ⟨q, hq, k, hstored⟩ := hstores now db n u c db' halone hf
      intro q' hq' item hitem
      obtain rfl := Option.some.inj (hq.symm.trans hq')
      obtain ⟨m, hm⟩ := hstored item hitem
      have hrow : (item.item k).Fits := hfits.evidenceItems m _ hm
      exact Option.forall_mem_map.mp hrow.externalUrl
  | _ => trivial

/-- Everything the request writes on its way fits, whether or not it is committed. -/
def Storable (settings : Settings) (s : Service) (now : Time) (user : CurrentUser)
    (request : Request) : Prop :=
  ∀ r ∈ (handle settings user request).commit.leaves now s.db s.nextId,
    r.1 ≤ uuidBound → r.2.Fits

/-- What is committed is what the last write left. -/
theorem short_of_storable
    (hok : (handle settings user request).commit.alone now s.db s.nextId = .ok (u, db, n))
    (hdrawn : n ≤ uuidBound) (hs : s.db.Fits) (h : Storable settings s now user request) :
    request.Short user := by
  rcases Program.last_mem_leaves hok with rfl | ⟨r, hr, hbefore, rfl⟩
  · exact short_of_committed hok hs
  · exact short_of_committed hok (h r hr (Nat.le_trans hbefore hdrawn))

/-- **What is storable is stored**: PostgreSQL carries out what the service does. -/
theorem checked_of_storable
    (hok : (handle settings user request).commit.alone now s.db s.nextId = .ok (u, db, n))
    (hdrawn : n ≤ uuidBound) (h : Storable settings s now user request) :
    ((handle settings user request).commit.checked Db.tooWide).alone now s.db s.nextId
      = .ok (u, db, n) := by
  rw [Program.checked_eq fun r hr => ?_, hok]
  have hbefore : r.1 ≤ uuidBound := Nat.le_trans (Program.mem_leaves_le hok hr) hdrawn
  exact tooWide_eq_none.mpr (held_of_fits (h r hr hbefore))

/-! ## Runs -/

theorem kept_serve (hs : Kept s.nextId s.db) (huser : user.id < uuidBound)
    (hshort : request.Short user) (hdrawn : (s.serve settings now user request).nextId ≤ uuidBound) :
    Kept (s.serve settings now user request).nextId (s.serve settings now user request).db := by
  unfold Service.serve at hdrawn ⊢
  split at hdrawn
  · rename_i hok
    exact ((handle_tidy huser hshort).commit hs kept_later).2 _ _ _ hok hdrawn
  · exact hs

theorem serve_nextId_le : s.nextId ≤ (s.serve settings now user request).nextId := by
  unfold Service.serve
  split
  · rename_i hok
    exact Program.alone_next_le hok
  · exact Nat.le_refl _

theorem run_nextId_le {requests : List (Time × CurrentUser × Request)} :
    s.nextId ≤ (s.run settings requests).nextId := by
  induction requests generalizing s with
  | nil => exact Nat.le_refl _
  | cons r rest ih => exact Nat.le_trans serve_nextId_le ih

/-- The requests come from users with proper identifiers, and their strings are short. -/
def AllShort (requests : List (Time × CurrentUser × Request)) : Prop :=
  ∀ r ∈ requests, r.2.1.id < uuidBound ∧ r.2.2.Short r.2.1

theorem kept_run {requests : List (Time × CurrentUser × Request)} (hs : Kept s.nextId s.db)
    (hall : AllShort requests) (hdrawn : (s.run settings requests).nextId ≤ uuidBound) :
    Kept (s.run settings requests).nextId (s.run settings requests).db := by
  induction requests generalizing s with
  | nil => exact hs
  | cons r rest ih =>
      obtain ⟨huser, hshort⟩ := hall r List.mem_cons_self
      have hnow : (s.serve settings r.1 r.2.1 r.2.2).nextId ≤ uuidBound :=
        Nat.le_trans run_nextId_le hdrawn
      exact ih (kept_serve hs huser hshort hnow)
        (fun q hq => hall q (List.mem_cons_of_mem _ hq)) hdrawn

/--
**What is accepted can be stored**, after any run of requests of the same kind, if
the URLs as stored and the e-mail address are no longer than their columns; a
request that is carried out shows that this is needed.
-/
theorem accepted_storable_iff (settings : Settings)
    (earlier : List (Time × CurrentUser × Request)) (hearlier : AllShort earlier)
    (s : Service) (hs : s = Service.init.run settings earlier) (hdrawn : s.nextId ≤ uuidBound)
    (now : Time) (user : CurrentUser) (huser : user.id < uuidBound) (request : Request) :
    (request.Short user → Storable settings s now user request)
      ∧ ∀ db n, (handle settings user request).commit.alone now s.db s.nextId = .ok ((), db, n) →
        n ≤ uuidBound → (Storable settings s now user request ↔ request.Short user) := by
  subst hs
  have hkept := kept_run (s := .init) kept_empty hearlier hdrawn
  have hstorable (hshort : request.Short user) :
      Storable settings (Service.init.run settings earlier) now user request :=
    fun r hr hle => (((handle_tidy huser hshort).commit hkept kept_later).1 r hr hle).toFits
  exact ⟨hstorable, fun db n hok hle =>
    ⟨fun h => short_of_storable hok hle hkept.toFits h, hstorable⟩⟩

/-- A picture on a host with a capital letter, which the normal form does not keep. -/
def firstPicture : HttpUrl where
  text := "https://Example.com/first.png"
  str := "https://example.com/first.png"
  scheme := by decide

/-- Another save of the first tester's profile, now with a picture. -/
def benchPicture : ProfileUpsert where
  username := "first"
  displayName := "First"
  avatarUrl := some firstPicture

theorem accepted_storable_bench :
    ((handle benchSettings ⟨2, none⟩ (.saveProfile benchPicture)).commit.leaves 0 waitingService.db
        waitingService.nextId).length = 2
      ∧ Storable benchSettings waitingService 0 ⟨2, none⟩ (.saveProfile benchPicture) := by
  have hearlier : AllShort (benchLaunch ++ benchTests.take 4) := by
    unfold AllShort
    decide +kernel
  refine ⟨by decide +kernel, ?_⟩
  exact (accepted_storable_iff benchSettings (benchLaunch ++ benchTests.take 4) hearlier
    waitingService rfl (by decide +kernel) 0 ⟨2, none⟩ (by decide) (.saveProfile benchPicture)).1
    (by decide +kernel)

/-- 510 characters. -/
def longText : List Char := "https://example.com/".toList ++ List.replicate 490 'a'

/-- They make a URL that is in normal form as it is. -/
def longUrl : HttpUrl where
  text := String.ofList longText
  str := String.ofList longText
  scheme := Or.inr (by
    have htext : (String.ofList longText).toList = longText := String.toList_ofList
    rw [htext]
    decide +kernel)

def longPicture : ProfileUpsert where
  username := "owner"
  displayName := "Owner"
  avatarUrl := some longUrl

theorem length_longUrl : longUrl.str.length = 510 := by
  show (String.ofList longText).length = 510
  rw [String.length_ofList]
  decide +kernel

theorem longPicture_parse : longPicture.parse = some longPicture := by
  have hwithin : urlWithin (some longUrl) = true := by
    show decide ((String.ofList longText).utf8ByteSize ≤ 2083) = true
    rw [String.utf8ByteSize_ofList]
    decide +kernel
  have hname : strip "owner" = "owner" := by decide
  have hdisplay : strip "Owner" = "Owner" := by decide
  unfold ProfileUpsert.parse longPicture
  dsimp only [Option.map_some, Option.map_none]
  rw [hname, hdisplay, hwithin]
  rfl

/-- The body is accepted, and saving it, as the very first thing, is too much for the column. -/
theorem long_picture_overflows :
    longPicture.parse = some longPicture
      ∧ ¬Storable benchSettings .init 0 ⟨1, none⟩ (.saveProfile longPicture) := by
  refine ⟨longPicture_parse, fun h => ?_⟩
  have hdone : ((handle benchSettings ⟨1, none⟩ (.saveProfile longPicture)).commit.alone 0
      Db.empty 0).toOption.any (fun done => done.2.2 ≤ uuidBound) = true := by
    have hhandle : handle benchSettings ⟨1, none⟩ (.saveProfile longPicture)
        = getActiveUser ⟨1, none⟩ >>= fun _ => validated (some longPicture) >>= fun payload =>
          discard (upsertProfile benchSettings 1 none payload) := by
      rw [← longPicture_parse]
      rfl
    rw [hhandle]
    decide +kernel
  cases hok : (handle benchSettings ⟨1, none⟩ (.saveProfile longPicture)).commit.alone 0
      Db.empty 0 with
  | ok done =>
    rw [hok] at hdone
    have hshort := short_of_storable (s := .init) hok (of_decide_eq_true hdone)
      kept_empty.toFits h
    have hurl : longUrl ∈ longPicture.avatarUrl := Option.mem_some_self _
    have hle := hshort.2 longPicture longPicture_parse _ hurl
    rw [length_longUrl] at hle
    omega
  | error e =>
    rw [hok] at hdone
    exact absurd hdone Bool.false_ne_true

end TestExchange
