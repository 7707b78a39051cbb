import TestExchange.Model.Requests
import TestExchange.Txn.Deadlock
import TestExchange.Txn.Paused
import TestExchange.Txn.Replies

/-!
# Joining the waitlist at the same time

Requests to join the waitlist, interleaved. A request looks for the address,
inserts an entry if there is none, and looks again if somebody else was faster.
The unique index decides: whoever holds the key of an address and has inserted
is the only one to, until he commits or is rolled back. So the answers to all
committed requests for an address name the same entry, the only one.
-/

namespace TestExchange

open Txn Txn.Session Txn.World

/-- The waitlist request with its answer, where `lower` is `str.lower`. -/
def joinRequest (lower : String → String) (payload : WaitlistCreate) :
    Session (Uuid × WaitlistEntry) := do
  let payload ← validated (payload.validateEmail lower)
  joinWaitlist payload.email

/-- The database and the answers of committed requests. -/
abbrev WaitlistState := Db × List (WaitlistCreate × (Uuid × WaitlistEntry))

/-- What happens in the database while people join the waitlist. -/
abbrev WaitlistWorld := World WaitlistState Lock Failure WaitlistCreate

/-- The transaction of a request. -/
abbrev WaitlistProgram := Txn.Program WaitlistState Lock Failure Unit

/-- The transaction of each request. -/
def WaitlistCreate.program (lower : String → String) (payload : WaitlistCreate) : WaitlistProgram :=
  (joinRequest lower payload).commit.answering payload

variable {settings : Settings} {user : CurrentUser} {lower : String → String}
  {r : WaitlistCreate} {email : String} {n : Uuid}

theorem commit_discard {α : Type} {m : Session α} : (discard m).commit = m.commit.silent := by
  simp only [commit, discard, Txn.Program.silent, LawfulMonad.bind_assoc, pure_bind]
  rw [Txn.Program.bind_assoc]
  show ((m []).bind _).bind _ = ((m []).bind _).bind _
  rw [Txn.Program.bind_assoc, Txn.Program.bind_assoc]
  refine congrArg (m []).bind (funext fun x => ?_)
  show ((flush x.2).bind _).bind _ = ((flush x.2).bind _).bind _
  rw [Txn.Program.bind_assoc, Txn.Program.bind_assoc]
  rfl

/-- Without its answer the transaction is that of the route. -/
theorem waitlist_silent :
    (handle settings user (.waitlist r)).commit = (joinRequest String.toLower r).commit.silent := by
  have hhandle : handle settings user (.waitlist r) = discard (joinRequest String.toLower r) := by
    simp only [handle, discard, joinRequest, LawfulMonad.bind_assoc]
    rfl
  rw [hhandle, commit_discard]

/-! ## The stages of a request -/

/-- The entry of the address, if there is one. -/
def Db.waitlisted (db : Db) (email : String) : Option (Uuid × WaitlistEntry) :=
  db.waitlistEntries.find? fun _ e => e.email = email

/-- Answer and commit. -/
def replying (r : WaitlistCreate) (entry : Uuid × WaitlistEntry) : WaitlistProgram :=
  .exec (.answer r entry) fun _ => .done ()

/-- Look again, after somebody else was faster. -/
def lookingAgain (r : WaitlistCreate) (email : String) (error : Failure) : WaitlistProgram :=
  .select fun s =>
    match s.1.waitlisted email with
    | some entry => replying r entry
    | none => .raise error

/-- Insert the entry, in a savepoint. -/
def inserting (r : WaitlistCreate) (email : String) (n : Uuid) : WaitlistProgram :=
  .exec (insertWaitlistEntry n ⟨email⟩).beside fun
    | none => replying r (n, ⟨email⟩)
    | some error => lookingAgain r email error

/-- Look for the address. -/
def looking (r : WaitlistCreate) (email : String) : WaitlistProgram :=
  .select fun s =>
    match s.1.waitlisted email with
    | some entry => replying r entry
    | none => .uuid4 fun n => inserting r email n

theorem program_refused (h : r.validateEmail lower = none) : r.program lower = .raise .validation := by
  rw [WaitlistCreate.program, joinRequest, h]
  rfl

theorem program_looking {p : WaitlistCreate} (h : r.validateEmail lower = some p) :
    r.program lower = looking r p.email := by
  rw [WaitlistCreate.program, joinRequest, h]
  refine congrArg Txn.Program.select (funext fun s => ?_)
  -- the first lookup has answered; the savepoint and the second lookup come after it
  suffices hrest : ∀ o : Option (Uuid × WaitlistEntry),
      Txn.Program.answering r ((match o with
        | some existing => pure existing
        | none => do
            let entryId ← uuid4
            let conflict ← executeNested (insertWaitlistEntry entryId ⟨p.email⟩)
            match conflict with
            | none => pure (entryId, ⟨p.email⟩)
            | some error => orRaise error (← query fun db => db.waitlisted p.email) :
              Session _).commit)
        = match o with
          | some entry => replying r entry
          | none => .uuid4 fun n => inserting r p.email n from hrest (s.1.waitlisted p.email)
  intro o
  cases o with
  | some entry => rfl
  | none =>
      refine congrArg Txn.Program.uuid4 (funext fun n => ?_)
      refine congrArg (Txn.Program.exec _) (funext fun conflict => ?_)
      cases conflict with
      | none => rfl
      | some error =>
          refine congrArg Txn.Program.select (funext fun s => ?_)
          suffices hfound : ∀ o : Option (Uuid × WaitlistEntry),
              Txn.Program.answering r ((orRaise error o : Session _).commit)
                = match o with
                  | some entry => replying r entry
                  | none => .raise error from hfound (s.1.waitlisted p.email)
          intro o
          cases o with
          | some entry => rfl
          | none => rfl

/-! ## The invariant -/

variable {db : Db} {d : Option Uuid} {x : Uuid × WaitlistEntry}
  {t u : Tx WaitlistState Lock Failure WaitlistCreate}
  {ws : List (Txn.Write WaitlistState Lock Failure)}

/-- The entry a request answers with is stored, or the request has inserted it and holds its key. -/
inductive Gets (db : Db) (d : Option Uuid) (locks : List Lock) (email : String)
    (x : Uuid × WaitlistEntry) : List (Txn.Write WaitlistState Lock Failure) → Prop where
  | found (hx : db.waitlistEntries.get? x.1 = some x.2) : Gets db d locks email x []
  | inserted (hnew : db.waitlistEntries.get? x.1 = none) (hdrawn : d = some x.1)
      (hkey : .waitlistEmailKey email ∈ locks)
      (hfirst : ∀ i e, db.waitlistEntries.get? i = some e → e.email ≠ email) :
      Gets db d locks email x [(insertWaitlistEntry x.1 x.2).beside]

/-- How far a request has come that has drawn the identifier `d`, if any. -/
inductive Stage (lower : String → String) (db : Db) (d : Option Uuid)
    (t : Tx WaitlistState Lock Failure WaitlistCreate) : Prop where
  | refused (hrest : t.rest = .raise .validation)
  | looking {p : WaitlistCreate} (hp : t.request.validateEmail lower = some p)
      (hrest : t.rest = looking t.request p.email) (hwrites : t.writes = [])
  | drawing {p : WaitlistCreate} (hp : t.request.validateEmail lower = some p)
      (hrest : t.rest = .uuid4 fun n => inserting t.request p.email n) (hwrites : t.writes = [])
  | inserting {p : WaitlistCreate} {n : Uuid} (hp : t.request.validateEmail lower = some p)
      (hrest : t.rest = inserting t.request p.email n) (hwrites : t.writes = [])
      (hdrawn : d = some n) (hnew : db.waitlistEntries.get? n = none)
  | lookingAgain {p : WaitlistCreate} {error : Failure}
      (hp : t.request.validateEmail lower = some p)
      (hrest : t.rest = lookingAgain t.request p.email error) (hwrites : t.writes = [])
      (hthere : ∃ i e, db.waitlistEntries.get? i = some e ∧ e.email = p.email)
  | replying {p : WaitlistCreate} {x : Uuid × WaitlistEntry}
      (hp : t.request.validateEmail lower = some p) (hrest : t.rest = replying t.request x)
      (hemail : x.2.email = p.email) (hx : Gets db d t.locks p.email x t.writes)
  | replied {p : WaitlistCreate} {x : Uuid × WaitlistEntry}
      {ws : List (Txn.Write WaitlistState Lock Failure)}
      (hp : t.request.validateEmail lower = some p) (hrest : t.rest = .done ())
      (hemail : x.2.email = p.email) (hwrites : t.writes = ws ++ [.answer t.request x])
      (hx : Gets db d t.locks p.email x ws)

/-- **What holds of the waitlist** while requests have drawn the identifiers `drawn`. -/
structure WaitlistInv (lower : String → String) (drawn : Nat → Option Uuid) (w : WaitlistWorld) :
    Prop where
  once : ∀ i j e f, w.db.1.waitlistEntries.get? i = some e →
    w.db.1.waitlistEntries.get? j = some f → e.email = f.email → i = j
  issued : ∀ i e, w.db.1.waitlistEntries.get? i = some e → i < w.next
  answered : ∀ r x, (r, x) ∈ w.db.2 → w.db.1.waitlistEntries.get? x.1 = some x.2
    ∧ ∃ p, r.validateEmail lower = some p ∧ x.2.email = p.email
  asked : ∀ i e, w.db.1.waitlistEntries.get? i = some e → ∃ r, (r, (i, e)) ∈ w.db.2
  below : ∀ i t n, w.txs.get? i = some t → drawn i = some n → n < w.next
  stage : ∀ i t, w.txs.get? i = some t → Stage lower w.db.1 (drawn i) t
  apart : ∀ i j t u n, w.txs.get? i = some t → w.txs.get? j = some u → drawn i = some n →
    drawn j = some n → i = j

variable {locks locks' : List Lock}

theorem Gets.locked (h : Gets db d locks email x ws) (hlocks : ∀ l ∈ locks, l ∈ locks') :
    Gets db d locks' email x ws := by
  cases h with
  | found hx => exact .found hx
  | inserted hnew hdrawn hkey hfirst => exact .inserted hnew hdrawn (hlocks _ hkey) hfirst

/-- Waiting for a row, or getting it, does not change the stage. -/
theorem Stage.locked (h : Stage lower db d t) (hrequest : u.request = t.request)
    (hrest : u.rest = t.rest) (hwrites : u.writes = t.writes)
    (hlocks : ∀ l ∈ t.locks, l ∈ u.locks) : Stage lower db d u := by
  cases h with
  | refused h => exact .refused (hrest.trans h)
  | looking hp h hw =>
      rw [← hrequest] at hp h
      exact .looking hp (hrest.trans h) (hwrites.trans hw)
  | drawing hp h hw =>
      rw [← hrequest] at hp h
      exact .drawing hp (hrest.trans h) (hwrites.trans hw)
  | inserting hp h hw hdrawn hnew =>
      rw [← hrequest] at hp h
      exact .inserting hp (hrest.trans h) (hwrites.trans hw) hdrawn hnew
  | lookingAgain hp h hw hthere =>
      rw [← hrequest] at hp h
      exact .lookingAgain hp (hrest.trans h) (hwrites.trans hw) hthere
  | replying hp h hemail hx =>
      rw [← hrequest] at hp h
      rw [← hwrites] at hx
      exact .replying hp (hrest.trans h) hemail (hx.locked hlocks)
  | replied hp h hemail hw hx =>
      rw [← hrequest] at hp hw
      exact .replied hp (hrest.trans h) hemail (hwrites.trans hw) (hx.locked hlocks)

/-! ## What others do -/

/-- The database after somebody's entry is committed. -/
abbrev Db.joined (db : Db) (x : Uuid × WaitlistEntry) : Db :=
  { db with waitlistEntries := db.waitlistEntries.insert x.1 x.2 }

variable {y : Uuid × WaitlistEntry}

theorem Gets.joined (h : Gets db d locks email x ws) (hdrawn : d ≠ some y.1)
    (hkey : .waitlistEmailKey y.2.email ∉ locks) :
    Gets (db.joined y) d locks email x ws := by
  cases h with
  | found hx => exact .found (Table.get?_insert_of_some hx)
  | inserted hnew hd hmine hfirst =>
      have hne : x.1 ≠ y.1 := fun heq => hdrawn (heq ▸ hd)
      refine .inserted ((Table.get?_insert_ne hne).trans hnew) hd hmine fun i e he => ?_
      rcases Table.get?_insert_cases he with hold | ⟨-, rfl, -⟩
      · exact hfirst i e hold
      · intro heq
        rw [heq] at hkey
        exact hkey hmine

/-- A request is as far as before when somebody else's entry is committed. -/
theorem Stage.joined (h : Stage lower db d t) (hdrawn : d ≠ some y.1)
    (hkey : .waitlistEmailKey y.2.email ∉ t.locks) : Stage lower (db.joined y) d t := by
  cases h with
  | refused hrest => exact .refused hrest
  | looking hp hrest hwrites => exact .looking hp hrest hwrites
  | drawing hp hrest hwrites => exact .drawing hp hrest hwrites
  | @inserting p n hp hrest hwrites hd hnew =>
      have hne : n ≠ y.1 := fun heq => hdrawn (heq ▸ hd)
      exact .inserting hp hrest hwrites hd ((Table.get?_insert_ne hne).trans hnew)
  | lookingAgain hp hrest hwrites hthere =>
      obtain ⟨i, e, he, hemail⟩ := hthere
      exact .lookingAgain hp hrest hwrites ⟨i, e, Table.get?_insert_of_some he, hemail⟩
  | replying hp hrest hemail hx => exact .replying hp hrest hemail (hx.joined hdrawn hkey)
  | replied hp hrest hemail hwrites hx =>
      exact .replied hp hrest hemail hwrites (hx.joined hdrawn hkey)

/-! ## One step -/

variable {drawn : Nat → Option Uuid} {w w' : WaitlistWorld} {i now : Nat}

theorem WaitlistInv.drop (h : WaitlistInv lower drawn w) : WaitlistInv lower drawn (w.drop i) where
  once := h.once
  issued := h.issued
  answered := h.answered
  asked := h.asked
  below := fun j u n hu => h.below j u n (Table.get?_of_erase hu).2
  stage := fun j u hu => h.stage j u (Table.get?_of_erase hu).2
  apart := fun j k u v n hu hv =>
    h.apart j k u v n (Table.get?_of_erase hu).2 (Table.get?_of_erase hv).2

theorem there_of_put {v : Tx WaitlistState Lock Failure WaitlistCreate} {j : Nat}
    (hv : (w.put i u).txs.get? j = some v) : ∃ z, w.txs.get? j = some z := by
  rcases Table.get?_modify_cases hv with ⟨rfl, z, hz, -⟩ | ⟨-, hz⟩
  · exact ⟨z, hz⟩
  · exact ⟨v, hz⟩

theorem WaitlistInv.put (h : WaitlistInv lower drawn w)
    (hu : Stage lower w.db.1 (drawn i) u) : WaitlistInv lower drawn (w.put i u) where
  once := h.once
  issued := h.issued
  answered := h.answered
  asked := h.asked
  below := by
    intro j v n hv hj
    obtain ⟨z, hz⟩ := there_of_put hv
    exact h.below j z n hz hj
  stage := by
    intro j v hv
    rcases Table.get?_modify_cases hv with ⟨rfl, _, _, rfl⟩ | ⟨_, hv⟩
    · exact hu
    · exact h.stage j v hv
  apart := by
    intro j k v v' n hv hv' hj hk
    obtain ⟨z, hz⟩ := there_of_put hv
    obtain ⟨z', hz'⟩ := there_of_put hv'
    exact h.apart j k z z' n hz hz' hj hk

/-- A request gets a row that its insert needs. -/
theorem WaitlistInv.take (h : WaitlistInv lower drawn w) (ht : w.txs.get? i = some t) {l : Lock}
    (hw : w.take i t l = some w') : WaitlistInv lower drawn w' := by
  unfold World.take at hw
  split at hw
  · obtain rfl := Option.some.inj hw
    refine h.put ((h.stage i t ht).locked rfl rfl rfl fun m hm => ?_)
    exact List.mem_append.mpr ((List.mem_append.mp hm).imp_left (List.mem_cons_of_mem _))
  · exact absurd hw (by simp)

/-- A request comes in. -/
theorem WaitlistInv.begin (h : WaitlistInv lower drawn w) (hnew : w.txs.get? i = none) :
    WaitlistInv lower (Function.update drawn i none)
      { w with txs := w.txs.insert i { request := r, rest := r.program lower, seen := w.db } } := by
  obtain ⟨t, ht⟩ : ∃ t : Tx WaitlistState Lock Failure WaitlistCreate,
      t = { request := r, rest := r.program lower, seen := w.db } := ⟨_, rfl⟩
  rw [← ht]
  -- those that have drawn an identifier have been there before
  have hold : ∀ j u n, (w.txs.insert i t).get? j = some u →
      Function.update drawn i none j = some n → w.txs.get? j = some u ∧ drawn j = some n := by
    intro j u n hu hj
    by_cases hji : j = i
    · rw [hji, Function.update_self] at hj
      exact absurd hj (by simp)
    · rw [Function.update_of_ne hji] at hj
      rw [Table.get?_insert_ne hji] at hu
      exact ⟨hu, hj⟩
  refine ⟨h.once, h.issued, h.answered, h.asked, ?_, ?_, ?_⟩
  · intro j u n hu hj
    obtain ⟨hu', hj'⟩ := hold j u n hu hj
    exact h.below j u n hu' hj'
  · intro j u hu
    by_cases hji : j = i
    · subst hji
      obtain rfl := Option.some.inj ((Table.get?_insert_self hnew).symm.trans hu)
      subst ht
      cases hp : r.validateEmail lower with
      | none => exact .refused (program_refused hp)
      | some p => exact .looking hp (program_looking hp) rfl
    · rw [Function.update_of_ne hji]
      rw [Table.get?_insert_ne hji] at hu
      exact h.stage j u hu
  · intro j k u v n hu hv hj hk
    obtain ⟨hu', hj'⟩ := hold j u n hu hj
    obtain ⟨hv', hk'⟩ := hold k v n hv hk
    exact h.apart j k u v n hu' hv' hj' hk'

/-- A request draws an identifier that nobody else has drawn. -/
theorem WaitlistInv.draw (h : WaitlistInv lower drawn w)
    (hu : Stage lower w.db.1 (some w.next) u) :
    WaitlistInv lower (Function.update drawn i (some w.next))
      { w.put i u with next := w.next + 1 } := by
  have hbelow : ∀ j z, (w.put i u).txs.get? j = some z → ∀ n,
      Function.update drawn i (some w.next) j = some n →
      j = i ∧ n = w.next ∨ j ≠ i ∧ drawn j = some n ∧ n < w.next := by
    intro j z hz n hj
    by_cases hji : j = i
    · rw [hji, Function.update_self] at hj
      exact Or.inl ⟨hji, (Option.some.inj hj).symm⟩
    · rw [Function.update_of_ne hji] at hj
      obtain ⟨v, hv⟩ := there_of_put hz
      exact Or.inr ⟨hji, hj, h.below j v n hv hj⟩
  refine ⟨h.once, fun j e he => Nat.lt_succ_of_lt (h.issued j e he), h.answered, h.asked, ?_, ?_, ?_⟩
  · intro j z n hz hj
    rcases hbelow j z hz n hj with ⟨-, rfl⟩ | ⟨-, -, hlt⟩
    · exact Nat.lt_succ_self _
    · exact Nat.lt_succ_of_lt hlt
  · intro j z hz
    rcases Table.get?_modify_cases hz with ⟨rfl, _, _, rfl⟩ | ⟨hji, hz⟩
    · rw [Function.update_self]
      exact hu
    · rw [Function.update_of_ne hji]
      exact h.stage j z hz
  · intro j k z z' n hz hz' hj hk
    rcases hbelow j z hz n hj with ⟨rfl, rfl⟩ | ⟨-, hj', hlt⟩
    · rcases hbelow k z' hz' _ hk with ⟨rfl, -⟩ | ⟨-, -, hlt⟩
      · rfl
      · exact absurd hlt (Nat.lt_irrefl _)
    · rcases hbelow k z' hz' n hk with ⟨-, rfl⟩ | ⟨-, hk', -⟩
      · exact absurd hlt (Nat.lt_irrefl _)
      · obtain ⟨v, hv⟩ := there_of_put hz
        obtain ⟨v', hv'⟩ := there_of_put hz'
        exact h.apart j k v v' n hv hv' hj' hk'

/-- What a commit publishes. -/
theorem view_of_writes {s : WaitlistState} (hwrites : t.writes = ws ++ [.answer t.request x]) :
    t.view s = ((effects ws s).1, (effects ws s).2 ++ [(t.request, x)]) := by
  rw [Tx.view, hwrites, effects_concat]
  rfl

/-- **The commit of a request** stores its entry, if it has inserted one, and its answer. -/
theorem WaitlistInv.commit {p : WaitlistCreate} (h : WaitlistInv lower drawn w)
    (hgood : (anything : Protocol WaitlistState Lock Failure WaitlistCreate).Good w)
    (ht : w.txs.get? i = some t) (hp : t.request.validateEmail lower = some p)
    (hemail : x.2.email = p.email) (hwrites : t.writes = ws ++ [.answer t.request x])
    (hx : Gets w.db.1 (drawn i) t.locks p.email x ws) :
    WaitlistInv lower drawn { w.drop i with db := t.view w.db } := by
  have hdrop := h.drop (i := i)
  rw [view_of_writes hwrites]
  cases hx with
  | found hx =>
      refine ⟨h.once, h.issued, ?_, ?_, hdrop.below, hdrop.stage, hdrop.apart⟩
      · intro r y hy
        rcases List.mem_append.mp hy with hold | hnew
        · exact h.answered r y hold
        · obtain ⟨rfl, rfl⟩ := Prod.mk.inj (List.mem_singleton.mp hnew)
          exact ⟨hx, p, hp, hemail⟩
      · intro j e he
        obtain ⟨r, hr⟩ := h.asked j e he
        exact ⟨r, List.mem_append_left _ hr⟩
  | inserted hnew hdrawn hkey hfirst =>
      have hself : (w.db.1.joined x).waitlistEntries.get? x.1 = some x.2 :=
        Table.get?_insert_self hnew
      refine ⟨?_, ?_, ?_, ?_, hdrop.below, ?_, hdrop.apart⟩
      · intro j k e f he hf hsame
        rcases Table.get?_insert_cases he with he | ⟨hj, rfl, -⟩
        · rcases Table.get?_insert_cases hf with hf | ⟨-, rfl, -⟩
          · exact h.once j k e f he hf hsame
          · exact absurd (hsame.trans hemail) (hfirst j e he)
        · rcases Table.get?_insert_cases hf with hf | ⟨hk, -, -⟩
          · exact absurd (hsame.symm.trans hemail) (hfirst k f hf)
          · exact hj.trans hk.symm
      · intro j e he
        rcases Table.get?_insert_cases he with he | ⟨rfl, -, -⟩
        · exact h.issued j e he
        · exact h.below i t _ ht hdrawn
      · intro r y hy
        rcases List.mem_append.mp hy with hold | hnew
        · obtain ⟨hget, hasked⟩ := h.answered r y hold
          exact ⟨Table.get?_insert_of_some hget, hasked⟩
        · obtain ⟨rfl, rfl⟩ := Prod.mk.inj (List.mem_singleton.mp hnew)
          exact ⟨hself, p, hp, hemail⟩
      · intro j e he
        rcases Table.get?_insert_cases he with he | ⟨rfl, rfl, -⟩
        · obtain ⟨r, hr⟩ := h.asked j e he
          exact ⟨r, List.mem_append_left _ hr⟩
        · exact ⟨t.request, List.mem_append_right _ List.mem_cons_self⟩
      · intro j u hu
        obtain ⟨hj, hu⟩ := Table.get?_of_erase hu
        have hji : i ≠ j := fun heq => hj (heq ▸ List.mem_cons_self)
        -- the others have drawn other identifiers and hold other keys
        refine (h.stage j u hu).joined (fun hd => hji (h.apart i j t u _ ht hu hdrawn hd)) ?_
        rw [hemail]
        exact hgood.exclusive i j t u ht hu hji _ hkey

theorem waitlisted_eq_some (h : db.waitlisted email = some x) :
    db.waitlistEntries.get? x.1 = some x.2 ∧ x.2.email = email := by
  obtain ⟨hx, hemail⟩ := Table.find?_eq_some h
  exact ⟨hx, by simpa using hemail⟩

/-- An insert that fails under a fresh identifier has found the address. -/
theorem taken_of_violates {e : Failure} (hnew : db.waitlistEntries.get? n = none)
    (hv : (insertWaitlistEntry n ⟨email⟩).violates db = some e) :
    ∃ i f, db.waitlistEntries.get? i = some f ∧ f.email = email := by
  by_contra hnone
  have hfree : db.waitlistEntries.any (fun _ f => f.email = email) = false :=
    Table.any_eq_false.mpr fun i f hf => by
      simpa using fun heq => hnone ⟨i, f, hf, heq⟩
  have hkey : db.waitlistEntries.contains n = false := Table.contains_eq_false.mpr hnew
  simp [insertWaitlistEntry, firstViolated, hfree, hkey] at hv

theorem first_of_inserts (hv : (insertWaitlistEntry n ⟨email⟩).violates db = none) :
    ∀ i e, db.waitlistEntries.get? i = some e → e.email ≠ email := by
  simp only [insertWaitlistEntry, firstViolated_cons, Table.any_eq_false,
    decide_eq_false_iff_not] at hv
  exact hv.2.1

theorem view_of_nil {s : WaitlistState} (hwrites : t.writes = []) : t.view s = s := by
  rw [Tx.view, hwrites]
  rfl

/-- **Each step of a request keeps the waitlist in order.** -/
theorem WaitlistInv.advance (h : WaitlistInv lower drawn w)
    (hgood : (anything : Protocol WaitlistState Lock Failure WaitlistCreate).Good w)
    (ht : w.txs.get? i = some t) (hw : w.advance i now t = some w') :
    ∃ drawn', WaitlistInv lower drawn' w' := by
  have hstage := h.stage i t ht
  unfold World.advance at hw
  cases hstage with
  | refused hrest =>
      rw [hrest] at hw
      obtain rfl := Option.some.inj hw
      exact ⟨drawn, h.drop⟩
  | @looking p hp hrest hwrites =>
      rw [hrest, view_of_nil hwrites] at hw
      obtain rfl := Option.some.inj hw
      refine ⟨drawn, h.put ?_⟩
      dsimp only
      cases hfound : w.db.1.waitlisted p.email with
      | some x =>
          obtain ⟨hx, hemail⟩ := waitlisted_eq_some hfound
          exact .replying hp rfl hemail (by rw [hwrites]; exact .found hx)
      | none => exact .drawing hp rfl hwrites
  | @drawing p hp hrest hwrites =>
      rw [hrest] at hw
      obtain rfl := Option.some.inj hw
      refine ⟨_, h.draw (.inserting hp rfl hwrites rfl ?_)⟩
      cases he : w.db.1.waitlistEntries.get? w.next with
      | none => rfl
      | some e => exact absurd (h.issued _ e he) (Nat.lt_irrefl _)
  | @inserting p n hp hrest hwrites hdrawn hnew =>
      rw [hrest, view_of_nil hwrites] at hw
      dsimp only [TestExchange.inserting] at hw
      split at hw
      · exact ⟨drawn, h.take ht hw⟩
      · rename_i hnone
        split at hw
        · rename_i e hv
          obtain rfl := Option.some.inj hw
          exact ⟨drawn, h.put (.lookingAgain hp rfl hwrites (taken_of_violates hnew hv))⟩
        · rename_i hv
          obtain rfl := Option.some.inj hw
          refine ⟨drawn, h.put (.replying (x := (n, ⟨p.email⟩)) hp rfl rfl ?_)⟩
          dsimp only
          rw [hwrites]
          refine .inserted hnew hdrawn ?_ (first_of_inserts hv)
          have hrows := Tx.missing_eq_none.mp hnone
          exact hrows _ (by simp [Write.beside, insertWaitlistEntry])
  | @lookingAgain p error hp hrest hwrites hthere =>
      rw [hrest, view_of_nil hwrites] at hw
      obtain rfl := Option.some.inj hw
      refine ⟨drawn, h.put ?_⟩
      dsimp only
      cases hfound : w.db.1.waitlisted p.email with
      | some x =>
          obtain ⟨hx, hemail⟩ := waitlisted_eq_some hfound
          exact .replying hp rfl hemail (by rw [hwrites]; exact .found hx)
      | none =>
          obtain ⟨j, e, he, hemail⟩ := hthere
          have hno := Table.find?_eq_none.mp hfound j e he
          exact absurd hemail (by simpa using hno)
  | @replying p x hp hrest hemail hx =>
      rw [hrest] at hw
      obtain rfl := Option.some.inj hw
      exact ⟨drawn, h.put (.replied hp rfl hemail rfl hx)⟩
  | @replied p x ws hp hrest hemail hwrites hx =>
      rw [hrest] at hw
      obtain rfl := Option.some.inj hw
      exact ⟨drawn, h.commit hgood ht hp hemail hwrites hx⟩

/-! ## Runs -/

/-- What the scheduler does with waitlist requests. -/
abbrev WaitlistStep (lower : String → String) :=
  World.Step (WaitlistCreate.program lower) fun _ => true

theorem WaitlistInv.step (h : WaitlistInv lower drawn w)
    (hgood : (anything : Protocol WaitlistState Lock Failure WaitlistCreate).Good w)
    {a : Act WaitlistCreate} (hs : WaitlistStep lower w a w') :
    ∃ drawn', WaitlistInv lower drawn' w' := by
  obtain ⟨hact, -⟩ := hs
  unfold World.act at hact
  cases a with
  | start i r =>
      dsimp only at hact
      split at hact
      · exact absurd hact (by simp)
      · rename_i hnew
        obtain rfl := Option.some.inj hact
        exact ⟨_, h.begin (Table.contains_eq_false.mp (Bool.not_eq_true _ ▸ hnew))⟩
  | step i now =>
      obtain ⟨t, ht, hadv⟩ := Option.bind_eq_some_iff.mp hact
      exact h.advance hgood ht hadv
  | kill i =>
      dsimp only at hact
      split at hact
      · obtain rfl := Option.some.inj hact
        exact ⟨drawn, h.drop⟩
      · exact absurd hact (by simp)

theorem waitlist_idle {next : Nat} (hempty : db.waitlistEntries = .empty) :
    WaitlistInv lower (fun _ => none) (.idle (db, []) next) := by
  have hnone : ∀ i e, db.waitlistEntries.get? i ≠ some e := fun i e he => by
    rw [hempty] at he
    exact absurd he (by simp)
  exact ⟨fun i j e f he => absurd he (hnone i e), fun i e he => absurd he (hnone i e),
    fun r x hx => absurd hx List.not_mem_nil, fun i e he => absurd he (hnone i e),
    fun i t n ht => absurd ht (by simp [World.idle]), fun i t ht => absurd ht (by simp [World.idle]),
    fun i j t u n ht => absurd ht (by simp [World.idle])⟩

/-- Nobody holds the lock of another, and the waitlist is in order. -/
def WaitlistGood (lower : String → String) (w : WaitlistWorld) : Prop :=
  (anything : Protocol WaitlistState Lock Failure WaitlistCreate).Good w
    ∧ ∃ drawn, WaitlistInv lower drawn w

/-- **The waitlist is in order in every interleaving.** -/
theorem waitlist_runs {next : Nat} {acts : List (Act WaitlistCreate)}
    (hempty : db.waitlistEntries = .empty)
    (h : Runs (WaitlistStep lower) (.idle (db, []) next) acts w) :
    ∃ drawn, WaitlistInv lower drawn w := by
  have hsafe : ∀ r, (anything : Protocol WaitlistState Lock Failure WaitlistCreate).Safe r
      (r.program lower) := fun r s _ => wp_anything fun _ _ _ _ _ => ⟨trivial, trivial⟩
  have hrun : WaitlistGood lower w := by
    refine h.invariant ⟨Protocol.good_idle trivial next, _, waitlist_idle hempty⟩ ?_
    rintro w a w' ⟨hgood, drawn, hinv⟩ hs
    exact ⟨(Protocol.good_step hsafe hgood hs).1, hinv.step hgood hs⟩
  exact hrun.2

/-- The transactions of the route do the same, without the answers. -/
theorem waitlist_routes {next : Nat} {acts : List (Act WaitlistCreate)}
    {v : World Db Lock Failure WaitlistCreate}
    (h : Runs (World.Step (fun r => (handle settings user (.waitlist r)).commit) fun _ => true)
      (.idle db next) acts v) :
    ∃ acts' w, Runs (WaitlistStep String.toLower) (.idle (db, []) next) acts' w ∧ v.Shadows w := by
  simp only [waitlist_silent] at h
  exact shadows_runs shadows_idle h

/-- Somebody has joined with the address: his request is committed. -/
def Joined (lower : String → String) (answers : List (WaitlistCreate × (Uuid × WaitlistEntry)))
    (email : String) : Prop :=
  ∃ r x, (r, x) ∈ answers ∧ (r.validateEmail lower).map (·.email) = some email

theorem WaitlistInv.answers (h : WaitlistInv lower drawn w) (hx : (r, x) ∈ w.db.2) :
    w.db.1.waitlistEntries.get? x.1 = some x.2
      ∧ (r.validateEmail lower).map (·.email) = some x.2.email := by
  obtain ⟨hget, p, hp, hemail⟩ := h.answered r x hx
  exact ⟨hget, by rw [hp, hemail]; rfl⟩

/-- A request that is about to fail has not passed its schema. -/
theorem Stage.raises (h : Stage lower db d t) {e : Failure} (hrest : t.rest = .raise e) :
    e = .validation := by
  cases h with
  | refused h => exact Txn.Program.raise.inj (hrest.symm.trans h)
  | looking _ h _ => exact absurd (hrest.symm.trans h) nofun
  | drawing _ h _ => exact absurd (hrest.symm.trans h) nofun
  | inserting _ h _ _ _ => exact absurd (hrest.symm.trans h) nofun
  | lookingAgain _ h _ _ => exact absurd (hrest.symm.trans h) nofun
  | replying _ h _ _ => exact absurd (hrest.symm.trans h) nofun
  | replied _ h _ _ _ => exact absurd (hrest.symm.trans h) nofun

/-- What people get who join the waitlist at the same time. -/
structure WaitlistIdempotent (lower : String → String) (w : WaitlistWorld) : Prop where
  /-- One entry for each address somebody has joined with. -/
  one : ∀ email, Joined lower w.db.2 email →
    w.db.1.waitlistEntries.count (fun e => e.email = email) = 1
  /-- No entry for any other. -/
  none : ∀ email, ¬Joined lower w.db.2 email →
    w.db.1.waitlistEntries.count (fun e => e.email = email) = 0
  /-- The answer to a committed request is the entry of its address. -/
  answered : ∀ r x, (r, x) ∈ w.db.2 → w.db.1.waitlistEntries.get? x.1 = some x.2
    ∧ (r.validateEmail lower).map (·.email) = some x.2.email
  same : ∀ r x r' x', (r, x) ∈ w.db.2 → (r', x') ∈ w.db.2 →
    (r.validateEmail lower).map (·.email) = (r'.validateEmail lower).map (·.email) → x.1 = x'.1
  /-- No request is about to fail because of a constraint. -/
  unfailing : ∀ i t name, w.txs.get? i = some t → t.rest ≠ .raise (.integrity name)

/--
**Joining the waitlist is idempotent, whatever happens at the same time.** The
second lookup is only reached in a race, and by then the winner has committed:
his key is what the insert has waited for.
-/
theorem waitlist_idempotent (lower : String → String) (db : Db) (next : Nat)
    (acts : List (Act WaitlistCreate)) (w : WaitlistWorld)
    (hempty : db.waitlistEntries = .empty)
    (h : Runs (World.Step (WaitlistCreate.program lower) fun _ => true) (.idle (db, []) next) acts w) :
    WaitlistIdempotent lower w := by
  obtain ⟨drawn, hinv⟩ := waitlist_runs hempty h
  refine ⟨?_, ?_, fun r x hx => hinv.answers hx, ?_, ?_⟩
  · rintro email ⟨r, x, hx, hemail⟩
    obtain ⟨hget, hasked⟩ := hinv.answers hx
    obtain rfl := Option.some.inj (hasked.symm.trans hemail)
    refine Table.count_eq_one hget (decide_eq_true rfl) fun i e he hsame => ?_
    exact hinv.once i x.1 e x.2 he hget (of_decide_eq_true hsame)
  · intro email hnobody
    refine Table.count_eq_zero fun i e he => decide_eq_false ?_
    rintro rfl
    obtain ⟨r, hr⟩ := hinv.asked i e he
    exact hnobody ⟨r, (i, e), hr, (hinv.answers hr).2⟩
  · intro r x r' x' hx hx' hsame
    obtain ⟨hget, hasked⟩ := hinv.answers hx
    obtain ⟨hget', hasked'⟩ := hinv.answers hx'
    rw [hasked, hasked'] at hsame
    exact hinv.once x.1 x'.1 x.2 x'.2 hget hget' (Option.some.inj hsame)
  · intro i t name ht hrest
    exact absurd ((hinv.stage i t ht).raises hrest) (by simp)

/-- Two requests with one address, both before the first insert, and one that is given up. -/
def waitlistRace : List (Act WaitlistCreate) :=
  .start 1 ⟨"A@b.c"⟩ :: .start 2 ⟨" a@b.c"⟩ :: .start 3 ⟨"d@b.c"⟩
    :: moves 1 2 ++ moves 2 2 ++ moves 3 5 ++ moves 1 3 ++ moves 2 1 ++ moves 1 2 ++ .kill 3
    :: moves 2 5

theorem waitlist_idempotent_race :
    ∃ w : WaitlistWorld, w.db.2.map (fun a => (a.1.email, a.2.1)) = [("A@b.c", 0), (" a@b.c", 0)]
      ∧ WaitlistIdempotent String.toLower w := by
  have hrun : ((World.idle (Db.empty, []) 0 : WaitlistWorld).run
      (WaitlistCreate.program String.toLower) waitlistRace).map
        (fun w => w.db.2.map fun a => (a.1.email, a.2.1))
      = some [("A@b.c", 0), (" a@b.c", 0)] := by decide +kernel
  obtain ⟨w, hw, hanswers⟩ := Option.map_eq_some_iff.mp hrun
  exact ⟨w, hanswers, waitlist_idempotent String.toLower .empty 0 waitlistRace w rfl
    (World.runs_iff_run.mpr hw)⟩

end TestExchange
