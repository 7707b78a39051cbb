import TestExchange.Concurrent.Footprints
import TestExchange.Proof.Ledger

/-!
# Editing and publishing at the same time

Edits of a draft and its publication, interleaved. The publication locks the
campaign row and pays for the terms it finds there. An edit reads the row
without a lock, so its `UPDATE` can take effect after the publication. In runs
where it does not, or leaves the terms alone, the price paid is the promise and
the promise stays.
-/

namespace TestExchange

open Txn Txn.Session Txn.World Exchange

/-- What an owner does to a draft. -/
inductive DraftRequest where
  | update (payload : CampaignUpdate)
  | publish

/-- What happens in the database while owners edit and publish. -/
abbrev DraftWorld := World Db Lock Failure DraftRequest

/-- The transaction of each request on the campaign. -/
def DraftRequest.program (campaignId ownerId : Uuid) :
    DraftRequest → Program Db Lock Failure Unit
  | .update payload => (discard (updateCampaign campaignId ownerId payload)).commit
  | .publish => (discard (publishCampaign campaignId ownerId)).commit

def Campaign.sameTerms (c c' : Campaign) : Bool :=
  c'.targetTesters = c.targetTesters && c'.rewardCredits = c.rewardCredits

/-- The campaign the write updates is still a draft, or keeps its target and its reward. -/
def promiseUntouched (x : Landing Db Lock Failure DraftRequest) : Bool :=
  (x.write.rows x.view).all fun
    | .campaign id =>
        (x.db.campaigns.get? id).all fun c =>
          c.status = .draft || ((x.write.effect x.db).campaigns.get? id).any c.sameTerms
    | _ => true

/-- **The price paid is the promise**, once it is made. -/
structure Priced (campaignId : Uuid) (db : Db) : Prop where
  unpaid : ∀ c, db.campaigns.get? campaignId = some c → c.status = .draft →
    ∀ e ∈ db.creditLedgerEntries, e.idempotencyKey ≠ (Occasion.posting campaignId).key
  paid : ∀ c, db.campaigns.get? campaignId = some c → c.status = .published →
    ∃ e ∈ db.creditLedgerEntries, e.idempotencyKey = (Occasion.posting campaignId).key
  price : ∀ c, db.campaigns.get? campaignId = some c → c.status = .published →
    ∀ e ∈ db.creditLedgerEntries, e.idempotencyKey = (Occasion.posting campaignId).key →
      e.delta = -(c.targetTesters * c.rewardCredits)

/-- A published campaign stays published, with its terms. -/
def PromiseKept (campaignId : Uuid) (db db' : Db) : Prop :=
  ∀ c, db.campaigns.get? campaignId = some c → c.status = .published →
    ∃ c', db'.campaigns.get? campaignId = some c' ∧ c'.status = .published
      ∧ c'.targetTesters = c.targetTesters ∧ c'.rewardCredits = c.rewardCredits

/-- What a commit does to the campaign, depending on what it has locked. -/
structure DraftGuar (campaignId : Uuid) (locks : List Lock) (db db' : Db) : Prop where
  row : .campaign campaignId ∉ locks →
    db'.campaigns.get? campaignId = db.campaigns.get? campaignId
  kept : PromiseKept campaignId db db'

/-- What the transactions agree on. -/
def draftProtocol (campaignId : Uuid) : Protocol Db Lock Failure DraftRequest where
  Inv := Priced campaignId
  Guar := DraftGuar campaignId
  cond := promiseUntouched

variable {campaignId ownerId : Uuid} {db : Db}

theorem stable_campaign {held : List Lock} {o : Option Campaign}
    (h : .campaign campaignId ∈ held) :
    (draftProtocol campaignId).Stable held fun db => db.campaigns.get? campaignId = o := by
  intro locks s s' hl _ _ hg hs
  exact (hg.row (hl _ h)).trans hs

/-! ## Edits -/

theorem PatchField.set_of_not_changes {α : Type} [DecidableEq α] {patch : PatchField α}
    {loaded current : α} (h : patch.changes loaded = false) :
    patch.set loaded current = current := by
  unfold PatchField.set
  split
  · rename_i value
    have hv : value = loaded := by simpa [PatchField.changes] using h
    rw [setIfChanged, if_pos hv]
  · rfl

theorem PatchField.setNullable_of_not_changes {α : Type} [DecidableEq α] {patch : PatchField α}
    {loaded current : Option α} (h : patch.any (· ≠ loaded) = false) :
    patch.setNullable loaded current = current := by
  unfold PatchField.setNullable
  split
  · rename_i value
    have hv : value = loaded := by simpa using h
    rw [setIfChanged, if_pos hv]
  · rfl

/-- An edit that changes nothing leaves every row as it is. -/
theorem CampaignUpdate.set_of_not_changes {payload : CampaignUpdate} {loaded : Campaign}
    (h : payload.changes loaded = false) (current : Campaign) :
    payload.set loaded current = current := by
  simp only [CampaignUpdate.changes, Bool.or_eq_false_iff] at h
  obtain ⟨⟨⟨⟨⟨⟨hname, hcategory⟩, hsummary⟩, hreq⟩, hversion⟩, htarget⟩, hreward⟩ := h
  unfold CampaignUpdate.set
  rw [PatchField.set_of_not_changes hname, PatchField.set_of_not_changes hcategory,
    PatchField.set_of_not_changes hsummary, PatchField.set_of_not_changes hreq,
    PatchField.setNullable_of_not_changes hversion, PatchField.set_of_not_changes htarget,
    PatchField.set_of_not_changes hreward]

/-- A transaction that changes neither the campaign nor the ledger. -/
theorem commits_quiet {c : Ctx Db Lock Failure}
    (hrow : ∀ s, c.known s → (c.view s).campaigns.get? campaignId = s.campaigns.get? campaignId)
    (hledger : ∀ s, (c.view s).creditLedgerEntries = s.creditLedgerEntries) :
    (draftProtocol campaignId).Commits c := by
  intro s hs hk
  refine ⟨⟨fun _ => hrow s hk, ?_⟩, ?_, ?_, ?_⟩
  · intro x hx hpub
    exact ⟨x, (hrow s hk).trans hx, hpub, rfl, rfl⟩
  · rw [hrow s hk, hledger]
    exact hs.unpaid
  · rw [hrow s hk, hledger]
    exact hs.paid
  · rw [hrow s hk, hledger]
    exact hs.price

/-- An edit whose `UPDATE` found the row a draft, or left its terms alone. -/
theorem commits_edit {c : Ctx Db Lock Failure} {o : Option Campaign} {f : Campaign → Campaign}
    (hheld : .campaign campaignId ∈ c.held)
    (hknown : ∀ s, c.known s → s.campaigns.get? campaignId = o)
    (hrow : ∀ s, (c.view s).campaigns.get? campaignId = (s.campaigns.get? campaignId).map f)
    (hledger : ∀ s, (c.view s).creditLedgerEntries = s.creditLedgerEntries)
    (hstatus : ∀ x, (f x).status = x.status)
    (hterms : ∀ x, o = some x → x.status = .draft ∨ x.sameTerms (f x) = true) :
    (draftProtocol campaignId).Commits c := by
  intro s hs hk
  have hcases : ∀ y, (c.view s).campaigns.get? campaignId = some y →
      ∃ x, s.campaigns.get? campaignId = some x ∧ y = f x
        ∧ (x.status = .draft ∨ x.sameTerms (f x) = true) := by
    intro y hy
    rw [hrow] at hy
    obtain ⟨x, hx, rfl⟩ := Option.map_eq_some_iff.mp hy
    exact ⟨x, hx, rfl, hterms x ((hknown s hk).symm.trans hx)⟩
  have hpublished : ∀ x, x.status = .published → (x.status = .draft ∨ x.sameTerms (f x) = true) →
      (f x).targetTesters = x.targetTesters ∧ (f x).rewardCredits = x.rewardCredits := by
    intro x hpub hx
    have hsame := hx.resolve_left (by simp [hpub])
    simpa [Campaign.sameTerms] using hsame
  refine ⟨⟨fun hl => absurd hheld hl, ?_⟩, ?_, ?_, ?_⟩
  · intro x hx hpub
    have hy : (c.view s).campaigns.get? campaignId = some (f x) := by rw [hrow, hx]; rfl
    obtain ⟨x', hx', _, hterm⟩ := hcases _ hy
    obtain rfl := Option.some.inj (hx.symm.trans hx')
    exact ⟨f x, hy, (hstatus x).trans hpub, hpublished x hpub hterm⟩
  · intro y hy hdraft
    obtain ⟨x, hx, rfl, _⟩ := hcases y hy
    rw [hledger]
    exact hs.unpaid x hx ((hstatus x).symm.trans hdraft)
  · intro y hy hpub
    obtain ⟨x, hx, rfl, _⟩ := hcases y hy
    rw [hledger]
    exact hs.paid x hx ((hstatus x).symm.trans hpub)
  · intro y hy hpub e he hkey
    obtain ⟨x, hx, rfl, hterm⟩ := hcases y hy
    have hxpub := (hstatus x).symm.trans hpub
    obtain ⟨htarget, hreward⟩ := hpublished x hxpub hterm
    rw [htarget, hreward]
    exact hs.price x hx hxpub e (by rw [← hledger]; exact he) hkey

theorem promiseUntouched_patch {r : DraftRequest} {seen view : Db} {payload : CampaignUpdate}
    {loaded x : Campaign}
    (h : promiseUntouched ⟨r, seen, view, db, patchCampaign campaignId payload loaded⟩ = true)
    (hchanges : payload.changes loaded = true) (hx : db.campaigns.get? campaignId = some x) :
    x.status = .draft ∨ x.sameTerms (payload.set loaded x) = true := by
  simp only [promiseUntouched, patchCampaign, hchanges, if_true, List.all_cons, List.all_nil,
    Bool.and_true, hx, Option.all_some, Table.get?_modify_self, Option.map_some, Option.any_some,
    Bool.or_eq_true, decide_eq_true_eq] at h
  exact h

/-- **An edit keeps to the protocol.** -/
theorem updateCampaign_safe (payload : CampaignUpdate) :
    (draftProtocol campaignId).Safe (.update payload)
      (DraftRequest.program campaignId ownerId (.update payload)) := by
  refine safe_commit fun s₀ _ => ?_
  simp only [discard, updateCampaign, getCampaign, requireCampaignOwner, addAuditEvent, swp_bind,
    swp_pure, swp_orRaise, swp_raiseIf, swp_add]
  rw [swp_query]
  intro s₁ _ _
  refine .skip ?_
  intro loaded _ _ _
  simp only [swp_flush, List.nil_append, List.cons_append, swp_sendAll_cons, swp_sendAll_nil]
  rw [swp_execute]
  intro s₂ _ _ _ hcond
  by_cases hchanges : payload.changes loaded = true
  · refine .pick _ (stable_campaign (o := s₂.campaigns.get? campaignId) ?_) rfl ?_
    · simp [Ctx.hold, Ctx.wrote, patchCampaign, hchanges]
    rw [swp_execute]
    intro s₃ _ _ _ _
    refine .skip (commits_edit (f := payload.set loaded) ?_ (fun s hs => hs.2) ?_ ?_ ?_ ?_)
    · simp [Ctx.hold, Ctx.learn, Ctx.wrote, patchCampaign, hchanges]
    · intro s
      exact Table.get?_modify_self
    · intro s
      rfl
    · intro x
      rfl
    · intro x hx
      exact promiseUntouched_patch hcond hchanges hx
  · -- nothing is patched
    rw [Bool.not_eq_true] at hchanges
    refine .skip ?_
    rw [swp_execute]
    intro s₃ _ _ _ _
    refine .skip (commits_quiet ?_ fun _ => rfl)
    intro s _
    show (s.campaigns.modify campaignId (payload.set loaded)).get? campaignId = _
    rw [Table.get?_modify_self]
    cases s.campaigns.get? campaignId with
    | none => rfl
    | some x => exact congrArg some (CampaignUpdate.set_of_not_changes hchanges x)

/-! ## Publication -/

/-- Writes that leave campaigns and ledger alone. -/
def AroundPromise (w : Write) : Prop :=
  ∀ db : Db, (w.effect db).campaigns = db.campaigns
    ∧ (w.effect db).creditLedgerEntries = db.creditLedgerEntries

/-- What a publication writes, once the owner has an account. -/
def publicationWrites (campaignId ownerId : Uuid) (campaign : Campaign) (contractId : Uuid)
    (balance : Int) (transactionId : Uuid) (now : Time) : List Write :=
  [writeCreditAccount ownerId balance,
   insertCreditLedgerEntry ((postingEntry campaignId campaign ownerId).entry transactionId),
   writeCampaign campaignId fun c => { c with status := .published, publishedAt := some now },
   writeTestingContract contractId fun c => { c with status := .locked, lockedAt := some now },
   insertAuditEvent ⟨some ownerId, "campaign.published", "campaign", campaignId,
     [("spent_credits", .int campaign.requiredCredits), ("refundable", .bool false)]⟩]

/-- A publication that found the row a draft and pays what the row says. -/
theorem commits_publication {c : Ctx Db Lock Failure} {x : Campaign} {f : Campaign → Campaign}
    {n : Uuid} (hheld : .campaign campaignId ∈ c.held)
    (hknown : ∀ s, c.known s → s.campaigns.get? campaignId = some x) (hdraft : x.status = .draft)
    (hrow : ∀ s, (c.view s).campaigns = s.campaigns.modify campaignId f)
    (hledger : ∀ s, (c.view s).creditLedgerEntries
      = s.creditLedgerEntries ++ [(postingEntry campaignId x ownerId).entry n])
    (hstatus : (f x).status = .published) (htarget : (f x).targetTesters = x.targetTesters)
    (hreward : (f x).rewardCredits = x.rewardCredits) :
    (draftProtocol campaignId).Commits c := by
  intro s hs hk
  have hx := hknown s hk
  have hnone := hs.unpaid x hx hdraft
  have hnow : (c.view s).campaigns.get? campaignId = some (f x) := by
    rw [hrow, Table.get?_modify_self, hx]
    rfl
  refine ⟨⟨fun hl => absurd hheld hl, ?_⟩, ?_, ?_, ?_⟩
  · intro y hy hpub
    obtain rfl := Option.some.inj (hx.symm.trans hy)
    rw [hdraft] at hpub
    exact absurd hpub (by simp)
  · intro y hy hydraft
    obtain rfl := Option.some.inj (hnow.symm.trans hy)
    rw [hstatus] at hydraft
    exact absurd hydraft (by simp)
  · intro y _ _
    exact ⟨(postingEntry campaignId x ownerId).entry n, by rw [hledger]; simp, rfl⟩
  · intro y hy _ e he hkey
    obtain rfl := Option.some.inj (hnow.symm.trans hy)
    rw [hledger] at he
    rcases List.mem_append.mp he with he | he
    · exact absurd hkey (hnone e he)
    · rw [List.mem_singleton.mp he, htarget, hreward, ← Int.natCast_mul]
      rfl

/-- **The publication keeps to the protocol.** -/
theorem publishCampaign_safe :
    (draftProtocol campaignId).Safe .publish
      (DraftRequest.program campaignId ownerId .publish) := by
  refine safe_commit fun s₀ _ => ?_
  simp only [discard, publishCampaign, requireCampaignOwner, selectForUpdate, swp_bind, swp_pure,
    swp_orRaise, swp_raiseIf]
  rw [swp_queryForUpdate]
  intro s₁ _ _
  rw [Ctx.view_start]
  cases hx : s₁.campaigns.get? campaignId with
  | none => exact .skip fun x h => absurd h (by simp)
  | some x =>
      -- the campaign is locked, so what was read of it stays true
      refine .pick _ (stable_campaign (o := some x) ?_) hx ?_
      · rw [if_pos (Table.contains_eq_true.mpr ⟨x, hx⟩)]
        exact List.mem_append_left _ (List.mem_singleton_self _)
      intro x' hx' howner
      obtain rfl := Option.some.inj hx'
      by_cases hpub : x.status = .published
      · rw [if_pos hpub]
        -- already published: nothing is written
        exact commits_quiet (fun _ _ => rfl) fun _ => rfl
      · rw [if_neg hpub]
        simp only [swp_bind, swp_raiseIf, getContract, swp_orRaise, swp_pure, not_not]
        intro hdraft
        rw [swp_query]
        intro s₂ _ _
        refine .skip fun contract _ => ?_
        rw [swp_query]
        intro s₃ _ _
        refine .skip fun _ => ?_
        simp only [recordCreditEntry, swp_bind]
        rw [swp_query]
        intro s₄ hs₄ hk₄
        refine .skip ?_
        -- a draft has not been paid for
        have hnone : s₄.creditLedgerEntries.find? (fun e => e.idempotencyKey
            = (postingEntry campaignId x ownerId).idempotencyKey) = none := by
          refine List.find?_eq_none.mpr fun e he => ?_
          have hne := hs₄.unpaid x hk₄.2 hdraft e he
          simpa [Occasion.key, postingEntry] using hne
        simp only [Ctx.view_learn, Ctx.view_see, Ctx.view_hold, Ctx.view_start, hnone]
        simp only [swp_bind, swp_raiseIf, swp_add, swp_uuid4, swp_utcnow, swp_pure, addAuditEvent]
        intro _
        -- the account is locked or opened; neither touches campaigns or the ledger
        refine swp_only (W := AroundPromise) (only_getCreditAccountForUpdate fun _ => ⟨rfl, rfl⟩)
          (by simp) fun account vs c hvs hext => ?_
        intro _ n
        refine swp_flush_sends fun c₁ hc₁ t => swp_flush_sends fun c₂ hc₂ => ?_
        obtain ⟨us, hus, hsent⟩ := hext
        -- what was written before the publication leaves both tables alone
        have hbefore : ∀ s : Db, (effects (us ++ vs) s).campaigns = s.campaigns
            ∧ (effects (us ++ vs) s).creditLedgerEntries = s.creditLedgerEntries := by
          -- and the publication itself is these writes, in this order
          have hall : ∀ w ∈ us ++ vs, AroundPromise w :=
            fun w hw => (List.mem_append.mp hw).elim (hus w) (hvs w)
          exact fun s => ⟨effects_keep (fun w hw s => (hall w hw s).1) s,
            effects_keep (fun w hw s => (hall w hw s).2) s⟩
        have hall : c₂.writes = us ++ vs ++ publicationWrites campaignId ownerId x contract.1
            (account.balance + (postingEntry campaignId x ownerId).delta) n t := by
          rw [hc₂.writes, hc₁.writes, hsent.writes]
          simp only [List.append_assoc, List.nil_append]
          rfl
        have hrow : ∀ s : Db, (c₂.view s).campaigns = s.campaigns.modify campaignId fun x =>
            { x with status := .published, publishedAt := some t } := by
          intro s
          rw [Ctx.view, hall, effects_append, ← (hbefore s).1]
          rfl
        have hledger : ∀ s : Db, (c₂.view s).creditLedgerEntries
            = s.creditLedgerEntries ++ [(postingEntry campaignId x ownerId).entry n] := by
          intro s
          rw [Ctx.view, hall, effects_append, ← (hbefore s).2]
          rfl
        refine commits_publication (hc₂.held _ (hc₁.held _ (hsent.held _ ?_)))
          (fun s hk => (hsent.known s (hc₁.known s (hc₂.known s hk))).2) hdraft hrow hledger rfl rfl
          rfl
        show _ ∈ (if s₁.campaigns.contains campaignId = true then _ else _) ++ []
        rw [if_pos (Table.contains_eq_true.mpr ⟨x, hx⟩)]
        exact List.mem_append_left _ (List.mem_singleton_self _)

/-! ## Runs -/

theorem draftRequest_safe (request : DraftRequest) :
    (draftProtocol campaignId).Safe request (request.program campaignId ownerId) := by
  cases request with
  | update payload => exact updateCampaign_safe payload
  | publish => exact publishCampaign_safe

/--
**The price paid is the promise, and the promise stays**, in a run in which no
edit changes the terms of a campaign that is published by then.
-/
theorem promise_kept {db : Db} (hdb : Priced campaignId db) (next : Nat)
    {acts acts' : List (Act DraftRequest)} {w w' : DraftWorld}
    (h : Runs (World.Step (DraftRequest.program campaignId ownerId) promiseUntouched)
      (.idle db next) acts w)
    (h' : Runs (World.Step (DraftRequest.program campaignId ownerId) promiseUntouched) w acts' w') :
    Priced campaignId w'.db ∧ PromiseKept campaignId w.db w'.db := by
  have hgood := Protocol.good_runs (P := draftProtocol campaignId) draftRequest_safe
    (Protocol.good_idle hdb next) h
  have hgood' := Protocol.good_runs draftRequest_safe hgood h'
  refine ⟨hgood'.inv, ?_⟩
  refine Protocol.relates_runs (P := draftProtocol campaignId) draftRequest_safe hgood h'
    (fun s c hc hpub => ⟨c, hc, hpub, rfl, rfl⟩) ?_ fun _ _ _ _ _ hg => hg.kept
  intro s₁ s₂ s₃ h₁ h₂ c hc hpub
  obtain ⟨c₂, hc₂, hpub₂, htarget₂, hreward₂⟩ := h₁ c hc hpub
  obtain ⟨c₃, hc₃, hpub₃, htarget₃, hreward₃⟩ := h₂ c₂ hc₂ hpub₂
  exact ⟨c₃, hc₃, hpub₃, htarget₃.trans htarget₂, hreward₃.trans hreward₂⟩

/-- A ledger in order has the prices right. -/
theorem LedgerInv.priced {g : Nat} (h : LedgerInv g db.exchange) : Priced campaignId db where
  unpaid := by
    intro c hc hdraft e he hkey
    obtain ⟨o, ho⟩ := h.explained e he
    obtain rfl := Occasion.key_inj (ho.key.symm.trans hkey)
    obtain ⟨c', hc', hne⟩ := ho.occurs
    obtain rfl := Option.some.inj (hc.symm.trans hc')
    exact hne hdraft
  paid := by
    intro c hc hpub
    exact h.recorded (.posting campaignId) ⟨c, hc, by simp [hpub]⟩
  price := by
    intro c hc _ e he hkey
    obtain ⟨o, ho⟩ := h.explained e he
    obtain rfl := Occasion.key_inj (ho.key.symm.trans hkey)
    obtain ⟨c', hc', _, hdelta⟩ := ho.moves
    obtain rfl := Option.some.inj (hc.symm.trans hc')
    exact hdelta

/-! ## The gap -/

/-- A draft with a contract of one task: campaign 1, contract 2, task 3. -/
def draftService : Service :=
  Service.init.run benchSettings
    [(0, ⟨1, none⟩, .saveProfile { username := "owner", displayName := "Owner" }),
     (0, ⟨1, none⟩, .createCampaign benchCampaign.campaign),
     (0, ⟨1, none⟩, .saveContract 1 benchCampaign.contract)]

theorem draftService_priced : Priced 1 draftService.db :=
  LedgerInv.priced (ledgerInv_possible (reachable_possible (reachable_run .init _)))

/-- The publication commits between the read and the `UPDATE` of an edit. -/
def lateEdit (payload : CampaignUpdate) : List (Act DraftRequest) :=
  .start 1 (.update payload) :: moves 1 1 ++ .start 2 .publish :: moves 2 17 ++ moves 1 4

theorem promise_kept_renamed :
    ∃ w, (World.idle draftService.db draftService.nextId).runWhen (DraftRequest.program 1 1)
        promiseUntouched (lateEdit { name := some (some "Chairs") }) = some w
      ∧ Priced 1 w.db ∧ PromiseKept 1 draftService.db w.db := by
  have hsome : ((World.idle draftService.db draftService.nextId).runWhen
      (DraftRequest.program 1 1) promiseUntouched
      (lateEdit { name := some (some "Chairs") })).isSome = true := by decide +kernel
  obtain ⟨w, hw⟩ := Option.isSome_iff_exists.mp hsome
  exact ⟨w, hw, promise_kept draftService_priced _ (.nil _) (World.runs_iff_runWhen.mpr hw)⟩

/-- The campaign's status and terms, and the entries of the ledger. -/
def draftOutcome (w : DraftWorld) : Option (CampaignStatus × Nat × Nat) × List Int :=
  ((w.db.campaigns.get? 1).map fun c => (c.status, c.targetTesters, c.rewardCredits),
    w.db.creditLedgerEntries.map (·.delta))

/-- One tester is paid for, and the published campaign promises five. -/
theorem promise_broken :
    ¬∀ (campaignId ownerId : Uuid) (db : Db) (next : Nat) (acts : List (Act DraftRequest))
      (w : DraftWorld), Priced campaignId db →
        (World.idle db next).run (DraftRequest.program campaignId ownerId) acts = some w →
          Priced campaignId w.db := by
  intro h
  have hrun : ((World.idle draftService.db draftService.nextId).run (DraftRequest.program 1 1)
      (lateEdit { targetTesters := some (some 5) })).map draftOutcome
      = some (some (.published, 5, 2), [24, -2]) := by decide +kernel
  obtain ⟨w, hw, hout⟩ := Option.map_eq_some_iff.mp hrun
  obtain ⟨hcampaign, hledger⟩ := Prod.mk.inj hout
  obtain ⟨c, hc, hrow⟩ := Option.map_eq_some_iff.mp hcampaign
  obtain ⟨hstatus, hterms⟩ := Prod.mk.inj hrow
  obtain ⟨htarget, hreward⟩ := Prod.mk.inj hterms
  have hpriced := h 1 1 draftService.db draftService.nextId _ w draftService_priced hw
  obtain ⟨e, he, hkey⟩ := hpriced.paid c hc hstatus
  have hdelta := hpriced.price c hc hstatus e he hkey
  rw [htarget, hreward] at hdelta
  have hmem : e.delta ∈ [24, -2] := hledger ▸ List.mem_map_of_mem he
  rw [hdelta] at hmem
  exact absurd hmem (by decide)

end TestExchange
