import TestExchange.Model.Common

/-!
# Credits

A balance changes only together with a ledger entry, and a ledger entry is
written at most once for its idempotency key.
-/

namespace TestExchange

open Txn Txn.Session

/-- The arguments of `record_credit_entry`. -/
structure CreditChange where
  userId : Uuid
  delta : Int
  entryType : CreditEntryType
  idempotencyKey : String
  referenceType : Option String := none
  referenceId : Option Uuid := none
  note : Option String := none
  createdBy : Option Uuid := none

/-- The ledger entry a change is recorded as. -/
def CreditChange.entry (change : CreditChange) (transactionId : Uuid) : CreditLedgerEntry where
  transactionId := transactionId
  userId := change.userId
  delta := change.delta
  entryType := change.entryType
  referenceType := change.referenceType
  referenceId := change.referenceId
  note := change.note
  idempotencyKey := change.idempotencyKey
  createdBy := change.createdBy

def ensureCreditAccount (userId : Uuid) : Session CreditAccount := do
  match ← query fun db => db.creditAccounts.get? userId with
  | some account => pure account
  | none =>
      add (insertCreditAccount userId ⟨0⟩)
      flush
      pure ⟨0⟩

def getCreditAccountForUpdate (userId : Uuid) : Session CreditAccount := do
  match ← selectForUpdate Db.creditAccounts Lock.creditAccount userId with
  | some account => pure account
  -- the row was not there, so nothing is locked: this lookup is a plain one
  | none => ensureCreditAccount userId

def recordCreditEntry (change : CreditChange) : Session CreditLedgerEntry := do
  let existing ← query fun db =>
    db.creditLedgerEntries.find? fun e => e.idempotencyKey = change.idempotencyKey
  match existing with
  | some entry => pure entry
  | none =>
      raiseIf (change.delta = 0) (.domain "Credit changes cannot be zero" 400)
      let account ← getCreditAccountForUpdate change.userId
      let resultingBalance := account.balance + change.delta
      raiseIf (resultingBalance < 0) (.domain "Insufficient credits" 409)
      add (writeCreditAccount change.userId resultingBalance)
      let transactionId ← uuid4
      let entry := change.entry transactionId
      add (insertCreditLedgerEntry entry)
      flush
      pure entry

/-- `GET /credits/balance`: creates the account if the user has none. -/
def creditBalance (userId : Uuid) : Session Int := do
  let _ ← getProfile userId
  let account ← ensureCreditAccount userId
  pure account.balance

end TestExchange
