import TestExchange.Model.Common

/-! # Notifications -/

namespace TestExchange

open Txn Txn.Session

/-- Notify once per idempotency key. The insert flushes whatever else is queued. -/
def addNotification (notification : Notification) : Session Unit := do
  let existing ← query fun db =>
    db.notifications.find? fun _ n => n.idempotencyKey = notification.idempotencyKey
  match existing with
  | some _ => pure ()
  | none =>
      let notificationId ← uuid4
      add (insertNotification notificationId notification)
      flush

def markNotificationRead (notificationId userId : Uuid) : Session (Uuid × Notification) := do
  let notification ← orRaise (.domain "Notification not found" 404)
    (← selectForUpdate Db.notifications Lock.notification notificationId)
  raiseIf (notification.userId ≠ userId) (.domain "Notification not found" 404)
  match notification.readAt with
  | some _ => pure (notificationId, notification)
  | none =>
      let now ← utcnow
      add (writeNotification notificationId fun n => { n with readAt := some now })
      flush
      pure (notificationId, { notification with readAt := some now })

def markAllNotificationsRead (userId : Uuid) : Session Unit := do
  let now ← utcnow
  let unread (db : Db) : List (Uuid × Notification) :=
    db.notifications.where' fun _ n => n.userId = userId && n.readAt.isNone
  let unread ← queryForUpdate (fun db => (unread db).map fun n => .notification n.1) unread
  execute (writeNotificationsRead (unread.map Prod.fst) now)

end TestExchange
