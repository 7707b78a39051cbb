import TestExchange.Refine.Serve
import TestExchange.Spec.Descent

/-!
# Which requests make rows

Only creating and launching make campaigns, only applying makes assignments, and
only submitting makes submissions. After any other request the rows are those
that were there before it.
-/

namespace TestExchange

open Txn Exchange

variable {settings : Settings} {user : CurrentUser} {request : Request} {now n n' : Nat}
  {db db' : Db} {u : Unit}

theorem campaigns_before
    (hok : (handle settings user request).commit.alone now db n = .ok (u, db', n'))
    (hcreate : ∀ payload, request ≠ .createCampaign payload)
    (hlaunch : ∀ payload, request ≠ .launchCampaign payload) :
    db.campaigns.From Campaign.SameSlug db'.campaigns := by
  obtain ⟨actions, hacts, hrun⟩ := commit_acts hok
  refine campaigns_descend hrun fun x hx id hmake => ?_
  have hact := hacts x hx
  subst hmake
  cases request with
  | createCampaign payload => exact hcreate payload rfl
  | launchCampaign payload => exact hlaunch payload rfl
  | _ => simp [Request.acts] at hact

theorem assignments_before
    (hok : (handle settings user request).commit.alone now db n = .ok (u, db', n'))
    (hother : ∀ id payload, request ≠ .apply id payload) :
    db.assignments.From Assignment.SamePair db'.assignments := by
  obtain ⟨actions, hacts, hrun⟩ := commit_acts hok
  refine assignments_descend hrun fun x hx id hmake => ?_
  have hact := hacts x hx
  subst hmake
  cases request with
  | apply id payload => exact hother id payload rfl
  | _ => simp [Request.acts] at hact

theorem submissions_before
    (hok : (handle settings user request).commit.alone now db n = .ok (u, db', n'))
    (hother : ∀ id payload, request ≠ .submit id payload) :
    db.evidenceSubmissions.From EvidenceSubmission.SameWork db'.evidenceSubmissions := by
  obtain ⟨actions, hacts, hrun⟩ := commit_acts hok
  refine submissions_descend hrun fun x hx k hmake => ?_
  have hact := hacts x hx
  subst hmake
  cases request with
  | submit id payload => exact hother id payload rfl
  | _ => simp [Request.acts] at hact

end TestExchange
