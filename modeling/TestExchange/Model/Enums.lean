/-!
# Enumerations

The states an entity can be in, as the columns store them, and the two sets of
assignment statuses the services count. `value` is the stored text; it is what
ends up inside composed strings such as audit actions.
-/

namespace TestExchange

inductive Platform where
  | android | ios | web | desktop | api | other
  deriving DecidableEq

inductive CampaignStatus where
  | draft | published | paused | completed | cancelled
  deriving DecidableEq

inductive ContractStatus where
  | draft | locked
  deriving DecidableEq

inductive AssignmentStatus where
  | applied | accepted | inProgress | submitted | changesRequested | approved | rejected | cancelled
  deriving DecidableEq

/-- Statuses that use up one of a campaign's tester slots. -/
def occupiedAssignmentStatuses : List AssignmentStatus :=
  [.accepted, .inProgress, .submitted, .changesRequested, .approved]

/-- Statuses of testing work that has been accepted and is not settled. -/
def activeTestingAssignmentStatuses : List AssignmentStatus :=
  [.accepted, .inProgress, .submitted, .changesRequested]

inductive SubmissionStatus where
  | submitted | changesRequested | approved | rejected
  deriving DecidableEq

inductive ReviewDecision where
  | approved | changesRequested | rejected
  deriving DecidableEq

inductive EvidenceKind where
  | screenshot | video | log | note | link | file
  deriving DecidableEq

inductive CreditEntryType where
  | signupGrant | purchase | posting | reservation | reward | release | refund | adjustment
  deriving DecidableEq

inductive DisputeStatus where
  | open | underReview | resolved | rejected
  deriving DecidableEq

inductive DisputeRemedy where
  | none | awardTester
  deriving DecidableEq

/-- The actions an owner can ask of a published campaign. -/
inductive TransitionAction where
  | pause | resume | close
  deriving DecidableEq

/-- The two ways a moderator can end a dispute. -/
inductive DisputeOutcome where
  | resolved | rejected
  deriving DecidableEq

def CampaignStatus.value : CampaignStatus → String
  | .draft => "draft"
  | .published => "published"
  | .paused => "paused"
  | .completed => "completed"
  | .cancelled => "cancelled"

def AssignmentStatus.value : AssignmentStatus → String
  | .applied => "applied"
  | .accepted => "accepted"
  | .inProgress => "in_progress"
  | .submitted => "submitted"
  | .changesRequested => "changes_requested"
  | .approved => "approved"
  | .rejected => "rejected"
  | .cancelled => "cancelled"

def ReviewDecision.value : ReviewDecision → String
  | .approved => "approved"
  | .changesRequested => "changes_requested"
  | .rejected => "rejected"

def DisputeRemedy.value : DisputeRemedy → String
  | .none => "none"
  | .awardTester => "award_tester"

def TransitionAction.value : TransitionAction → String
  | .pause => "pause"
  | .resume => "resume"
  | .close => "close"

def DisputeOutcome.value : DisputeOutcome → String
  | .resolved => "resolved"
  | .rejected => "rejected"

/-- `DisputeStatus(payload.outcome)`. -/
def DisputeOutcome.status : DisputeOutcome → DisputeStatus
  | .resolved => .resolved
  | .rejected => .rejected

end TestExchange
