import TestExchange.Model.Reading

/-!
# The quality check

An advisory signal about a submission: four checks on its text, its evidence and
the tasks its contract requires. It decides nothing and writes nothing.
-/

namespace TestExchange

open Txn Txn.Session

def summaryMinChars : Nat := 80

def observationMinChars : Nat := 30

def genericPhrases : List String :=
  ["works fine", "looks good", "no issues", "everything works"]

/-- `re.sub(r"\s+", " ", …)`, where `space` tells whether the last character was whitespace. -/
def collapseSpaces (space : Bool) : List Char → List Char
  | [] => []
  | c :: cs =>
      if isSpace c then (if space then [] else [' ']) ++ collapseSpaces true cs
      else c :: collapseSpaces false cs

/-- The text on one line and in small letters, where `lower` is `str.lower`. -/
def normalizeText (lower : String → String) (value : String) : List Char :=
  collapseSpaces false (lower (String.ofList (stripSpaces value.toList))).toList

/-- `"passed" if passed else "flagged"` -/
inductive CheckStatus where
  | passed | flagged
  deriving DecidableEq

structure QualityCheckItem where
  code : String
  label : String
  status : CheckStatus
  detail : String

def check (code label : String) (passed : Bool) (passedDetail flaggedDetail : String) :
    QualityCheckItem where
  code := code
  label := label
  status := if passed then .passed else .flagged
  detail := if passed then passedDetail else flaggedDetail

inductive QualityStatus where
  | readyForReview | needsAttention | alreadyReviewed
  deriving DecidableEq

structure QualityCheckRead where
  submissionId : Uuid
  assignmentId : Uuid
  submissionVersion : Nat
  submissionStatus : SubmissionStatus
  status : QualityStatus
  score : Nat
  checks : List QualityCheckItem
  disclaimer : String

/-- The four checks, in order. -/
def qualityChecks (lower : String → String) (submission : EvidenceSubmission) (items : List (Uuid × EvidenceItem))
    (requiredTaskIds : List Uuid) : List QualityCheckItem :=
  let coveredTaskIds := items.filterMap (·.2.taskId)
  let uncovered := requiredTaskIds.filter fun taskId => taskId ∉ coveredTaskIds
  let contentComplete := items.all fun item =>
    item.2.storageKey.isSome || item.2.externalUrl.isSome || item.2.note.isSome
  let normalizedSummary := normalizeText lower submission.summary
  let summaryChars := (stripSpaces submission.summary.toList).length
  let summarySpecific := summaryMinChars ≤ normalizedSummary.length
    && !genericPhrases.any fun phrase => phrase.toList <:+: normalizedSummary
  let hasObservation := items.any fun item =>
    observationMinChars ≤ (stripSpaces (item.2.note.getD "").toList).length
  [check "required_task_coverage" "Required tasks have linked evidence" uncovered.isEmpty
      s!"All {requiredTaskIds.length} required task(s) have linked evidence."
      s!"{uncovered.length} required task(s) still need linked evidence.",
   check "evidence_content" "Every evidence item includes content" contentComplete
      s!"All {items.length} evidence item(s) include a file, link, or note."
      "One or more evidence items do not contain reviewable content.",
   check "summary_specificity" "Summary describes a concrete result" summarySpecific
      s!"The summary contains {summaryChars} characters of specific context."
      s!"Add a concrete result to the summary (at least {summaryMinChars} characters; avoid generic phrases).",
   check "concrete_observation" "Evidence includes a reproducible observation" hasObservation
      "At least one evidence note records a concrete observation."
      s!"Add an observation of at least {observationMinChars} characters, including what happened and where."]

/-- `round(passed / len(checks) * 100)`: with four checks this is a whole number of percents. -/
def qualityScore (checks : List QualityCheckItem) : Nat :=
  checks.countP (·.status = .passed) * 100 / checks.length

def buildSubmissionQualityCheck (lower : String → String) (submissionId userId : Uuid) :
    Session QualityCheckRead := do
  let (submission, items) ← getSubmission submissionId userId
  let assignment ← getAssignment submission.assignmentId
  let contractId ← orRaise (.domain "The campaign does not have a testing contract" 409)
    (← query fun db => (db.contractOf assignment.campaignId).map Prod.fst)
  let tasks ← query fun db => sortTasks (db.tasksOf contractId)
  let requiredTaskIds := (tasks.filter (·.2.evidenceRequired)).map Prod.fst
  let checks := qualityChecks lower submission items requiredTaskIds
  let overallStatus : QualityStatus :=
    if submission.status ≠ .submitted then .alreadyReviewed
    else if checks.any (·.status = .flagged) then .needsAttention
    else .readyForReview
  pure
    { submissionId := submissionId
      assignmentId := submission.assignmentId
      submissionVersion := submission.version
      submissionStatus := submission.status
      status := overallStatus
      score := qualityScore checks
      checks
      disclaimer :=
        "Advisory only: this check never approves, rejects, or transfers credits. The campaign owner or a moderator makes the final decision." }

end TestExchange
