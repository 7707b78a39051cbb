import TestExchange.Model.Enums
import TestExchange.Model.Entities

/-!
# Request bodies

The bodies of the requests that change something, with what their schemas do to
them: every string loses its surrounding whitespace, then lengths, ranges and
patterns are checked. `parse` does both; a body that does not pass is answered
before any service runs.

Integers that a schema bounds below by zero or one are natural numbers here. What
pydantic reads as an `HttpUrl` it writes in a normal form of its own; a body carries
both the text and that form.
-/

namespace TestExchange

/-- The characters pydantic strips: Unicode `White_Space`. -/
def isWhitespace (c : Char) : Bool :=
  let n := c.toNat
  (9 ≤ n && n ≤ 13) || n = 32 || n = 133 || n = 160 || n = 5760 || (8192 ≤ n && n ≤ 8202)
    || n = 8232 || n = 8233 || n = 8239 || n = 8287 || n = 12288

/-- `str_strip_whitespace`. -/
def strip (s : String) : String :=
  String.ofList ((s.toList.dropWhile isWhitespace).reverse.dropWhile isWhitespace).reverse

/-- `str.isspace`: Unicode whitespace and the four ASCII separators. -/
def isSpace (c : Char) : Bool := isWhitespace c || (28 ≤ c.toNat && c.toNat ≤ 31)

/-- `str.strip()` -/
def stripSpaces (cs : List Char) : List Char :=
  ((cs.dropWhile isSpace).reverse.dropWhile isSpace).reverse

/-- `min_length` and `max_length`. -/
def lengthWithin (lo hi : Nat) (s : String) : Bool := lo ≤ s.length && s.length ≤ hi

/-- `max_length` of an optional string. -/
def optionalWithin (hi : Nat) : Option String → Bool
  | none => true
  | some s => s.length ≤ hi

/--
A text that pydantic reads as an `HttpUrl`. A text that is none is refused like an
identifier that is none, and never becomes a body.
-/
structure HttpUrl where
  /-- The text as sent. -/
  text : String
  /--
  `str` of the URL, which is what gets stored. It is normalised: characters that a URL
  cannot hold become percent escapes, so it may be several times as long as the text.
  -/
  str : String
  scheme : "http://".toList <+: str.toList ∨ "https://".toList <+: str.toList
  deriving DecidableEq

/-- The `max_length` of `HttpUrl` bounds the text as sent, in bytes. -/
def urlWithin : Option HttpUrl → Bool
  | none => true
  | some url => url.text.utf8ByteSize ≤ 2083

/-- `ge` and `le`. -/
def within (lo hi n : Nat) : Bool := lo ≤ n && n ≤ hi

/-- `^[a-zA-Z0-9_-]+$` -/
def isUsername (s : String) : Bool :=
  s.length ≠ 0 && s.toList.all fun c =>
    c.isAlphanum || c = '_' || c = '-'

/-- `[a-z0-9]` -/
def isSlugChar (c : Char) : Bool := c.isLower || c.isDigit

/-- `^[a-z0-9]+(?:-[a-z0-9]+)*$`, with `between` telling whether a hyphen may come next. -/
def isSlugFrom (between : Bool) : List Char → Bool
  | [] => between
  | c :: cs => if isSlugChar c then isSlugFrom true cs else c = '-' && between && isSlugFrom false cs

def isSlug (s : String) : Bool := isSlugFrom false s.toList

structure ProfileUpsert where
  username : String
  displayName : String
  bio : Option String := none
  avatarUrl : Option HttpUrl := none

def ProfileUpsert.parse (p : ProfileUpsert) : Option ProfileUpsert :=
  let q : ProfileUpsert :=
    { username := strip p.username, displayName := strip p.displayName, bio := p.bio.map strip,
      avatarUrl := p.avatarUrl }
  if lengthWithin 3 40 q.username && isUsername q.username && lengthWithin 1 100 q.displayName
      && optionalWithin 500 q.bio && urlWithin q.avatarUrl
  then some q else none

structure WaitlistCreate where
  email : String

/-- `value.rpartition("@")`, or `none` if there is no separator. -/
def rpartitionAt (cs : List Char) : Option (List Char × List Char) :=
  if '@' ∈ cs then
    some (((cs.reverse.dropWhile (· ≠ '@')).drop 1).reverse,
      (cs.reverse.takeWhile (· ≠ '@')).reverse)
  else none

/-- The schema with its `validate_email`, where `lower` is `str.lower`. -/
def WaitlistCreate.validateEmail (lower : String → String) (p : WaitlistCreate) :
    Option WaitlistCreate :=
  let email := strip p.email
  let normalized := lower (String.ofList (stripSpaces email.toList))
  match rpartitionAt normalized.toList with
  | none => none
  | some (localPart, domain) =>
      if lengthWithin 5 320 email && !localPart.isEmpty && '.' ∈ domain && domain.head? ≠ some '.'
      then some ⟨normalized⟩ else none

/-- Letters outside ASCII keep their case here. -/
def WaitlistCreate.parse (p : WaitlistCreate) : Option WaitlistCreate :=
  p.validateEmail String.toLower

structure ParticipantSuspension where
  reason : String

def ParticipantSuspension.parse (p : ParticipantSuspension) : Option ParticipantSuspension :=
  let reason := strip p.reason
  if lengthWithin 10 500 reason then some ⟨reason⟩ else none

structure CampaignCreate where
  name : String
  slug : String
  platform : Platform
  category : String
  publicSummary : String
  publicTesterRequirements : String
  minimumVersion : Option String := none
  targetTesters : Nat
  rewardCredits : Nat

def CampaignCreate.parse (p : CampaignCreate) : Option CampaignCreate :=
  let q : CampaignCreate :=
    { p with
      name := strip p.name, slug := strip p.slug, category := strip p.category,
      publicSummary := strip p.publicSummary,
      publicTesterRequirements := strip p.publicTesterRequirements,
      minimumVersion := p.minimumVersion.map strip }
  if lengthWithin 2 120 q.name && lengthWithin 3 140 q.slug && isSlug q.slug
      && lengthWithin 2 80 q.category && lengthWithin 20 800 q.publicSummary
      && lengthWithin 10 800 q.publicTesterRequirements && optionalWithin 80 q.minimumVersion
      && within 1 100 q.targetTesters && within 1 1000 q.rewardCredits
  then some q else none

/--
A field of a patch body: absent, or present with a value that may be `null`.
`model_dump(exclude_unset=True)` keeps the present ones.
-/
abbrev PatchField (α : Type) := Option (Option α)

/-- The value of a present, non-null field satisfies `p`. -/
def PatchField.all {α : Type} (p : α → Bool) : PatchField α → Bool
  | some (some a) => p a
  | _ => true

structure CampaignUpdate where
  name : PatchField String := none
  category : PatchField String := none
  publicSummary : PatchField String := none
  publicTesterRequirements : PatchField String := none
  minimumVersion : PatchField String := none
  targetTesters : PatchField Nat := none
  rewardCredits : PatchField Nat := none

def CampaignUpdate.parse (p : CampaignUpdate) : Option CampaignUpdate :=
  let q : CampaignUpdate :=
    { p with
      name := p.name.map (·.map strip), category := p.category.map (·.map strip),
      publicSummary := p.publicSummary.map (·.map strip),
      publicTesterRequirements := p.publicTesterRequirements.map (·.map strip),
      minimumVersion := p.minimumVersion.map (·.map strip) }
  if q.name.all (lengthWithin 2 120) && q.category.all (lengthWithin 2 80)
      && q.publicSummary.all (lengthWithin 20 800)
      && q.publicTesterRequirements.all (lengthWithin 10 800)
      && q.minimumVersion.all (lengthWithin 0 80) && q.targetTesters.all (within 1 100)
      && q.rewardCredits.all (within 1 1000)
  then some q else none

structure ContractTaskInput where
  title : String
  instructions : String
  evidenceRequired : Bool := true

def ContractTaskInput.strip (t : ContractTaskInput) : ContractTaskInput :=
  { t with title := TestExchange.strip t.title, instructions := TestExchange.strip t.instructions }

def ContractTaskInput.ok (t : ContractTaskInput) : Bool :=
  lengthWithin 2 160 t.title && lengthWithin 10 4000 t.instructions

structure ContractUpsert where
  testerInstructions : String
  accessInstructions : Option String := none
  deviceRequirements : Option String := none
  evidenceRequirements : String
  reviewWindowHours : Nat := 72
  minimumDurationDays : Nat := 0
  requiredSessions : Nat := 1
  tasks : List ContractTaskInput

def ContractUpsert.parse (p : ContractUpsert) : Option ContractUpsert :=
  let q : ContractUpsert :=
    { p with
      testerInstructions := strip p.testerInstructions,
      accessInstructions := p.accessInstructions.map strip,
      deviceRequirements := p.deviceRequirements.map strip,
      evidenceRequirements := strip p.evidenceRequirements,
      tasks := p.tasks.map ContractTaskInput.strip }
  if lengthWithin 20 8000 q.testerInstructions && optionalWithin 4000 q.accessInstructions
      && optionalWithin 4000 q.deviceRequirements && lengthWithin 10 4000 q.evidenceRequirements
      && within 1 720 q.reviewWindowHours && within 0 90 q.minimumDurationDays
      && within 1 30 q.requiredSessions && within 1 25 q.tasks.length
      && q.tasks.all ContractTaskInput.ok
  then some q else none

structure CampaignLaunch where
  campaign : CampaignCreate
  contract : ContractUpsert

def CampaignLaunch.parse (p : CampaignLaunch) : Option CampaignLaunch :=
  match p.campaign.parse, p.contract.parse with
  | some campaign, some contract => some ⟨campaign, contract⟩
  | _, _ => none

structure AssignmentApply where
  applicationNote : Option String := none

def AssignmentApply.parse (p : AssignmentApply) : Option AssignmentApply :=
  let note := p.applicationNote.map strip
  if optionalWithin 1000 note then some ⟨note⟩ else none

structure TestingSessionCreate where
  note : Option String := none

def TestingSessionCreate.parse (p : TestingSessionCreate) : Option TestingSessionCreate :=
  let note := p.note.map strip
  if optionalWithin 1000 note then some ⟨note⟩ else none

structure EvidenceItemCreate where
  taskId : Option Uuid := none
  kind : EvidenceKind
  storageKey : Option String := none
  externalUrl : Option HttpUrl := none
  note : Option String := none

def EvidenceItemCreate.strip (e : EvidenceItemCreate) : EvidenceItemCreate :=
  { e with
    storageKey := e.storageKey.map TestExchange.strip, note := e.note.map TestExchange.strip }

def EvidenceItemCreate.ok (e : EvidenceItemCreate) : Bool :=
  optionalWithin 500 e.storageKey && urlWithin e.externalUrl && optionalWithin 8000 e.note

structure SubmissionCreate where
  summary : String
  items : List EvidenceItemCreate

def SubmissionCreate.parse (p : SubmissionCreate) : Option SubmissionCreate :=
  let q : SubmissionCreate :=
    { summary := strip p.summary, items := p.items.map EvidenceItemCreate.strip }
  if lengthWithin 20 8000 q.summary && within 1 50 q.items.length
      && q.items.all EvidenceItemCreate.ok
  then some q else none

structure MessageCreate where
  body : String

def MessageCreate.parse (p : MessageCreate) : Option MessageCreate :=
  let body := strip p.body
  if lengthWithin 1 4000 body then some ⟨body⟩ else none

structure ReviewCreate where
  decision : ReviewDecision
  notes : String

def ReviewCreate.parse (p : ReviewCreate) : Option ReviewCreate :=
  let notes := strip p.notes
  if lengthWithin 5 8000 notes then some { p with notes } else none

structure DisputeCreate where
  submissionId : Option Uuid := none
  reason : String

def DisputeCreate.parse (p : DisputeCreate) : Option DisputeCreate :=
  let reason := strip p.reason
  if lengthWithin 20 8000 reason then some { p with reason } else none

structure DisputeResolve where
  outcome : DisputeOutcome
  remedy : DisputeRemedy := .none
  resolution : String

/-- `validate_remedy`: a rejected dispute cannot apply a remedy. -/
def DisputeResolve.parse (p : DisputeResolve) : Option DisputeResolve :=
  let resolution := strip p.resolution
  if lengthWithin 20 8000 resolution && !(p.outcome = .rejected && p.remedy ≠ .none)
  then some { p with resolution } else none

/-- What the validator of `DisputeResolve` guarantees to the service. -/
theorem DisputeResolve.parse_remedy {p q : DisputeResolve} (h : p.parse = some q)
    (ho : q.outcome = .rejected) : q.remedy = .none := by
  unfold DisputeResolve.parse at h
  dsimp only at h
  split at h
  · rename_i hc
    have hq := Option.some.inj h
    subst hq
    dsimp only at ho ⊢
    rw [ho, Bool.and_eq_true] at hc
    simpa using hc.2
  · exact absurd h (by simp)

end TestExchange
