import TestExchange.Proof.Audit
import TestExchange.Proof.Funding
import TestExchange.Concurrent.Credits
import TestExchange.Concurrent.Contract
import TestExchange.Concurrent.Capacity
import TestExchange.Concurrent.Exclusion
import TestExchange.Proof.Completion
import TestExchange.Proof.Participation
import TestExchange.Proof.Settlement
import TestExchange.Concurrent.Admission
import TestExchange.Concurrent.Deadlock
import TestExchange.Proof.Evidence
import TestExchange.Proof.Privacy
import TestExchange.Proof.RateLimit
import TestExchange.Proof.Attachments
import TestExchange.Proof.Coverage
import TestExchange.Proof.Drafts
import TestExchange.Proof.Quality
import TestExchange.Proof.Joinable
import TestExchange.Proof.Widths
import TestExchange.Refine.Answers
import TestExchange.Proof.Seats
import TestExchange.Proof.UpToDate
import TestExchange.Proof.Saves
import TestExchange.Concurrent.Waitlist
import TestExchange.Proof.Supply
import TestExchange.Proof.Suspension
import TestExchange.Proof.Failures
import TestExchange.Proof.Authority
import TestExchange.Proof.Progress
import TestExchange.Proof.Views
import TestExchange.Proof.Readers
