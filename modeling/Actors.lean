import Actors.Life.Session
import Actors.Links.Session
import Actors.Mailbox.Session
import Actors.Proofs.Acceptance
import Actors.Proofs.Cascade
import Actors.Proofs.History
import Actors.Scenario
import Actors.Settings
import Actors.Term.Equality
import Actors.Proofs.Course
import Actors.Proofs.Waiting
import Actors.Proofs.Waking
import Actors.Proofs.Heed
import Actors.Proofs.Notice
import Actors.Proofs.Driving
import Actors.Proofs.Preemption
import Actors.Proofs.FinalReason
import Actors.Proofs.Schedule
import Actors.Proofs.Sealing
import Actors.Proofs.Bond
import Actors.Proofs.Supervision
import Actors.Proofs.Ownership
import Actors.Proofs.Finality
import Actors.Proofs.Absence
import Actors.Proofs.Screening
import Actors.Proofs.Tame
import Actors.Proofs.Delivery
import Actors.Proofs.Queueing
import Actors.Proofs.Sharing
import Actors.Proofs.Creation
import Actors.Proofs.Timing
import Actors.Proofs.Setback
import Actors.Proofs.Biography
import Actors.Proofs.Numbering
import Actors.Proofs.Membership
import Actors.Proofs.Likeness
import Actors.Proofs.Rounds
