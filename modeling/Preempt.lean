import Preempt.Proofs.Accounting
import Preempt.Proofs.Accuracy
import Preempt.Proofs.Alarms
import Preempt.Proofs.Bequests
import Preempt.Proofs.BootLine
import Preempt.Proofs.Consistency
import Preempt.Proofs.Creation
import Preempt.Proofs.Detachment
import Preempt.Proofs.Exclusion
import Preempt.Proofs.Fairness
import Preempt.Proofs.Fallback
import Preempt.Proofs.Guards
import Preempt.Proofs.Handover
import Preempt.Proofs.Levels
import Preempt.Proofs.Loans
import Preempt.Proofs.Mirroring
import Preempt.Proofs.Names
import Preempt.Proofs.Overruns
import Preempt.Proofs.Quotients
import Preempt.Proofs.Reclamation
import Preempt.Proofs.Registration
import Preempt.Proofs.Rendering
import Preempt.Proofs.Repayment
import Preempt.Proofs.Reports
import Preempt.Proofs.RoundRobin
import Preempt.Proofs.Stamps
import Preempt.Proofs.Wakeups
