import XpuShare.Verification.Queues.Correctness
import XpuShare.Verification.Queues.Progress
import XpuShare.Verification.Isolation.Correctness
import XpuShare.Verification.Accounting.Correctness
import XpuShare.Verification.Accounting.Oversubscription
import XpuShare.Verification.Serial.Correctness
import XpuShare.Verification.Removal.Correctness
import XpuShare.Verification.Switching.Correctness
import XpuShare.Verification.Timer.Correctness
import XpuShare.Verification.Agreement.Correctness
import XpuShare.Verification.Submission.Correctness
import XpuShare.Verification.Reporting.Correctness
import XpuShare.Verification.Annotations.Correctness
import XpuShare.Verification.Identity.Correctness
import XpuShare.Verification.Promotion.Correctness
import XpuShare.Verification.Removal.Drained
import XpuShare.Verification.Billing.Correctness
import XpuShare.Verification.Window.Correctness
import XpuShare.Verification.Sharing.Correctness
import XpuShare.Verification.Initialization.Correctness
import XpuShare.Verification.Quota.Correctness
import XpuShare.Verification.MemorySize.Correctness
import XpuShare.Verification.MemoryLimit.Correctness
import XpuShare.Verification.Preference.Correctness
import XpuShare.Verification.Extraction.Correctness
import XpuShare.Verification.Notice.Correctness
import XpuShare.Verification.Enforcement.Correctness
import XpuShare.Verification.EventBatch.Correctness
import XpuShare.Verification.Pacing.Correctness
import XpuShare.Verification.EarlyRelease.Correctness
import XpuShare.Verification.Decay.Correctness
import XpuShare.Verification.Peaks.Correctness
import XpuShare.Verification.Spinning.Correctness
import XpuShare.Verification.SafeLimit.Correctness
import XpuShare.Verification.Deadline.Correctness
import XpuShare.Verification.Metrics.Correctness
import XpuShare.Verification.Transport.Refinement
import XpuShare.Verification.Control.Correctness
import XpuShare.Verification.Requests.Correctness
import XpuShare.Verification.Terms.Correctness
import XpuShare.Verification.Exclusion.Correctness
import XpuShare.Verification.Threads.Correctness
import XpuShare.Verification.Quantum.Correctness
import XpuShare.Model.Swapping
import XpuShare.Verification.Swapping.Correctness
