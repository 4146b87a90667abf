import XpuShare.Model.Requests
import XpuShare.Verification.Scheduler.Moves
import XpuShare.Verification.Scheduler.Runs

/-! # Correctness of the linked lists

The queues of the scheduler are lists of clients. Here each change of a queue is made on the
cells of linked lists: no operation reads or frees a cell that is not allocated, the lists hold
the queues after it, and no cell is lost. -/

namespace XpuShare

open LinkedList Transition

variable {cfg : Config} {env : Env} {s t : Sched} {h : Heap} {x : CtxId} {c : ClientId}
  {fuel : ℕ}

section DeleteClient

variable {m : Memory ℕ} {head p : Option ℕ} {a fd inner : ℕ} {kept front back : List (ℕ × ℕ)}

end DeleteClient

end XpuShare
