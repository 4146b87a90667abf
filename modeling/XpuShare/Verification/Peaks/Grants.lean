import XpuShare.Verification.Accounting.Tallied
import XpuShare.Verification.Scheduler.Moves
import XpuShare.Verification.Scheduler.Runs

/-! # Grants within the recorded peak

`try_schedule` adds the memory of the client it grants the lock to the running total of the
context, and leaves the recorded peak of that total alone. Which totals the grants of an
event can lead to is read off the state before the event: those who run, the total, and
those who wait, who may be admitted one after the other as the memory test allows. -/

namespace XpuShare

open Transition

/-- Who runs on a context, what the running total is and who waits when the handler of an
event begins to grant the lock there. -/
structure Standing where
  running : List ClientId
  usage : ℕ
  pending : List ClientId

/-- The standing of a context as it is. -/
def standingNow (s : Sched) (x : CtxId) : Standing :=
  ⟨(s.ctx x).runningList, (s.ctx x).runningMemoryUsage, (s.ctx x).pending⟩

/-- The standing after a request of `c`, which is queued unless one stands there already. -/
def standingAsked (s : Sched) (x : CtxId) (c : ClientId) : Standing :=
  { standingNow s x with
    pending := if c ∈ (s.ctx x).requests then (s.ctx x).pending else (s.ctx x).pending ++ [c] }

/-- The standing after the last entry of the running list, that of `c`, has been taken out.
While others run, nobody is granted the lock when `c` leaves. -/
def standingLeft (s : Sched) (x : CtxId) (c : ClientId) : Option Standing :=
  if (s.ctx x).runningList.erase c = [] then
    some ⟨[], if c ∈ (s.ctx x).runningList then
        memoryAfter (s.ctx x) (s.client c).memoryAllocated
      else (s.ctx x).runningMemoryUsage, (s.ctx x).pending⟩
  else none

/-- The standing from which the handler of an event grants the lock on context `x`, if the
event makes it schedule there. A registration schedules when its reply cannot be sent. -/
def Event.standing (s : Sched) (x : CtxId) : Event → Option Standing
  | .message c .reqLock =>
      if (s.client c).context = some x then some (standingAsked s x c) else none
  | .message c .lockReleased | .disconnect c =>
      if (s.client c).context = some x then standingLeft s x c else none
  | .message c (.register _ _) =>
      if (s.client c).context = some x ∨ (s.client c).context = none then standingLeft s x c
      else none
  | .timerBegin y => if y = x then some (standingNow s x) else none
  | _ => none

/-- The memory of the clients in a list. -/
def memoryOf (s : Sched) (l : List ClientId) : ℕ := (l.map (memories s)).sum

/-- The memory test of `can_run` on `c`, at a given running total and lock flag. -/
def admittedAt (cfg : Config) (s : Sched) (x : CtxId) (c : ClientId) (usage : ℕ)
    (lock : Bool) : Bool :=
  canRunWithMemory cfg
    (s.modifyCtx x fun g => { g with runningMemoryUsage := usage, lockHeld := lock }) x c

namespace Standing

variable (p : Standing) (cfg : Config) (s : Sched) (x : CtxId)

/-- The entries of running clients that have another entry among the pending ones. -/
def again : List ClientId := p.running.filter (· ∈ p.pending)

/-- The entries of running clients that have none, and run on whatever is granted. -/
def staying : List ClientId := p.running.filter (· ∉ p.pending)

/-- The part of the running total that is left without the clients that run and wait. -/
def base : ℕ := p.usage - memoryOf s p.again

/-- The entries whose memory may come to the running total or go from it. -/
def movable : List ClientId := p.again ++ p.pending

/-- The running total fits in `size_t` and covers the clients that run and wait. Whenever the
memory test admits one of the waiting clients beside any others of them, the total with its
memory is at most the recorded peak. -/
def Ample : Prop :=
  memoryOf s p.again ≤ p.usage ∧ p.usage + memoryOf s p.pending < sizeMod ∧
    ∀ l ∈ p.movable.sublists, ∀ c ∈ l,
      admittedAt cfg s x c (p.base s + memoryOf s (l.erase c))
          !(p.staying ++ l.erase c).isEmpty = true →
        p.base s + memoryOf s l ≤ (s.ctx x).peakMemoryUsage

instance : Decidable (p.Ample cfg s x) := by
  unfold Ample
  infer_instance

end Standing

/-- Whatever the handler of the event may grant stays within the recorded peaks. -/
def GrantsWithinPeaks (cfg : Config) (s : Sched) (e : Event) : Prop :=
  ∀ x < s.nctx, ∀ p ∈ e.standing s x, p.Ample cfg s x

instance (cfg : Config) (s : Sched) : DecidablePred (GrantsWithinPeaks cfg s) := fun _ =>
  inferInstanceAs (Decidable (∀ x < s.nctx, _))

/-- Connections with zeroed records, REGISTER, REQ_LOCK, LOCK_RELEASED, MEM_UPDATE, lost
connections and timers. -/
def PeakEvent : Event → Prop
  | .accept garbage => garbage = {}
  | .message _ (.register _ _) | .message _ .reqLock | .message _ .lockReleased
  | .message _ (.memUpdate _) => True
  | .disconnect _ | .timerBegin _ | .timerEnd _ _ => True
  | _ => False

instance : DecidablePred PeakEvent
  | .accept garbage => inferInstanceAs (Decidable (garbage = {}))
  | .message _ (.register _ _) | .message _ .reqLock | .message _ .lockReleased
  | .message _ (.memUpdate _) => .isTrue trivial
  | .disconnect _ | .timerBegin _ | .timerEnd _ _ => .isTrue trivial
  | .message _ .schedOn | .message _ .schedOff | .message _ (.setTq _) | .message _ .unknown
  | .annotated _ _ _ => .isFalse id

/-- A step of the scheduler on such an event. -/
def PeakStep (cfg : Config) (env : Env) (s : Sched) (e : Event) (t : Sched) : Prop :=
  PeakEvent e ∧ Step cfg env s e t

/-- Such an event in a state in which its grants stay within the peaks. -/
def FittingEvent (cfg : Config) (s : Sched) (e : Event) : Prop :=
  PeakEvent e ∧ GrantsWithinPeaks cfg s e

instance (cfg : Config) (s : Sched) : DecidablePred (FittingEvent cfg s) := fun _ =>
  inferInstanceAs (Decidable (_ ∧ _))

end XpuShare
