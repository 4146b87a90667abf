import XpuShare.Model.Client

/-! # The early release of an idle lock

`release_early_fn` with the clock it waits on, among the other threads of the library. Every
event is one critical section of `global_mutex`, at a time that is not before the last one. -/

namespace XpuShare

/-- `release_early_check_interval`, in nanoseconds. -/
def releaseEarlyCheckInterval : ℤ := 5 * 10 ^ 9

/-- What a run leaves behind: threads that passed `continue_with_lock`, messages that granted
the lock and locks given back by `release_early_fn`, with their times. -/
inductive Deed where
  | passed (t : ℤ)
  | lockOk (t : ℤ)
  | released (t : ℤ)
  deriving DecidableEq

/-- The time of a deed that keeps the lock from being given back. -/
def Deed.work? : Deed → Option ℤ
  | .passed t | .lockOk t => some t
  | .released _ => none

/-- The library with its clock and `timer_end_ts`, which `release_early_fn` sets when it
enters its loop. Only proofs look at `log`. -/
structure TimedLib where
  lib : LibState := {}
  clock : ℤ
  timerEnd : Option ℤ := none
  log : List Deed := []
  deriving DecidableEq

/-- `wake` is a return of the wait of `release_early_fn`, at time `now`. If it leads to an early
release, the message is sent at time `sent`; if it leads to the beginning of the loop, the
clock is read there at time `next`. -/
inductive TimedEvent where
  | start (now : ℤ)
  | pass (now : ℤ)
  | receive (m : ToClient) (now : ℤ)
  | wake (timedOut idle : Bool) (now sent next : ℤ)

namespace TimedLib

/-- The first pass through the beginning of the loop of `release_early_fn`. -/
def start (now : ℤ) (s : TimedLib) : TimedLib :=
  { s with
    lib := { s.lib with didWork := false }
    clock := now
    timerEnd := some (now + releaseEarlyCheckInterval) }

def pass (now : ℤ) (s : TimedLib) : TimedLib :=
  { s with
    lib := (continueWithLock s.lib).1
    clock := now
    log := s.log ++ if s.lib.ownLock then [.passed now] else [] }

def receive (m : ToClient) (now : ℤ) (s : TimedLib) : Option TimedLib :=
  (clientFn m s.lib).map fun q =>
    { s with
      lib := q.1
      clock := now
      log := s.log ++ if m = .lockOk then [.lockOk now] else [] }

/-- The deadline stands if the thread goes back to `wait_remainder`. -/
def wake (timedOut idle : Bool) (sent next : ℤ) (s : TimedLib) : TimedLib :=
  let q := releaseEarlyFn timedOut idle s.lib
  { lib := q.1
    clock := next
    timerEnd :=
      if timedOut || s.lib.didWork then some (next + releaseEarlyCheckInterval) else s.timerEnd
    log := s.log ++ q.2.map fun _ => .released sent }

/-- The wait can return: it times out at or after its deadline only, but may be woken up at
any time. -/
def canWake (timedOut : Bool) (now : ℤ) (s : TimedLib) : Bool :=
  match s.timerEnd with
  | some deadline => !timedOut || deadline ≤ now
  | none => false

/-- The state after an event, `none` if it cannot occur or the process exits. -/
def handle (s : TimedLib) (e : TimedEvent) : Option TimedLib :=
  match e with
  | .start now => if s.clock ≤ now ∧ s.timerEnd = none then some (s.start now) else none
  | .pass now => if s.clock ≤ now then some (s.pass now) else none
  | .receive m now => if s.clock ≤ now then s.receive m now else none
  | .wake timedOut idle now sent next =>
      if s.canWake timedOut now ∧ s.clock ≤ now ∧ now ≤ sent ∧ sent ≤ next then
        some (s.wake timedOut idle sent next)
      else none

end TimedLib

end XpuShare
