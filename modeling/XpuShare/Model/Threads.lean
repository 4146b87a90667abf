import XpuShare.Model.System

/-! # The threads of the applications

Every application may have several threads in `continue_with_lock`. A thread that finds the
lock missing sleeps on `own_lock_cv` until somebody broadcasts it, or for no reason at all
less long, and then takes the mutex and looks again. -/

namespace XpuShare

variable (cfg : Config) (env : Env)

/-- A thread of an application: outside of `continue_with_lock`, asleep in
`pthread_cond_wait`, or woken and waiting for the mutex. -/
inductive Waiter where
  | away
  | asleep
  | woken
  deriving DecidableEq

/-- `pthread_cond_broadcast`, as one of the threads sees it. -/
def Waiter.broadcast : Waiter → Waiter
  | .asleep => .woken
  | w => w

/-- Whether `client_fn` broadcasts `own_lock_cv` on a message. -/
def ToClient.broadcasts (m : ToClient) (r : LibState) : Bool :=
  match m with
  | .lockOk => r.gotInitialSchedStatus
  | .schedOff | .status false _ _ => r.gotInitialSchedStatus && r.schedulerOn
  | _ => false

/-- The system and the threads of each client. -/
structure ThreadedSystem where
  system : System := {}
  waiter : ClientId → ℕ → Waiter := fun _ _ => .away

inductive ThreadEvent where
  | call (c : ClientId) (i : ℕ)
  | resume (c : ClientId) (i : ℕ)
  | spuriousWakeup (c : ClientId) (i : ℕ)
  | system (e : SystemEvent)

namespace ThreadedSystem

/-- A pass of thread `i` of `c` through the loop of `continue_with_lock`. -/
def pass (fuel : ℕ) (c : ClientId) (i : ℕ) (z : ThreadedSystem) : Option ThreadedSystem :=
  (z.system.handle cfg env fuel (.enter c)).map fun y =>
    { system := y
      waiter := Function.update z.waiter c (Function.update (z.waiter c) i
        (if (z.system.lib c).ownLock then .away else .asleep)) }

/-- The threads after `client_fn` of `c` has handled the next message. -/
def notified (c : ClientId) (z : ThreadedSystem) : ClientId → ℕ → Waiter :=
  match z.system.toClient c with
  | [] => z.waiter
  | m :: _ =>
      if m.broadcasts (z.system.lib c) then
        Function.update z.waiter c fun i => (z.waiter c i).broadcast
      else z.waiter

/-- The state after an event, `none` if it cannot occur or does not end. -/
def handle (fuel : ℕ) (e : ThreadEvent) (z : ThreadedSystem) : Option ThreadedSystem :=
  match e with
  | .call c i => if z.waiter c i = .away then z.pass cfg env fuel c i else none
  | .resume c i => if z.waiter c i = .woken then z.pass cfg env fuel c i else none
  | .spuriousWakeup c i =>
      if z.waiter c i = .asleep then
        some { z with
          waiter := Function.update z.waiter c (Function.update (z.waiter c) i .woken) }
      else none
  | .system (.enter _) => none
  | .system (.receive c) => (z.system.handle cfg env fuel (.receive c)).map fun y =>
      { system := y, waiter := z.notified c }
  | .system e => (z.system.handle cfg env fuel e).map fun y => { z with system := y }

end ThreadedSystem

/-- One step of the system or of a thread. -/
def ThreadStep (z : ThreadedSystem) (e : ThreadEvent) (z' : ThreadedSystem) : Prop :=
  ∃ fuel, z.handle cfg env fuel e = some z'

end XpuShare
