import XpuShare.Model.Client

/-! # The scheduler and its clients

One scheduler and any number of clients, each joined to it by a stream socket: messages
arrive in the order in which they were sent, in both directions. A step is one piece of one
thread of one process. No connection is lost and nobody runs `nvsharectl`. -/

namespace XpuShare

variable (cfg : Config) (env : Env)

/-- The messages to `c` among some sends. -/
def messagesTo (c : ClientId) (sent : List Sent) : List ToClient :=
  (sent.filter (·.dest = c)).map Sent.msg

/-- Everything the scheduler has sent to `c` so far, in order. -/
def Sched.sentTo (s : Sched) (c : ClientId) : List ToClient := messagesTo c s.out

/-- The scheduler, the library of each client, what each client has sent and the scheduler
has not read, and how many messages each client has read. Only proofs look at `grantedBy`,
the position among the messages to a client of the LOCK_OK that the client handled last. -/
structure System where
  sched : Sched := Sched.init
  lib : ClientId → LibState := fun _ => {}
  toSched : ClientId → List ToScheduler := fun _ => []
  received : ClientId → ℕ := fun _ => 0
  grantedBy : ClientId → ℕ := fun _ => 0

/-- The messages on their way to a client. -/
def System.toClient (y : System) (c : ClientId) : List ToClient :=
  (y.sched.sentTo c).drop (y.received c)

/-- A message as the scheduler reads it; `e` is what the system returns to REGISTER. -/
def ToScheduler.received (e : RegisterEnv) : ToScheduler → FromClient
  | .register m => .register m e
  | .reqLock => .reqLock
  | .lockReleased => .lockReleased
  | .memUpdate v => .memUpdate v

inductive SystemEvent where
  | connect (m : RegisterMsg)
  | enter (c : ClientId)
  | receive (c : ClientId)
  | releaseEarly (c : ClientId) (timedOut idle : Bool)
  | report (c : ClientId) (allocated : ℕ) (sent : Bool)
  | deliver (c : ClientId) (e : RegisterEnv)
  | timerBegin (x : CtxId)
  | timerEnd (x : CtxId) (timedOut : Bool)
  | annotated (id : ℕ) (memory : Option ℕ) (core : Option ℤ)

/-- The scheduler handles an event. -/
def System.schedule (fuel : ℕ) (e : Event) (y : System) : Option System :=
  if e.enabled y.sched then (handle cfg env fuel e y.sched).map fun s => { y with sched := s }
  else none

/-- The library of `c` goes on to another state and sends some messages. -/
def System.emit (c : ClientId) (r : LibState × List ToScheduler) (y : System) : System :=
  { y with
    lib := Function.update y.lib c r.1
    toSched := Function.update y.toSched c (y.toSched c ++ r.2) }

/-- A step of a thread that `initialize_client` starts, or lets go on, once the library has
got its initial status. -/
def System.act (c : ClientId) (f : LibState → LibState × List ToScheduler) (y : System) :
    Option System :=
  if (y.lib c).gotInitialSchedStatus then some (y.emit c (f (y.lib c))) else none

/-- The state after an event, `none` if it cannot occur or does not end. A new connection
has a zeroed record and REGISTER on its way. -/
def System.handle (fuel : ℕ) (e : SystemEvent) (y : System) : Option System :=
  match e with
  | .connect m => (y.schedule cfg env fuel (.accept {})).map fun t =>
      { t with toSched := Function.update t.toSched y.sched.nalloc [.register m] }
  | .enter c => y.act c continueWithLock
  | .receive c =>
      match y.toClient c with
      | [] => none
      | m :: _ => (clientFn m (y.lib c)).map fun r =>
          { y.emit c r with
            received := Function.update y.received c (y.received c + 1)
            grantedBy := if m = .lockOk then Function.update y.grantedBy c (y.received c)
              else y.grantedBy }
  | .releaseEarly c timedOut idle => y.act c (releaseEarlyFn timedOut idle)
  | .report c allocated sent =>
      y.act c fun r => (r, reportMemoryUsageToScheduler allocated sent)
  | .deliver c e =>
      match y.toSched c with
      | [] => none
      | m :: rest => System.schedule cfg env fuel (.message c (m.received e))
          { y with toSched := Function.update y.toSched c rest }
  | .timerBegin x => y.schedule cfg env fuel (.timerBegin x)
  | .timerEnd x timedOut => y.schedule cfg env fuel (.timerEnd x timedOut)
  | .annotated id memory core => y.schedule cfg env fuel (.annotated id memory core)

/-- One step of the system. -/
def SystemStep (y : System) (e : SystemEvent) (y' : System) : Prop :=
  ∃ fuel, y.handle cfg env fuel e = some y'

end XpuShare
