import XpuShare.Model.Connection
import XpuShare.Model.System

/-! # The system on the wire

The scheduler and its clients as in `System`, joined by connections that carry bytes. A message
is written by a client in as many steps as the kernel likes, while the thread that writes it
holds the library's `global_mutex`, and read by a client in as many. No system call fails, and
the scheduler gets a message as a whole or waits for it. -/

namespace XpuShare

variable (cfg : Config) (env : Env) (rest : ClientId → ℕ → Message)

structure WireSystem where
  sched : Sched := Sched.init
  lib : ClientId → LibState := fun _ => {}
  up : ClientId → Upstream := fun _ => {}
  down : ClientId → Downstream := fun _ => {}

inductive WireEvent where
  | connect (m : RegisterMsg)
  | enter (c : ClientId)
  | receive (c : ClientId)
  | releaseEarly (c : ClientId) (timedOut idle : Bool)
  | report (c : ClientId) (allocated : ℕ) (sent : Bool)
  | write (c : ClientId) (n : ℕ)
  | read (c : ClientId) (n : ℕ)
  | deliver (c : ClientId) (e : RegisterEnv)
  | timerBegin (x : CtxId)
  | timerEnd (x : CtxId) (timedOut : Bool)
  | annotated (id : ℕ) (memory : Option ℕ) (core : Option ℤ)

/-- The sends of a handler on the connections; `rest` is what the structure that holds the n-th
message to a client has in the fields that this message does not set. -/
def transmit (new : List Sent) (down : ClientId → Downstream) : ClientId → Downstream :=
  new.foldl (fun down x => Function.update down x.dest
    ((down x.dest).put (x.msg.message (rest x.dest (down x.dest).sent.length))
      messageCodec.width)) down

/-- The scheduler handles an event. -/
def WireSystem.schedule (fuel : ℕ) (e : Event) (w : WireSystem) : Option WireSystem :=
  if e.enabled w.sched then
    (handle cfg env fuel e w.sched).map fun s =>
      { w with sched := s, down := transmit rest (s.out.drop w.sched.out.length) w.down }
  else none

/-- The library of `c` goes on to another state, and its thread enters `write_whole` with each
of some messages. -/
def WireSystem.emit (c : ClientId) (r : LibState × List ToScheduler) (w : WireSystem) :
    Option WireSystem :=
  (r.2.foldlM (fun u m => Upstream.begin (m.message (UInt64.ofNat r.1.nvshareClientId)) u)
    (w.up c)).map fun u =>
      { w with lib := Function.update w.lib c r.1, up := Function.update w.up c u }

/-- A thread takes the mutex of `c`, which a thread in `write_whole` holds. -/
def WireSystem.act (c : ClientId) (f : LibState → LibState × List ToScheduler)
    (w : WireSystem) : Option WireSystem :=
  if (w.lib c).gotInitialSchedStatus && (w.up c).writing = [] then w.emit c (f (w.lib c))
  else none

def WireSystem.handle (fuel : ℕ) (e : WireEvent) (w : WireSystem) : Option WireSystem :=
  match e with
  | .connect m => (w.schedule cfg env rest fuel (.accept {})).bind fun t =>
      (Upstream.begin ((ToScheduler.register m).message 0) {}).map fun u =>
        { t with up := Function.update t.up w.sched.nalloc u }
  | .enter c => w.act c continueWithLock
  | .receive c =>
      if (w.up c).writing = [] then
        (w.down c).take.bind fun d =>
          ((messageCodec.decode (w.down c).buffer).clientFn (w.lib c)).bind fun r =>
            { w with down := Function.update w.down c d }.emit c r
      else none
  | .releaseEarly c timedOut idle => w.act c (releaseEarlyFn timedOut idle)
  | .report c allocated sent =>
      if (w.lib c).gotInitialSchedStatus then
        if sent then
          ((w.up c).report ((ToScheduler.memUpdate allocated).message
            (UInt64.ofNat (w.lib c).nvshareClientId)) (.moved messageCodec.width)).map fun u =>
              { w with up := Function.update w.up c u }
        else some w
      else none
  | .write c n => ((w.up c).write (.moved n)).map fun u =>
      { w with up := Function.update w.up c u }
  | .read c n => ((w.down c).read (.moved n)).map fun d =>
      { w with down := Function.update w.down c d }
  | .deliver c e => ((w.up c).receive (.moved messageCodec.width)).bind fun u =>
      WireSystem.schedule cfg env rest fuel
        (.message c ((messageCodec.decode ((w.up c).wire.take messageCodec.width)).fromClient e))
        { w with up := Function.update w.up c u }
  | .timerBegin x => w.schedule cfg env rest fuel (.timerBegin x)
  | .timerEnd x timedOut => w.schedule cfg env rest fuel (.timerEnd x timedOut)
  | .annotated id memory core => w.schedule cfg env rest fuel (.annotated id memory core)

/-- One step of the system. -/
def WireStep (w : WireSystem) (e : WireEvent) (w' : WireSystem) : Prop :=
  ∃ fuel, w.handle cfg env rest fuel e = some w'

/-- The values that an event brings in have the types of the source, and a memory report is not
written into the middle of another message. -/
def WireEvent.Ok (w : WireSystem) : WireEvent → Prop
  | .connect m => m.Fits
  | .report c allocated _ => FitsSize allocated ∧ (w.up c).writing = []
  | .deliver _ e => FitsSize e.generatedId ∧ ∀ n ∈ e.memoryAnnotated, FitsSize n
  | .annotated _ memory _ => ∀ n ∈ memory, FitsSize n
  | _ => True

instance (w : WireSystem) (e : WireEvent) : Decidable (e.Ok w) :=
  match e with
  | .connect m => inferInstanceAs (Decidable m.Fits)
  | .report _ _ _ => inferInstanceAs (Decidable (_ ∧ _))
  | .deliver _ _ => inferInstanceAs (Decidable (_ ∧ _))
  | .annotated _ memory _ => inferInstanceAs (Decidable (∀ n ∈ memory, FitsSize n))
  | .enter _ | .receive _ | .releaseEarly _ _ _ | .write _ _ | .read _ _ | .timerBegin _
  | .timerEnd _ _ => .isTrue trivial

end XpuShare
