import XpuShare.Model.Config

/-! # State of the scheduler

A client record is named by its allocation number: two open connections never share
one, and comparing `fd`s or record addresses in the source compares these numbers. A
freed record keeps its last contents. `accept` gives each connection a record of its own;
`ReuseStep` adds the connections for which `malloc` returns the block of a freed record.
Values of `long` are unbounded integers and `size_t` values naturals that the operations
reduce modulo `sizeMod`; an `int` is an integer, wrapped where the code computes with it. -/

namespace XpuShare

abbrev ClientId := ℕ
abbrev CtxId := ℕ

/-- `NVSHARE_UNREGISTERED_ID`. -/
def unregisteredId : ℕ := 0xF00DF00DF00DF00D

/-- `struct nvshare_client`, without the list link and `last_scheduled_time`, which is
only ever written. -/
structure Client where
  id : ℕ := 0
  podName : String := ""
  podNamespace : String := ""
  context : Option CtxId := none
  memoryAllocated : ℕ := 0
  peakAllocated : ℕ := 0
  isRunning : Bool := false
  memoryLimit : ℕ := 0
  hostPid : ℤ := 0
  coreLimit : ℤ := 0
  runTimeInWindowMs : ℤ := 0
  currentRunStartMs : ℤ := 0
  isThrottled : Bool := false
  pendingDrop : Bool := false
  dropConcurrency : ℤ := 0
  lastDropSentMs : ℤ := 0
  quotaDebtMs : ℤ := 0
  deriving DecidableEq

/-- A client record without its compute-quota fields. -/
def Client.unbilled (r : Client) : Client :=
  { r with
    runTimeInWindowMs := 0, currentRunStartMs := 0, isThrottled := false
    pendingDrop := false, dropConcurrency := 0, lastDropSentMs := 0, quotaDebtMs := 0 }

/-- The part of a client record that scheduling leaves alone: everything except the
compute-quota fields and the run flag. -/
def Client.static (r : Client) : Client := { r.unbilled with isRunning := false }

/-- Variables of a timer thread that survive its wait on `timer_cv`. -/
structure TimerLocals where
  waiting : Bool := false
  minSleepMs : ℤ := 0
  defaultTqMs : ℤ := 0
  deriving DecidableEq

/-- `struct gpu_context` with the locals of its timer thread. A request is the client it
was made for, so the three queues are lists of clients. -/
structure GpuContext where
  uuid : String := ""
  requests : List ClientId := []
  runningList : List ClientId := []
  lockHeld : Bool := false
  mustResetTimer : Bool := false
  totalMemory : ℕ := 0
  availableMemory : ℕ := 0
  runningMemoryUsage : ℕ := 0
  peakMemoryUsage : ℕ := 0
  memoryOverloaded : Bool := false
  waitQueue : List ClientId := []
  windowStartMs : ℤ := 0
  timer : TimerLocals := {}
  deriving DecidableEq

/-- All request entries of a context. -/
def GpuContext.entries (g : GpuContext) : List ClientId :=
  g.requests ++ g.waitQueue ++ g.runningList

/-- The entries of clients that have asked for the lock and have not been granted it. -/
def GpuContext.pending (g : GpuContext) : List ClientId :=
  g.requests ++ g.waitQueue

/-- Messages from the scheduler to a client. `status` is the reply to REGISTER: SCHED_ON or
SCHED_OFF with the generated identifier and the compute limit. -/
inductive ToClient where
  | status (on : Bool) (id : ℕ) (coreLimit : ℤ)
  | schedOn
  | schedOff
  | lockOk
  | dropLock
  | waitForMem
  | memAvailable
  | updateLimit (memoryLimit : ℕ)
  | updateCoreLimit (coreLimit : ℤ)
  deriving DecidableEq

/-- One call of `send_message`. -/
structure Sent where
  dest : ClientId
  msg : ToClient
  ok : Bool
  deriving DecidableEq

/-- What the scheduler cannot influence: the successive readings of the monotonic clock,
and whether the n-th `send_message` succeeds, given its destination. -/
structure Env where
  clock : ℕ → ℤ
  sendOk : ℕ → ClientId → Bool

/-- Every `send_message` succeeds. -/
def Env.AllSent (env : Env) : Prop := ∀ n c, env.sendOk n c = true

/-- Global variables of the scheduler. `client` and `ctx` are the memory that holds the
records, `clients` and the first `nctx` contexts are the linked lists, `nalloc` counts the
records allocated so far, `ticks` the clock readings and `out` lists the sends made. Once
`exited` is set the process has ended. -/
structure Sched where
  clients : List ClientId := []
  client : ClientId → Client := fun _ => {}
  nctx : ℕ := 0
  ctx : CtxId → GpuContext := fun _ => {}
  schedulerOn : Bool := true
  tq : ℤ := 30
  nalloc : ℕ := 0
  ticks : ℕ := 0
  out : List Sent := []
  exited : Bool := false

namespace Sched

/-- The state in which `main` enters its event loop. -/
def init : Sched := {}

def modifyClient (s : Sched) (c : ClientId) (f : Client → Client) : Sched :=
  { s with client := Function.update s.client c (f (s.client c)) }

def modifyCtx (s : Sched) (x : CtxId) (f : GpuContext → GpuContext) : Sched :=
  { s with ctx := Function.update s.ctx x (f (s.ctx x)) }

section Frames

variable (s : Sched) (c d : ClientId) (x y : CtxId) (f : Client → Client)
  (g : GpuContext → GpuContext)

@[simp] theorem modifyClient_clients : (s.modifyClient c f).clients = s.clients := rfl
@[simp] theorem modifyClient_nctx : (s.modifyClient c f).nctx = s.nctx := rfl
@[simp] theorem modifyClient_ctx : (s.modifyClient c f).ctx = s.ctx := rfl
@[simp] theorem modifyClient_schedulerOn :
    (s.modifyClient c f).schedulerOn = s.schedulerOn := rfl
@[simp] theorem modifyClient_tq : (s.modifyClient c f).tq = s.tq := rfl
@[simp] theorem modifyClient_nalloc : (s.modifyClient c f).nalloc = s.nalloc := rfl
@[simp] theorem modifyClient_ticks : (s.modifyClient c f).ticks = s.ticks := rfl
@[simp] theorem modifyClient_out : (s.modifyClient c f).out = s.out := rfl
@[simp] theorem modifyClient_exited : (s.modifyClient c f).exited = s.exited := rfl
theorem modifyClient_client :
    (s.modifyClient c f).client d = if d = c then f (s.client c) else s.client d :=
  Function.update_apply _ _ _ _
@[simp] theorem modifyClient_client_self :
    (s.modifyClient c f).client c = f (s.client c) :=
  Function.update_self _ _ _
@[simp] theorem modifyClient_client_ne (h : d ≠ c) :
    (s.modifyClient c f).client d = s.client d :=
  Function.update_of_ne h _ _

@[simp] theorem modifyCtx_clients : (s.modifyCtx x g).clients = s.clients := rfl
@[simp] theorem modifyCtx_nctx : (s.modifyCtx x g).nctx = s.nctx := rfl
@[simp] theorem modifyCtx_client : (s.modifyCtx x g).client = s.client := rfl
@[simp] theorem modifyCtx_schedulerOn : (s.modifyCtx x g).schedulerOn = s.schedulerOn := rfl
@[simp] theorem modifyCtx_tq : (s.modifyCtx x g).tq = s.tq := rfl
@[simp] theorem modifyCtx_nalloc : (s.modifyCtx x g).nalloc = s.nalloc := rfl
@[simp] theorem modifyCtx_ticks : (s.modifyCtx x g).ticks = s.ticks := rfl
@[simp] theorem modifyCtx_out : (s.modifyCtx x g).out = s.out := rfl
@[simp] theorem modifyCtx_exited : (s.modifyCtx x g).exited = s.exited := rfl
theorem modifyCtx_ctx :
    (s.modifyCtx x g).ctx y = if y = x then g (s.ctx x) else s.ctx y :=
  Function.update_apply _ _ _ _
@[simp] theorem modifyCtx_ctx_self : (s.modifyCtx x g).ctx x = g (s.ctx x) :=
  Function.update_self _ _ _
@[simp] theorem modifyCtx_ctx_ne (h : y ≠ x) : (s.modifyCtx x g).ctx y = s.ctx y :=
  Function.update_of_ne h _ _

end Frames

/-- A change of quota fields only does not show in the rest of any record. -/
theorem modifyClient_unbilled {f : Client → Client} (hf : ∀ r, (f r).unbilled = r.unbilled)
    (s : Sched) (c d : ClientId) :
    ((s.modifyClient c f).client d).unbilled = (s.client d).unbilled := by
  by_cases h : d = c
  · subst h
    simp [hf]
  · simp [h]

end Sched

end XpuShare
