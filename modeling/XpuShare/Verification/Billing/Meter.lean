import XpuShare.Verification.Scheduler.Blocks

/-! # A meter on the scheduler

The meter follows the control flow of every function and records, for each client, what
`accrue_running_usage`, the throttling step and `remove_req` add to its run time, and how
long it has been in a running list. A stay is measured from the reading that `try_schedule`
takes right after it has linked the client to the reading that `remove_req` takes right
before it unlinks the client. -/

namespace XpuShare

variable (cfg : Config) (env : Env)

/-- For each client an amount of billed time and an amount of time in running lists. -/
abbrev Meter := ClientId → ℤ × ℤ

/-- What has been added to the run times of the clients from `s` to `t`. -/
def added (s t : Sched) : Meter :=
  fun c => ((t.client c).runTimeInWindowMs - (s.client c).runTimeInWindowMs, 0)

/-- A stay of `c` that begins at `time`; the end of the stay is added when it comes. -/
def entering (c : ClientId) (time : ℤ) : Meter := Pi.single c (0, -time)

/-- The end of a stay of `c`. -/
def leaving (c : ClientId) (time : ℤ) : Meter := Pi.single c (0, time)

/-! ## Scheduling -/

def freshWindowMeter (x : CtxId) (s : Sched) : Meter :=
  let now := currentTimeMs env s
  let begun := s.tick.modifyCtx x fun g => { g with windowStartMs := now }
  if windowExpired cfg (s.ctx x) now then added begun (accrueRunningUsage x now none begun) else 0

/-- The loop of `check_wait_queue`, over what is left of the queue. -/
def checkWaitQueueMeterFrom (x : CtxId) : List ClientId → Sched → Meter
  | [], _ => 0
  | c :: back, s =>
      freshWindowMeter cfg env x s +
        if (canRun cfg env x c s).1 then 0
        else checkWaitQueueMeterFrom x back (canRun cfg env x c s).2

def checkWaitQueueMeter (x : CtxId) (s : Sched) : Meter :=
  checkWaitQueueMeterFrom cfg env x (s.ctx x).waitQueue s

def leaveRunningMeter (x : CtxId) (c : ClientId) (s : Sched) : Meter :=
  if c ∈ (s.ctx x).runningList then
    added s (releaseRunning cfg env x c s) + leaving c (currentTimeMs env s)
  else 0

/-- `remove_req`, given the meter of the `try_schedule` it calls. -/
def removeReqMeter (schedule : CtxId → Sched → Meter) (c : ClientId) (s : Sched) : Meter :=
  match (s.client c).context with
  | none => 0
  | some x =>
      let left := leaveRunning cfg env x c s
      leaveRunningMeter cfg env x c s +
        if (left.ctx x).runningList = [] then
          checkWaitQueueMeter cfg env x left + schedule x (checkWaitQueue cfg env x left)
        else 0

def grantMeter (x : CtxId) (c : ClientId) (s : Sched) : Meter :=
  let settled := settleRunners env x s
  added s settled + entering c (currentTimeMs env settled)

def refillMeter (x : CtxId) (s : Sched) : Meter :=
  if (s.ctx x).requests = [] then checkWaitQueueMeter cfg env x s else 0

def tryScheduleMeter : ℕ → CtxId → Sched → Meter
  | 0, _, _ => 0
  | fuel + 1, x, s =>
      let refilled := refill cfg env x s
      refillMeter cfg env x s +
        match (refilled.ctx x).requests with
        | [] => 0
        | c :: _ =>
            let fresh := freshWindow cfg env x refilled
            freshWindowMeter cfg env x refilled +
              if canRunTest cfg fresh x c then
                let sent := sendMessage env c .lockOk fresh
                if sendSucceeds env c fresh then
                  grantMeter env x c sent +
                    if cfg.schedulingMode = .serial then 0
                    else tryScheduleMeter fuel x (grant env x c sent)
                else
                  removeReqMeter cfg env (tryScheduleMeter fuel) c sent +
                    ((deleteClient cfg env (trySchedule cfg env fuel) c sent).map
                      (tryScheduleMeter fuel x)).getD 0
              else tryScheduleMeter fuel x (moveToWaitQueue env x c fresh)

/-! ## Handlers -/

/-- `delete_client`, which bills nobody after `remove_req`. -/
def deleteClientMeter (fuel : ℕ) (c : ClientId) (s : Sched) : Meter :=
  removeReqMeter cfg env (tryScheduleMeter cfg env fuel) c s

def bcastClientMeter (fuel : ℕ) (s : Sched) (c : ClientId) : Meter :=
  if c ∈ s.clients ∧ hasRegistered s c = true ∧ sendSucceeds env c s = false then
    deleteClientMeter cfg env fuel c
      (sendMessage env c (if s.schedulerOn then .schedOn else .schedOff) s)
  else 0

/-- The loop of `bcast_status`. -/
def bcastFromMeter (fuel : ℕ) : List ClientId → List ClientId → Sched → Meter
  | _, [], _ => 0
  | linked, c :: rest, s =>
      if c ∉ linked then bcastFromMeter fuel linked rest s
      else bcastClientMeter cfg env fuel s c +
        ((bcastClient cfg env fuel s c).map (bcastFromMeter fuel s.clients rest)).getD 0

def bcastStatusMeter (fuel : ℕ) (s : Sched) : Meter :=
  bcastFromMeter cfg env fuel s.clients s.clients s

def scheduleIfFreeMeter (fuel : ℕ) (x : CtxId) (s : Sched) : Meter :=
  if (s.ctx x).lockHeld then 0 else tryScheduleMeter cfg env fuel x s

def reqLockMeter (fuel : ℕ) (c : ClientId) (s : Sched) : Meter :=
  match (s.client c).context with
  | none => deleteClientMeter cfg env fuel c s
  | some x =>
      let queued := insertReq c s
      if cfg.schedulingMode = .serial ∧ (queued.ctx x).lockHeld then 0
      else tryScheduleMeter cfg env fuel x queued

def lockReleasedMeter (fuel : ℕ) (c : ClientId) (s : Sched) : Meter :=
  match (s.client c).context with
  | none => deleteClientMeter cfg env fuel c s
  | some x =>
      removeReqMeter cfg env (tryScheduleMeter cfg env fuel) c s +
        ((removeReq cfg env (trySchedule cfg env fuel) c s).map
          (scheduleIfFreeMeter cfg env fuel x)).getD 0

def processMsgMeter (fuel : ℕ) (c : ClientId) (m : FromClient) (s : Sched) : Meter :=
  match m with
  | .register m e =>
      if (registerClient cfg env c m e s).1 then 0
      else deleteClientMeter cfg env fuel c (registerClient cfg env c m e s).2
  | .schedOn =>
      if s.schedulerOn then 0
      else bcastStatusMeter cfg env fuel { s with schedulerOn := true }
  | .schedOff =>
      if s.schedulerOn then
        bcastStatusMeter cfg env fuel { s with schedulerOn := false }
      else 0
  | .reqLock =>
      if !hasRegistered s c then deleteClientMeter cfg env fuel c s
      else if s.schedulerOn then reqLockMeter cfg env fuel c s
      else 0
  | .lockReleased =>
      if !hasRegistered s c then deleteClientMeter cfg env fuel c s
      else if s.schedulerOn then lockReleasedMeter cfg env fuel c s
      else 0
  | .setTq _ | .memUpdate _ | .unknown => 0

def disconnectMeter (fuel : ℕ) (c : ClientId) (s : Sched) : Meter :=
  deleteClientMeter cfg env fuel c s +
    ((deleteClient cfg env (trySchedule cfg env fuel) c s).map fun deleted =>
      match (s.client c).context with
      | none => 0
      | some x => if deleted.schedulerOn then scheduleIfFreeMeter cfg env fuel x deleted
          else 0).getD 0

def timerBeginMeter (fuel : ℕ) (x : CtxId) (s : Sched) : Meter :=
  let checked := checkAndResetWindow cfg env x s
  freshWindowMeter cfg env x s +
    if checked.1 then tryScheduleMeter cfg env fuel x checked.2 else 0

/-- Of the two loops after the wait of a timer only the first adds to run times. -/
def timerEndMeter (x : CtxId) (s : Sched) : Meter := added s (enforceLimits cfg env x s)

/-- What the meter records while an event is handled. -/
def handleMeter (fuel : ℕ) (e : Event) (s : Sched) : Meter :=
  match e with
  | .message c m => processMsgMeter cfg env fuel c m s
  | .disconnect c => disconnectMeter cfg env fuel c s
  | .timerBegin x => timerBeginMeter cfg env fuel x s
  | .timerEnd x _ => timerEndMeter cfg env x s
  | .accept _ | .annotated _ _ _ => 0

/-- One admitted step of the scheduler with what the meter records. -/
def MeteredStep (ok : Sched → Event → Prop) (s : Sched) (m : Meter) (t : Sched) : Prop :=
  ∃ e, ok s e ∧ e.enabled s = true ∧
    ∃ fuel, handle cfg env fuel e s = some t ∧ m = handleMeter cfg env fuel e s

/-! ## Exhibiting metered runs -/

/-- Handling one event and recording what the meter shows, if the event is possible and
admitted. -/
def tryMetered (ok : Sched → Event → Prop) [∀ s, DecidablePred (ok s)] (fuel : ℕ)
    (p : Meter × Sched) (e : Event) : Option (Meter × Sched) :=
  if ok p.2 e ∧ e.enabled p.2 = true then
    (handle cfg env fuel e p.2).map fun t => (p.1 + handleMeter cfg env fuel e p.2, t)
  else none

theorem tryMetered_step {cfg env} {ok : Sched → Event → Prop} [∀ s, DecidablePred (ok s)]
    {fuel : ℕ} {p q : Meter × Sched} {e : Event} (h : tryMetered cfg env ok fuel p e = some q) :
    ∃ n, MeteredStep cfg env ok p.2 n q.2 ∧ q.1 = p.1 + n := by
  unfold tryMetered at h
  split at h
  · rename_i hok
    rw [Option.map_eq_some_iff] at h
    obtain ⟨t, ht, rfl⟩ := h
    exact ⟨_, ⟨e, hok.1, hok.2, fuel, ht, rfl⟩, rfl⟩
  · cases h

/-- A list of events leads to a state and a sum of amounts with a property that can be
evaluated. -/
theorem exists_metered (ok : Sched → Event → Prop) [∀ s, DecidablePred (ok s)] (fuel : ℕ)
    (events : List Event) (P : Meter → Sched → Prop) [∀ m, DecidablePred (P m)]
    (h : (Transition.execute (tryMetered cfg env ok fuel) events (0, Sched.init)).any
      (fun p => P p.1 p.2) = true) :
    ∃ m s, Transition.Accumulates (MeteredStep cfg env ok) Sched.init m s ∧ P m s := by
  rw [Option.any_eq_true] at h
  obtain ⟨⟨m, s⟩, hs, hP⟩ := h
  refine ⟨m, s, ?_, of_decide_eq_true hP⟩
  refine (Transition.Reaches.of_execute (fun _ _ _ => tryMetered_step) hs).invariant
    (I := fun p => Transition.Accumulates _ Sched.init p.1 p.2) ?_ (.refl _)
  rintro p e q ⟨n, hstep, hsum⟩ hp
  rw [hsum]
  exact hp.tail hstep

end XpuShare
