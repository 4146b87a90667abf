import XpuShare.Verification.Queues.Termination

/-! # Calls that grant nobody the lock

When nobody runs, `remove_req` looks twice at everybody who waits: `check_wait_queue` asks
`can_run` for the clients in `wait_queue`, then `try_schedule` for those in `requests`, which
it sets aside one by one, and once `requests` is empty for all of them again. If all are
refused the call returns without a LOCK_OK. Otherwise a LOCK_OK is sent, and if the sends keep
failing the calls of `delete_client` and `try_schedule` nest without end. -/

namespace XpuShare

variable {cfg : Config} {env : Env} {x : CtxId} {s t : Sched} {c d : ClientId}
  {l : List ClientId}

/-- The environment in which sends turn out as given. -/
def Env.sending (env : Env) (sendOk : ℕ → ClientId → Bool) : Env := { env with sendOk := sendOk }

/-- `can_run` refuses the clients of a list, asked one after the other. -/
def refusesAll (cfg : Config) (env : Env) (x : CtxId) : List ClientId → Sched → Bool
  | [], _ => true
  | c :: l, s => !(canRun cfg env x c s).1 && refusesAll cfg env x l (canRun cfg env x c s).2

theorem refusesAll_cons (c : ClientId) (l : List ClientId) (s : Sched) :
    refusesAll cfg env x (c :: l) s = true ↔
      (canRun cfg env x c s).1 = false ∧
        refusesAll cfg env x l (canRun cfg env x c s).2 = true := by
  simp [refusesAll]

/-- The answers do not depend on the messages. -/
theorem refusesAll_sending (sendOk : ℕ → ClientId → Bool) (l : List ClientId) (s : Sched) :
    refusesAll cfg (env.sending sendOk) x l s = refusesAll cfg env x l s := by
  induction l generalizing s with
  | nil => rfl
  | cons c l ih =>
      rw [refusesAll, refusesAll, ih]
      rfl

/-- The order of questions when nobody is granted the lock: the waiting clients, those with a
request, and all of them again. -/
def rounds (g : GpuContext) : List ClientId :=
  g.waitQueue ++ g.requests ++ (g.waitQueue ++ g.requests)

/-! ## The queues do not matter to the answers -/

/-- The state without the queues of a context and without messages. -/
def Sched.unqueued (x : CtxId) (s : Sched) : Sched :=
  { s.modifyCtx x (fun g => { g with requests := [], waitQueue := [] }) with
    out := [], exited := false }

theorem accrueRunningUsage_unqueued (x : CtxId) (now : ℤ) (exclude : Option ClientId)
    (s : Sched) : accrueRunningUsage x now exclude (s.unqueued x) =
      (accrueRunningUsage x now exclude s).unqueued x := by
  have hrunning : ((s.unqueued x).ctx x).runningList = (s.ctx x).runningList := by
    simp [Sched.unqueued]
  have hcount : countRunningClients (s.unqueued x) x = countRunningClients s x := by
    rw [countRunningClients, countRunningClients, hrunning]
    rfl
  rw [accrueRunningUsage, accrueRunningUsage, hrunning, hcount]
  refine List.foldl_hom (Sched.unqueued x) fun u d => ?_
  unfold accrueClient
  simp only
  rw [apply_ite (Sched.unqueued x)]
  rfl

theorem startWindow_unqueued (x : CtxId) (start : ℤ) (s : Sched) :
    ((s.unqueued x).modifyCtx x fun g => { g with windowStartMs := start }) =
      (s.modifyCtx x fun g => { g with windowStartMs := start }).unqueued x := by
  simp [Sched.unqueued, Sched.modifyCtx]

theorem resetWindow_unqueued (cfg : Config) (x : CtxId) (now : ℤ) (s : Sched) :
    resetWindow cfg x now (s.unqueued x) = (resetWindow cfg x now s).unqueued x := by
  unfold resetWindow
  simp only [startWindow_unqueued, accrueRunningUsage_unqueued]
  refine List.foldl_hom (Sched.unqueued x) fun u d => ?_
  unfold resetClient
  simp only
  rw [apply_ite (Sched.unqueued x)]
  rfl

theorem freshWindow_unqueued (cfg : Config) (env : Env) (x : CtxId) (s : Sched) :
    freshWindow cfg env x (s.unqueued x) = (freshWindow cfg env x s).unqueued x := by
  have hat : windowStartAt ((s.unqueued x).ctx x) (currentTimeMs env s) =
      windowStartAt (s.ctx x) (currentTimeMs env s) := by
    simp [windowStartAt, Sched.unqueued]
  have hexpired : windowExpired cfg ((s.unqueued x).ctx x) (currentTimeMs env s) =
      windowExpired cfg (s.ctx x) (currentTimeMs env s) := by
    rw [windowExpired, windowExpired, hat]
  have hnow : currentTimeMs env (s.unqueued x) = currentTimeMs env s := rfl
  rw [freshWindow, freshWindow, checkAndResetWindow, checkAndResetWindow, hnow, hexpired]
  by_cases hover : windowExpired cfg (s.ctx x) (currentTimeMs env s) = true
  · rw [if_pos hover, if_pos hover]
    exact resetWindow_unqueued cfg x _ s.tick
  · rw [if_neg hover, if_neg hover]
    calc ((s.unqueued x).tick.modifyCtx x fun g =>
          { g with windowStartMs := windowStartAt g (currentTimeMs env s) })
        = (s.tick.unqueued x).modifyCtx x fun g =>
            { g with
              windowStartMs := windowStartAt ((s.unqueued x).ctx x) (currentTimeMs env s) } := rfl
      _ = _ := by
          rw [hat, startWindow_unqueued]
          rfl

theorem canRunTest_unqueued (s : Sched) (c : ClientId) :
    canRunTest cfg (s.unqueued x) x c = canRunTest cfg s x c := by
  have hmemory : canRunWithMemory cfg (s.unqueued x) x c = canRunWithMemory cfg s x c := by
    apply canRunWithMemory_congr <;> simp [Sched.unqueued]
  rw [canRunTest, canRunTest, hmemory]
  rfl

theorem refusesAll_unqueued (l : List ClientId) (s : Sched) :
    refusesAll cfg env x l (s.unqueued x) = refusesAll cfg env x l s := by
  induction l generalizing s with
  | nil => rfl
  | cons c l ih =>
      simp only [refusesAll, canRun, freshWindow_unqueued, canRunTest_unqueued, ih]

/-- What is answered only depends on the state without the queues. -/
theorem canRunTest_congr (h : t.unqueued x = s.unqueued x) (c : ClientId) :
    canRunTest cfg t x c = canRunTest cfg s x c := by
  rw [← canRunTest_unqueued, h, canRunTest_unqueued]

theorem refusesAll_congr (h : t.unqueued x = s.unqueued x) (l : List ClientId) :
    refusesAll cfg env x l t = refusesAll cfg env x l s := by
  rw [← refusesAll_unqueued, h, refusesAll_unqueued]

theorem moveToWaitQueue_unqueued (env : Env) (x : CtxId) (c : ClientId) (s : Sched) :
    (moveToWaitQueue env x c s).unqueued x = s.unqueued x := by
  unfold moveToWaitQueue
  simp only
  split
  · rfl
  · split <;> simp [Sched.unqueued, Sched.modifyCtx, sendMessage]

theorem promote_unqueued (env : Env) (x : CtxId) (front : List ClientId) (c : ClientId)
    (back : List ClientId) (s : Sched) :
    (promote env x front c back s).unqueued x = s.unqueued x := by
  simp [promote, Sched.unqueued, Sched.modifyCtx, sendMessage]

theorem sendMessage_unqueued (env : Env) (x : CtxId) (c : ClientId) (m : ToClient) (s : Sched) :
    (sendMessage env c m s).unqueued x = s.unqueued x := rfl

/-! ## Everybody is refused -/

/-- The state after questions that nobody was admitted on: the window has been checked as
often. -/
def asked (cfg : Config) (env : Env) (x : CtxId) (l : List ClientId) (s : Sched) : Sched :=
  l.foldl (fun u c => (canRun cfg env x c u).2) s

theorem refusesAll_append (l l' : List ClientId) (s : Sched) :
    refusesAll cfg env x (l ++ l') s =
      (refusesAll cfg env x l s && refusesAll cfg env x l' (asked cfg env x l s)) := by
  induction l generalizing s with
  | nil => rfl
  | cons c l ih =>
      simp only [List.cons_append, refusesAll, ih, Bool.and_assoc]
      rfl

theorem asked_path (cfg : Config) (env : Env) (x : CtxId) (l : List ClientId) (s : Sched) :
    Path cfg env nobody x s (asked cfg env x l s) := by
  induction l generalizing s with
  | nil => exact Relation.ReflTransGen.refl
  | cons c l ih =>
      have hwindow : Block cfg env nobody x s (canRun cfg env x c s).2 := .window s
      exact hwindow.path.trans (ih _)

theorem asked_table (cfg : Config) (env : Env) (x : CtxId) (l : List ClientId) (s : Sched) :
    ((asked cfg env x l s).ctx x).table = (s.ctx x).table := by
  induction l generalizing s with
  | nil => rfl
  | cons c l ih => exact (ih _).trans (freshWindow_effect cfg env x s).table_eq

theorem checkWaitQueueFrom_of_refused {front back : List ClientId}
    (h : refusesAll cfg env x back s = true) :
    checkWaitQueueFrom cfg env x front back s = asked cfg env x back s := by
  induction back generalizing front s with
  | nil => rfl
  | cons c back ih =>
      obtain ⟨hno, hrest⟩ := (refusesAll_cons c back s).mp h
      rw [checkWaitQueueFrom, if_neg (by simp [hno])]
      exact ih hrest

/-- Requests are set aside one by one, and the call returns. -/
theorem trySchedule_of_refused (hnodup : (s.ctx x).requests.Nodup)
    (hapart : ∀ d ∈ (s.ctx x).requests, d ∉ (s.ctx x).waitQueue)
    (h : refusesAll cfg env x
      ((s.ctx x).requests ++ ((s.ctx x).waitQueue ++ (s.ctx x).requests)) s = true) :
    ∃ n t, trySchedule cfg env n x s = some t ∧ Path cfg env nobody x s t ∧
      (t.ctx x).runningList = (s.ctx x).runningList := by
  induction hreq : (s.ctx x).requests generalizing s with
  | nil =>
      rw [hreq, List.nil_append, List.append_nil] at h
      have hrefill : refill cfg env x s = asked cfg env x (s.ctx x).waitQueue s := by
        rw [refill, if_pos hreq]
        exact checkWaitQueueFrom_of_refused h
      have htable := asked_table cfg env x (s.ctx x).waitQueue s
      have hnil : ((asked cfg env x (s.ctx x).waitQueue s).ctx x).requests = [] :=
        (congrArg LockTable.requests htable).trans hreq
      exact ⟨1, _, trySchedule_of_nil hrefill hnil, asked_path cfg env x _ s,
        congrArg LockTable.running htable⟩
  | cons c rest ih =>
      have hrefill : refill cfg env x s = s := by
        rw [refill, if_neg (by rw [hreq]; exact List.cons_ne_nil c rest)]
      rw [hreq] at h hnodup hapart
      obtain ⟨hno, hrest⟩ := (refusesAll_cons c _ s).mp h
      have hwindow : Block cfg env nobody x s (freshWindow cfg env x s) := .window s
      have hreqf : ((freshWindow cfg env x s).ctx x).requests = c :: rest := by
        rw [freshWindow_requests, hreq]
      have hwaitf : c ∉ ((freshWindow cfg env x s).ctx x).waitQueue := by
        rw [freshWindow_waitQueue]
        exact hapart c List.mem_cons_self
      have hdefer : Block cfg env nobody x _ _ := .defer _ c rest hreqf hno hwaitf
      have htable := deferred_table cfg env hreq (hapart c List.mem_cons_self)
      have hsame := moveToWaitQueue_unqueued env x c (freshWindow cfg env x s)
      have hpass := fun n => trySchedule_of_defer (n := n) hrefill hreq rfl hno
      generalize moveToWaitQueue env x c (freshWindow cfg env x s) = m
        at htable hdefer hsame hpass
      have hreqm : (m.ctx x).requests = rest := congrArg LockTable.requests htable
      have hwaitm : (m.ctx x).waitQueue = (s.ctx x).waitQueue ++ [c] :=
        congrArg LockTable.waiting htable
      have hrunm : (m.ctx x).runningList = (s.ctx x).runningList :=
        congrArg LockTable.running htable
      obtain ⟨hc, hnodup⟩ := List.nodup_cons.mp hnodup
      have hapartm : ∀ d ∈ (m.ctx x).requests, d ∉ (m.ctx x).waitQueue := by
        intro d hd
        rw [hreqm] at hd
        rw [hwaitm, List.mem_append, List.mem_singleton, not_or]
        refine ⟨hapart d (List.mem_cons_of_mem c hd), ?_⟩
        rintro rfl
        exact hc hd
      have hrefm : refusesAll cfg env x
          ((m.ctx x).requests ++ ((m.ctx x).waitQueue ++ (m.ctx x).requests)) m = true := by
        rw [hreqm, hwaitm, refusesAll_congr hsame, List.append_assoc, List.singleton_append]
        exact hrest
      obtain ⟨n, t, ht, hpath, hrun⟩ := ih (hreqm ▸ hnodup) hapartm hrefm hreqm
      exact ⟨n + 1, t, by rw [hpass, ht], (hwindow.path.trans hdefer.path).trans hpath,
        hrun.trans hrunm⟩

/-- Somebody has two requests, or one and a place in the wait queue. -/
def Clashes (g : GpuContext) : Prop :=
  ¬ g.requests.Nodup ∨ ∃ d ∈ g.requests, d ∈ g.waitQueue

theorem not_clashes {g : GpuContext} :
    ¬ Clashes g ↔ g.requests.Nodup ∧ ∀ d ∈ g.requests, d ∉ g.waitQueue := by
  simp only [Clashes, not_or, not_not, not_exists, not_and]

/-- So it does after a scan of the wait queue that promotes nobody. -/
theorem trySchedule_after_refusals (hidle : (s.ctx x).runningList = [])
    (hnodup : (s.ctx x).requests.Nodup)
    (hapart : ∀ d ∈ (s.ctx x).requests, d ∉ (s.ctx x).waitQueue)
    (h : refusesAll cfg env x (rounds (s.ctx x)) s = true) :
    ∃ n t, trySchedule cfg env n x (checkWaitQueue cfg env x s) = some t ∧
      Path cfg env nobody x s t ∧ (t.ctx x).runningList = [] := by
  rw [rounds, List.append_assoc, refusesAll_append, Bool.and_eq_true] at h
  obtain ⟨hscan, hloop⟩ := h
  have hcheck : checkWaitQueue cfg env x s = asked cfg env x (s.ctx x).waitQueue s :=
    checkWaitQueueFrom_of_refused hscan
  have htable := asked_table cfg env x (s.ctx x).waitQueue s
  have hpath := asked_path cfg env x (s.ctx x).waitQueue s
  rw [hcheck]
  generalize asked cfg env x (s.ctx x).waitQueue s = m at hloop htable hpath
  have hreq : (m.ctx x).requests = (s.ctx x).requests := congrArg LockTable.requests htable
  have hwait : (m.ctx x).waitQueue = (s.ctx x).waitQueue := congrArg LockTable.waiting htable
  have hrun : (m.ctx x).runningList = (s.ctx x).runningList := congrArg LockTable.running htable
  rw [← hreq] at hnodup
  rw [← hreq, ← hwait] at hapart hloop
  obtain ⟨n, t, ht, hpath', hrun'⟩ := trySchedule_of_refused hnodup hapart hloop
  exact ⟨n, t, ht, hpath.trans hpath', hrun'.trans (hrun.trans hidle)⟩

/-! ## Somebody is admitted, and every send fails -/

/-- Nobody runs on the context, and those who wait there have joined it and have not been
billed less than nothing. -/
structure Stranded (x : CtxId) (s : Sched) : Prop where
  belongs : Belongs x s
  paid : ∀ c ∈ (s.ctx x).pending, 0 ≤ (s.client c).runTimeInWindowMs
  idle : (s.ctx x).runningList = []

theorem Stranded.path {D : Exits} (hs : Stranded x s) (h : Path cfg env D x s t)
    (hidle : (t.ctx x).runningList = []) : Stranded x t := by
  refine ⟨hs.belongs.path h, ?_, hidle⟩
  refine h.invariant (I := fun u => ∀ c ∈ (u.ctx x).pending, 0 ≤ (u.client c).runTimeInWindowMs)
    (fun u v hb hu c hc => ?_) hs.paid
  exact hb.nonneg (hu c (hb.pending_subset hc))

theorem Stranded.notMem (hs : Stranded x s) (c : ClientId) : c ∉ (s.ctx x).runningList := by
  rw [hs.idle]
  exact List.not_mem_nil

/-- A client that may run is not refused later on. -/
theorem refusesAll_of_mem (hs : Stranded x s) (hc : c ∈ l) (hp : c ∈ (s.ctx x).pending)
    (hok : canRunTest cfg s x c = true) : refusesAll cfg env x l s = false := by
  induction l generalizing s with
  | nil => cases hc
  | cons d l ih =>
      have hfresh : canRunTest cfg (freshWindow cfg env x s) x c = true :=
        canRunTest_fresh (hs.notMem c) (hs.paid c hp) hok
      rw [← Bool.not_eq_true, refusesAll_cons]
      rintro ⟨hno, hrest⟩
      rcases List.mem_cons.mp hc with rfl | hc
      · have hyes : (canRun cfg env x c s).1 = true := hfresh
        rw [hyes] at hno
        cases hno
      · have hwindow : Block cfg env nobody x s (canRun cfg env x d s).2 := .window s
        have hnext : Stranded x (canRun cfg env x d s).2 := by
          refine hs.path hwindow.path ?_
          rw [← hs.idle]
          exact freshWindow_runningList cfg env x s
        have hpending : c ∈ ((canRun cfg env x d s).2.ctx x).pending := by
          simpa [canRun, GpuContext.pending] using hp
        rw [ih hnext hc hpending hfresh] at hrest
        cases hrest

/-- `try_schedule` either comes to send a LOCK_OK or turns around on a request that stays at
the head. -/
def Doomed (cfg : Config) (env : Env) (x : CtxId) (s : Sched) : Prop :=
  Clashes (s.ctx x) ∨ refusesAll cfg env x
    ((s.ctx x).requests ++ ((s.ctx x).waitQueue ++ (s.ctx x).requests)) s = false

theorem doomed_of_mem (hs : Stranded x s) (hp : c ∈ (s.ctx x).pending)
    (hok : canRunTest cfg s x c = true) : Doomed cfg env x s := by
  refine Or.inr (refusesAll_of_mem hs ?_ hp hok)
  rcases List.mem_append.mp hp with hreq | hwait
  · exact List.mem_append_left _ hreq
  · exact List.mem_append_right _ (List.mem_append_left _ hwait)

/-- The scan of the wait queue promotes a client that may run. -/
theorem checkWaitQueueFrom_of_admitted (front : List ClientId) {back : List ClientId}
    (h : refusesAll cfg env x back s = false) :
    ∃ e, ((checkWaitQueueFrom cfg env x front back s).ctx x).requests =
        e :: (s.ctx x).requests ∧
      canRunTest cfg (checkWaitQueueFrom cfg env x front back s) x e = true := by
  induction back generalizing front s with
  | nil => cases h
  | cons c back ih =>
      rw [checkWaitQueueFrom]
      by_cases hok : (canRun cfg env x c s).1 = true
      · rw [if_pos hok]
        refine ⟨c, by simp [promote, canRun], ?_⟩
        rw [canRunTest_congr (promote_unqueued env x front c back _)]
        exact hok
      · rw [if_neg hok]
        have hrest : refusesAll cfg env x back (canRun cfg env x c s).2 = false := by
          rw [Bool.not_eq_true] at hok
          simpa [refusesAll, hok] using h
        obtain ⟨e, hreq, hyes⟩ := ih (front ++ [c]) hrest
        exact ⟨e, hreq.trans (by simp [canRun]), hyes⟩

/-- The scan of the wait queue leaves everybody admissible who was. -/
theorem checkWaitQueueFrom_admissible (front : List ClientId) {back : List ClientId}
    (hs : Stranded x s) (hwait : (s.ctx x).waitQueue = front ++ back)
    (hp : c ∈ (s.ctx x).pending) (hok : canRunTest cfg s x c = true) :
    c ∈ ((checkWaitQueueFrom cfg env x front back s).ctx x).pending ∧
      canRunTest cfg (checkWaitQueueFrom cfg env x front back s) x c = true := by
  induction back generalizing front s with
  | nil => exact ⟨hp, hok⟩
  | cons d back ih =>
      have hfresh : canRunTest cfg (freshWindow cfg env x s) x c = true :=
        canRunTest_fresh (hs.notMem c) (hs.paid c hp) hok
      have hwindow : Block cfg env nobody x s (canRun cfg env x d s).2 := .window s
      have hpending : ((canRun cfg env x d s).2.ctx x).pending = (s.ctx x).pending := by
        simp [canRun, GpuContext.pending]
      rw [checkWaitQueueFrom]
      split
      · refine ⟨?_, ?_⟩
        · rw [← hpending, GpuContext.pending, List.mem_append] at hp
          have hsame : ((canRun cfg env x d s).2.ctx x).waitQueue = front ++ d :: back := by
            simpa [canRun] using hwait
          rw [hsame] at hp
          simp only [promote, GpuContext.pending, sendMessage_ctx, Sched.modifyCtx_ctx_self,
            List.mem_append, List.mem_cons] at hp ⊢
          tauto
        · rw [canRunTest_congr (promote_unqueued env x front d back _)]
          exact hfresh
      · refine ih (front ++ [d]) (hs.path hwindow.path ?_) ?_ (hpending ▸ hp) hfresh
        · rw [← hs.idle]
          exact freshWindow_runningList cfg env x s
        · simpa [canRun] using hwait

theorem checkWaitQueueFrom_running (front back : List ClientId) (s : Sched) :
    ((checkWaitQueueFrom cfg env x front back s).ctx x).runningList =
      (s.ctx x).runningList := by
  induction back generalizing front s with
  | nil => rfl
  | cons c back ih =>
      rw [checkWaitQueueFrom]
      split
      · simp [promote, canRun]
      · rw [ih]
        exact freshWindow_runningList cfg env x s

theorem Stranded.checkWaitQueue (hs : Stranded x s) :
    Stranded x (checkWaitQueue cfg env x s) :=
  hs.path (D := nobody) (checkWaitQueue_path s)
    ((checkWaitQueueFrom_running [] _ s).trans hs.idle)

theorem Stranded.block {D : Exits} (hs : Stranded x s) (h : Block cfg env D x s t)
    (hidle : (t.ctx x).runningList = (s.ctx x).runningList) : Stranded x t :=
  hs.path h.path (hidle.trans hs.idle)

/-- The scan of the wait queue dooms the loop when somebody in it may run. -/
theorem doomed_of_admitted (hs : Stranded x s)
    (h : refusesAll cfg env x (s.ctx x).waitQueue s = false) :
    Doomed cfg env x (checkWaitQueue cfg env x s) := by
  obtain ⟨e, hreq, hok⟩ := checkWaitQueueFrom_of_admitted [] h
  refine doomed_of_mem hs.checkWaitQueue ?_ hok
  exact List.mem_append_left _ (hreq ▸ List.mem_cons_self)

/-- So does a client in any queue that may run. -/
theorem doomed_of_admissible (cfg : Config) (env : Env) (hs : Stranded x s)
    (hp : c ∈ (s.ctx x).pending) (hok : canRunTest cfg s x c = true) :
    Doomed cfg env x (checkWaitQueue cfg env x s) := by
  obtain ⟨hp', hok'⟩ := checkWaitQueueFrom_admissible [] hs rfl hp hok
  exact doomed_of_mem hs.checkWaitQueue hp' hok'

theorem canRunTest_clearLock (h : canRunTest cfg s x c = true) :
    canRunTest cfg (clearLock x s) x c = true := by
  unfold clearLock
  split
  · rw [canRunTest, Bool.and_eq_true] at h ⊢
    refine ⟨h.1, ?_⟩
    have hmemory := h.2
    unfold canRunWithMemory at hmemory ⊢
    simp only [Sched.modifyCtx_ctx_self, Sched.modifyCtx_client, Bool.not_false] at hmemory ⊢
    split
    · rfl
    · rename_i hover
      rw [if_neg hover] at hmemory
      cases hmode : cfg.schedulingMode with
      | serial => rfl
      | concurrent =>
          rw [hmode] at hmemory
          exact hmemory
      | auto => simp
  · exact h

/-- Deleting a client that may run starts the loop again before the client has left the
queues. -/
theorem deleteClient_doomed {schedule : CtxId → Sched → Option Sched} (hs : Stranded x s)
    (hp : c ∈ (s.ctx x).pending) (hok : canRunTest cfg s x c = true)
    (hschedule : ∀ u, Stranded x u → Doomed cfg env x u → schedule x u = none) :
    deleteClient cfg env schedule c s = none := by
  have hctx : (s.client c).context = some x := hs.belongs c (mem_entries_iff.mpr (Or.inl hp))
  have hleft : leaveRunning cfg env x c s = clearLock x s :=
    leaveRunning_of_notMem cfg env (hs.notMem c)
  have htable := (clearLock_effect x s).table_eq
  have hidle : ((clearLock x s).ctx x).runningList = (s.ctx x).runningList :=
    congrArg LockTable.running htable
  have hleave : Block cfg env anyone x s (clearLock x s) := hleft ▸ .leave s c trivial
  have hs' := hs.block hleave hidle
  have hp' : c ∈ ((clearLock x s).ctx x).pending := by
    have hpending : ((clearLock x s).ctx x).pending = (s.ctx x).pending :=
      congrArg (fun table : LockTable ClientId => table.requests ++ table.waiting) htable
    rw [hpending]
    exact hp
  have hnone := hschedule _ hs'.checkWaitQueue
    (doomed_of_admissible cfg env hs' hp' (canRunTest_clearLock hok))
  simp only [deleteClient, removeReq, hctx, hleft, if_pos hs'.idle, hnone, Option.map_none,
    Option.bind_none]

/-- Setting a request aside saves nobody. -/
theorem Doomed.defer (env : Env) (hs : Stranded x s) (h : Doomed cfg env x s) {rest : List ClientId}
    (hreq : (s.ctx x).requests = c :: rest)
    (hno : canRunTest cfg (freshWindow cfg env x s) x c = false) :
    Stranded x (moveToWaitQueue env x c (freshWindow cfg env x s)) ∧
      Doomed cfg env x (moveToWaitQueue env x c (freshWindow cfg env x s)) := by
  have hf : Stranded x (freshWindow cfg env x s) :=
    hs.block (D := nobody) (.window s) (freshWindow_runningList cfg env x s)
  have hreqf : ((freshWindow cfg env x s).ctx x).requests = c :: rest := by
    rw [freshWindow_requests, hreq]
  have hwaitf : ((freshWindow cfg env x s).ctx x).waitQueue = (s.ctx x).waitQueue :=
    freshWindow_waitQueue cfg env x s
  by_cases hc : c ∈ (s.ctx x).waitQueue
  · -- `move_to_wait_queue` finds another request of the client and returns
    have hcf : c ∈ ((freshWindow cfg env x s).ctx x).waitQueue := hwaitf ▸ hc
    rw [moveToWaitQueue_of_mem env hcf]
    exact ⟨hf, Or.inl (Or.inr ⟨c, hreqf ▸ List.mem_cons_self, hcf⟩)⟩
  · have hcf : c ∉ ((freshWindow cfg env x s).ctx x).waitQueue := hwaitf ▸ hc
    have hdefer : Block cfg env nobody x _ _ := .defer _ c rest hreqf hno hcf
    have htable := deferred_table cfg env hreq hc
    have hsame := moveToWaitQueue_unqueued env x c (freshWindow cfg env x s)
    generalize moveToWaitQueue env x c (freshWindow cfg env x s) = m
      at htable hdefer hsame ⊢
    have hreqm : (m.ctx x).requests = rest := congrArg LockTable.requests htable
    have hwaitm : (m.ctx x).waitQueue = (s.ctx x).waitQueue ++ [c] :=
      congrArg LockTable.waiting htable
    have hrunm : (m.ctx x).runningList = [] := (congrArg LockTable.running htable).trans hs.idle
    refine ⟨hf.path hdefer.path hrunm, ?_⟩
    rw [Doomed, Clashes, hreqm, hwaitm]
    rcases h with (hdup | ⟨d, hd, hwait⟩) | hadmit
    · left
      rw [hreq, List.nodup_cons, not_and_or, not_not] at hdup
      rcases hdup with hmem | hdup
      · exact Or.inr ⟨c, hmem, List.mem_append_right _ List.mem_cons_self⟩
      · exact Or.inl hdup
    · left
      rw [hreq, List.mem_cons] at hd
      rcases hd with rfl | hd
      · exact absurd hwait hc
      · exact Or.inr ⟨d, hd, List.mem_append_left _ hwait⟩
    · right
      rw [hreq, List.cons_append, ← Bool.not_eq_true, refusesAll_cons, not_and,
        Bool.not_eq_true] at hadmit
      rw [refusesAll_congr hsame, List.append_assoc, List.singleton_append]
      exact hadmit hno

/-- When every send fails, a doomed loop does not return. -/
theorem trySchedule_doomed (hfail : ∀ n d, env.sendOk n d = false) (fuel : ℕ)
    (hs : Stranded x s) (hdoom : Doomed cfg env x s) : trySchedule cfg env fuel x s = none := by
  induction fuel generalizing s with
  | zero => rfl
  | succ n ih =>
      -- the pass with `c` at the head of `requests`, once `refill` has left `r`
      have hpass : ∀ (r : Sched) (c : ClientId) (rest : List ClientId),
          refill cfg env x s = r → (r.ctx x).requests = c :: rest → Stranded x r →
          Doomed cfg env x r → trySchedule cfg env (n + 1) x s = none := by
        intro r c rest hrefill hreq hr hdoom
        have hf : Stranded x (freshWindow cfg env x r) :=
          hr.block (D := nobody) (.window r) (freshWindow_runningList cfg env x r)
        have hreqf : ((freshWindow cfg env x r).ctx x).requests = c :: rest := by
          rw [freshWindow_requests, hreq]
        have hwaitf : ((freshWindow cfg env x r).ctx x).waitQueue = (r.ctx x).waitQueue :=
          freshWindow_waitQueue cfg env x r
        by_cases hok : canRunTest cfg (freshWindow cfg env x r) x c = true
        · have hsend : sendSucceeds env c (freshWindow cfg env x r) = false := hfail _ c
          rw [trySchedule_of_refuse hrefill hreq rfl hok hsend]
          have hp : c ∈ ((freshWindow cfg env x r).ctx x).pending :=
            List.mem_append_left _ (hreqf ▸ List.mem_cons_self)
          have hrefuse : Block cfg env anyone x (freshWindow cfg env x r)
              (sendMessage env c .lockOk (freshWindow cfg env x r)) :=
            .refuse _ c rest hreqf hok hsend trivial
          rw [deleteClient_doomed (hf.block hrefuse rfl) hp ?_ (fun u => ih), Option.bind_none]
          rw [canRunTest_congr (sendMessage_unqueued env x c .lockOk _)]
          exact hok
        · rw [Bool.not_eq_true] at hok
          rw [trySchedule_of_defer hrefill hreq rfl hok]
          obtain ⟨hmoved, hdoomed⟩ := Doomed.defer env hr hdoom hreq hok
          exact ih hmoved hdoomed
      by_cases hreq : (s.ctx x).requests = []
      · have hrefill : refill cfg env x s = checkWaitQueue cfg env x s := by
          rw [refill, if_pos hreq]
        have hadmit : refusesAll cfg env x (s.ctx x).waitQueue s = false := by
          rcases hdoom with hclash | hadmit
          · rcases hclash with hdup | ⟨d, hd, -⟩
            · rw [hreq] at hdup
              exact absurd List.nodup_nil hdup
            · rw [hreq] at hd
              cases hd
          · rwa [hreq, List.nil_append, List.append_nil] at hadmit
        obtain ⟨e, hhead, -⟩ := checkWaitQueueFrom_of_admitted [] hadmit
        exact hpass _ e _ hrefill hhead hs.checkWaitQueue (doomed_of_admitted hs hadmit)
      · obtain ⟨c, rest, hcons⟩ := List.exists_cons_of_ne_nil hreq
        have hrefill : refill cfg env x s = s := by rw [refill, if_neg hreq]
        exact hpass s c rest hrefill hcons hs hdoom

/-- Nor does the scan of the wait queue before it save anybody. -/
theorem doomed_checkWaitQueue (hs : Stranded x s)
    (h : Clashes (s.ctx x) ∨ refusesAll cfg env x (rounds (s.ctx x)) s = false) :
    Doomed cfg env x (checkWaitQueue cfg env x s) := by
  by_cases hwait : refusesAll cfg env x (s.ctx x).waitQueue s = true
  · have hscan : checkWaitQueue cfg env x s = asked cfg env x (s.ctx x).waitQueue s :=
      checkWaitQueueFrom_of_refused hwait
    have htable := asked_table cfg env x (s.ctx x).waitQueue s
    rw [hscan]
    generalize hm : asked cfg env x (s.ctx x).waitQueue s = m at htable
    have hreqm : (m.ctx x).requests = (s.ctx x).requests := congrArg LockTable.requests htable
    have hwaitm : (m.ctx x).waitQueue = (s.ctx x).waitQueue := congrArg LockTable.waiting htable
    rw [Doomed, Clashes, hreqm, hwaitm]
    refine h.imp id fun hrounds => ?_
    rwa [rounds, List.append_assoc, refusesAll_append, hwait, Bool.true_and, hm] at hrounds
  · rw [Bool.not_eq_true] at hwait
    exact doomed_of_admitted hs hwait

end XpuShare
