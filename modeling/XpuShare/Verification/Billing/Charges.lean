import XpuShare.Verification.Billing.Meter
import XpuShare.Verification.Scheduler.Moves

/-! # Handlers as sequences of charges

A charge is a piece of code that bills somebody, begins or ends a stay in a running list,
or rewrites a record that bills depend on, together with what the meter records for it.
Everything else a handler does is costless. Every handler is a sequence of charges whose
amounts add up to what the meter records for the event. -/

namespace XpuShare

variable (cfg : Config) (env : Env)

/-- The fields of a record that bills depend on. -/
def Client.billing (r : Client) : Client :=
  { context := r.context, coreLimit := r.coreLimit, runTimeInWindowMs := r.runTimeInWindowMs
    currentRunStartMs := r.currentRunStartMs, pendingDrop := r.pendingDrop
    dropConcurrency := r.dropConcurrency, quotaDebtMs := r.quotaDebtMs }

section Fields

variable {r r' : Client} (h : r.billing = r'.billing)

include h

theorem context_of_billing : r.context = r'.context := (congrArg Client.context h :)
theorem coreLimit_of_billing : r.coreLimit = r'.coreLimit := (congrArg Client.coreLimit h :)
theorem runTime_of_billing : r.runTimeInWindowMs = r'.runTimeInWindowMs :=
  (congrArg Client.runTimeInWindowMs h :)
theorem runStart_of_billing : r.currentRunStartMs = r'.currentRunStartMs :=
  (congrArg Client.currentRunStartMs h :)
theorem pendingDrop_of_billing : r.pendingDrop = r'.pendingDrop :=
  (congrArg Client.pendingDrop h :)
theorem dropConcurrency_of_billing : r.dropConcurrency = r'.dropConcurrency :=
  (congrArg Client.dropConcurrency h :)
theorem quotaDebt_of_billing : r.quotaDebtMs = r'.quotaDebtMs :=
  (congrArg Client.quotaDebtMs h :)

end Fields

/-- `t` differs from `s` in nothing that bills depend on. A DROP_LOCK may have been noted
with a clock reading. -/
structure Costless (s t : Sched) : Prop where
  clients : t.clients ⊆ s.clients
  nalloc : t.nalloc = s.nalloc
  ticks : s.ticks ≤ t.ticks
  client : ∀ c, (t.client c).billing = (s.client c).billing
  noted : ∀ c, (t.client c).lastDropSentMs = (s.client c).lastDropSentMs ∨
    ∃ n, (t.client c).lastDropSentMs = env.clock n
  running : ∀ x, (t.ctx x).runningList = (s.ctx x).runningList
  window : ∀ x, (t.ctx x).windowStartMs = (s.ctx x).windowStartMs

namespace Costless

variable {env} {s t u : Sched}

theorem refl (s : Sched) : Costless env s s :=
  ⟨List.Subset.refl _, rfl, le_rfl, fun _ => rfl, fun _ => Or.inl rfl, fun _ => rfl,
    fun _ => rfl⟩

theorem trans (h : Costless env s t) (h' : Costless env t u) : Costless env s u where
  clients := List.Subset.trans h'.clients h.clients
  nalloc := h'.nalloc.trans h.nalloc
  ticks := h.ticks.trans h'.ticks
  client c := (h'.client c).trans (h.client c)
  noted c := by
    rcases h'.noted c with heq | hnew
    · rw [heq]
      exact h.noted c
    · exact Or.inr hnew
  running x := (h'.running x).trans (h.running x)
  window x := (h'.window x).trans (h.window x)

/-- Sends and other changes that no list, record or context shows. -/
theorem of_eq (hclients : t.clients = s.clients) (hclient : t.client = s.client)
    (hnalloc : t.nalloc = s.nalloc) (hticks : s.ticks ≤ t.ticks)
    (hctx : ∀ x, (t.ctx x).runningList = (s.ctx x).runningList ∧
      (t.ctx x).windowStartMs = (s.ctx x).windowStartMs) : Costless env s t where
  clients := by rw [hclients]; exact List.Subset.refl _
  nalloc := hnalloc
  ticks := hticks
  client c := by rw [hclient]
  noted c := by rw [hclient]; exact Or.inl rfl
  running x := (hctx x).1
  window x := (hctx x).2

theorem sendMessage (c : ClientId) (m : ToClient) (s : Sched) :
    Costless env s (sendMessage env c m s) :=
  of_eq rfl rfl rfl le_rfl fun _ => ⟨rfl, rfl⟩

theorem modifyCtx (x : CtxId) {f : GpuContext → GpuContext} (s : Sched)
    (hf : ∀ g, (f g).runningList = g.runningList ∧ (f g).windowStartMs = g.windowStartMs :=
      by exact fun _ => ⟨rfl, rfl⟩) : Costless env s (s.modifyCtx x f) := by
  refine of_eq rfl rfl rfl le_rfl fun y => ?_
  rw [Sched.modifyCtx_ctx]
  split
  · rename_i hy
    rw [hy]
    exact hf _
  · exact ⟨rfl, rfl⟩

theorem modifyClient (c : ClientId) {f : Client → Client}
    (hbilling : (f (s.client c)).billing = (s.client c).billing)
    (hnoted : (f (s.client c)).lastDropSentMs = (s.client c).lastDropSentMs ∨
      ∃ n, (f (s.client c)).lastDropSentMs = env.clock n) :
    Costless env s (s.modifyClient c f) := by
  refine ⟨List.Subset.refl _, rfl, le_rfl, fun d => ?_, fun d => ?_, fun _ => rfl,
    fun _ => rfl⟩
  · rw [Sched.modifyClient_client]
    split
    · rename_i hd
      rw [hbilling, hd]
    · rfl
  · rw [Sched.modifyClient_client]
    split
    · rename_i hd
      rw [hd]
      exact hnoted
    · exact Or.inl rfl

theorem foldl {f : Sched → ClientId → Sched} (hf : ∀ s c, Costless env s (f s c))
    (l : List ClientId) (s : Sched) : Costless env s (l.foldl f s) :=
  List.foldlRecOn l f (refl s) fun t ht c _ => ht.trans (hf t c)

theorem tick (s : Sched) : Costless env s s.tick :=
  of_eq rfl rfl rfl (Nat.le_succ _) fun _ => ⟨rfl, rfl⟩

end Costless

/-! ## What is costless -/

section CostlessCode

variable {env} (x : CtxId) (c : ClientId) (s : Sched)

theorem moveToWaitQueue_costless : Costless env s (moveToWaitQueue env x c s) := by
  have hmoved : Costless env s (s.modifyCtx x fun g =>
      { g with requests := g.requests.erase c, waitQueue := g.waitQueue ++ [c] }) :=
    Costless.modifyCtx x s
  unfold moveToWaitQueue
  split
  · exact Costless.refl s
  · simp only
    split
    · exact hmoved
    · exact hmoved.trans (Costless.sendMessage c _ _)

theorem promote_costless (front back : List ClientId) :
    Costless env s (promote env x front c back s) :=
  (Costless.modifyCtx x s).trans (Costless.sendMessage c _ _)

theorem clearLock_costless : Costless env s (clearLock x s) := by
  unfold clearLock
  split
  · exact Costless.modifyCtx x s
  · exact Costless.refl s

theorem dropPending_costless : Costless env s (dropPending x c s) :=
  Costless.modifyCtx x s

theorem unlink_costless : Costless env s { s with clients := s.clients.filter (· ≠ c) } :=
  ⟨List.filter_subset_self _, rfl, le_rfl, fun _ => rfl, fun _ => Or.inl rfl, fun _ => rfl,
    fun _ => rfl⟩

theorem insertReq_costless : Costless env s (insertReq c s) := by
  unfold insertReq
  split
  · exact Costless.refl s
  · split
    · exact Costless.refl s
    · exact Costless.modifyCtx _ s

theorem preemptClient_costless : Costless env s (preemptClient env s c) := by
  have hsent : Costless env s (sendMessage env c .dropLock s) := Costless.sendMessage c _ s
  unfold preemptClient
  simp only
  split
  · exact (hsent.trans (Costless.tick _)).trans
      (Costless.modifyClient c rfl (Or.inr ⟨_, rfl⟩))
  · exact hsent

theorem storeMemory_costless (v : ℕ) : Costless env s (storeMemory c v s) :=
  Costless.modifyClient c rfl (Or.inl rfl)

theorem accountMemory_costless (old new : ℕ) : Costless env s (accountMemory cfg x old new s) :=
  Costless.modifyCtx x s

theorem memUpdate_costless (v : ℕ) : Costless env s (memUpdate cfg env c v s) := by
  unfold memUpdate
  split
  · exact Costless.refl s
  · rename_i y hctx
    split
    · exact Costless.refl s
    · have hstored : Costless env s (storeMemory c v s) := storeMemory_costless c s v
      simp only
      split
      · have hcounted :=
          hstored.trans (accountMemory_costless cfg y _ (s.client c).memoryAllocated v)
        split
        · exact hcounted.trans (Costless.foldl (fun s c => preemptClient_costless c s) _ _)
        · exact hcounted
      · exact hstored

theorem timerSleep_costless : Costless env s (timerSleep cfg env x s) :=
  (Costless.tick s).trans (Costless.modifyCtx x _)

theorem applyInitialLimit_costless (limit : Option ℕ) :
    Costless env s (applyInitialLimit env c limit s) := by
  unfold applyInitialLimit
  split
  · split
    · exact (Costless.modifyClient c rfl (Or.inl rfl)).trans (Costless.sendMessage c _ _)
    · exact Costless.refl s
  · exact Costless.refl s

theorem setTq_costless (v : ℤ) : Costless env s (setTq v s) := by
  refine Costless.of_eq rfl rfl rfl le_rfl fun y => ?_
  unfold setTq
  simp only
  split <;> exact ⟨rfl, rfl⟩

theorem clearRequests_costless : Costless env s (clearRequests s) := by
  refine Costless.of_eq rfl rfl rfl le_rfl fun y => ?_
  unfold clearRequests
  simp only
  split <;> exact ⟨rfl, rfl⟩

theorem power_costless (on : Bool) : Costless env s { s with schedulerOn := on } :=
  Costless.of_eq rfl rfl rfl le_rfl fun _ => ⟨rfl, rfl⟩

end CostlessCode

/-! ## Charges -/

/-- One charge, in a run whose events satisfy `ok`. Whenever the window of a context is
checked, `K` holds of the context and the state. -/
inductive Charge (K : CtxId → Sched → Prop) (ok : Sched → Event → Prop) :
    Sched → Meter → Sched → Prop where
  | window {s} (x) (hK : K x s) :
      Charge K ok s (freshWindowMeter cfg env x s) (freshWindow cfg env x s)
  | grant {s} (x c rest) (hfresh : ∃ u, s = freshWindow cfg env x u)
      (hreq : (s.ctx x).requests = c :: rest) (hok : canRunTest cfg s x c = true)
      (hsend : sendSucceeds env c s = true) :
      Charge K ok s (grantMeter env x c (sendMessage env c .lockOk s))
        (grant env x c (sendMessage env c .lockOk s))
  | leave {s} (x c) (hc : c ∈ (s.ctx x).runningList) :
      Charge K ok s (leaveRunningMeter cfg env x c s) (leaveRunning cfg env x c s)
  | enforce {s} (x) :
      Charge K ok s (added s (enforceLimits cfg env x s)) (enforceLimits cfg env x s)
  | rotate {s} (x) : Charge K ok s 0 (rotateRunning env x s)
  | annotate {s} (id memory core) (hok : ok s (.annotated id memory core)) :
      Charge K ok s 0 (annotationUpdate env id memory core s)
  | accept {s} (garbage) (hok : ok s (.accept garbage)) : Charge K ok s 0 (accept garbage s)
  | enrol {s} (c m e) (hok : ok s (.message c (.register m e))) (hmem : c ∈ s.clients)
      (hunreg : hasRegistered s c = false) (hid : acceptableId s e.generatedId) :
      Charge K ok s 0 (enrol cfg c m e s)
  | costless {s t} (h : Actions cfg env (fun _ => True) ok s t) (hcost : Costless env s t) :
      Charge K ok s 0 t

/-- A sequence of charges and the sum of their amounts. -/
abbrev Charges (K : CtxId → Sched → Prop) (ok : Sched → Event → Prop) :
    Sched → Meter → Sched → Prop :=
  Transition.Accumulates (Charge cfg env K ok)

/-- A condition on a context that scheduling keeps and that holds while nobody runs. -/
structure Lasting (K : CtxId → Sched → Prop) : Prop where
  block : ∀ {x s t}, Block cfg env anyone x s t → K x s → K x t
  idle : ∀ {x s}, (s.ctx x).runningList = [] → K x s

section Charges

variable {cfg env} {K : CtxId → Sched → Prop} {ok : Sched → Event → Prop} {s t u : Sched}
  {m : Meter} {x : CtxId}

/-- A charge is made of the actions that every invariant is checked against. -/
theorem Charge.actions (h : Charge cfg env K ok s m t) :
    Actions cfg env (fun _ => True) ok s t := by
  cases h with
  | window x hK => exact (Block.window s).path.actions
  | grant x c rest hfresh hreq hok hsend =>
      exact (Block.grant s c rest hreq hok hsend).path.actions
  | leave x c hc => exact (Block.leave s c trivial).path.actions
  | enforce x => exact (Actions.refl s).tuned (enforceLimits_tuned cfg env x s)
  | rotate x => exact (Actions.refl s).tuned (rotateRunning_tuned env x s)
  | annotate id memory core hok =>
      exact (Actions.refl s).tuned (annotationUpdate_tuned env id memory core s)
  | accept garbage hok => exact (Action.accept garbage hok).actions
  | enrol c m e hok hmem hunreg hid => exact (Action.enrol c m e hok hmem hunreg hid).actions
  | costless h hcost => exact h

theorem Lasting.path (hK : Lasting cfg env K) (h : Path cfg env anyone x s t) (hs : K x s) :
    K x t :=
  h.invariant (I := K x) (fun _ _ => hK.block) hs

theorem charges_of_costless (h : Actions cfg env (fun _ => True) ok s t)
    (hcost : Costless env s t) : Charges cfg env K ok s 0 t :=
  .single (.costless h hcost)

/-- A costless end of a sequence of charges. -/
theorem charges_costless (h : Charges cfg env K ok s m t)
    (hact : Actions cfg env (fun _ => True) ok t u) (hcost : Costless env t u) :
    Charges cfg env K ok s m u := by
  have htail := h.trans (charges_of_costless hact hcost)
  rwa [add_zero] at htail

/-- A costless beginning of a sequence of charges. -/
theorem costless_charges (hact : Actions cfg env (fun _ => True) ok s t) (hcost : Costless env s t)
    (h : Charges cfg env K ok t m u) : Charges cfg env K ok s m u := by
  have hhead := (charges_of_costless hact hcost).trans h
  rwa [zero_add] at hhead

/-! ## Scheduling -/

section Scheduling

variable (hK : Lasting cfg env K)

include hK

theorem checkWaitQueueFrom_charges {front back : List ClientId} (hs : K x s)
    (h : (s.ctx x).waitQueue = front ++ back) :
    Charges cfg env K ok s (checkWaitQueueMeterFrom cfg env x back s)
      (checkWaitQueueFrom cfg env x front back s) := by
  induction back generalizing front s with
  | nil => exact .refl s
  | cons c back ih =>
      have hfresh : Charges cfg env K ok s (freshWindowMeter cfg env x s)
          (freshWindow cfg env x s) := .single (.window x hs)
      have hwait : ((freshWindow cfg env x s).ctx x).waitQueue = front ++ c :: back := by
        rw [freshWindow_waitQueue, h]
      rw [checkWaitQueueFrom, checkWaitQueueMeterFrom]
      by_cases hok : (canRun cfg env x c s).1 = true
      · rw [if_pos hok, if_pos hok, add_zero]
        exact charges_costless hfresh (Block.promote _ front c back hwait hok).path.actions
          (promote_costless x c _ front back)
      · rw [if_neg hok, if_neg hok]
        exact hfresh.trans (ih (hK.block (Block.window s) hs) (by simpa using hwait))

theorem checkWaitQueue_charges (hs : K x s) :
    Charges cfg env K ok s (checkWaitQueueMeter cfg env x s) (checkWaitQueue cfg env x s) :=
  checkWaitQueueFrom_charges hK hs (by simp)

theorem refill_charges (hs : K x s) :
    Charges cfg env K ok s (refillMeter cfg env x s) (refill cfg env x s) := by
  unfold refill refillMeter
  split
  · exact checkWaitQueue_charges hK hs
  · exact .refl s

omit hK in
theorem leaveRunning_charges (c : ClientId) :
    Charges cfg env K ok s (leaveRunningMeter cfg env x c s) (leaveRunning cfg env x c s) := by
  by_cases hc : c ∈ (s.ctx x).runningList
  · exact .single (.leave x c hc)
  · have hzero : leaveRunningMeter cfg env x c s = 0 := by simp [leaveRunningMeter, hc]
    rw [hzero]
    refine charges_of_costless (Block.leave s c trivial).path.actions ?_
    rw [leaveRunning_of_notMem cfg env hc]
    exact clearLock_costless x s

theorem removeReq_charges {schedule : CtxId → Sched → Option Sched}
    {meter : CtxId → Sched → Meter} {c : ClientId}
    (hctx : (s.client c).context = some x)
    (hsched : ∀ u v, Belongs x u → K x u → schedule x u = some v →
      Charges cfg env K ok u (meter x u) v)
    (hb : Belongs x s) (h : removeReq cfg env schedule c s = some t) :
    Charges cfg env K ok s (removeReqMeter cfg env meter c s) t := by
  have hleave : Charges cfg env K ok s _ _ := leaveRunning_charges (x := x) c
  have hbleft : Belongs x (leaveRunning cfg env x c s) :=
    hb.path (Block.leave (D := anyone) s c trivial).path
  simp only [removeReq, hctx] at h
  simp only [removeReqMeter, hctx]
  generalize leaveRunning cfg env x c s = left at h hleave hbleft ⊢
  by_cases hrun : (left.ctx x).runningList = []
  · rw [if_pos hrun, Option.map_eq_some_iff] at h
    obtain ⟨mid, hmid, rfl⟩ := h
    have hcheck : Path cfg env anyone x left (checkWaitQueue cfg env x left) :=
      checkWaitQueue_path left
    have hKleft : K x left := hK.idle hrun
    have hmore := hsched _ _ (hbleft.path hcheck) (hK.path hcheck hKleft) hmid
    rw [if_pos hrun]
    exact charges_costless (hleave.trans ((checkWaitQueue_charges hK hKleft).trans hmore))
      (Block.withdraw mid c trivial).path.actions (dropPending_costless x c mid)
  · rw [if_neg hrun, Option.some.injEq] at h
    rw [if_neg hrun, add_zero, ← h]
    exact charges_costless hleave (Block.withdraw left c trivial).path.actions
      (dropPending_costless x c left)

theorem deleteClient_charges {schedule : CtxId → Sched → Option Sched}
    {meter : CtxId → Sched → Meter} {c : ClientId}
    (hctx : (s.client c).context = some x)
    (hpath : ∀ u v, Belongs x u → schedule x u = some v → Path cfg env anyone x u v)
    (hsched : ∀ u v, Belongs x u → K x u → schedule x u = some v →
      Charges cfg env K ok u (meter x u) v)
    (hb : Belongs x s) (h : deleteClient cfg env schedule c s = some t) :
    Charges cfg env K ok s (removeReqMeter cfg env meter c s) t := by
  rw [deleteClient, Option.bind_eq_some_iff] at h
  obtain ⟨mid, hmid, hunlink⟩ := h
  obtain ⟨hremove, hgone⟩ := removeReq_path hctx trivial hpath hb hmid
  have hctx' : (mid.client c).context = some x := by
    rw [context_of_static (hremove.frame.static c), hctx]
  rw [unlinkClient_eq hunlink]
  exact charges_costless (removeReq_charges hK hctx hsched hb hmid)
    (Block.unlink mid c trivial hctx' hgone).path.actions (unlink_costless c mid)

theorem trySchedule_charges {fuel : ℕ} (hb : Belongs x s) (hs : K x s)
    (h : trySchedule cfg env fuel x s = some t) :
    Charges cfg env K ok s (tryScheduleMeter cfg env fuel x s) t := by
  induction fuel generalizing s t with
  | zero => cases h
  | succ fuel ih =>
      have hrefill : Path cfg env anyone x s (refill cfg env x s) := refill_path s
      have hrefilled : Charges cfg env K ok s _ (refill cfg env x s) := refill_charges hK hs
      unfold trySchedule at h
      unfold tryScheduleMeter
      generalize refill cfg env x s = r at h hrefill hrefilled ⊢
      cases hreq : (r.ctx x).requests with
      | nil =>
          simp only [hreq, Option.some.injEq] at h ⊢
          rw [add_zero, ← h]
          exact hrefilled
      | cons c rest =>
          simp only [hreq] at h ⊢
          have hpath : Path cfg env anyone x s (freshWindow cfg env x r) :=
            hrefill.trans (Block.window r).path
          have hfresh := hrefilled.trans (.single (.window x (hK.path hrefill hs)))
          have hreq' : ((freshWindow cfg env x r).ctx x).requests = c :: rest := by
            rw [freshWindow_requests, hreq]
          have hlast : ∃ v, freshWindow cfg env x r = freshWindow cfg env x v := ⟨r, rfl⟩
          rw [← add_assoc]
          generalize freshWindow cfg env x r = f at h hpath hfresh hreq' hlast ⊢
          by_cases hok : canRunTest cfg f x c = true
          · simp only [hok, if_true] at h ⊢
            by_cases hsend : sendSucceeds env c f = true
            · have hgrant := hpath.trans (Block.grant f c rest hreq' hok hsend).path
              have hgranted := hfresh.trans (.single (.grant x c rest hlast hreq' hok hsend))
              simp only [hsend, if_true] at h ⊢
              rw [← add_assoc]
              by_cases hserial : cfg.schedulingMode = .serial
              · simp only [hserial, if_true] at h ⊢
                rw [← Option.some.inj h, add_zero]
                exact hgranted
              · simp only [hserial, if_false] at h ⊢
                exact hgranted.trans (ih (hb.path hgrant) (hK.path hgrant hs) h)
            · have hfail : sendSucceeds env c f = false := by simpa using hsend
              have hrefuse := hpath.trans (Block.refuse f c rest hreq' hok hfail trivial).path
              have hrefused := charges_costless hfresh
                (Block.refuse f c rest hreq' hok hfail trivial).path.actions
                (Costless.sendMessage c .lockOk f)
              have hctx : ((sendMessage env c .lockOk f).client c).context = some x :=
                hb.path hpath c (mem_entries_of_requests (by simp [hreq']))
              simp only [hfail, Bool.false_eq_true, if_false] at h ⊢
              rw [Option.bind_eq_some_iff] at h
              obtain ⟨mid, hmid, hagain⟩ := h
              have hgone := hrefuse.trans (deleteClient_path hctx ⟨trivial, trivial⟩
                (fun _ _ => trySchedule_anyone) (hb.path hrefuse) hmid)
              have hdeleted := hrefused.trans (deleteClient_charges hK hctx
                (fun _ _ => trySchedule_anyone) (fun _ _ => ih) (hb.path hrefuse) hmid)
              rw [hmid, Option.map_some, Option.getD_some, ← add_assoc]
              exact hdeleted.trans (ih (hb.path hgone) (hK.path hgone hs) hagain)
          · simp only [hok] at h ⊢
            by_cases hwait : c ∈ (f.ctx x).waitQueue
            · rw [moveToWaitQueue_of_mem env hwait] at h ⊢
              exact hfresh.trans (ih (hb.path hpath) (hK.path hpath hs) h)
            · have hno : canRunTest cfg f x c = false := by simpa using hok
              have hdefer := hpath.trans (Block.defer f c rest hreq' hno hwait).path
              have hdeferred := charges_costless hfresh
                (Block.defer f c rest hreq' hno hwait).path.actions (moveToWaitQueue_costless x c f)
              exact hdeferred.trans (ih (hb.path hdefer) (hK.path hdefer hs) h)

end Scheduling

end Charges

end XpuShare
