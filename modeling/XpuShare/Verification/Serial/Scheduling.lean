import XpuShare.Verification.Queues.Progress

/-! # Scheduling in serial mode

With unlimited clients and successful sends the scheduling calls of serial mode do one of
two things. While the lock is held they set all requests aside behind those set aside
before; once it is free they hand it to the first client in line. -/

namespace XpuShare

variable {cfg : Config} {env : Env} {x : CtxId} {s t u : Sched} {c : ClientId}

/-- The clients that have been sent LOCK_OK. -/
def grants (sent : List Sent) : List ClientId :=
  sent.filterMap fun m => if m.msg = .lockOk then some m.dest else none

theorem grants_append (sent sent' : List Sent) :
    grants (sent ++ sent') = grants sent ++ grants sent' :=
  List.filterMap_append

/-- Pending clients in the order in which they will be served. -/
def GpuContext.line (g : GpuContext) : List ClientId := g.waitQueue ++ g.requests

/-- A part of a scheduling call on `x`: the table and the lock flag after it and the clients
it sends LOCK_OK to. It deletes nobody. -/
structure Turn (x : CtxId) (s t : Sched) (table : LockTable ClientId) (lock : Bool)
    (granted : List ClientId) : Prop extends Frame x s t where
  clients : t.clients = s.clients
  table_eq : (t.ctx x).table = table
  lock_eq : (t.ctx x).lockHeld = lock
  sent : ∃ new, t.out = s.out ++ new ∧ grants new = granted

theorem Turn.refl (x : CtxId) (s : Sched) :
    Turn x s s (s.ctx x).table (s.ctx x).lockHeld [] where
  toFrame := Frame.refl x s
  clients := rfl
  table_eq := rfl
  lock_eq := rfl
  sent := ⟨[], by simp, rfl⟩

theorem Turn.trans {table table' : LockTable ClientId} {lock lock' : Bool}
    {granted granted' : List ClientId} (h : Turn x s t table lock granted)
    (h' : Turn x t u table' lock' granted') (hsub : table.entries ⊆ (s.ctx x).entries) :
    Turn x s u table' lock' (granted ++ granted') where
  toFrame := h.toFrame.trans h'.toFrame (subset_of_table h.table_eq hsub)
  clients := h'.clients.trans h.clients
  table_eq := h'.table_eq
  lock_eq := h'.lock_eq
  sent := by
    obtain ⟨new, hnew, hgrants⟩ := h.sent
    obtain ⟨new', hnew', hgrants'⟩ := h'.sent
    refine ⟨new ++ new', by rw [hnew', hnew, List.append_assoc], ?_⟩
    rw [grants_append, hgrants, hgrants']

theorem Effect.turn {table : LockTable ClientId} {lock : Bool} {memory : ℕ}
    {run : ClientId → Bool} {sent : List Sent}
    (h : Effect x s t table lock memory run s.clients sent) :
    Turn x s t table lock (grants sent) where
  toFrame := h.toFrame
  clients := h.clients_eq
  table_eq := h.table_eq
  lock_eq := h.lock_eq
  sent := ⟨sent, h.out_eq, rfl⟩

/-- All connected clients of a context have the full compute limit. -/
def Unlimited (x : CtxId) (s : Sched) : Prop :=
  ∀ c ∈ s.clients, (s.client c).context = some x → (s.client c).coreLimit = 100

instance (x : CtxId) (s : Sched) : Decidable (Unlimited x s) :=
  inferInstanceAs (Decidable (∀ c ∈ s.clients, _ → _))

/-- What the scheduling calls of serial mode rely on. -/
structure InLine (x : CtxId) (s : Sched) : Prop where
  belongs : Belongs x s
  nodup : (s.ctx x).entries.Nodup
  unlimited : ∀ c ∈ (s.ctx x).pending, (s.client c).coreLimit = 100

theorem InLine.turn {table : LockTable ClientId} {lock : Bool} {granted : List ClientId}
    (hs : InLine x s) (h : Turn x s t table lock granted)
    (hperm : table.entries.Subperm (s.ctx x).entries)
    (hpending : ∀ c, c ∈ table.requests ∨ c ∈ table.waiting → c ∈ (s.ctx x).pending) :
    InLine x t := by
  obtain ⟨l, hl, hsub⟩ := hperm
  refine ⟨fun c hc => ?_, ?_, fun c hc => ?_⟩
  · rw [entries_eq_of_table h.table_eq] at hc
    rw [context_of_static (h.static c)]
    exact hs.belongs c (hsub.subset (hl.symm.subset hc))
  · rw [entries_eq_of_table h.table_eq]
    exact hl.nodup_iff.mp (hs.nodup.sublist hsub)
  · rw [mem_pending_of_table h.table_eq] at hc
    rw [coreLimit_of_static (h.static c)]
    exact hs.unlimited c (hpending c hc)

/-- A window check changes nothing that scheduling in serial mode looks at. -/
theorem InLine.fresh (cfg : Config) (env : Env) (hs : InLine x s) :
    InLine x (freshWindow cfg env x s) :=
  hs.turn (freshWindow_effect cfg env x s).turn (List.Subperm.refl _)
    fun _ hc => (mem_pending_of_table rfl).mpr hc

section Serial

variable (hserial : cfg.schedulingMode = .serial)

include hserial

/-- In serial mode an unlimited client may run exactly when the lock is free. -/
theorem canRunTest_serial (hlimit : (s.client c).coreLimit = 100) :
    canRunTest cfg s x c = !(s.ctx x).lockHeld := by
  have hquota : quotaAllows cfg s x c = true := by simp [quotaAllows, hlimit]
  have hmemory : canRunWithMemory cfg s x c = !(s.ctx x).lockHeld := by
    simp [canRunWithMemory, hserial]
  rw [canRunTest, hquota, hmemory, Bool.true_and]

theorem canRunTest_serial_fresh (env : Env) (hs : InLine x s) (hc : c ∈ (s.ctx x).pending) :
    canRunTest cfg (freshWindow cfg env x s) x c = !(s.ctx x).lockHeld := by
  have hlimit : ((freshWindow cfg env x s).client c).coreLimit = 100 := by
    rw [coreLimit_of_static ((freshWindow_effect cfg env x s).static c)]
    exact hs.unlimited c hc
  rw [canRunTest_serial hserial hlimit, freshWindow_lockHeld]

/-! ## The lock is held -/

theorem checkWaitQueueFrom_held {front back : List ClientId} (hs : InLine x s)
    (hheld : (s.ctx x).lockHeld = true) (h : (s.ctx x).waitQueue = front ++ back) :
    Turn x s (checkWaitQueueFrom cfg env x front back s) (s.ctx x).table true [] := by
  induction back generalizing front s with
  | nil => exact hheld ▸ Turn.refl x s
  | cons c back ih =>
      have hc : c ∈ (s.ctx x).pending := by simp [GpuContext.pending, h]
      have hfresh := (freshWindow_effect cfg env x s).turn
      have hno : (canRun cfg env x c s).1 = false := by
        have htest := canRunTest_serial_fresh hserial env hs hc
        rw [hheld] at htest
        exact htest
      have hwait : ((freshWindow cfg env x s).ctx x).waitQueue = (front ++ [c]) ++ back := by
        rw [freshWindow_waitQueue, h, List.append_assoc, List.singleton_append]
      have hrest := ih (hs.fresh cfg env) (by rw [freshWindow_lockHeld, hheld]) hwait
      rw [checkWaitQueueFrom, hno]
      rw [hfresh.table_eq] at hrest
      exact hfresh.trans hrest (List.Subset.refl _)

theorem checkWaitQueue_held (env : Env) (hs : InLine x s) (hheld : (s.ctx x).lockHeld = true) :
    Turn x s (checkWaitQueue cfg env x s) (s.ctx x).table true [] :=
  checkWaitQueueFrom_held hserial hs hheld (List.nil_append _).symm

/-- A call of `try_schedule` while the lock is held sets every request aside. -/
theorem trySchedule_held {n : ℕ} (hs : InLine x s) (hheld : (s.ctx x).lockHeld = true)
    (h : trySchedule cfg env n x s = some t) :
    Turn x s t ⟨[], (s.ctx x).line, (s.ctx x).runningList⟩ true [] := by
  induction n generalizing s with
  | zero => cases h
  | succ n ih =>
      cases hreq : (s.ctx x).requests with
      | nil =>
          have hrefill : refill cfg env x s = checkWaitQueue cfg env x s := by
            rw [refill, if_pos hreq]
          have hcheck := checkWaitQueue_held hserial env hs hheld
          have hnil : ((checkWaitQueue cfg env x s).ctx x).requests = [] :=
            (congrArg LockTable.requests hcheck.table_eq :).trans hreq
          rw [trySchedule_of_nil hrefill hnil] at h
          rw [← Option.some.inj h]
          have hline : (s.ctx x).table = ⟨[], (s.ctx x).line, (s.ctx x).runningList⟩ := by
            simp [GpuContext.table, GpuContext.line, hreq]
          exact hline ▸ hcheck
      | cons c rest =>
          have hrefill : refill cfg env x s = s := by
            rw [refill, if_neg (by rw [hreq]; exact List.cons_ne_nil c rest)]
          have hc : c ∈ (s.ctx x).pending := by simp [GpuContext.pending, hreq]
          have hno : canRunTest cfg (freshWindow cfg env x s) x c = false := by
            rw [canRunTest_serial_fresh hserial env hs hc, hheld, Bool.not_true]
          rw [trySchedule_of_defer hrefill hreq rfl hno] at h
          have hfresh := (freshWindow_effect cfg env x s).turn
          have hinline := hs.fresh cfg env
          have hreqf : c ∈ ((freshWindow cfg env x s).ctx x).table.requests := by
            simp [GpuContext.table, hreq]
          have hnot := (LockTable.notMem_of_mem_requests
            (t := ((freshWindow cfg env x s).ctx x).table) hinline.nodup hreqf).1
          have heff := moveToWaitQueue_effect env hnot
          have hperm := LockTable.defer_entries_perm hreqf
          have hnotice : grants (deferNotice env c (freshWindow cfg env x s)) = [] := by
            unfold deferNotice
            split <;> rfl
          have hmove := heff.turn
          rw [hnotice] at hmove
          have hinline' := hinline.turn hmove hperm.subperm (by
            rintro d (hd | hd)
            · exact List.mem_append_left _ (List.mem_of_mem_erase hd)
            · rcases List.mem_append.mp hd with hd | hd
              · exact List.mem_append_right _ hd
              · exact List.mem_append_left _ (List.mem_singleton.mp hd ▸ hreqf))
          have hrest := ih hinline' (by rw [hmove.lock_eq, freshWindow_lockHeld, hheld]) h
          have htable : ((moveToWaitQueue env x c (freshWindow cfg env x s)).ctx x).table
              = ⟨rest, (s.ctx x).waitQueue ++ [c], (s.ctx x).runningList⟩ := by
            rw [hmove.table_eq]
            simp [LockTable.defer, GpuContext.table, hreq]
          have hline : ((moveToWaitQueue env x c (freshWindow cfg env x s)).ctx x).line
              = (s.ctx x).line := by
            have hw : ((moveToWaitQueue env x c (freshWindow cfg env x s)).ctx x).waitQueue
                = (s.ctx x).waitQueue ++ [c] := congrArg LockTable.waiting htable
            have hq : ((moveToWaitQueue env x c (freshWindow cfg env x s)).ctx x).requests
                = rest := congrArg LockTable.requests htable
            simp [GpuContext.line, hw, hq, hreq]
          have hrun : ((moveToWaitQueue env x c (freshWindow cfg env x s)).ctx x).runningList
              = (s.ctx x).runningList := congrArg LockTable.running htable
          rw [hline, hrun] at hrest
          have hfirst := hfresh.trans hmove (List.Subset.refl _)
          refine hfirst.trans hrest ?_
          have hentries : ((freshWindow cfg env x s).ctx x).table = (s.ctx x).table :=
            hfresh.table_eq
          rw [hentries] at hperm ⊢
          exact hperm.subset

/-! ## The lock is free -/

omit hserial in
theorem checkWaitQueue_nil (env : Env) (h : (s.ctx x).waitQueue = []) :
    checkWaitQueue cfg env x s = s := by
  rw [checkWaitQueue, h, checkWaitQueueFrom]

/-- While the lock is free the scan of the wait queue promotes its first client. -/
theorem checkWaitQueue_free {back : List ClientId} (env : Env) (hs : InLine x s)
    (hfree : (s.ctx x).lockHeld = false) (h : (s.ctx x).waitQueue = c :: back) :
    Turn x s (checkWaitQueue cfg env x s)
      ⟨c :: (s.ctx x).requests, back, (s.ctx x).runningList⟩ false [] := by
  have hc : c ∈ (s.ctx x).pending := by simp [GpuContext.pending, h]
  have hyes : (canRun cfg env x c s).1 = true := by
    have htest := canRunTest_serial_fresh hserial env hs hc
    rw [hfree] at htest
    exact htest
  have hfresh := (freshWindow_effect cfg env x s).turn
  have hpromote := (promote_effect env x [] c back (freshWindow cfg env x s)).turn
  have htable : ((freshWindow cfg env x s).ctx x).table = (s.ctx x).table := hfresh.table_eq
  rw [checkWaitQueue, h, checkWaitQueueFrom, if_pos hyes]
  rw [htable, freshWindow_lockHeld, hfree] at hpromote
  exact hfresh.trans hpromote (List.Subset.refl _)

/-- While the lock is free `try_schedule` hands it to the first request. -/
theorem trySchedule_free {n : ℕ} {rest : List ClientId} (hsent : env.AllSent)
    (hs : InLine x s) (hfree : (s.ctx x).lockHeld = false)
    (hreq : (s.ctx x).requests = c :: rest) (h : trySchedule cfg env n x s = some t) :
    Turn x s t ⟨rest, (s.ctx x).waitQueue, (s.ctx x).runningList ++ [c]⟩ true [c] := by
  cases n with
  | zero => cases h
  | succ n =>
      have hrefill : refill cfg env x s = s := by
        rw [refill, if_neg (by rw [hreq]; exact List.cons_ne_nil c rest)]
      have hc : c ∈ (s.ctx x).pending := by simp [GpuContext.pending, hreq]
      have hok : canRunTest cfg (freshWindow cfg env x s) x c = true := by
        rw [canRunTest_serial_fresh hserial env hs hc, hfree, Bool.not_false]
      rw [trySchedule_of_grant hrefill hreq rfl hok (hsent _ c), if_pos hserial] at h
      rw [← Option.some.inj h]
      have hfresh := (freshWindow_effect cfg env x s).turn
      have htable : ((freshWindow cfg env x s).ctx x).table = (s.ctx x).table := hfresh.table_eq
      have hcf : c ∈ ((freshWindow cfg env x s).ctx x).entries := by
        rw [entries_of_table htable]
        exact mem_entries_iff.mpr (Or.inl hc)
      have hgrant := (grantSent_effect env hcf).turn
      have henter : (s.ctx x).table.enter c
          = ⟨rest, (s.ctx x).waitQueue, (s.ctx x).runningList ++ [c]⟩ := by
        simp [LockTable.enter, GpuContext.table, hreq]
      rw [htable, henter] at hgrant
      exact hfresh.trans hgrant (List.Subset.refl _)

omit hserial in
theorem trySchedule_idle {n : ℕ} (hpending : (s.ctx x).pending = [])
    (h : trySchedule cfg env n x s = some t) : t = s := by
  obtain ⟨hreq, hwait⟩ := List.append_eq_nil_iff.mp hpending
  cases n with
  | zero => cases h
  | succ n =>
      have hrefill : refill cfg env x s = s := by
        rw [refill, if_pos hreq, checkWaitQueue, hwait, checkWaitQueueFrom]
      rw [trySchedule_of_nil hrefill hreq] at h
      exact (Option.some.inj h).symm

/-- What happens once the lock is free: nothing if nobody is in line, and otherwise the
first client in line gets it. -/
theorem reschedule_free {n : ℕ} (hsent : env.AllSent) (hs : InLine x s)
    (hfree : (s.ctx x).lockHeld = false)
    (h : trySchedule cfg env n x (checkWaitQueue cfg env x s) = some t) :
    ((s.ctx x).line = [] ∧ t = s) ∨
      ∃ c requests waiting, (s.ctx x).line = c :: (waiting ++ requests) ∧
        Turn x s t ⟨requests, waiting, (s.ctx x).runningList ++ [c]⟩ true [c] := by
  cases hwait : (s.ctx x).waitQueue with
  | nil =>
      rw [checkWaitQueue_nil env hwait] at h
      cases hreq : (s.ctx x).requests with
      | nil =>
          left
          refine ⟨by simp [GpuContext.line, hwait, hreq], ?_⟩
          exact trySchedule_idle (by simp [GpuContext.pending, hwait, hreq]) h
      | cons c rest =>
          right
          have hturn := trySchedule_free hserial hsent hs hfree hreq h
          rw [hwait] at hturn
          exact ⟨c, rest, [], by simp [GpuContext.line, hwait, hreq], hturn⟩
  | cons c back =>
      right
      have hcheck := checkWaitQueue_free hserial env hs hfree hwait
      have hsplit : (s.ctx x).table.waiting = [] ++ c :: back := hwait
      have hperm := LockTable.promote_entries_perm hsplit
      have hinline := hs.turn hcheck hperm.subperm (by
        rintro d (hd | hd)
        · rcases List.mem_cons.mp hd with rfl | hd
          · simp [GpuContext.pending, hwait]
          · exact List.mem_append_left _ hd
        · simp [GpuContext.pending, hwait, (show d ∈ back from hd)])
      have hreq : ((checkWaitQueue cfg env x s).ctx x).requests = c :: (s.ctx x).requests :=
        congrArg LockTable.requests hcheck.table_eq
      have hback : ((checkWaitQueue cfg env x s).ctx x).waitQueue = back :=
        congrArg LockTable.waiting hcheck.table_eq
      have hrun : ((checkWaitQueue cfg env x s).ctx x).runningList = (s.ctx x).runningList :=
        congrArg LockTable.running hcheck.table_eq
      have hturn := trySchedule_free hserial hsent hinline hcheck.lock_eq hreq h
      rw [hback, hrun] at hturn
      refine ⟨c, (s.ctx x).requests, back, by simp [GpuContext.line, hwait], ?_⟩
      exact hcheck.trans hturn hperm.subset

end Serial

end XpuShare
