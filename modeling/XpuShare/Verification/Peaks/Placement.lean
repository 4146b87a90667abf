import XpuShare.Verification.Peaks.Grants
import XpuShare.Verification.Scheduler.Marks

/-! # Clients in their places

While a handler grants the lock, defers, promotes and removes clients of one context, those
of its standing that do not wait run on, and the running total counts them and whoever of the
others runs. So every grant is one of those the standing was asked about. -/

namespace XpuShare

variable {cfg : Config} {env : Env} {s t s₀ : Sched} {x : CtxId} {c : ClientId} {p : Standing}
  {l : List ClientId}

theorem peak_of_fixed {g g' : GpuContext} (h : g.fixed = g'.fixed) :
    g.peakMemoryUsage = g'.peakMemoryUsage :=
  (congrArg GpuContext.peakMemoryUsage h :)

/-! ## Memory of lists of clients -/

theorem memoryOf_perm {l' : List ClientId} (h : l.Perm l') : memoryOf s l = memoryOf s l' :=
  (h.map _).sum_eq

theorem memoryOf_cons (s : Sched) (c : ClientId) (l : List ClientId) :
    memoryOf s (c :: l) = (s.client c).memoryAllocated + memoryOf s l := rfl

theorem memoryOf_append (s : Sched) (l l' : List ClientId) :
    memoryOf s (l ++ l') = memoryOf s l + memoryOf s l' := by
  simp [memoryOf]

theorem memoryOf_le_of_subperm {l' : List ClientId} (h : l.Subperm l') :
    memoryOf s l ≤ memoryOf s l' := by
  obtain ⟨m, hperm, hsub⟩ := h
  rw [← memoryOf_perm hperm]
  exact (hsub.map _).sum_le_sum fun _ _ => Nat.zero_le _

/-! ## Where the clients of a standing are -/

/-- In the course of the handler that began to grant in `p`, the clients that do not wait run
on, and the others run or wait; the running total counts those who run. -/
structure Placed (s₀ : Sched) (x : CtxId) (p : Standing) (s : Sched) : Prop where
  fixed : (s.ctx x).fixed = (s₀.ctx x).fixed
  static : ∀ c, (s.client c).static = (s₀.client c).static
  lock : (s.ctx x).runningList ≠ [] → (s.ctx x).lockHeld = true
  split : ∃ l, (s.ctx x).runningList.Perm (p.staying ++ l) ∧
    (s.ctx x).runningMemoryUsage = p.base s₀ + memoryOf s₀ l ∧
    (l ++ (s.ctx x).pending).Subperm p.movable

theorem Standing.mem_pending_of_movable (h : c ∈ p.movable) : c ∈ p.pending := by
  rcases List.mem_append.mp h with hagain | hpending
  · simpa using (List.mem_filter.mp hagain).2
  · exact hpending

theorem Standing.notMem_staying (h : c ∈ p.pending) : c ∉ p.staying := by
  intro hc
  have hnot := (List.mem_filter.mp hc).2
  simp [h] at hnot

/-- A handler begins with the clients placed as the standing says. -/
theorem Placed.begin (hample : p.Ample cfg s₀ x) (hfixed : (s.ctx x).fixed = (s₀.ctx x).fixed)
    (hstatic : ∀ c, (s.client c).static = (s₀.client c).static)
    (hlock : (s.ctx x).runningList ≠ [] → (s.ctx x).lockHeld = true)
    (hrunning : (s.ctx x).runningList = p.running)
    (husage : (s.ctx x).runningMemoryUsage = p.usage)
    (hpending : (s.ctx x).pending.Subperm p.pending) : Placed s₀ x p s := by
  refine ⟨hfixed, hstatic, hlock, p.again, ?_, ?_, (List.subperm_append_left _).mpr hpending⟩
  · rw [hrunning]
    have hperm := List.filter_append_perm (· ∈ p.pending) p.running
    refine hperm.symm.trans (List.perm_append_comm.trans ?_)
    simp [Standing.staying, Standing.again]
  · rw [husage, Standing.base]
    have := hample.1
    omega

/-- A function with a known effect that neither grants nor takes anybody out of the running
list. -/
theorem Placed.of_pending {table : LockTable ClientId} {lock : Bool} {run : ClientId → Bool}
    {clients : List ClientId} {sent : List Sent} (hs : Placed s₀ x p s)
    (h : Effect x s t table lock (s.ctx x).runningMemoryUsage run clients sent)
    (hrunning : table.running = (s.ctx x).runningList)
    (hlock : (s.ctx x).runningList ≠ [] → lock = true)
    (hpending : (table.requests ++ table.waiting).Subperm (s.ctx x).pending) :
    Placed s₀ x p t := by
  have hsame : (t.ctx x).runningList = (s.ctx x).runningList :=
    (congrArg LockTable.running h.table_eq).trans hrunning
  have hqueues : (t.ctx x).pending = table.requests ++ table.waiting := by
    rw [← h.table_eq]
    rfl
  obtain ⟨l, hperm, husage, hsub⟩ := hs.split
  refine ⟨h.fixed.trans hs.fixed, fun c => (h.static c).trans (hs.static c), ?_, l, ?_, ?_, ?_⟩
  · rw [hsame, h.lock_eq]
    exact hlock
  · rwa [hsame]
  · rw [h.memory_eq, husage]
  · rw [hqueues]
    exact ((List.subperm_append_left l).mpr hpending).trans hsub

theorem Placed.mem_movable (hs : Placed s₀ x p s) (hc : c ∈ (s.ctx x).pending) :
    c ∈ p.movable := by
  obtain ⟨l, -, -, hsub⟩ := hs.split
  exact hsub.subset (List.mem_append_right l hc)

/-- The memory test depends on the running total, the lock flag and what no handler changes. -/
theorem admittedAt_of_canRun {usage : ℕ} {lock : Bool} (hs : Placed s₀ x p s)
    (husage : (s.ctx x).runningMemoryUsage = usage)
    (hlock : lock = true → (s.ctx x).lockHeld = true)
    (hok : canRunWithMemory cfg s x c = true) : admittedAt cfg s₀ x c usage lock = true := by
  have hmemory : (s.client c).memoryAllocated = (s₀.client c).memoryAllocated :=
    memory_of_static (hs.static c)
  have hover : (s.ctx x).memoryOverloaded = (s₀.ctx x).memoryOverloaded :=
    (congrArg GpuContext.memoryOverloaded hs.fixed :)
  have htotal : (s.ctx x).totalMemory = (s₀.ctx x).totalMemory :=
    (congrArg GpuContext.totalMemory hs.fixed :)
  have hsafe : safeLimit cfg (s.ctx x) = safeLimit cfg (s₀.ctx x) := by
    rw [safeLimit, safeLimit, htotal]
  have hfree : (s.ctx x).lockHeld = false → lock = false := by
    intro hno
    by_contra hyes
    rw [hlock (by simpa using hyes)] at hno
    cases hno
  unfold canRunWithMemory at hok
  simp only [hover, husage, hmemory, hsafe] at hok
  unfold admittedAt canRunWithMemory
  simp only [Sched.modifyCtx_ctx_self, Sched.modifyCtx_client, safeLimit] at hok ⊢
  cases hmode : cfg.schedulingMode <;> rw [hmode] at hok <;> grind

/-- What the standing lets run together fits below the peak. -/
theorem Standing.Ample.fits (hample : p.Ample cfg s x) (hsub : (c :: l).Subperm p.movable)
    (hok : admittedAt cfg s x c (p.base s + memoryOf s l) !(p.staying ++ l).isEmpty = true) :
    p.base s + memoryOf s (c :: l) ≤ (s.ctx x).peakMemoryUsage := by
  obtain ⟨m, hm, hsublist⟩ := hsub
  have hothers : (m.erase c).Perm l := by
    simpa using hm.erase c
  have hidle : (p.staying ++ m.erase c).isEmpty = (p.staying ++ l).isEmpty := by
    rw [Bool.eq_iff_iff, List.isEmpty_iff, List.isEmpty_iff, List.append_eq_nil_iff,
      List.append_eq_nil_iff]
    refine and_congr_right' ⟨fun h => ?_, fun h => ?_⟩
    · rw [h] at hothers
      exact hothers.nil_eq.symm
    · rw [h] at hothers
      exact hothers.eq_nil
  rw [← memoryOf_perm hm]
  refine hample.2.2 m (List.mem_sublists.mpr hsublist) c (hm.mem_iff.mpr (by simp)) ?_
  rwa [memoryOf_perm hothers, hidle]

theorem Standing.Ample.room (hample : p.Ample cfg s x) (hsub : l.Subperm p.movable) :
    p.base s + memoryOf s l < sizeMod := by
  have hle := memoryOf_le_of_subperm (s := s) hsub
  rw [movable, memoryOf_append] at hle
  have hagain := hample.1
  have hroom := hample.2.1
  unfold base
  omega

/-- What fits does not depend on anything but the context and the memory of the clients. -/
theorem Standing.Ample.congr (h : p.Ample cfg s x) (hctx : t.ctx x = s.ctx x)
    (hmemories : memories t = memories s) : p.Ample cfg t x := by
  have hsum : ∀ l, memoryOf t l = memoryOf s l := fun l => by rw [memoryOf, memoryOf, hmemories]
  have hmemory : ∀ d, (t.client d).memoryAllocated = (s.client d).memoryAllocated :=
    congrFun hmemories
  have hadmitted : ∀ d usage lock,
      admittedAt cfg t x d usage lock = admittedAt cfg s x d usage lock := by
    intro d usage lock
    simp [admittedAt, canRunWithMemory, hctx, hmemory]
  simp only [Ample, base, hsum, hadmitted, hctx] at h ⊢
  exact h

/-- Nobody stands on a new context. -/
theorem Standing.ample_nobody : Standing.Ample ⟨[], 0, []⟩ cfg s x := by
  refine ⟨le_rfl, by simp [memoryOf, sizeMod], fun l hl c hc => ?_⟩
  rw [show l = [] by simpa [movable, again] using hl] at hc
  cases hc

/-- A grant that the memory test allows keeps the clients placed, and the total within the
peak. -/
theorem Placed.grant {rest : List ClientId} (hs : Placed s₀ x p s) (hample : p.Ample cfg s₀ x)
    (hreq : (s.ctx x).requests = c :: rest) (hok : canRunWithMemory cfg s x c = true) :
    Placed s₀ x p (grant env x c (sendMessage env c .lockOk s)) ∧
      ((grant env x c (sendMessage env c .lockOk s)).ctx x).runningMemoryUsage ≤
        ((grant env x c (sendMessage env c .lockOk s)).ctx x).peakMemoryUsage := by
  have heff := grantSent_effect env (mem_entries_of_requests (c := c) (by rw [hreq]; simp))
  obtain ⟨l, hperm, husage, hsub⟩ := hs.split
  have hmemory : (s.client c).memoryAllocated = (s₀.client c).memoryAllocated :=
    memory_of_static (hs.static c)
  have hpending : (s.ctx x).pending = c :: (rest ++ (s.ctx x).waitQueue) := by
    simp [GpuContext.pending, hreq]
  -- With its request at the head, `c` joins those of the standing that run by now.
  have hmoved : (c :: l ++ (rest ++ (s.ctx x).waitQueue)).Subperm p.movable := by
    rw [hpending] at hsub
    exact List.perm_middle.symm.subperm.trans hsub
  have hchosen : (c :: l).Subperm p.movable :=
    (List.sublist_append_left _ _).subperm.trans hmoved
  have hfit : p.base s₀ + memoryOf s₀ (c :: l) ≤ (s₀.ctx x).peakMemoryUsage := by
    refine hample.fits hchosen (admittedAt_of_canRun hs husage (fun hbusy => hs.lock ?_) hok)
    intro hidle
    rw [hidle] at hperm
    simp [hperm.nil_eq.symm] at hbusy
  have htotal : ((s.ctx x).runningMemoryUsage + (s.client c).memoryAllocated) % sizeMod
      = p.base s₀ + memoryOf s₀ (c :: l) := by
    have hroom := hample.room hchosen
    rw [memoryOf_cons] at hroom ⊢
    rw [husage, hmemory, Nat.mod_eq_of_lt (by omega)]
    omega
  generalize XpuShare.grant env x c (sendMessage env c .lockOk s) = t at heff ⊢
  have hrunning : (t.ctx x).runningList = (s.ctx x).runningList ++ [c] :=
    congrArg LockTable.running heff.table_eq
  have hqueues : (t.ctx x).pending = (s.ctx x).requests.erase c ++ (s.ctx x).waitQueue :=
    congrArg (fun table : LockTable ClientId => table.requests ++ table.waiting) heff.table_eq
  have hpeak : (t.ctx x).peakMemoryUsage = (s₀.ctx x).peakMemoryUsage :=
    peak_of_fixed (heff.fixed.trans hs.fixed)
  refine ⟨⟨heff.fixed.trans hs.fixed, fun d => (heff.static d).trans (hs.static d),
    fun _ => heff.lock_eq, c :: l, ?_, ?_, ?_⟩, ?_⟩
  · rw [hrunning]
    refine (hperm.append_right [c]).trans ?_
    rw [List.append_assoc]
    exact (List.perm_append_singleton c l).append_left _
  · rw [heff.memory_eq, htotal]
  · rw [hqueues, hreq, List.erase_cons_head]
    exact hmoved
  · rw [heff.memory_eq, htotal, hpeak]
    exact hfit

/-- A client that waits and leaves the running list gives back what the total counts for it. -/
theorem Placed.leave (hs : Placed s₀ x p s) (hc : c ∈ (s.ctx x).pending) :
    Placed s₀ x p (leaveRunning cfg env x c s) := by
  by_cases hrun : c ∈ (s.ctx x).runningList
  · have heff := leaveRunning_effect cfg env hrun
    obtain ⟨l, hperm, husage, hsub⟩ := hs.split
    have hstay : c ∉ p.staying :=
      Standing.notMem_staying (Standing.mem_pending_of_movable (hs.mem_movable hc))
    have hcl : c ∈ l := (List.mem_append.mp (hperm.subset hrun)).resolve_left hstay
    have hmemory : (s.client c).memoryAllocated = (s₀.client c).memoryAllocated :=
      memory_of_static (hs.static c)
    have hsum : memoryOf s₀ l = (s₀.client c).memoryAllocated + memoryOf s₀ (l.erase c) :=
      memoryOf_perm (List.perm_cons_erase hcl)
    have hrunning : ((leaveRunning cfg env x c s).ctx x).runningList
        = (s.ctx x).runningList.erase c := congrArg LockTable.running heff.table_eq
    have hpending : ((leaveRunning cfg env x c s).ctx x).pending = (s.ctx x).pending :=
      congrArg (fun table : LockTable ClientId => table.requests ++ table.waiting) heff.table_eq
    refine ⟨heff.fixed.trans hs.fixed, fun d => (heff.static d).trans (hs.static d), ?_,
      l.erase c, ?_, ?_, ?_⟩
    · intro hne
      rw [hrunning] at hne
      rw [heff.lock_eq, lockAfter, hs.lock (List.ne_nil_of_mem hrun)]
      simpa using hne
    · rw [hrunning, ← List.erase_append_right _ hstay]
      exact hperm.erase c
    · rw [heff.memory_eq, memoryAfter, husage, hmemory, hsum]
      split <;> omega
    · rw [hpending]
      exact ((List.erase_sublist.append_right _).subperm).trans hsub
  · rw [leaveRunning_of_notMem cfg env hrun]
    refine hs.of_pending (clearLock_effect x s) rfl (fun hne => ?_) (List.Subperm.refl _)
    simp [clearedLock, hne, hs.lock hne]

theorem Placed.window (hs : Placed s₀ x p s) : Placed s₀ x p (freshWindow cfg env x s) :=
  hs.of_pending (freshWindow_effect cfg env x s) rfl hs.lock (List.Subperm.refl _)

theorem Placed.withdraw (hs : Placed s₀ x p s) (c : ClientId) :
    Placed s₀ x p (dropPending x c s) := by
  refine hs.of_pending (dropPending_effect x c s) rfl hs.lock ?_
  exact (List.filter_sublist.append List.filter_sublist).subperm

theorem Placed.defer {rest : List ClientId} (hs : Placed s₀ x p s)
    (hreq : (s.ctx x).requests = c :: rest) : Placed s₀ x p (moveToWaitQueue env x c s) := by
  by_cases hwait : c ∈ (s.ctx x).waitQueue
  · rw [moveToWaitQueue_of_mem env hwait]
    exact hs
  · refine hs.of_pending (moveToWaitQueue_effect env hwait) rfl hs.lock (List.Perm.subperm ?_)
    simp only [LockTable.defer, GpuContext.table, GpuContext.pending, hreq,
      List.erase_cons_head, ← List.append_assoc]
    exact List.perm_append_singleton c _

theorem Placed.checkWaitQueueFrom {front back : List ClientId} (hs : Placed s₀ x p s)
    (hwait : (s.ctx x).waitQueue = front ++ back) :
    Placed s₀ x p (checkWaitQueueFrom cfg env x front back s) := by
  induction back generalizing front s with
  | nil => exact hs
  | cons c back ih =>
      have hfresh : Placed s₀ x p (canRun cfg env x c s).2 := hs.window
      have hsame : ((canRun cfg env x c s).2.ctx x).waitQueue = front ++ c :: back :=
        (freshWindow_field cfg env x s GpuContext.waitQueue fun _ _ => rfl).trans hwait
      rw [XpuShare.checkWaitQueueFrom]
      split
      · refine hfresh.of_pending (promote_effect env x front c back _) rfl hfresh.lock
          (List.Perm.subperm ?_)
        simp only [LockTable.promote, GpuContext.table, GpuContext.pending, hsame]
        rw [List.cons_append, ← List.append_assoc, ← List.append_assoc]
        exact List.perm_middle.symm
      · exact ih hfresh (by rw [hsame]; simp)

theorem Placed.checkWaitQueue (hs : Placed s₀ x p s) :
    Placed s₀ x p (checkWaitQueue cfg env x s) :=
  hs.checkWaitQueueFrom rfl

theorem Placed.refill (hs : Placed s₀ x p s) : Placed s₀ x p (refill cfg env x s) := by
  unfold XpuShare.refill
  split
  · exact hs.checkWaitQueue
  · exact hs

end XpuShare
