import XpuShare.Verification.Accounting.Attended
import XpuShare.Verification.Promotion.Admission

/-! # Missed promotions

`remove_req` looks for somebody to admit only when the running list has become empty, and
MEM_UPDATE never does. Room that a client gives back beside others is offered to nobody. For
each event the condition below says exactly when a pending client is passed over, except for
a client that disconnects and leaves nobody running; there it is sufficient. -/

namespace XpuShare

variable {cfg : Config} {env : Env} {b : ℤ} {x : CtxId} {s t u : Sched} {c d : ClientId}

/-- The events after which nobody pending on `x` should be admissible: a request, a release
or a disconnect of a client of `x`, or a smaller memory figure of one that runs there. -/
def Prompts (x : CtxId) (s : Sched) : Event → Prop
  | .message c .reqLock | .message c .lockReleased | .disconnect c =>
      (s.client c).context = some x
  | .message c (.memUpdate v) =>
      (s.client c).context = some x ∧ c ∈ (s.ctx x).runningList ∧
        v < (s.client c).memoryAllocated
  | _ => False

/-- The state with another running total on `x`. -/
def Sched.withUsage (s : Sched) (x : CtxId) (usage : ℕ) : Sched :=
  s.modifyCtx x fun g => { g with runningMemoryUsage := usage }

/-- Whether `can_run` would admit `d` at reading `b` if the running clients held `usage` bytes. -/
def admitsBeside (cfg : Config) (env : Env) (b : ℤ) (x : CtxId) (usage : ℕ) (d : ClientId)
    (s : Sched) : Bool :=
  (canRun cfg (env.frozen b) x d (s.withUsage x usage)).1

/-- The state with `c` taken out of the client list. -/
def Sched.without (s : Sched) (c : ClientId) : Sched :=
  { s with clients := s.clients.filter (· ≠ c) }

/-- The running total when the figure `old` of one client is replaced by `new`. -/
def usageWith (g : GpuContext) (old new : ℕ) : ℕ :=
  ((if old ≤ g.runningMemoryUsage then g.runningMemoryUsage - old else g.runningMemoryUsage)
    + new) % sizeMod

/-- The running total without the client, if it runs. -/
def usageLeft (x : CtxId) (s : Sched) (c : ClientId) : ℕ :=
  if c ∈ (s.ctx x).runningList then
    (s.ctx x).runningMemoryUsage - (s.client c).memoryAllocated
  else (s.ctx x).runningMemoryUsage

/-- When no client is passed over. A client that stops running beside others leaves no room
for a pending one. A smaller figure leaves none either, or still exceeds the safe limit. A
client that disconnects last takes no share of the quotas with it that keeps a pending client
from running. -/
def NobodyPassedOver (cfg : Config) (env : Env) (b : ℤ) (x : CtxId) (s : Sched) : Event → Prop
  | .message c .lockReleased => (s.ctx x).runningList.erase c ≠ [] →
      ∀ d ∈ (s.ctx x).pending,
        admitsBeside cfg env b x (usageLeft x s c) d s = false
  | .message c (.memUpdate v) =>
      safeLimit cfg (s.ctx x) < usageWith (s.ctx x) (s.client c).memoryAllocated v ∨
        ∀ d ∈ (s.ctx x).pending, admitsBeside cfg env b x
          (usageWith (s.ctx x) (s.client c).memoryAllocated v) d s = false
  | .disconnect c =>
      if (s.ctx x).runningList.erase c ≠ [] then
        ∀ d ∈ (s.ctx x).pending, d ≠ c →
          admitsBeside cfg env b x (usageLeft x s c) d (s.without c) = false
      else ∀ d ∈ (s.ctx x).pending, d ≠ c →
        quotaAllows cfg (freshWindow cfg (env.frozen b) x s) x d = false →
        quotaAllows cfg ((freshWindow cfg (env.frozen b) x s).without c) x d = false
  | _ => True

/-- The client of the event, if it disconnects, leaves somebody running. -/
def LeavesRunner (x : CtxId) (s : Sched) : Event → Prop
  | .disconnect c => (s.ctx x).runningList.erase c ≠ []
  | _ => True

/-! ## Leaving the running list -/

theorem Path.nodup {D : Exits} (h : Path cfg env D x s t) (hs : (s.ctx x).entries.Nodup) :
    (t.ctx x).entries.Nodup := by
  refine h.invariant (I := fun u => (u.ctx x).entries.Nodup) (fun u v hb hu => ?_) hs
  obtain ⟨l, hperm, hsub⟩ := hb.entries_subperm
  exact hperm.nodup_iff.mp (hu.sublist hsub)

/-- What `can_run` finds after a client has left the running list to others. -/
theorem leaveRunning_answer (cfg : Config) (env : Env) (hs : Attended s)
    (hleft : (s.ctx x).runningList.erase c ≠ []) (hd : d ∈ (s.ctx x).pending) :
    SameAnswer cfg x d (s.withUsage x (usageLeft x s c)) (leaveRunning cfg env x c s) := by
  have hrun := notMem_running_of_pending (hs.single x) hd
  obtain ⟨htable, hclients, -⟩ := leaveRunning_spec cfg env x c s
  have hrunning : ((leaveRunning cfg env x c s).ctx x).runningList
      = (s.ctx x).runningList.erase c := congrArg LockTable.running htable
  have hblock : Block cfg env anyone x s (leaveRunning cfg env x c s) := .leave s c trivial
  have hothers := leaveRunning_others cfg env c hrun
  have halike := hblock.frame.alike hclients hothers.1 hothers.2
  have hfixed := hblock.frame.fixed
  have hheld : (s.ctx x).lockHeld = true := by
    refine (hs.lock x).mpr fun hnil => hleft ?_
    rw [hnil]
    rfl
  have hfigures : ((leaveRunning cfg env x c s).ctx x).lockHeld = true ∧
      ((leaveRunning cfg env x c s).ctx x).runningMemoryUsage = usageLeft x s c := by
    by_cases hc : c ∈ (s.ctx x).runningList
    · have heff := leaveRunning_effect cfg env hc
      refine ⟨?_, ?_⟩
      · rw [heff.lock_eq]
        simp [lockAfter, hheld, hleft]
      · rw [heff.memory_eq, usageLeft, if_pos hc, memoryAfter]
        split <;> omega
    · have heff := clearLock_effect x s
      have hne : (s.ctx x).runningList ≠ [] := by rwa [List.erase_of_not_mem hc] at hleft
      rw [leaveRunning_of_notMem cfg env hc]
      refine ⟨?_, ?_⟩
      · rw [heff.lock_eq]
        simp [clearedLock, hheld, hne]
      · rw [heff.memory_eq, usageLeft, if_neg hc]
  refine ⟨?_, by simpa [Sched.withUsage] using hrun, ?_, ?_⟩
  · exact ⟨halike.clients, halike.context, halike.coreLimit, halike.usage, halike.throttled,
      by simpa [Sched.withUsage] using halike.start⟩
  · rw [hrunning]
    exact fun h => hrun (List.mem_of_mem_erase h)
  · refine canRunWithMemory_congr ?_ ?_ ?_ ?_ (memory_of_static (hblock.frame.static d))
    · rw [hfigures.1, Sched.withUsage, Sched.modifyCtx_ctx_self]
      exact hheld.symm
    · rw [hfigures.2, Sched.withUsage, Sched.modifyCtx_ctx_self]
    · rw [Sched.withUsage, Sched.modifyCtx_ctx_self]
      exact (congrArg GpuContext.memoryOverloaded hfixed :)
    · rw [Sched.withUsage, Sched.modifyCtx_ctx_self]
      exact (congrArg GpuContext.totalMemory hfixed :)

/-- While others run, `remove_req` schedules nobody. -/
theorem removeReq_busy {schedule : CtxId → Sched → Option Sched}
    (hctx : (s.client c).context = some x) (hleft : (s.ctx x).runningList.erase c ≠ [])
    (h : removeReq cfg env schedule c s = some t) :
    t = dropPending x c (leaveRunning cfg env x c s) := by
  obtain ⟨htable, -, -⟩ := leaveRunning_spec cfg env x c s
  have hrunning : ((leaveRunning cfg env x c s).ctx x).runningList
      = (s.ctx x).runningList.erase c := congrArg LockTable.running htable
  simp only [removeReq, hctx, hrunning, if_neg hleft, Option.some.injEq] at h
  exact h.symm

/-- When the last client leaves, `remove_req` schedules until nobody may run. -/
theorem removeReq_last {n : ℕ} (hmode : cfg.schedulingMode ≠ .serial) (hsent : env.AllSent)
    (hb : Belongs x s) (hctx : (s.client c).context = some x)
    (hleft : (s.ctx x).runningList.erase c = [])
    (h : removeReq cfg (env.frozen b) (trySchedule cfg (env.frozen b) n) c s = some t) :
    ∃ mid, Path cfg (env.frozen b) nobody x (leaveRunning cfg (env.frozen b) x c s) mid ∧
      Exhausted cfg b x mid ∧ t = dropPending x c mid := by
  obtain ⟨htable, -, -⟩ := leaveRunning_spec cfg (env.frozen b) x c s
  have hrunning : ((leaveRunning cfg (env.frozen b) x c s).ctx x).runningList
      = (s.ctx x).runningList.erase c := congrArg LockTable.running htable
  have hleave : Path cfg (env.frozen b) anyone x s (leaveRunning cfg (env.frozen b) x c s) :=
    (Block.leave s c trivial).path
  simp only [removeReq, hctx, hrunning, if_pos hleft, Option.map_eq_some_iff] at h
  obtain ⟨mid, hmid, rfl⟩ := h
  have hcheck : Path cfg (env.frozen b) nobody x _
      (checkWaitQueue cfg (env.frozen b) x (leaveRunning cfg (env.frozen b) x c s)) :=
    checkWaitQueue_path _
  have hsent' : (env.frozen b).AllSent := hsent
  have hsched := trySchedule_sent hsent' ((hb.path hleave).path hcheck) hmid
  exact ⟨mid, hcheck.trans hsched, trySchedule_exhausted hmode hsent hmid, rfl⟩

/-! ## After the removal -/

theorem mem_pending_dropPending :
    d ∈ ((dropPending x c s).ctx x).pending ↔ d ∈ (s.ctx x).pending ∧ d ≠ c := by
  simp only [GpuContext.pending, dropPending, Sched.modifyCtx_ctx_self, List.mem_append,
    List.mem_filter, decide_eq_true_eq]
  tauto

theorem pending_leaveRunning (cfg : Config) (env : Env) (x : CtxId) (c : ClientId) (s : Sched) :
    ((leaveRunning cfg env x c s).ctx x).pending = (s.ctx x).pending := by
  obtain ⟨htable, -, -⟩ := leaveRunning_spec cfg env x c s
  exact congrArg (fun table : LockTable ClientId => table.requests ++ table.waiting) htable

/-- `if (!ctx->lock_held) try_schedule(ctx)` does nothing, or goes on until nobody may run. -/
theorem scheduleIfFree_exhausted {n : ℕ} (hmode : cfg.schedulingMode ≠ .serial)
    (hsent : env.AllSent) (h : scheduleIfFree cfg (env.frozen b) n x s = some t) :
    t = s ∧ (s.ctx x).lockHeld = true ∨ Exhausted cfg b x t := by
  unfold scheduleIfFree at h
  split at h
  · rename_i hheld
    exact Or.inl ⟨(Option.some.inj h).symm, hheld⟩
  · exact Or.inr (trySchedule_exhausted hmode hsent h)

/-- The lock stays held while others run. -/
theorem leaveRunning_lockHeld (cfg : Config) (env : Env) (hwf : WellFormed s) (hs : Attended s)
    (hleft : (s.ctx x).runningList.erase c ≠ []) :
    ((leaveRunning cfg env x c s).ctx x).lockHeld = true := by
  obtain ⟨htable, -, -⟩ := leaveRunning_spec cfg env x c s
  have hblock : Block cfg env anyone x s (leaveRunning cfg env x c s) := .leave s c trivial
  rw [(hblock.attended hwf hs).lock x]
  rwa [show ((leaveRunning cfg env x c s).ctx x).runningList = _ from
    congrArg LockTable.running htable]

section Events

variable {n : ℕ} (hmode : cfg.schedulingMode ≠ .serial) (hsent : env.AllSent)
  (hwf : WellFormed s) (hs : Attended s)

include hmode hsent hwf hs

theorem lockReleased_noneAdmissible_iff (hctx : (s.client c).context = some x)
    (hc : c ∈ (s.ctx x).runningList) (h : lockReleased cfg (env.frozen b) n c s = some t) :
    NoneAdmissible cfg env b x t ↔
      NobodyPassedOver cfg env b x s (.message c .lockReleased) := by
  simp only [lockReleased, hctx, Option.bind_eq_some_iff] at h
  obtain ⟨u, hu, hut⟩ := h
  have hcases := scheduleIfFree_exhausted hmode hsent hut
  by_cases hleft : (s.ctx x).runningList.erase c = []
  · refine iff_of_true ?_ fun hne => absurd hleft hne
    obtain ⟨mid, hpath, hmid, rfl⟩ := removeReq_last hmode hsent (hwf.belongs x) hctx hleft hu
    rcases hcases with ⟨rfl, -⟩ | hend
    · have hleave : Path cfg (env.frozen b) anyone x s
          (leaveRunning cfg (env.frozen b) x c s) := (Block.leave s c trivial).path
      intro d hd
      have hd' := mem_pending_dropPending.mp hd
      have hnodup := hpath.nodup (hleave.nodup (hs.single x))
      have hsame : SameAnswer cfg x d mid (dropPending x c mid) :=
        SameAnswer.dropPending c (notMem_running_of_pending hnodup hd'.1)
      rw [hsame.canRun_eq env]
      exact hmid.noneAdmissible env d hd'.1
    · exact hend.noneAdmissible env
  · obtain rfl := removeReq_busy hctx hleft hu
    have hheld := leaveRunning_lockHeld cfg (env.frozen b) hwf hs hleft
    have hstay : t = dropPending x c (leaveRunning cfg (env.frozen b) x c s) := by
      have hdrop : ((dropPending x c (leaveRunning cfg (env.frozen b) x c s)).ctx x).lockHeld
          = true := by simpa [dropPending] using hheld
      rw [scheduleIfFree, if_pos hdrop] at hut
      exact (Option.some.inj hut).symm
    subst hstay
    have hanswer : ∀ d ∈ (s.ctx x).pending, (canRun cfg (env.frozen b) x d
        (dropPending x c (leaveRunning cfg (env.frozen b) x c s))).1
          = admitsBeside cfg env b x (usageLeft x s c) d s := by
      intro d hd
      have hleave := leaveRunning_answer cfg (env.frozen b) hs hleft hd
      exact (hleave.trans (SameAnswer.dropPending c hleave.idle')).canRun_eq env
    refine ⟨fun hnone _ d hd => ?_, fun hsafe d hd => ?_⟩
    · rw [← hanswer d hd]
      refine hnone d (mem_pending_dropPending.mpr ⟨?_, ?_⟩)
      · rwa [pending_leaveRunning]
      · rintro rfl
        exact notMem_running_of_pending (hs.single x) hd hc
    · have hd' := (mem_pending_dropPending.mp hd).1
      rw [pending_leaveRunning] at hd'
      rw [hanswer d hd']
      exact hsafe hleft d hd'

omit hmode hsent in
/-- A client that disconnects and leaves others running. -/
theorem disconnect_beside_iff (hctx : (s.client c).context = some x)
    (hleft : (s.ctx x).runningList.erase c ≠ [])
    (h : disconnect cfg (env.frozen b) n c s = some t) :
    NoneAdmissible cfg env b x t ↔ NobodyPassedOver cfg env b x s (.disconnect c) := by
  simp only [disconnect, hctx, deleteClient, Option.bind_eq_some_iff] at h
  obtain ⟨deleted, ⟨u, hu, hdeleted⟩, hut⟩ := h
  obtain rfl := removeReq_busy hctx hleft hu
  have hgone : deleted = (dropPending x c (leaveRunning cfg (env.frozen b) x c s)).without c :=
    unlinkClient_eq hdeleted
  have hleave : Block cfg (env.frozen b) anyone x s (leaveRunning cfg (env.frozen b) x c s) :=
    .leave s c trivial
  have hheld := leaveRunning_lockHeld cfg (env.frozen b) hwf hs hleft
  generalize hv : leaveRunning cfg (env.frozen b) x c s = v at *
  have hon : v.schedulerOn = true := hleave.frame.schedulerOn.trans hs.on
  have hstay : t = (dropPending x c v).without c := by
    have hon' : deleted.schedulerOn = true := by
      rw [hgone]
      exact hon
    have hdrop : (deleted.ctx x).lockHeld = true := by
      rw [hgone]
      simpa [dropPending, Sched.without] using hheld
    rw [if_pos hon', scheduleIfFree, if_pos hdrop, hgone] at hut
    exact (Option.some.inj hut).symm
  subst hstay
  have hanswer : ∀ d ∈ (s.ctx x).pending,
      (canRun cfg (env.frozen b) x d ((dropPending x c v).without c)).1
        = admitsBeside cfg env b x (usageLeft x s c) d (s.without c) := by
    intro d hd
    have hanswer := leaveRunning_answer cfg (env.frozen b) hs hleft hd
    rw [hv] at hanswer
    exact ((hanswer.trans (SameAnswer.dropPending c hanswer.idle')).unlink c).canRun_eq env
  have hpending : (v.ctx x).pending = (s.ctx x).pending := by
    rw [← hv, pending_leaveRunning]
  simp only [NobodyPassedOver, if_pos hleft]
  refine ⟨fun hnone d hd hdc => ?_, fun hsafe d hd => ?_⟩
  · rw [← hanswer d hd]
    exact hnone d (mem_pending_dropPending.mpr ⟨hpending ▸ hd, hdc⟩)
  · obtain ⟨hd', hdc⟩ := mem_pending_dropPending.mp hd
    rw [hpending] at hd'
    rw [hanswer d hd']
    exact hsafe d hd' hdc

/-- A client that disconnects and leaves nobody running. -/
theorem disconnect_last (hctx : (s.client c).context = some x)
    (hleft : (s.ctx x).runningList.erase c = [])
    (hsafe : NobodyPassedOver cfg env b x s (.disconnect c))
    (h : disconnect cfg (env.frozen b) n c s = some t) : NoneAdmissible cfg env b x t := by
  simp only [disconnect, hctx, deleteClient, Option.bind_eq_some_iff] at h
  obtain ⟨deleted, ⟨u, hu, hdeleted⟩, hut⟩ := h
  obtain ⟨mid, hpath, hmid, rfl⟩ := removeReq_last hmode hsent (hwf.belongs x) hctx hleft hu
  obtain rfl : deleted = (dropPending x c mid).without c := unlinkClient_eq hdeleted
  have hleave : Block cfg (env.frozen b) anyone x s (leaveRunning cfg (env.frozen b) x c s) :=
    .leave s c trivial
  have hon : mid.schedulerOn = true :=
    hpath.frame.schedulerOn.trans (hleave.frame.schedulerOn.trans hs.on)
  have hon' : ((dropPending x c mid).without c).schedulerOn = true := hon
  rw [if_pos hon'] at hut
  rcases scheduleIfFree_exhausted hmode hsent hut with ⟨rfl, -⟩ | hend
  · intro d hd
    obtain ⟨hd', hdc⟩ := mem_pending_dropPending.mp hd
    have hwaiting : d ∈ (mid.ctx x).waitQueue := by
      rwa [GpuContext.pending, hmid.requests, List.nil_append] at hd'
    have hidle := notMem_running_of_pending
      (hpath.nodup (hleave.path.nodup (hs.single x))) hd'
    have hcur := hmid.current (List.ne_nil_of_mem hwaiting)
    have hpending : d ∈ (s.ctx x).pending := by
      rw [← pending_leaveRunning cfg (env.frozen b) x c s]
      exact hpath.pending_subset hd'
    have hrun := notMem_running_of_pending (hs.single x) hpending
    obtain ⟨hleftIdle, hmidAlike⟩ := hpath.alike_fresh hidle
    obtain ⟨-, hclients, -⟩ := leaveRunning_spec cfg (env.frozen b) x c s
    have hothers := leaveRunning_others cfg (env.frozen b) c hrun
    have halike : Alike x d (freshWindow cfg (env.frozen b) x s) mid.tick := by
      rw [freshWindow_of_current env hcur] at hmidAlike
      exact ((hleave.frame.alike hclients hothers.1 hothers.2).fresh env hrun hleftIdle).trans
        hmidAlike
    have hcur' : Current cfg b x ((dropPending x c mid).without c) :=
      hcur.congr (by simp [Sched.without, dropPending])
    have hrefused := hmid.refused d hwaiting
    have hmemory : canRunWithMemory cfg ((dropPending x c mid).without c) x d
        = canRunWithMemory cfg mid x d := (SameAnswer.dropPending c hidle).memory
    rw [canRun, freshWindow_of_current env hcur']
    change canRunTest cfg ((dropPending x c mid).without c) x d = false
    rw [canRunTest, Bool.and_eq_false_iff] at hrefused ⊢
    rw [hmemory]
    rcases hrefused with hquota | hfull
    · left
      rw [NobodyPassedOver, if_neg (not_not.mpr hleft)] at hsafe
      have hbefore : quotaAllows cfg (freshWindow cfg (env.frozen b) x s) x d = false := by
        rw [← halike.quotaAllows]
        exact hquota
      have hafter := hsafe d hpending hdc hbefore
      have hunlinked : quotaAllows cfg (mid.tick.without c) x d =
          quotaAllows cfg ((freshWindow cfg (env.frozen b) x s).without c) x d :=
        (halike.unlink c).quotaAllows
      rw [← hunlinked] at hafter
      exact hafter
    · exact Or.inr hfull
  · exact hend.noneAdmissible env

omit hmode hsent in
/-- A running client reports less memory. -/
theorem memUpdate_noneAdmissible_iff {v : ℕ} (hctx : (s.client c).context = some x)
    (hc : c ∈ (s.ctx x).runningList) :
    NoneAdmissible cfg env b x (memUpdate cfg (env.frozen b) c v s) ↔
      NobodyPassedOver cfg env b x s (.message c (.memUpdate v)) := by
  have hreg : hasRegistered s c = true := hwf.registered (by simp [hctx])
  have hrun := hs.flags x c hc
  have hheld : (s.ctx x).lockHeld = true := (hs.lock x).mpr (List.ne_nil_of_mem hc)
  have hidle : ∀ d ∈ (s.ctx x).pending, d ∉ (s.ctx x).runningList :=
    fun d hd => notMem_running_of_pending (hs.single x) hd
  have hcounted : creditMemory cfg x c v s =
      accountMemory cfg x (s.client c).memoryAllocated v (storeMemory c v s) := by
    rw [creditMemory, if_pos hrun]
  have hctxCounted : (creditMemory cfg x c v s).ctx x =
      { s.ctx x with
        runningMemoryUsage := usageWith (s.ctx x) (s.client c).memoryAllocated v
        peakMemoryUsage := max (s.ctx x).peakMemoryUsage
          (usageWith (s.ctx x) (s.client c).memoryAllocated v)
        memoryOverloaded := (s.ctx x).memoryOverloaded ||
          safeLimit cfg (s.ctx x) < usageWith (s.ctx x) (s.client c).memoryAllocated v } := by
    rw [hcounted, accountMemory, Sched.modifyCtx_ctx_self]
    rfl
  by_cases hover : safeLimit cfg (s.ctx x) < usageWith (s.ctx x) (s.client c).memoryAllocated v
  · refine iff_of_true (fun d hd => ?_) (Or.inl hover)
    have htuned : Tuned (creditMemory cfg x c v s) (memUpdate cfg (env.frozen b) c v s) := by
      rcases memUpdate_spec cfg (env.frozen b) c v s with hsame | ⟨y, hy, htuned⟩
      · simp only [memUpdate, hctx, hreg, Bool.not_true, Bool.false_eq_true, if_false, hrun,
          if_true, hcounted] at hsame ⊢
        split
        · exact forcePreemption_tuned _ x _
        · exact Tuned.refl _
      · rw [hctx] at hy
        rw [Option.some.inj hy]
        exact htuned
    have hcore := htuned.ctx x
    have hfull : canRunWithMemory cfg (memUpdate cfg (env.frozen b) c v s) x d = false := by
      rw [canRunWithMemory]
      simp [overloaded_of_core hcore, lockHeld_of_core hcore, hctxCounted, hover, hheld]
    rw [canRun, canRunTest, canRunWithMemory_fresh, hfull, Bool.and_false]
  · have hstay : memUpdate cfg (env.frozen b) c v s = creditMemory cfg x c v s := by
      simp only [memUpdate, hctx, hreg, Bool.not_true, Bool.false_eq_true, if_false, hrun,
        if_true, ← hcounted]
      rw [if_neg]
      simp [hctxCounted, hover]
    have hanswer : ∀ d ∈ (s.ctx x).pending,
        (canRun cfg (env.frozen b) x d (creditMemory cfg x c v s)).1 = admitsBeside cfg env b x
          (usageWith (s.ctx x) (s.client c).memoryAllocated v) d s := by
      intro d hd
      have hdc : d ≠ c := by
        rintro rfl
        exact hidle d hd hc
      have hclient := creditMemory_client cfg x c v s
      have hsame : (creditMemory cfg x c v s).client d = s.client d := by
        rw [hclient]
        exact Sched.modifyClient_client_ne _ _ _ _ hdc
      refine SameAnswer.canRun_eq env ⟨⟨?_, fun e => ?_, fun e => ?_, ?_, ?_, ?_⟩, ?_, ?_, ?_⟩
      · rw [hcounted]
        rfl
      · rw [hclient]
        exact storeMemory_field Client.context (fun _ _ _ => rfl) c e v s
      · rw [hclient]
        exact storeMemory_field Client.coreLimit (fun _ _ _ => rfl) c e v s
      · rw [hsame]
        rfl
      · rw [hsame]
        rfl
      · rw [hctxCounted]
        simp [Sched.withUsage]
      · simpa [Sched.withUsage] using hidle d hd
      · rw [hctxCounted]
        exact hidle d hd
      · refine canRunWithMemory_congr ?_ ?_ ?_ ?_ (by rw [hsame]; rfl)
        all_goals simp [hctxCounted, Sched.withUsage, hover]
    rw [hstay]
    have hpending : ((creditMemory cfg x c v s).ctx x).pending = (s.ctx x).pending := by
      rw [hctxCounted]
      rfl
    refine ⟨fun hnone => Or.inr fun d hd => ?_, fun hsafe d hd => ?_⟩
    · rw [← hanswer d hd]
      exact hnone d (hpending ▸ hd)
    · rw [hpending] at hd
      rw [hanswer d hd]
      exact hsafe.resolve_left hover d hd

end Events

/-! ## Handled events -/

/-- In every reachable state of a run of protocol-following clients with successful sends, in
AUTO and CONCURRENT mode: after a request, a release, a smaller memory figure or a disconnect
nobody pending may run at that clock reading, if the condition holds for the event; and for
all but a client that disconnects and leaves nobody running, only if it does. -/
theorem no_missed_promotion {e : Event} (hmode : cfg.schedulingMode ≠ .serial)
    (hsent : env.AllSent)
    (hreach : Transition.Reaches (Transition.guarded (Step cfg env) Polite) Sched.init s)
    (hpolite : Polite s e) (hprompt : Prompts x s e)
    (hstep : Step cfg (env.frozen b) s e t) :
    (NobodyPassedOver cfg env b x s e → NoneAdmissible cfg env b x t) ∧
      (LeavesRunner x s e → NoneAdmissible cfg env b x t →
        NobodyPassedOver cfg env b x s e) := by
  have hwf := wellFormed_of_reaches (hreach.mono fun _ _ _ hstep => hstep.2)
  have hs := attended_of_reaches hreach
  obtain ⟨-, n, h⟩ := hstep
  cases e with
  | message c m =>
      cases m with
      | reqLock =>
          have hctx : (s.client c).context = some x := hprompt
          have hreg : hasRegistered s c = true := hwf.registered (by simp [hctx])
          simp only [handle, processMsg, hreg, Bool.not_true, Bool.false_eq_true, if_false, hs.on,
            if_true, reqLock, hctx, hmode, false_and] at h
          have hend := trySchedule_exhausted hmode hsent h
          exact ⟨fun _ => hend.noneAdmissible env, fun _ _ => trivial⟩
      | lockReleased =>
          have hctx : (s.client c).context = some x := hprompt
          have hreg : hasRegistered s c = true := hwf.registered (by simp [hctx])
          obtain ⟨y, hy, hc⟩ := hpolite
          obtain rfl : x = y := Option.some.inj (hctx.symm.trans hy)
          simp only [handle, processMsg, hreg, Bool.not_true, Bool.false_eq_true, if_false, hs.on,
            if_true] at h
          have hiff := lockReleased_noneAdmissible_iff hmode hsent hwf hs hctx hc h
          exact ⟨hiff.mpr, fun _ => hiff.mp⟩
      | memUpdate v =>
          obtain ⟨hctx, hc, -⟩ := hprompt
          have hiff : NoneAdmissible cfg env b x _ ↔ _ :=
            memUpdate_noneAdmissible_iff (v := v) hwf hs hctx hc
          rw [← Option.some.inj h]
          exact ⟨hiff.mpr, fun _ => hiff.mp⟩
      | register m e => exact False.elim hprompt
      | schedOn => exact False.elim hprompt
      | schedOff => exact False.elim hprompt
      | setTq v => exact False.elim hprompt
      | unknown => exact False.elim hprompt
  | disconnect c =>
      have hctx : (s.client c).context = some x := hprompt
      by_cases hleft : (s.ctx x).runningList.erase c = []
      · refine ⟨fun hsafe => disconnect_last hmode hsent hwf hs hctx hleft hsafe h, ?_⟩
        exact fun hleaves => absurd hleft hleaves
      · have hiff := disconnect_beside_iff hwf hs hctx hleft h
        exact ⟨hiff.mpr, fun _ => hiff.mp⟩
  | accept garbage => exact False.elim hprompt
  | timerBegin y => exact False.elim hprompt
  | timerEnd y timedOut => exact False.elim hprompt
  | annotated id memory core => exact False.elim hprompt

/-- Three clients of which two fit side by side; the third does not fit beside either of them. -/
def crowded : List Event :=
  [.accept {}, .accept {}, .accept {}, enter 0 1, enter 1 2, enter 2 3,
    .message 0 (.memUpdate 5000000000), .message 1 (.memUpdate 5000000000),
    .message 2 (.memUpdate 14000000000), .message 0 .reqLock, .message 1 .reqLock,
    .message 2 .reqLock]

/-- One of two running clients releases the lock, and the waiting one still does not fit. -/
theorem no_missed_promotion_no_room :
    ∃ s t, Transition.Reaches (Transition.guarded (Step {} steady) Polite) Sched.init s ∧
      (s.ctx 0).runningList = [0, 1] ∧ (s.ctx 0).waitQueue = [2] ∧
      Step {} (steady.frozen 1) s (.message 1 .lockReleased) t ∧
      NoneAdmissible {} steady 1 0 t := by
  obtain ⟨s, hs, hrun, hwait, hpolite, hctx, hsafe, ht⟩ := exists_reaches {} steady Polite 9
    crowded (fun s => (s.ctx 0).runningList = [0, 1] ∧ (s.ctx 0).waitQueue = [2] ∧
      Polite s (.message 1 .lockReleased) ∧ (s.client 1).context = some 0 ∧
      (∀ d ∈ (s.ctx 0).pending,
        admitsBeside {} steady 1 0 (usageLeft 0 s 1) d s = false) ∧
      (tryStep {} (steady.frozen 1) (fun _ _ => True) 9 s
        (.message 1 .lockReleased)).isSome = true)
    (by decide +kernel)
  obtain ⟨t, ht⟩ := Option.isSome_iff_exists.mp ht
  have hstep := (tryStep_guarded _ _ _ ht).2
  refine ⟨s, t, hs, hrun, hwait, hstep, ?_⟩
  exact (no_missed_promotion (by decide) steady_allSent hs hpolite hctx hstep).1 fun _ => hsafe

/-- Two clients of 5 GB run and one of 8 GB waits. When one of the two releases the lock, the
waiting client fits beside the other and is not admitted. -/
theorem promotion_missed :
    ¬ ∀ (cfg : Config) (env : Env) (b : ℤ) (s t : Sched) (x : CtxId) (e : Event),
      cfg.schedulingMode ≠ .serial → env.AllSent →
      Transition.Reaches (Transition.guarded (Step cfg env) Polite) Sched.init s →
      Polite s e → Prompts x s e → Step cfg (env.frozen b) s e t →
      NoneAdmissible cfg env b x t := by
  intro h
  obtain ⟨s, hs, hpolite, hctx, ht⟩ := exists_reaches {} steady Polite 9
    [.accept {}, .accept {}, .accept {}, enter 0 1, enter 1 2, enter 2 3,
      .message 0 (.memUpdate 5000000000), .message 1 (.memUpdate 5000000000),
      .message 2 (.memUpdate 8000000000), .message 0 .reqLock, .message 1 .reqLock,
      .message 2 .reqLock]
    (fun s => Polite s (.message 1 .lockReleased) ∧ (s.client 1).context = some 0 ∧
      (tryStep {} (steady.frozen 1) (fun _ _ => True) 9 s (.message 1 .lockReleased)).any
        (fun t => 2 ∈ (t.ctx 0).pending ∧
          (canRun {} (steady.frozen 1) 0 2 t).1 = true) = true)
    (by decide +kernel)
  rw [Option.any_eq_true] at ht
  obtain ⟨t, ht, hmissed⟩ := ht
  obtain ⟨hpending, hcan⟩ := of_decide_eq_true hmissed
  have hstep := (tryStep_guarded _ _ _ ht).2
  have hnone := h {} steady 1 s t 0 _ (by decide) steady_allSent hs hpolite hctx hstep 2 hpending
  rw [hnone] at hcan
  cases hcan

end XpuShare
