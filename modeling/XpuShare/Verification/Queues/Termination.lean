import XpuShare.Verification.Queues.Correctness
import XpuShare.Verification.Scheduler.Fuel
import XpuShare.Verification.Scheduler.Solvency

/-! # The scheduling loop returns

Every pass of `try_schedule` either admits or drops a pending client, or sets the first
request aside; a request that comes back from the wait queue is admitted in the same pass.
So the loop returns when nobody stands in two queues at once, provided that the first
LOCK_OK it sends to an idle GPU is delivered. -/

namespace XpuShare

variable {cfg : Config} {env : Env} {x : CtxId} {s t u f r : Sched} {c : ClientId}
  {rest : List ClientId}

/-! ## States in which the loop may start -/

/-- The entries of the context are distinct clients registered on it, and the pending ones
are connected and have not been billed less than nothing. -/
structure Ready (x : CtxId) (s : Sched) : Prop where
  belongs : Belongs x s
  nodup : (s.ctx x).entries.Nodup
  linked : ∀ c ∈ (s.ctx x).pending, c ∈ s.clients
  paid : ∀ c ∈ (s.ctx x).pending, 0 ≤ (s.client c).runTimeInWindowMs

/-- A block takes nobody out of the client list that is still pending. -/
theorem Block.linked {D : Exits} (h : Block cfg env D x s t) {d : ClientId}
    (hd : d ∈ (t.ctx x).pending) (hmem : d ∈ s.clients) : d ∈ t.clients := by
  rcases h.clients_cases with heq | ⟨c, -, -, hgone, rfl⟩
  · rwa [heq]
  · have hne : d ≠ c := fun he => hgone (he ▸ hd)
    exact List.mem_filter.mpr ⟨hmem, by simpa using hne⟩

theorem Ready.block {D : Exits} (hr : Ready x s) (h : Block cfg env D x s t) :
    Ready x t where
  belongs := hr.belongs.path h.path
  nodup := by
    obtain ⟨l, hperm, hsub⟩ := h.entries_subperm
    exact hperm.nodup_iff.mp (hr.nodup.sublist hsub)
  linked d hd := h.linked hd (hr.linked d (h.pending_subset hd))
  paid d hd := h.nonneg (hr.paid d (h.pending_subset hd))

theorem Ready.head_notMem (hr : Ready x s) (hreq : (s.ctx x).requests = c :: rest) :
    c ∉ (s.ctx x).waitQueue ∧ c ∉ (s.ctx x).runningList := by
  refine LockTable.notMem_of_mem_requests (t := (s.ctx x).table) hr.nodup ?_
  simp [GpuContext.table, hreq]

/-! ## What scheduling does to the clients -/

/-- From `s` to `t` runners keep running, and every client stays connected and every pending
client keeps its place in some queue, unless a message to it failed. -/
structure Served (x : CtxId) (s t : Sched) (new : List Sent) : Prop where
  out : t.out = s.out ++ new
  running : (s.ctx x).runningList ⊆ (t.ctx x).runningList
  clients : ∀ d ∈ s.clients, d ∈ t.clients ∨ ∃ m ∈ new, m.dest = d ∧ m.ok = false
  pending : ∀ d ∈ (s.ctx x).pending,
    d ∈ (t.ctx x).entries ∨ ∃ m ∈ new, m.dest = d ∧ m.ok = false

theorem mem_entries_iff {g : GpuContext} :
    c ∈ g.entries ↔ c ∈ g.pending ∨ c ∈ g.runningList :=
  List.mem_append

theorem Served.refl (x : CtxId) (s : Sched) : Served x s s [] where
  out := by simp
  running := List.Subset.refl _
  clients d hd := Or.inl hd
  pending d hd := Or.inl (mem_entries_iff.mpr (Or.inl hd))

theorem Served.trans {new new' : List Sent} (h : Served x s t new)
    (h' : Served x t u new') : Served x s u (new ++ new') where
  out := by rw [h'.out, h.out, List.append_assoc]
  running := List.Subset.trans h.running h'.running
  clients d hd := by
    rcases h.clients d hd with hd | ⟨m, hm, hfail⟩
    · rcases h'.clients d hd with hd | ⟨m, hm, hfail⟩
      · exact Or.inl hd
      · exact Or.inr ⟨m, List.mem_append_right _ hm, hfail⟩
    · exact Or.inr ⟨m, List.mem_append_left _ hm, hfail⟩
  pending d hd := by
    rcases h.pending d hd with hd | ⟨m, hm, hfail⟩
    · rcases mem_entries_iff.mp hd with hd | hd
      · rcases h'.pending d hd with hd | ⟨m, hm, hfail⟩
        · exact Or.inl hd
        · exact Or.inr ⟨m, List.mem_append_right _ hm, hfail⟩
      · exact Or.inl (mem_entries_iff.mpr (Or.inr (h'.running hd)))
    · exact Or.inr ⟨m, List.mem_append_left _ hm, hfail⟩

/-- Blocks that delete nobody serve everybody. -/
theorem Block.served (h : Block cfg env nobody x s t) :
    ∃ new, Served x s t new := by
  have hall : ∀ (table : LockTable ClientId) (new : List Sent), (t.ctx x).table = table →
      t.out = s.out ++ new → t.clients = s.clients → (s.ctx x).runningList ⊆ table.running →
      (s.ctx x).entries ⊆ table.entries → ∃ new, Served x s t new := by
    rintro table new rfl hout hclients hrunning hentries
    refine ⟨new, hout, hrunning, fun d hd => Or.inl (hclients ▸ hd), fun d hd => Or.inl ?_⟩
    exact hentries (mem_entries_iff.mpr (Or.inl hd))
  cases h with
  | window =>
      have heff := freshWindow_effect cfg env x s
      exact hall _ _ heff.table_eq heff.out_eq heff.clients_eq (List.Subset.refl _)
        (List.Subset.refl _)
  | defer c rest hreq hno hwait =>
      have heff := moveToWaitQueue_effect env hwait
      have hc : c ∈ (s.ctx x).table.requests := by simp [GpuContext.table, hreq]
      exact hall _ _ heff.table_eq heff.out_eq heff.clients_eq (List.Subset.refl _)
        (LockTable.defer_entries_perm hc).symm.subset
  | promote front c back hwait hok =>
      have heff := promote_effect env x front c back s
      exact hall _ _ heff.table_eq heff.out_eq heff.clients_eq (List.Subset.refl _)
        (LockTable.promote_entries_perm (t := (s.ctx x).table) hwait).symm.subset
  | grant c rest hreq hok hsend =>
      have hc : c ∈ (s.ctx x).table.requests := by simp [GpuContext.table, hreq]
      have heff := grantSent_effect env (mem_entries_of_requests hc)
      exact hall _ _ heff.table_eq heff.out_eq heff.clients_eq (List.subset_append_left _ _)
        (LockTable.enter_entries_perm hc).symm.subset
  | refuse c rest hreq hok hsend hD => exact False.elim hD
  | leave c hD => exact False.elim hD
  | withdraw c hD => exact False.elim hD
  | unlink c hD hctx hgone => exact False.elim hD

/-! ## The first grant -/

/-- From `s` the loop comes to `u` by setting requests aside. -/
inductive Searching (cfg : Config) (env : Env) (x : CtxId) : Sched → Sched → Prop where
  | here (s : Sched) : Searching cfg env x s s
  | next (s : Sched) (c : ClientId) (rest : List ClientId) (u : Sched)
      (hreq : ((refill cfg env x s).ctx x).requests = c :: rest)
      (hno : canRunTest cfg (freshWindow cfg env x (refill cfg env x s)) x c = false)
      (hrest : Searching cfg env x
        (moveToWaitQueue env x c (freshWindow cfg env x (refill cfg env x s))) u) :
      Searching cfg env x s u

/-- The first LOCK_OK that the loop sends, if it sends any, is delivered. -/
def FirstGrantDelivered (cfg : Config) (env : Env) (x : CtxId) (s : Sched) : Prop :=
  ∀ u c rest, Searching cfg env x s u → ((refill cfg env x u).ctx x).requests = c :: rest →
    canRunTest cfg (freshWindow cfg env x (refill cfg env x u)) x c = true →
    sendSucceeds env c (freshWindow cfg env x (refill cfg env x u)) = true

theorem firstGrantDelivered_of_allSent (h : env.AllSent) (x : CtxId) (s : Sched) :
    FirstGrantDelivered cfg env x s :=
  fun _ c _ _ _ _ => h _ c

/-! ## The parts of one pass -/

/-- The scan of the wait queue only checks windows until it promotes somebody. -/
theorem checkWaitQueueFrom_spec {front back : List ClientId}
    (h : (s.ctx x).waitQueue = front ++ back) (hr : Ready x s) :
    ∃ u new, Ready x u ∧ Served x s u new ∧ (u.ctx x).table = (s.ctx x).table ∧
      (checkWaitQueueFrom cfg env x front back s = u ∨
        ∃ ahead d behind, (u.ctx x).waitQueue = ahead ++ d :: behind ∧
          canRunTest cfg u x d = true ∧
          checkWaitQueueFrom cfg env x front back s = promote env x ahead d behind u) := by
  induction back generalizing front s with
  | nil => exact ⟨s, [], hr, Served.refl x s, rfl, Or.inl rfl⟩
  | cons c back ih =>
      have hblock : Block cfg env nobody x s (freshWindow cfg env x s) := .window s
      have hfresh := hr.block hblock
      obtain ⟨new, hserved⟩ := hblock.served
      have htable := (freshWindow_effect cfg env x s).table_eq
      have hwait : ((freshWindow cfg env x s).ctx x).waitQueue = front ++ c :: back := by
        rw [freshWindow_waitQueue, h]
      rw [checkWaitQueueFrom]
      by_cases hok : (canRun cfg env x c s).1 = true
      · rw [if_pos hok]
        exact ⟨_, new, hfresh, hserved, htable, Or.inr ⟨front, c, back, hwait, hok, rfl⟩⟩
      · rw [if_neg hok]
        have hwait' : ((canRun cfg env x c s).2.ctx x).waitQueue = front ++ [c] ++ back := by
          simpa [canRun] using hwait
        obtain ⟨u, new', hu, hserved', htable', hcases⟩ := ih hwait' hfresh
        exact ⟨u, new ++ new', hu, hserved.trans hserved', htable'.trans htable, hcases⟩

theorem checkWaitQueue_spec (cfg : Config) (env : Env) (hr : Ready x s) :
    ∃ u new, Ready x u ∧ Served x s u new ∧ (u.ctx x).table = (s.ctx x).table ∧
      (checkWaitQueue cfg env x s = u ∨
        ∃ ahead d behind, (u.ctx x).waitQueue = ahead ++ d :: behind ∧
          canRunTest cfg u x d = true ∧
          checkWaitQueue cfg env x s = promote env x ahead d behind u) :=
  checkWaitQueueFrom_spec (List.nil_append _).symm hr

/-- A promoted client passes the test that follows. -/
theorem canRunTest_promote (front : List ClientId) (back : List ClientId) :
    canRunTest cfg (promote env x front c back s) x c = canRunTest cfg s x c := by
  have hquota : quotaAllows cfg (promote env x front c back s) x c = quotaAllows cfg s x c := rfl
  have hmemory : canRunWithMemory cfg (promote env x front c back s) x c =
      canRunWithMemory cfg s x c := by
    apply canRunWithMemory_congr <;> simp [promote]
  rw [canRunTest, hquota, hmemory, canRunTest]

/-- The state after a client that does not run is deleted without scheduling anybody. -/
def discard (x : CtxId) (c : ClientId) (s : Sched) : Sched :=
  { dropPending x c s with clients := s.clients.filter (· ≠ c) }

/-- Deleting a pending client while somebody else runs schedules nobody. -/
theorem deleteClient_busy {schedule : CtxId → Sched → Option Sched}
    (hctx : (s.client c).context = some x) (hc : c ∉ (s.ctx x).runningList)
    (hbusy : (s.ctx x).runningList ≠ []) (hmem : c ∈ s.clients) :
    deleteClient cfg env schedule c s = some (discard x c s) := by
  have hleft : leaveRunning cfg env x c s = s := by
    rw [leaveRunning_of_notMem cfg env hc, clearLock, if_neg hbusy]
  have hmem' : c ∈ (dropPending x c s).clients := hmem
  simp only [deleteClient, removeReq, hctx, hleft, if_neg hbusy, Option.bind_some,
    unlinkClient, if_pos hmem']
  rfl

theorem Ready.discard (hr : Ready x s) (hctx : (s.client c).context = some x) :
    Ready x (discard x c s) := by
  have hwithdraw : Block {} steady anyone x s (dropPending x c s) := .withdraw s c trivial
  have hgone : c ∉ ((dropPending x c s).ctx x).pending := by
    simp [GpuContext.pending, dropPending]
  have hunlink : Block {} steady anyone x (dropPending x c s) (XpuShare.discard x c s) :=
    .unlink (dropPending x c s) c trivial hctx hgone
  exact (hr.block hwithdraw).block hunlink

theorem discard_served (hsend : sendSucceeds env c f = false) :
    Served x f (discard x c (sendMessage env c .lockOk f))
      [⟨c, .lockOk, sendSucceeds env c f⟩] := by
  refine ⟨rfl, ?_, ?_, ?_⟩
  · simp [discard, dropPending]
  · intro d hd
    by_cases hdc : d = c
    · exact Or.inr ⟨_, List.mem_singleton.mpr rfl, hdc.symm, hsend⟩
    · exact Or.inl (List.mem_filter.mpr ⟨hd, by simpa using hdc⟩)
  · intro d hd
    by_cases hdc : d = c
    · exact Or.inr ⟨_, List.mem_singleton.mpr rfl, hdc.symm, hsend⟩
    · refine Or.inl (mem_entries_iff.mpr (Or.inl ?_))
      simpa [GpuContext.pending, discard, dropPending, hdc] using hd

theorem discard_pending_length (hreq : (s.ctx x).requests = c :: rest) :
    ((discard x c s).ctx x).pending.length < (s.ctx x).pending.length := by
  have hrest : (rest.filter (· ≠ c)).length ≤ rest.length := List.length_filter_le _ _
  have hwait : ((s.ctx x).waitQueue.filter (· ≠ c)).length ≤ (s.ctx x).waitQueue.length :=
    List.length_filter_le _ _
  have hhead : (c :: rest).filter (· ≠ c) = rest.filter (· ≠ c) := by simp
  simp only [GpuContext.pending, discard, dropPending, Sched.modifyCtx_ctx_self, hreq, hhead,
    List.length_append, List.length_cons]
  omega

/-! ## The loop -/

/-- `try_schedule` returns from `s`, in a state in which it may start again. -/
def Returns (cfg : Config) (env : Env) (x : CtxId) (s : Sched) : Prop :=
  ∃ n t new, trySchedule cfg env n x s = some t ∧ Ready x t ∧ Served x s t new

theorem Returns.step {new : List Sent} (h : Returns cfg env x u) (hserved : Served x s u new)
    (hpass : ∀ n, trySchedule cfg env (n + 1) x s = trySchedule cfg env n x u) :
    Returns cfg env x s := by
  obtain ⟨n, t, new', ht, hr, hserved'⟩ := h
  exact ⟨n + 1, t, new ++ new', by rw [hpass, ht], hr, hserved.trans hserved'⟩

/-- A pass that admits its first request. -/
theorem returns_of_grant {new : List Sent} (hrefill : refill cfg env x s = r) (hr : Ready x r)
    (hserved : Served x s r new) (hreq : (r.ctx x).requests = c :: rest)
    (hok : canRunTest cfg (freshWindow cfg env x r) x c = true)
    (hsend : sendSucceeds env c (freshWindow cfg env x r) = true)
    (hless : ∀ u, Ready x u → (u.ctx x).runningList ≠ [] →
      (u.ctx x).pending.length < (r.ctx x).pending.length → Returns cfg env x u) :
    Returns cfg env x s := by
  have hwindow : Block cfg env nobody x r (freshWindow cfg env x r) := .window r
  have hrf := hr.block hwindow
  have hreqf : ((freshWindow cfg env x r).ctx x).requests = c :: rest := by
    rw [freshWindow_requests, hreq]
  have hgrant : Block cfg env nobody x _ _ := .grant _ c rest hreqf hok hsend
  have hrg := hrf.block hgrant
  obtain ⟨new₁, hserved₁⟩ := hwindow.served
  obtain ⟨new₂, hserved₂⟩ := hgrant.served
  have htotal := (hserved.trans hserved₁).trans hserved₂
  have hentry : c ∈ ((freshWindow cfg env x r).ctx x).entries := by
    apply mem_entries_of_requests
    rw [hreqf]
    exact List.mem_cons_self
  have htable := (grantSent_effect env hentry).table_eq
  have hpass := fun n => trySchedule_of_grant (n := n) hrefill hreq rfl hok hsend
  generalize grant env x c (sendMessage env c .lockOk (freshWindow cfg env x r)) = g
    at hrg htotal htable hpass
  have hreqg : (g.ctx x).requests = rest := by
    have h : (g.ctx x).requests = ((freshWindow cfg env x r).ctx x).requests.erase c :=
      congrArg LockTable.requests htable
    rw [h, hreqf, List.erase_cons_head]
  have hwaitg : (g.ctx x).waitQueue = (r.ctx x).waitQueue := by
    have h : (g.ctx x).waitQueue = ((freshWindow cfg env x r).ctx x).waitQueue :=
      congrArg LockTable.waiting htable
    rw [h, freshWindow_waitQueue]
  have hrung : (g.ctx x).runningList ≠ [] := by
    have h : (g.ctx x).runningList = ((freshWindow cfg env x r).ctx x).runningList ++ [c] :=
      congrArg LockTable.running htable
    rw [h]
    simp
  by_cases hserial : cfg.schedulingMode = .serial
  · simp only [hserial, if_true] at hpass
    exact ⟨1, g, _, hpass 0, hrg, htotal⟩
  · simp only [hserial, if_false] at hpass
    refine (hless g hrg hrung ?_).step htotal hpass
    simp [GpuContext.pending, hreqg, hwaitg, hreq]

/-- A pass that drops its first request because LOCK_OK cannot be delivered. -/
theorem returns_of_refuse {new : List Sent} (hrefill : refill cfg env x s = r) (hr : Ready x r)
    (hserved : Served x s r new) (hreq : (r.ctx x).requests = c :: rest)
    (hok : canRunTest cfg (freshWindow cfg env x r) x c = true)
    (hsend : sendSucceeds env c (freshWindow cfg env x r) = false)
    (hbusy : (r.ctx x).runningList ≠ [])
    (hless : ∀ u, Ready x u → (u.ctx x).runningList ≠ [] →
      (u.ctx x).pending.length < (r.ctx x).pending.length → Returns cfg env x u) :
    Returns cfg env x s := by
  have hwindow : Block cfg env nobody x r (freshWindow cfg env x r) := .window r
  have hpass := fun n => trySchedule_of_refuse (n := n) hrefill hreq rfl hok hsend
  have hrf := hr.block hwindow
  obtain ⟨new₁, hserved₁⟩ := hwindow.served
  have hreqf : ((freshWindow cfg env x r).ctx x).requests = c :: rest := by
    rw [freshWindow_requests, hreq]
  have hwaitf := freshWindow_waitQueue cfg env x r
  have hrunf := freshWindow_runningList cfg env x r
  generalize freshWindow cfg env x r = f at hok hsend hrf hserved₁ hreqf hpass hwaitf hrunf
  have hctx : ((sendMessage env c .lockOk f).client c).context = some x :=
    hrf.belongs c (mem_entries_of_requests (by rw [hreqf]; exact List.mem_cons_self))
  have hmem : c ∈ f.clients := hrf.linked c (by simp [GpuContext.pending, hreqf])
  have hbusyf : (f.ctx x).runningList ≠ [] := by rwa [hrunf]
  have hdelete : ∀ n, deleteClient cfg env (trySchedule cfg env n) c
      (sendMessage env c .lockOk f) = some (discard x c (sendMessage env c .lockOk f)) :=
    fun n => deleteClient_busy hctx (hrf.head_notMem hreqf).2 hbusyf hmem
  simp only [hdelete, Option.bind_some] at hpass
  have hsent : Ready x (sendMessage env c .lockOk f) :=
    hrf.block (Block.refuse f c rest hreqf hok hsend trivial (D := anyone))
  have hlength := discard_pending_length (s := sendMessage env c .lockOk f) hreqf
  have hsame : ((sendMessage env c .lockOk f).ctx x).pending.length
      = (r.ctx x).pending.length := by
    simp [GpuContext.pending, hreqf, hwaitf, hreq]
  refine Returns.step (hless _ (hsent.discard hctx) ?_ (hsame ▸ hlength))
    ((hserved.trans hserved₁).trans (discard_served hsend)) hpass
  simpa [discard, dropPending] using hbusyf

/-- The queues after a pass that sets its first request aside. -/
theorem deferred_table (cfg : Config) (env : Env) (hreq : (s.ctx x).requests = c :: rest)
    (hwait : c ∉ (s.ctx x).waitQueue) :
    ((moveToWaitQueue env x c (freshWindow cfg env x s)).ctx x).table =
      ⟨rest, (s.ctx x).waitQueue ++ [c], (s.ctx x).runningList⟩ := by
  have hnot : c ∉ ((freshWindow cfg env x s).ctx x).waitQueue := by
    rwa [freshWindow_waitQueue]
  rw [(moveToWaitQueue_effect env hnot).table_eq]
  simp [LockTable.defer, GpuContext.table, hreq]

/-- The state after a pass that sets its first request aside. -/
theorem deferred_spec (hr : Ready x s) (hreq : (s.ctx x).requests = c :: rest)
    (hno : canRunTest cfg (freshWindow cfg env x s) x c = false) :
    ∃ new, Ready x (moveToWaitQueue env x c (freshWindow cfg env x s)) ∧
      Served x s (moveToWaitQueue env x c (freshWindow cfg env x s)) new ∧
      ((moveToWaitQueue env x c (freshWindow cfg env x s)).ctx x).table =
        ⟨rest, (s.ctx x).waitQueue ++ [c], (s.ctx x).runningList⟩ := by
  have hwindow : Block cfg env nobody x s (freshWindow cfg env x s) := .window s
  have hrf := hr.block hwindow
  have hreqf : ((freshWindow cfg env x s).ctx x).requests = c :: rest := by
    rw [freshWindow_requests, hreq]
  have hnot := (hrf.head_notMem hreqf).1
  have hdefer : Block cfg env nobody x _ _ := .defer _ c rest hreqf hno hnot
  obtain ⟨new₁, hserved₁⟩ := hwindow.served
  obtain ⟨new₂, hserved₂⟩ := hdefer.served
  exact ⟨new₁ ++ new₂, hrf.block hdefer, hserved₁.trans hserved₂,
    deferred_table cfg env hreq (hr.head_notMem hreq).1⟩

/-- The scan of the wait queue at the start of a pass without requests promotes nobody, or
somebody who will pass the next test. -/
theorem refilled_spec (cfg : Config) (env : Env) (hr : Ready x s)
    (hnil : (s.ctx x).requests = []) :
    ∃ new, Ready x (refill cfg env x s) ∧ Served x s (refill cfg env x s) new ∧
      ((refill cfg env x s).ctx x).runningList = (s.ctx x).runningList ∧
      ((refill cfg env x s).ctx x).pending.length = (s.ctx x).pending.length ∧
      (((refill cfg env x s).ctx x).requests = [] ∨
        ∃ c, ((refill cfg env x s).ctx x).requests = [c] ∧
          canRunTest cfg (freshWindow cfg env x (refill cfg env x s)) x c = true) := by
  rw [refill, if_pos hnil]
  obtain ⟨u, new, hru, hserved, htable, hcases⟩ := checkWaitQueue_spec cfg env hr
  have hrequ : (u.ctx x).requests = [] := (congrArg LockTable.requests htable :).trans hnil
  have hrunu : (u.ctx x).runningList = (s.ctx x).runningList := congrArg LockTable.running htable
  have hwaitu : (u.ctx x).waitQueue = (s.ctx x).waitQueue := congrArg LockTable.waiting htable
  rcases hcases with heq | ⟨ahead, c, behind, hwait, hok, heq⟩
  · rw [heq]
    refine ⟨new, hru, hserved, hrunu, ?_, Or.inl hrequ⟩
    simp [GpuContext.pending, hrequ, hnil, hwaitu]
  · have hpromote : Block cfg env nobody x u (promote env x ahead c behind u) :=
      .promote u ahead c behind hwait hok
    obtain ⟨new', hserved'⟩ := hpromote.served
    have hrr := hru.block hpromote
    have hreq : ((promote env x ahead c behind u).ctx x).requests = [c] := by
      simp [promote, hrequ]
    rw [heq]
    refine ⟨new ++ new', hrr, hserved.trans hserved', ?_, ?_, Or.inr ⟨c, hreq, ?_⟩⟩
    · simpa [promote] using hrunu
    · simp only [GpuContext.pending, hrequ, hnil, ← hwaitu, hwait, promote, sendMessage_ctx,
        Sched.modifyCtx_ctx_self, List.length_append, List.length_cons, List.length_nil]
      omega
    · refine canRunTest_fresh (hrr.head_notMem hreq).2 ?_ (by rw [canRunTest_promote, hok])
      exact hrr.paid c (by simp [GpuContext.pending, hreq])

/-- The loop returns when nobody stands twice in the queues, if somebody runs already or
the first LOCK_OK is delivered. -/
theorem trySchedule_returns (hr : Ready x s)
    (hsend : (s.ctx x).runningList ≠ [] ∨ FirstGrantDelivered cfg env x s) :
    Returns cfg env x s := by
  induction hN : (s.ctx x).pending.length using Nat.strong_induction_on generalizing s with
  | _ N ihN =>
    have hless : ∀ r u : Sched, (r.ctx x).pending.length = N → Ready x u →
        (u.ctx x).runningList ≠ [] →
        (u.ctx x).pending.length < (r.ctx x).pending.length → Returns cfg env x u :=
      fun r u hlen hu hbusy hlt => ihN _ (hlen ▸ hlt) hu (Or.inl hbusy) rfl
    induction hk : (s.ctx x).requests.length generalizing s with
    | zero =>
        have hnil : (s.ctx x).requests = [] := List.length_eq_zero_iff.mp hk
        obtain ⟨new, hrr, hserved, hrun, hlen, hcases⟩ := refilled_spec cfg env hr hnil
        rcases hcases with hreq | ⟨c, hreq, hok⟩
        · exact ⟨1, _, new, trySchedule_of_nil rfl hreq, hrr, hserved⟩
        · have hdown := fun v => hless (refill cfg env x s) v (hlen.trans hN)
          cases hs : sendSucceeds env c (freshWindow cfg env x (refill cfg env x s)) with
          | true => exact returns_of_grant rfl hrr hserved hreq hok hs hdown
          | false =>
              rcases hsend with hbusy | hfirst
              · rw [← hrun] at hbusy
                exact returns_of_refuse rfl hrr hserved hreq hok hs hbusy hdown
              · rw [hfirst s c [] (.here s) hreq hok] at hs
                cases hs
    | succ k ihk =>
        obtain ⟨c, rest, hreq⟩ : ∃ c rest, (s.ctx x).requests = c :: rest :=
          List.exists_cons_of_length_eq_add_one hk
        have hrefill : refill cfg env x s = s := by
          rw [refill, if_neg (by rw [hreq]; exact List.cons_ne_nil c rest)]
        cases hok : canRunTest cfg (freshWindow cfg env x s) x c with
        | true =>
            have hdown := fun v => hless s v hN
            cases hs : sendSucceeds env c (freshWindow cfg env x s) with
            | true => exact returns_of_grant hrefill hr (Served.refl x s) hreq hok hs hdown
            | false =>
                rcases hsend with hbusy | hfirst
                · exact returns_of_refuse hrefill hr (Served.refl x s) hreq hok hs hbusy hdown
                · have hsent := hfirst s c rest (.here s) (by rw [hrefill, hreq])
                    (by rw [hrefill, hok])
                  rw [hrefill, hs] at hsent
                  cases hsent
        | false =>
            obtain ⟨new, hrd, hserved, htable⟩ := deferred_spec hr hreq hok
            have hpass := fun n => trySchedule_of_defer (n := n) hrefill hreq rfl hok
            have hnext : ∀ u, Searching cfg env x
                (moveToWaitQueue env x c (freshWindow cfg env x s)) u →
                Searching cfg env x s u := by
              intro u hu
              refine .next s c rest u ?_ ?_ ?_ <;> rw [hrefill] <;> assumption
            generalize moveToWaitQueue env x c (freshWindow cfg env x s) = d
              at hrd hserved htable hpass hnext
            have hreqd : (d.ctx x).requests = rest := congrArg LockTable.requests htable
            have hwaitd : (d.ctx x).waitQueue = (s.ctx x).waitQueue ++ [c] :=
              congrArg LockTable.waiting htable
            have hrund : (d.ctx x).runningList = (s.ctx x).runningList :=
              congrArg LockTable.running htable
            have hsend' : (d.ctx x).runningList ≠ [] ∨ FirstGrantDelivered cfg env x d := by
              rcases hsend with hbusy | hfirst
              · exact Or.inl (by rwa [hrund])
              · exact Or.inr fun u e rest' hsearch => hfirst u e rest' (hnext u hsearch)
            refine (ihk hrd hsend' ?_ ?_).step hserved hpass
            · rw [← hN]
              simp only [GpuContext.pending, hreqd, hwaitd, hreq, List.length_append,
                List.length_cons, List.length_nil]
              omega
            · rw [hreq] at hk
              rw [hreqd]
              simpa using hk

/-! ## Reachable states -/

/-- Every pending client is connected. -/
def Linked (s : Sched) : Prop := ∀ x, ∀ c ∈ (s.ctx x).pending, c ∈ s.clients

theorem Action.linked {D : ClientId → Prop} {ok : Sched → Event → Prop}
    (h : Action cfg env D ok s t) (hwf : WellFormed s) (hs : Linked s) : Linked t := by
  intro y d hd
  cases h with
  | block x h =>
      by_cases hy : y = x
      · subst hy
        exact h.linked hd (hs y d (h.pending_subset hd))
      · rw [h.frame.ctx_ne y hy] at hd
        have hctx := hwf.belongs y d (mem_entries_iff.mpr (Or.inl hd))
        exact h.keeps (hs y d hd) (by rw [hctx]; simpa using hy)
  | tune h =>
      rw [mem_pending_of_table (table_of_core (h.ctx y))] at hd
      rw [h.clients]
      exact hs y d ((mem_pending_of_table rfl).mpr hd)
  | accept garbage hok => exact List.mem_append_left _ (hs y d hd)
  | enrol c m e hok hmem hunreg hid =>
      obtain ⟨x, -, -, -, hclients, -, -, -, hctx⟩ := enrol_spec cfg c m e s
      rw [hclients]
      rcases hctx with ⟨-, hctx⟩ | ⟨-, hctx⟩
      · rw [hctx] at hd
        exact hs y d hd
      · rw [hctx, Function.update_apply] at hd
        split at hd
        · simp [GpuContext.pending] at hd
        · exact hs y d hd
  | insert c x hok hmem hon hctx hreq =>
      by_cases hy : y = x
      · subst hy
        simp only [GpuContext.pending, Sched.modifyCtx_ctx_self, List.mem_append,
          List.mem_singleton] at hd
        rcases hd with (hd | rfl) | hd
        · exact hs y d (List.mem_append_left _ hd)
        · exact hmem
        · exact hs y d (List.mem_append_right _ hd)
      · rw [Sched.modifyCtx_ctx_ne _ _ _ _ hy] at hd
        exact hs y d hd
  | memory c x v hok hmem hctx =>
      rw [mem_pending_of_table (creditMemory_table cfg x c v s y)] at hd
      obtain ⟨usage, peak, overloaded, h⟩ := creditMemory_spec cfg x c v s
      rw [h]
      exact hs y d ((mem_pending_of_table rfl).mpr hd)
  | unlink c hctx =>
      refine List.mem_filter.mpr ⟨hs y d hd, ?_⟩
      have hne : d ≠ c := by
        rintro rfl
        exact hwf.notMem_entries hctx y (mem_entries_iff.mpr (Or.inl hd))
      simpa using hne
  | power on c hok => exact hs y d hd
  | clear s₀ c hok =>
      simp only [clearRequests] at hd
      split at hd
      · exact hs y d (List.mem_append_right _ (by simpa [GpuContext.pending] using hd))
      · exact hs y d hd

theorem linked_of_reaches {ok : Sched → Event → Prop}
    (h : Transition.Reaches (Transition.guarded (Step cfg env) ok) Sched.init s) : Linked s := by
  have hinit : Linked Sched.init := by
    intro x c hc
    simp [Sched.init, GpuContext.pending] at hc
  exact invariant_of_any_actions (I := Linked) (fun _ _ ha hwf hs => ha.linked hwf hs) hinit h

/-- A state in which the entries are distinct and the other invariants hold is ready. -/
theorem ready_of_invariants (hwf : WellFormed s) (hlinked : Linked s)
    (hsolvent : ∀ c, Solvent s c) (hnodup : (s.ctx x).entries.Nodup) : Ready x s where
  belongs := hwf.belongs x
  nodup := hnodup
  linked c hc := hlinked x c hc
  paid c hc := by
    have hctx := hwf.belongs x c (mem_entries_iff.mpr (Or.inl hc))
    exact (hsolvent c (by rw [hctx]; simp)).2

end XpuShare
