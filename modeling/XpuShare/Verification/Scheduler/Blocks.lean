import XpuShare.Verification.Scheduler.Effects

/-! # Scheduling as a sequence of blocks

A call of `try_schedule`, `remove_req` or `delete_client` runs through a few blocks of
code on one context, in an order decided by clock readings and send results. `Block` lists
them with the tests that guard them, and the calls are shown once to be sequences of
blocks. An invariant then only has to be checked against each block. -/

namespace XpuShare

variable (cfg : Config) (env : Env)

/-- Who may give up its place in the queues during a call, and who may be deleted. -/
structure Exits where
  leaves : ClientId → Prop
  deleted : ClientId → Prop

/-- Everybody may leave and be deleted. -/
abbrev anyone : Exits := ⟨fun _ => True, fun _ => True⟩

/-- Nobody leaves and nobody is deleted. -/
abbrev nobody : Exits := ⟨fun _ => False, fun _ => False⟩

/-- One block of scheduling code on context `x`. -/
inductive Block (D : Exits) (x : CtxId) : Sched → Sched → Prop where
  | window (s) : Block D x s (freshWindow cfg env x s)
  | defer (s c rest) (hreq : (s.ctx x).requests = c :: rest)
      (hno : canRunTest cfg s x c = false) (hwait : c ∉ (s.ctx x).waitQueue) :
      Block D x s (moveToWaitQueue env x c s)
  | promote (s front c back) (hwait : (s.ctx x).waitQueue = front ++ c :: back)
      (hok : canRunTest cfg s x c = true) : Block D x s (promote env x front c back s)
  | grant (s c rest) (hreq : (s.ctx x).requests = c :: rest)
      (hok : canRunTest cfg s x c = true) (hsend : sendSucceeds env c s = true) :
      Block D x s (grant env x c (sendMessage env c .lockOk s))
  | refuse (s c rest) (hreq : (s.ctx x).requests = c :: rest)
      (hok : canRunTest cfg s x c = true) (hsend : sendSucceeds env c s = false)
      (hD : D.deleted c) :
      Block D x s (sendMessage env c .lockOk s)
  | leave (s c) (hD : D.leaves c) : Block D x s (leaveRunning cfg env x c s)
  | withdraw (s c) (hD : D.leaves c) : Block D x s (dropPending x c s)
  | unlink (s c) (hD : D.deleted c) (hctx : (s.client c).context = some x)
      (hgone : c ∉ (s.ctx x).pending) :
      Block D x s { s with clients := s.clients.filter (· ≠ c) }

/-- A sequence of blocks. -/
def Path (D : Exits) (x : CtxId) : Sched → Sched → Prop :=
  Relation.ReflTransGen (Block cfg env D x)

/-! ## Effects of the blocks -/

theorem leaveRunning_of_notMem {x : CtxId} {c : ClientId} {s : Sched}
    (h : c ∉ (s.ctx x).runningList) : leaveRunning cfg env x c s = clearLock x s := by
  simp [leaveRunning, h]

theorem mem_entries_of_running {g : GpuContext} {c : ClientId} (h : c ∈ g.runningList) :
    c ∈ g.entries :=
  List.mem_append_right _ h

theorem mem_entries_of_requests {g : GpuContext} {c : ClientId} (h : c ∈ g.requests) :
    c ∈ g.entries :=
  List.mem_append_left _ (List.mem_append_left _ h)

theorem mem_entries_of_waitQueue {g : GpuContext} {c : ClientId} (h : c ∈ g.waitQueue) :
    c ∈ g.entries :=
  List.mem_append_left _ (List.mem_append_right _ h)

/-- The lock flag after `c` has left the running list. -/
def lockAfter (g : GpuContext) (c : ClientId) : Bool :=
  !(g.runningList.erase c).isEmpty && g.lockHeld

theorem leaveRunning_effect {x : CtxId} {c : ClientId} {s : Sched}
    (h : c ∈ (s.ctx x).runningList) :
    Effect x s (leaveRunning cfg env x c s) ((s.ctx x).table.release c)
      (lockAfter (s.ctx x) c) (memoryAfter (s.ctx x) (s.client c).memoryAllocated)
      (Function.update (runFlags s) c false) s.clients [] := by
  have hrel := releaseRunning_effect cfg env (mem_entries_of_running h)
  have heq : leaveRunning cfg env x c s = clearLock x (releaseRunning cfg env x c s) := by
    simp [leaveRunning, h]
  generalize releaseRunning cfg env x c s = u at hrel heq
  have hclear := clearLock_effect x u
  have hent : ∀ d ∈ (u.ctx x).entries, d ∈ (s.ctx x).entries := by
    intro d hd
    have hd' : d ∈ (u.ctx x).table.entries := hd
    rw [hrel.table_eq] at hd'
    exact LockTable.release_entries_sublist.subset hd'
  have hrun : (u.ctx x).runningList = (s.ctx x).runningList.erase c :=
    congrArg LockTable.running hrel.table_eq
  have hlock : clearedLock (u.ctx x) = lockAfter (s.ctx x) c := by
    simp [clearedLock, lockAfter, hrun, hrel.lock_eq]
  have hflags : runFlags u = Function.update (runFlags s) c false := funext hrel.run_eq
  rw [heq, ← hrel.table_eq, ← hlock, ← hrel.memory_eq, ← hflags, ← hrel.clients_eq]
  exact hrel.trans hclear hent

/-- Leaving the running list, for a client that may or may not run. -/
theorem leaveRunning_spec (x : CtxId) (c : ClientId) (s : Sched) :
    ((leaveRunning cfg env x c s).ctx x).table = (s.ctx x).table.release c ∧
      (leaveRunning cfg env x c s).clients = s.clients ∧
      (leaveRunning cfg env x c s).out = s.out := by
  by_cases hc : c ∈ (s.ctx x).runningList
  · have heff := leaveRunning_effect cfg env hc
    exact ⟨heff.table_eq, heff.clients_eq, by rw [heff.out_eq, List.append_nil]⟩
  · have heff := clearLock_effect x s
    have htable : (s.ctx x).table.release c = (s.ctx x).table := by
      have herase : (s.ctx x).table.running.erase c = (s.ctx x).table.running :=
        List.erase_of_not_mem hc
      rw [LockTable.release, herase]
    rw [leaveRunning_of_notMem cfg env hc, htable]
    exact ⟨heff.table_eq, heff.clients_eq, by rw [heff.out_eq, List.append_nil]⟩

theorem leaveRunning_erases (x : CtxId) (c : ClientId) (s : Sched) :
    ((leaveRunning cfg env x c s).ctx x).runningList = (s.ctx x).runningList.erase c :=
  congrArg LockTable.running (leaveRunning_spec cfg env x c s).1

theorem grantSent_effect {x : CtxId} {c : ClientId} {s : Sched}
    (hc : c ∈ (s.ctx x).entries) :
    Effect x s (grant env x c (sendMessage env c .lockOk s)) ((s.ctx x).table.enter c) true
      (((s.ctx x).runningMemoryUsage + (s.client c).memoryAllocated) % sizeMod)
      (Function.update (runFlags s) c true) s.clients
      [⟨c, .lockOk, sendSucceeds env c s⟩] :=
  (sendMessage_effect env x c .lockOk s).trans
    (grant_effect env (s := sendMessage env c .lockOk s) hc) fun _ hd => hd

section Block

variable {cfg env} {D : Exits} {x : CtxId} {s t : Sched}

/-- No block touches anything outside its context. -/
theorem Block.frame (h : Block cfg env D x s t) : Frame x s t := by
  cases h with
  | window => exact (freshWindow_effect cfg env x s).toFrame
  | defer c rest hreq hno hwait => exact (moveToWaitQueue_effect env hwait).toFrame
  | promote front c back hwait hok => exact (promote_effect env x front c back s).toFrame
  | grant c rest hreq hok hsend =>
      have hc : c ∈ (s.ctx x).entries := mem_entries_of_requests (by simp [hreq])
      exact (grantSent_effect env hc).toFrame
  | refuse c rest hreq hok hsend hD => exact (sendMessage_effect env x c _ s).toFrame
  | leave c hD =>
      by_cases hc : c ∈ (s.ctx x).runningList
      · exact (leaveRunning_effect cfg env hc).toFrame
      · rw [leaveRunning_of_notMem cfg env hc]
        exact (clearLock_effect x s).toFrame
  | withdraw c hD => exact (dropPending_effect x c s).toFrame
  | unlink c hD hctx =>
      exact ⟨rfl, rfl, rfl, rfl, fun _ _ => rfl, rfl, fun _ => rfl, fun _ _ _ => rfl⟩

theorem subset_of_table {g g' : GpuContext} {table : LockTable ClientId}
    (htable : g'.table = table) (hsub : table.entries ⊆ g.entries) :
    g'.entries ⊆ g.entries := by
  intro c hc
  exact hsub (by rw [← htable]; exact hc)

/-- Blocks move and remove entries; none creates one. -/
theorem Block.entries_subset (h : Block cfg env D x s t) :
    (t.ctx x).entries ⊆ (s.ctx x).entries := by
  cases h with
  | window => exact subset_of_table (freshWindow_effect cfg env x s).table_eq (List.Subset.refl _)
  | defer c rest hreq hno hwait =>
      have hc : c ∈ (s.ctx x).table.requests := by simp [GpuContext.table, hreq]
      exact subset_of_table (moveToWaitQueue_effect env hwait).table_eq
        (LockTable.defer_entries_perm hc).subset
  | promote front c back hwait hok =>
      exact subset_of_table (promote_effect env x front c back s).table_eq
        (LockTable.promote_entries_perm (t := (s.ctx x).table) hwait).subset
  | grant c rest hreq hok hsend =>
      have hc : c ∈ (s.ctx x).table.requests := by simp [GpuContext.table, hreq]
      exact subset_of_table (grantSent_effect env (mem_entries_of_requests hc)).table_eq
        (LockTable.enter_entries_perm hc).subset
  | refuse c rest hreq hok hsend hD => exact List.Subset.refl _
  | leave c hD =>
      by_cases hc : c ∈ (s.ctx x).runningList
      · exact subset_of_table (leaveRunning_effect cfg env hc).table_eq
          LockTable.release_entries_sublist.subset
      · rw [leaveRunning_of_notMem cfg env hc]
        exact subset_of_table (clearLock_effect x s).table_eq (List.Subset.refl _)
  | withdraw c hD =>
      exact subset_of_table (dropPending_effect x c s).table_eq
        LockTable.withdraw_entries_sublist.subset
  | unlink c hD hctx => exact List.Subset.refl _

theorem mem_pending_of_table {g : GpuContext} {c : ClientId} {table : LockTable ClientId}
    (h : g.table = table) : c ∈ g.pending ↔ c ∈ table.requests ∨ c ∈ table.waiting := by
  subst h
  simp [GpuContext.pending, GpuContext.table]

theorem Block.pending_subset (h : Block cfg env D x s t) :
    (t.ctx x).pending ⊆ (s.ctx x).pending := by
  intro d hd
  cases h with
  | window =>
      rw [mem_pending_of_table (freshWindow_effect cfg env x s).table_eq] at hd
      exact (mem_pending_of_table rfl).mpr hd
  | defer c rest hreq hno hwait =>
      rw [mem_pending_of_table (moveToWaitQueue_effect env hwait).table_eq] at hd
      rw [mem_pending_of_table rfl]
      simp only [LockTable.defer, List.mem_append, List.mem_singleton] at hd
      rcases hd with hd | hd | rfl
      · exact Or.inl (List.mem_of_mem_erase hd)
      · exact Or.inr hd
      · exact Or.inl (by simp [GpuContext.table, hreq])
  | promote front c back hwait hok =>
      rw [mem_pending_of_table (promote_effect env x front c back s).table_eq] at hd
      rw [mem_pending_of_table rfl]
      have hwaiting : (s.ctx x).table.waiting = front ++ c :: back := hwait
      simp only [LockTable.promote, List.mem_cons, List.mem_append] at hd
      rw [hwaiting, List.mem_append, List.mem_cons]
      tauto
  | grant c rest hreq hok hsend =>
      have hc : c ∈ (s.ctx x).entries := mem_entries_of_requests (by simp [hreq])
      rw [mem_pending_of_table (grantSent_effect env hc).table_eq] at hd
      rw [mem_pending_of_table rfl]
      rcases hd with hd | hd
      · exact Or.inl (List.mem_of_mem_erase hd)
      · exact Or.inr hd
  | refuse c rest hreq hok hsend hD => exact hd
  | leave c hD =>
      rw [mem_pending_of_table rfl]
      by_cases hc : c ∈ (s.ctx x).runningList
      · rw [mem_pending_of_table (leaveRunning_effect cfg env hc).table_eq] at hd
        exact hd
      · rw [leaveRunning_of_notMem cfg env hc,
          mem_pending_of_table (clearLock_effect x s).table_eq] at hd
        exact hd
  | withdraw c hD =>
      rw [mem_pending_of_table (dropPending_effect x c s).table_eq] at hd
      rw [mem_pending_of_table rfl]
      rcases hd with hd | hd
      · exact Or.inl (List.mem_of_mem_filter hd)
      · exact Or.inr (List.mem_of_mem_filter hd)
  | unlink c hD hctx hgone => exact hd

/-- A block grants the lock to the client of the first request, or nobody new runs after it
and no LOCK_OK reaches anybody. -/
theorem Block.grant_or (h : Block cfg env D x s t) :
    (∃ c rest, (s.ctx x).requests = c :: rest ∧ canRunTest cfg s x c = true ∧
      sendSucceeds env c s = true ∧ t = XpuShare.grant env x c (sendMessage env c .lockOk s)) ∨
    ((t.ctx x).runningList ⊆ (s.ctx x).runningList ∧
      ∃ new, t.out = s.out ++ new ∧ ∀ m ∈ new, m.msg = .lockOk → m.ok = false) := by
  cases h with
  | window => exact Or.inr ⟨by simp, [], by simp, by simp⟩
  | defer c rest hreq hno hwait =>
      have heff := moveToWaitQueue_effect env hwait
      have hrun : ((moveToWaitQueue env x c s).ctx x).runningList = (s.ctx x).runningList :=
        congrArg LockTable.running heff.table_eq
      refine Or.inr ⟨by rw [hrun]; exact List.Subset.refl _, _, heff.out_eq, ?_⟩
      intro m hm hlock
      unfold deferNotice at hm
      split at hm
      · cases hm
      · rw [List.mem_singleton.mp hm] at hlock
        cases hlock
  | promote front c back hwait hok =>
      have heff := promote_effect env x front c back s
      have hrun : ((XpuShare.promote env x front c back s).ctx x).runningList
          = (s.ctx x).runningList := congrArg LockTable.running heff.table_eq
      refine Or.inr ⟨by rw [hrun]; exact List.Subset.refl _, _, heff.out_eq, ?_⟩
      intro m hm hlock
      rw [List.mem_singleton.mp hm] at hlock
      cases hlock
  | grant c rest hreq hok hsend => exact Or.inl ⟨c, rest, hreq, hok, hsend, rfl⟩
  | refuse c rest hreq hok hsend hD =>
      refine Or.inr ⟨List.Subset.refl _, _, rfl, ?_⟩
      intro m hm _
      rw [List.mem_singleton.mp hm]
      exact hsend
  | leave c hD =>
      obtain ⟨htable, -, hout⟩ := leaveRunning_spec cfg env x c s
      have hrun : ((leaveRunning cfg env x c s).ctx x).runningList
          = (s.ctx x).runningList.erase c := congrArg LockTable.running htable
      refine Or.inr ⟨by rw [hrun]; exact List.erase_subset, [], by rw [hout, List.append_nil], ?_⟩
      intro m hm
      cases hm
  | withdraw c hD => exact Or.inr ⟨by simp [dropPending], [], by simp [dropPending], by simp⟩
  | unlink c hD hctx hgone => exact Or.inr ⟨List.Subset.refl _, [], by simp, by simp⟩

/-- The messages of one block go to entries of its context. -/
theorem Block.sent (h : Block cfg env D x s t) :
    ∃ new, t.out = s.out ++ new ∧ ∀ m ∈ new, m.dest ∈ (s.ctx x).entries := by
  cases h with
  | window => exact ⟨[], by simp, by simp⟩
  | defer c rest hreq hno hwait =>
      refine ⟨_, (moveToWaitQueue_effect env hwait).out_eq, ?_⟩
      intro m hm
      have hc : c ∈ (s.ctx x).entries := mem_entries_of_requests (by simp [hreq])
      unfold deferNotice at hm
      split at hm
      · cases hm
      · rw [List.mem_singleton.mp hm]
        exact hc
  | promote front c back hwait hok =>
      refine ⟨_, (promote_effect env x front c back s).out_eq, ?_⟩
      intro m hm
      rw [List.mem_singleton.mp hm]
      exact mem_entries_of_waitQueue (by simp [hwait])
  | grant c rest hreq hok hsend =>
      have hc : c ∈ (s.ctx x).entries := mem_entries_of_requests (by simp [hreq])
      refine ⟨_, (grantSent_effect env hc).out_eq, ?_⟩
      intro m hm
      rw [List.mem_singleton.mp hm]
      exact hc
  | refuse c rest hreq hok hsend hD =>
      refine ⟨_, rfl, ?_⟩
      intro m hm
      rw [List.mem_singleton.mp hm]
      exact mem_entries_of_requests (by simp [hreq])
  | leave c hD =>
      by_cases hc : c ∈ (s.ctx x).runningList
      · exact ⟨[], (leaveRunning_effect cfg env hc).out_eq, by simp⟩
      · rw [leaveRunning_of_notMem cfg env hc]
        exact ⟨[], (clearLock_effect x s).out_eq, by simp⟩
  | withdraw c hD => exact ⟨[], by simp [dropPending], by simp⟩
  | unlink c hD hctx => exact ⟨[], by simp, by simp⟩

/-- A block takes at most one client out of the client list, one of its own context that
is not pending. -/
theorem Block.clients_cases (h : Block cfg env D x s t) :
    t.clients = s.clients ∨ ∃ c, D.deleted c ∧ (s.client c).context = some x ∧
      c ∉ (s.ctx x).pending ∧ t = { s with clients := s.clients.filter (· ≠ c) } := by
  cases h with
  | window => exact Or.inl (freshWindow_clients cfg env x s)
  | defer c rest hreq hno hwait => exact Or.inl (moveToWaitQueue_effect env hwait).clients_eq
  | promote front c back hwait hok => exact Or.inl rfl
  | grant c rest hreq hok hsend =>
      have hc : c ∈ (s.ctx x).entries := mem_entries_of_requests (by simp [hreq])
      exact Or.inl (grantSent_effect env hc).clients_eq
  | refuse c rest hreq hok hsend hD => exact Or.inl rfl
  | leave c hD =>
      left
      by_cases hc : c ∈ (s.ctx x).runningList
      · exact (leaveRunning_effect cfg env hc).clients_eq
      · rw [leaveRunning_of_notMem cfg env hc, (clearLock_effect x s).clients_eq]
  | withdraw c hD => exact Or.inl rfl
  | unlink c hD hctx hgone => exact Or.inr ⟨c, hD, hctx, hgone, rfl⟩

theorem Block.clients_sublist (h : Block cfg env D x s t) : t.clients.Sublist s.clients := by
  rcases h.clients_cases with heq | ⟨c, -, -, -, rfl⟩
  · rw [heq]
  · exact List.filter_sublist

/-- A block deletes clients of its own context only. -/
theorem Block.keeps (h : Block cfg env D x s t) {d : ClientId} (hd : d ∈ s.clients)
    (hctx : (s.client d).context ≠ some x) : d ∈ t.clients := by
  rcases h.clients_cases with heq | ⟨c, -, hc, -, rfl⟩
  · rwa [heq]
  · have hne : d ≠ c := fun he => hctx (he ▸ hc)
    exact List.mem_filter.mpr ⟨hd, by simpa using hne⟩

/-! ## Sequences of blocks -/

theorem Frame.refl (x : CtxId) (s : Sched) : Frame x s s :=
  ⟨rfl, rfl, rfl, rfl, fun _ _ => rfl, rfl, fun _ => rfl, fun _ _ _ => rfl⟩

theorem Frame.trans {u : Sched} (h : Frame x s t) (h' : Frame x t u)
    (hsub : (t.ctx x).entries ⊆ (s.ctx x).entries) : Frame x s u where
  nctx := h'.nctx.trans h.nctx
  schedulerOn := h'.schedulerOn.trans h.schedulerOn
  tq := h'.tq.trans h.tq
  nalloc := h'.nalloc.trans h.nalloc
  ctx_ne y hy := (h'.ctx_ne y hy).trans (h.ctx_ne y hy)
  fixed := h'.fixed.trans h.fixed
  static c := (h'.static c).trans (h.static c)
  others c hc hctx := by
    have hctx' : (t.client c).context ≠ some x := by
      rwa [context_of_static (h.static c)]
    rw [h'.others c (fun ht => hc (hsub ht)) hctx', h.others c hc hctx]

theorem Path.refl (s : Sched) : Path cfg env D x s s := Relation.ReflTransGen.refl

theorem Path.trans {u : Sched} (h : Path cfg env D x s t) (h' : Path cfg env D x t u) :
    Path cfg env D x s u :=
  Relation.ReflTransGen.trans h h'

theorem Block.path (h : Block cfg env D x s t) : Path cfg env D x s t :=
  Relation.ReflTransGen.single h

/-- What every block preserves, a sequence of blocks preserves. -/
theorem Path.invariant {I : Sched → Prop}
    (hblock : ∀ s t, Block cfg env D x s t → I s → I t)
    (h : Path cfg env D x s t) (hs : I s) : I t := by
  induction h with
  | refl => exact hs
  | tail _ hlast ih => exact hblock _ _ hlast ih

theorem Path.entries_subset (h : Path cfg env D x s t) :
    (t.ctx x).entries ⊆ (s.ctx x).entries :=
  h.invariant (I := fun u => (u.ctx x).entries ⊆ (s.ctx x).entries)
    (fun _ _ hb hu => List.Subset.trans hb.entries_subset hu) (List.Subset.refl _)

theorem Path.pending_subset (h : Path cfg env D x s t) :
    (t.ctx x).pending ⊆ (s.ctx x).pending :=
  h.invariant (I := fun u => (u.ctx x).pending ⊆ (s.ctx x).pending)
    (fun _ _ hb hu => List.Subset.trans hb.pending_subset hu) (List.Subset.refl _)

theorem Path.frame (h : Path cfg env D x s t) : Frame x s t := by
  induction h with
  | refl => exact Frame.refl x s
  | tail hpath hlast ih => exact ih.trans hlast.frame (Path.entries_subset hpath)

/-- The entries of a context are requests of clients registered on it. -/
def Belongs (x : CtxId) (s : Sched) : Prop :=
  ∀ c ∈ (s.ctx x).entries, (s.client c).context = some x

theorem Belongs.path (h : Path cfg env D x s t) (hb : Belongs x s) : Belongs x t := by
  intro c hc
  rw [context_of_static (h.frame.static c)]
  exact hb c (h.entries_subset hc)

end Block

section Insert

variable {x : CtxId} {c : ClientId} {s : Sched}

theorem insertReq_of_mem (hctx : (s.client c).context = some x) (hc : c ∈ (s.ctx x).requests) :
    insertReq c s = s := by
  simp [insertReq, hctx, hc]

theorem insertReq_of_notMem (hctx : (s.client c).context = some x)
    (hc : c ∉ (s.ctx x).requests) :
    insertReq c s = s.modifyCtx x fun g => { g with requests := g.requests ++ [c] } := by
  simp [insertReq, hctx, hc]

theorem Belongs.insertReq (hb : Belongs x s) (hctx : (s.client c).context = some x) :
    Belongs x (insertReq c s) := by
  by_cases hc : c ∈ (s.ctx x).requests
  · rw [insertReq_of_mem hctx hc]
    exact hb
  · rw [insertReq_of_notMem hctx hc]
    intro d hd
    simp only [GpuContext.entries, Sched.modifyCtx_ctx_self, List.mem_append,
      List.mem_singleton] at hd
    rcases hd with ((hd | rfl) | hd) | hd
    · exact hb d (mem_entries_of_requests hd)
    · exact hctx
    · exact hb d (mem_entries_of_waitQueue hd)
    · exact hb d (mem_entries_of_running hd)

end Insert

/-! ## The calls are sequences of blocks -/

section Calls

variable {cfg env} {D : Exits} {x : CtxId}

theorem checkWaitQueueFrom_path {front back : List ClientId} {s : Sched}
    (h : (s.ctx x).waitQueue = front ++ back) :
    Path cfg env D x s (checkWaitQueueFrom cfg env x front back s) := by
  induction back generalizing front s with
  | nil => exact Path.refl s
  | cons c back ih =>
      have hfresh : Path cfg env D x s (freshWindow cfg env x s) := (Block.window s).path
      have hwait : ((freshWindow cfg env x s).ctx x).waitQueue = front ++ c :: back := by
        rw [freshWindow_waitQueue, h]
      rw [checkWaitQueueFrom]
      split
      · rename_i hok
        exact hfresh.trans (Block.promote _ front c back hwait hok).path
      · exact hfresh.trans (ih (by simpa using hwait))

theorem checkWaitQueue_path (s : Sched) :
    Path cfg env D x s (checkWaitQueue cfg env x s) :=
  checkWaitQueueFrom_path (by simp)

theorem refill_path (s : Sched) : Path cfg env D x s (refill cfg env x s) := by
  unfold refill
  split
  · exact checkWaitQueue_path s
  · exact Path.refl s

/-- What is left of `remove_req` after the entry in `running_list` is gone. -/
theorem removeReq_spec {schedule : CtxId → Sched → Option Sched} {c : ClientId} {s t : Sched}
    (hctx : (s.client c).context = some x)
    (hsched : ∀ u v, Belongs x u → schedule x u = some v → Path cfg env D x u v)
    (hb : Belongs x (leaveRunning cfg env x c s))
    (h : removeReq cfg env schedule c s = some t) :
    ∃ mid, Path cfg env D x (leaveRunning cfg env x c s) mid ∧ t = dropPending x c mid := by
  unfold removeReq at h
  simp only [hctx] at h
  split at h
  · rw [Option.map_eq_some_iff] at h
    obtain ⟨mid, hmid, rfl⟩ := h
    have hcheck : Path cfg env D x _ (checkWaitQueue cfg env x (leaveRunning cfg env x c s)) :=
      checkWaitQueue_path _
    exact ⟨mid, hcheck.trans (hsched _ _ (hb.path hcheck) hmid), rfl⟩
  · cases h
    exact ⟨_, Path.refl _, rfl⟩

theorem removeReq_path {schedule : CtxId → Sched → Option Sched} {c : ClientId} {s t : Sched}
    (hctx : (s.client c).context = some x) (hc : D.leaves c)
    (hsched : ∀ u v, Belongs x u → schedule x u = some v → Path cfg env D x u v)
    (hb : Belongs x s) (h : removeReq cfg env schedule c s = some t) :
    Path cfg env D x s t ∧ c ∉ (t.ctx x).pending := by
  have hleave : Path cfg env D x s (leaveRunning cfg env x c s) := (Block.leave s c hc).path
  obtain ⟨mid, hmid, rfl⟩ := removeReq_spec hctx hsched (hb.path hleave) h
  refine ⟨(hleave.trans hmid).trans (Block.withdraw mid c hc).path, ?_⟩
  simp [GpuContext.pending, dropPending]

theorem deleteClient_path {schedule : CtxId → Sched → Option Sched} {c : ClientId}
    {s t : Sched} (hctx : (s.client c).context = some x) (hc : D.leaves c ∧ D.deleted c)
    (hsched : ∀ u v, Belongs x u → schedule x u = some v → Path cfg env D x u v)
    (hb : Belongs x s) (h : deleteClient cfg env schedule c s = some t) :
    Path cfg env D x s t := by
  rw [deleteClient, Option.bind_eq_some_iff] at h
  obtain ⟨mid, hmid, hunlink⟩ := h
  obtain ⟨hremove, hgone⟩ := removeReq_path hctx hc.1 hsched hb hmid
  unfold unlinkClient at hunlink
  split at hunlink
  · cases hunlink
    have hctx' : (mid.client c).context = some x := by
      rw [context_of_static (hremove.frame.static c), hctx]
    exact hremove.trans (Block.unlink mid c hc.2 hctx' hgone).path
  · cases hunlink

/-- `try_schedule` is a sequence of blocks that deletes only clients a send failed to. -/
theorem trySchedule_path (hD : ∀ n c, env.sendOk n c = false → D.leaves c ∧ D.deleted c)
    {fuel : ℕ} {s t : Sched} (hb : Belongs x s) (h : trySchedule cfg env fuel x s = some t) :
    Path cfg env D x s t := by
  induction fuel generalizing s t with
  | zero => cases h
  | succ fuel ih =>
      have hrefill : Path cfg env D x s (refill cfg env x s) := refill_path s
      unfold trySchedule at h
      generalize refill cfg env x s = r at h hrefill
      simp only at h
      split at h
      · cases h
        exact hrefill
      · rename_i c rest hreq
        have hfresh : Path cfg env D x s (freshWindow cfg env x r) :=
          hrefill.trans (Block.window r).path
        have hreq' : ((freshWindow cfg env x r).ctx x).requests = c :: rest := by
          rw [freshWindow_requests, hreq]
        generalize freshWindow cfg env x r = f at h hfresh hreq'
        have hbf : Belongs x f := hb.path hfresh
        split at h
        · rename_i hok
          split at h
          · rename_i hsend
            have hgrant := hfresh.trans (Block.grant f c rest hreq' hok hsend).path
            split at h
            · cases h
              exact hgrant
            · exact hgrant.trans (ih (hb.path hgrant) h)
          · rename_i hsend
            have hfail : sendSucceeds env c f = false := by simpa using hsend
            have hc := hD _ c hfail
            have hrefuse := hfresh.trans (Block.refuse f c rest hreq' hok hfail hc.2).path
            rw [Option.bind_eq_some_iff] at h
            obtain ⟨mid, hmid, hagain⟩ := h
            have hctx : ((sendMessage env c .lockOk f).client c).context = some x :=
              hbf c (mem_entries_of_requests (by simp [hreq']))
            have hdelete := deleteClient_path hctx hc (fun u v hu huv => ih hu huv)
              (hb.path hrefuse) hmid
            have hmidPath := hrefuse.trans hdelete
            exact hmidPath.trans (ih (hb.path hmidPath) hagain)
        · rename_i hno
          by_cases hwait : c ∈ (f.ctx x).waitQueue
          · rw [moveToWaitQueue_of_mem env hwait] at h
            exact hfresh.trans (ih hbf h)
          · have hno' : canRunTest cfg f x c = false := by simpa using hno
            have hdefer := hfresh.trans (Block.defer f c rest hreq' hno' hwait).path
            exact hdefer.trans (ih (hb.path hdefer) h)

/-- Whatever sends fail, `try_schedule` is a sequence of blocks. -/
theorem trySchedule_anyone {fuel : ℕ} {s t : Sched} (hb : Belongs x s)
    (h : trySchedule cfg env fuel x s = some t) : Path cfg env anyone x s t :=
  trySchedule_path (fun _ _ _ => ⟨trivial, trivial⟩) hb h

theorem Path.clients_eq {s t : Sched} (h : Path cfg env nobody x s t) : t.clients = s.clients := by
  induction h with
  | refl => rfl
  | tail _ hlast ih =>
      rcases hlast.clients_cases with heq | ⟨c, hD, -⟩
      · rw [heq, ih]
      · exact False.elim hD

theorem Env.AllSent.never (h : env.AllSent) (n : ℕ) (c : ClientId)
    (hfail : env.sendOk n c = false) : False := by
  rw [h n c] at hfail
  cases hfail

/-- When every send succeeds, scheduling deletes nobody. -/
theorem trySchedule_sent {n : ℕ} {s t : Sched} (hsent : env.AllSent) (hb : Belongs x s)
    (h : trySchedule cfg env n x s = some t) : Path cfg env nobody x s t :=
  trySchedule_path (fun n c hfail => (hsent.never n c hfail).elim) hb h

end Calls

end XpuShare
