import XpuShare.Verification.Removal.Refusals
import XpuShare.Verification.Removal.Sidelined
import XpuShare.Verification.Scheduler.Runs

/-! # Removal of a client

`remove_req` schedules others before it takes the departing client out of `requests` and
`wait_queue`. If somebody is admitted there, it depends on the messages whether the call
returns; the departing client itself stays behind in the running list when it is admitted. -/

namespace XpuShare

variable {cfg : Config} {env : Env} {x : CtxId} {s t u : Sched} {c : ClientId}

/-- What the removal of a client promises: nothing refers to it any more, and every other
client keeps its connection and its place in line unless a message to it failed. -/
structure Removed (c : ClientId) (s t : Sched) : Prop where
  client : c ∉ t.clients
  entries : ∀ x, c ∉ (t.ctx x).entries
  others : ∃ new, t.out = s.out ++ new ∧
    ∀ d ∈ s.clients, d ≠ c → (∀ m ∈ new, m.dest = d → m.ok = true) →
      d ∈ t.clients ∧ ∀ x, d ∈ (s.ctx x).pending → d ∈ (t.ctx x).entries

/-- `delete_client` returns and has removed the client. -/
def Removes (cfg : Config) (env : Env) (c : ClientId) (s : Sched) : Prop :=
  ∃ fuel t, deleteClient cfg env (trySchedule cfg env fuel) c s = some t ∧ Removed c s t

/-- When a removal succeeds however the messages turn out: once the entry in the running list
is gone, either somebody else still runs, or nobody has two requests and all who wait are
refused. -/
def Removable (cfg : Config) (env : Env) (c : ClientId) (s : Sched) : Prop :=
  ∀ x ∈ (s.client c).context,
    let left := leaveRunning cfg env x c s
    if (left.ctx x).runningList = [] then
      ¬ Clashes (left.ctx x) ∧ refusesAll cfg env x (rounds (left.ctx x)) left = true
    else c ∉ (left.ctx x).runningList

/-- The removal of `c` takes the clock reading `n`, unless it returns before. -/
def ReadBy (cfg : Config) (env : Env) (c : ClientId) (s : Sched) (n : ℕ) : Prop :=
  s.ticks ≤ n ∧
    ∀ fuel t, deleteClient cfg env (trySchedule cfg env fuel) c s = some t → n < t.ticks

/-- When a removal succeeds although others may be granted the lock: nobody has two entries,
messages to the others are delivered, and the client does not wait or has no quota until the
call returns. -/
def PassedBy (cfg : Config) (env : Env) (c : ClientId) (s : Sched) : Prop :=
  ∀ x ∈ (s.client c).context, (s.ctx x).entries.Nodup ∧ DeliveredBut env x c s ∧
    (c ∉ (s.ctx x).pending ∨ Barred cfg env x c (ReadBy cfg env c s) s)

/-! ## Unlinking the client -/

theorem Path.served (h : Path cfg env nobody x s t) : ∃ new, Served x s t new := by
  induction h with
  | refl => exact ⟨[], Served.refl x s⟩
  | tail _ hlast ih =>
      obtain ⟨new, hserved⟩ := ih
      obtain ⟨new', hserved'⟩ := hlast.served
      exact ⟨new ++ new', hserved.trans hserved'⟩

/-- The end of a removal: the client has left the running list, and others may have been
scheduled. -/
theorem Removed.discard {new : List Sent} (hctx : (s.client c).context = some x)
    (hwf : WellFormed s) (hserved : Served x (leaveRunning cfg env x c s) u new)
    (hothers : ∀ y, y ≠ x → u.ctx y = s.ctx y) (hrun : c ∉ (u.ctx x).runningList) :
    Removed c s (discard x c u) := by
  obtain ⟨htable, hclients, hout⟩ := leaveRunning_spec cfg env x c s
  have hleft : ((leaveRunning cfg env x c s).ctx x).pending = (s.ctx x).pending :=
    congrArg (fun table : LockTable ClientId => table.requests ++ table.waiting) htable
  have hkeep : ∀ y, y ≠ x → (XpuShare.discard x c u).ctx y = s.ctx y := by
    intro y hy
    rw [← hothers y hy]
    simp [XpuShare.discard, dropPending, hy]
  refine ⟨by simp [XpuShare.discard], fun y => ?_, new, hserved.out.trans (by rw [hout]),
    fun d hd hne hok => ⟨?_, ?_⟩⟩
  · by_cases hy : y = x
    · subst hy
      rw [mem_entries_iff]
      rintro (hc | hc)
      · simp [XpuShare.discard, dropPending, GpuContext.pending] at hc
      · exact hrun (by simpa [XpuShare.discard, dropPending] using hc)
    · rw [hkeep y hy]
      intro hc
      rw [hwf.belongs y c hc] at hctx
      exact hy (Option.some.inj hctx)
  · rcases hserved.clients d (hclients ▸ hd) with hd | ⟨m, hm, rfl, hfail⟩
    · exact List.mem_filter.mpr ⟨hd, by simpa using hne⟩
    · rw [hok m hm rfl] at hfail
      cases hfail
  · intro y hpending
    by_cases hy : y = x
    · subst hy
      rcases hserved.pending d (hleft ▸ hpending) with hd | ⟨m, hm, rfl, hfail⟩
      · simp only [GpuContext.entries, XpuShare.discard, dropPending, Sched.modifyCtx_ctx_self,
          List.mem_append, List.mem_filter, decide_not, Bool.not_eq_true'] at hd ⊢
        simpa [hne] using hd
      · rw [hok m hm rfl] at hfail
        cases hfail
    · rw [hkeep y hy]
      exact mem_entries_iff.mpr (Or.inl hpending)

/-! ## Removal -/

theorem deleteClient_of_removeReq {n : ℕ} (hmem : c ∈ u.clients)
    (h : removeReq cfg env (trySchedule cfg env n) c s = some (dropPending x c u)) :
    deleteClient cfg env (trySchedule cfg env n) c s = some (discard x c u) := by
  have hmem' : c ∈ (dropPending x c u).clients := hmem
  rw [deleteClient, h, Option.bind_some, unlinkClient, if_pos hmem']
  rfl

/-- A client that has not been put on a GPU has no entries. -/
theorem removes_of_noContext (hwf : WellFormed s) (hmem : c ∈ s.clients)
    (hctx : (s.client c).context = none) : Removes cfg env c s := by
  refine ⟨0, { s with clients := s.clients.filter (· ≠ c) }, ?_, ?_⟩
  · simp [deleteClient, removeReq, hctx, unlinkClient, hmem]
  · refine ⟨by simp, hwf.notMem_entries hctx, [], by simp, fun d hd hne _ => ⟨?_, ?_⟩⟩
    · exact List.mem_filter.mpr ⟨hd, by simpa using hne⟩
    · exact fun y hy => mem_entries_iff.mpr (Or.inl hy)

/-- Somebody still runs: the entries of the client are dropped and nobody is scheduled. -/
theorem removes_of_busy (hwf : WellFormed s) (hmem : c ∈ s.clients)
    (hctx : (s.client c).context = some x)
    (hbusy : ((leaveRunning cfg env x c s).ctx x).runningList ≠ [])
    (hgone : c ∉ ((leaveRunning cfg env x c s).ctx x).runningList) : Removes cfg env c s := by
  obtain ⟨-, hclients, -⟩ := leaveRunning_spec cfg env x c s
  have hleave : Block cfg env anyone x s (leaveRunning cfg env x c s) := .leave s c trivial
  have hremove : removeReq cfg env (trySchedule cfg env 0) c s
      = some (dropPending x c (leaveRunning cfg env x c s)) := by
    simp only [removeReq, hctx, if_neg hbusy]
  refine ⟨0, _, deleteClient_of_removeReq (hclients ▸ hmem) hremove, ?_⟩
  exact Removed.discard hctx hwf (Served.refl x _) hleave.frame.ctx_ne hgone

/-- Nobody runs any more, and others are scheduled without a deletion. -/
theorem removes_of_passing {fuel : ℕ} {mid : Sched} (hwf : WellFormed s) (hmem : c ∈ s.clients)
    (hctx : (s.client c).context = some x)
    (hidle : ((leaveRunning cfg env x c s).ctx x).runningList = [])
    (hmid : trySchedule cfg env fuel x
      (checkWaitQueue cfg env x (leaveRunning cfg env x c s)) = some mid)
    (hpath : Path cfg env nobody x (leaveRunning cfg env x c s) mid)
    (hgone : c ∉ (mid.ctx x).runningList) : Removes cfg env c s := by
  obtain ⟨-, hclients, -⟩ := leaveRunning_spec cfg env x c s
  have hleave : Block cfg env anyone x s (leaveRunning cfg env x c s) := .leave s c trivial
  have hremove : removeReq cfg env (trySchedule cfg env fuel) c s
      = some (dropPending x c mid) := by
    simp only [removeReq, hctx, if_pos hidle, hmid, Option.map_some]
  have hmemMid : c ∈ mid.clients := by
    rw [hpath.clients_eq, hclients]
    exact hmem
  obtain ⟨new, hserved⟩ := hpath.served
  refine ⟨fuel, _, deleteClient_of_removeReq hmemMid hremove, ?_⟩
  refine Removed.discard hctx hwf hserved (fun y hy => ?_) hgone
  rw [hpath.frame.ctx_ne y hy, hleave.frame.ctx_ne y hy]

/-- All who wait are refused, and `try_schedule` returns without a grant. -/
theorem removes_of_removable (hwf : WellFormed s) (hmem : c ∈ s.clients)
    (h : Removable cfg env c s) : Removes cfg env c s := by
  cases hctx : (s.client c).context with
  | none => exact removes_of_noContext hwf hmem hctx
  | some x =>
      have hx := h x hctx
      simp only at hx
      split at hx
      · rename_i hidle
        obtain ⟨hclash, hrounds⟩ := hx
        obtain ⟨hnodup, hapart⟩ := not_clashes.mp hclash
        obtain ⟨n, mid, hmid, hpath, hrun⟩ :=
          trySchedule_after_refusals hidle hnodup hapart hrounds
        exact removes_of_passing hwf hmem hctx hidle hmid hpath (hrun ▸ List.not_mem_nil)
      · rename_i hbusy
        exact removes_of_busy hwf hmem hctx hbusy hx

/-- If somebody is admitted or clashes, the call does not return when every send fails. -/
theorem removable_of_removes (hwf : WellFormed s) (hsolvent : ∀ d, Solvent s d)
    (hfail : ∀ n d, env.sendOk n d = false) (h : Removes cfg env c s) :
    Removable cfg env c s := by
  obtain ⟨fuel, t, ht, hremoved⟩ := h
  intro x hctx
  have hctx : (s.client c).context = some x := hctx
  rw [deleteClient, Option.bind_eq_some_iff] at ht
  obtain ⟨mid, hmid, hunlink⟩ := ht
  simp only [removeReq, hctx] at hmid
  simp only
  split at hmid
  · rename_i hidle
    rw [if_pos hidle]
    have hleave : Block cfg env anyone x s (leaveRunning cfg env x c s) := .leave s c trivial
    have hstranded : Stranded x (leaveRunning cfg env x c s) := by
      refine ⟨(hwf.belongs x).path hleave.path, fun d hd => hleave.nonneg ?_, hidle⟩
      have hd' := hwf.belongs x d (mem_entries_iff.mpr (Or.inl (hleave.pending_subset hd)))
      exact (hsolvent d (by rw [hd']; simp)).2
    by_contra hrefused
    rw [not_and_or, not_not, Bool.not_eq_true] at hrefused
    have hnone := trySchedule_doomed hfail fuel hstranded.checkWaitQueue
      (doomed_checkWaitQueue hstranded hrefused)
    rw [hnone, Option.map_none] at hmid
    cases hmid
  · rename_i hbusy
    rw [if_neg hbusy]
    intro hc
    refine hremoved.entries x (mem_entries_of_running ?_)
    obtain rfl := Option.some.inj hmid
    unfold unlinkClient at hunlink
    split at hunlink
    · rw [← Option.some.inj hunlink]
      simpa [dropPending] using hc
    · cases hunlink

theorem leaveRunning_notMem (cfg : Config) (env : Env) (hnodup : (s.ctx x).entries.Nodup) :
    c ∉ ((leaveRunning cfg env x c s).ctx x).runningList := by
  rw [leaveRunning_erases]
  exact fun hc => ((List.nodup_append.mp hnodup).2.1.mem_erase_iff.mp hc).1 rfl

/-- Leaving the running list bars nobody who waits. -/
theorem sidelined_leaveRunning {reads : ℕ → Prop} (hnodup : (s.ctx x).entries.Nodup)
    (hside : c ∉ (s.ctx x).pending ∨ Barred cfg env x c reads s) :
    Sidelined cfg env x c reads (leaveRunning cfg env x c s) := by
  obtain ⟨-, hclients, -⟩ := leaveRunning_spec cfg env x c s
  have hleave : Block cfg env anyone x s (leaveRunning cfg env x c s) := .leave s c trivial
  refine ⟨leaveRunning_notMem cfg env hnodup, ?_⟩
  rcases hside with hnone | hbarred
  · exact Or.inl fun hc => hnone (hleave.pending_subset hc)
  · by_cases hc : c ∈ (s.ctx x).runningList
    · left
      intro hp
      exact List.disjoint_of_nodup_append hnodup (hleave.pending_subset hp) hc
    · obtain ⟨hclient, hstart⟩ := leaveRunning_others cfg env c hc
      exact Or.inr (hbarred.congr hclient hstart hclients hleave.frame.static)

/-- A removal that schedules others reads the clock as often as they do. -/
theorem ticks_of_deleteClient {fuel : ℕ} (hctx : (s.client c).context = some x)
    (hidle : ((leaveRunning cfg env x c s).ctx x).runningList = [])
    (h : deleteClient cfg env (trySchedule cfg env fuel) c s = some t) :
    ∃ mid, trySchedule cfg env fuel x
      (checkWaitQueue cfg env x (leaveRunning cfg env x c s)) = some mid ∧
      t.ticks = mid.ticks := by
  rw [deleteClient, Option.bind_eq_some_iff] at h
  obtain ⟨u, hu, hunlink⟩ := h
  simp only [removeReq, hctx, if_pos hidle, Option.map_eq_some_iff] at hu
  obtain ⟨mid, hmid, rfl⟩ := hu
  refine ⟨mid, hmid, ?_⟩
  unfold unlinkClient at hunlink
  split at hunlink
  · rw [← Option.some.inj hunlink]
    rfl
  · cases hunlink

theorem readBy_of_returns {fuel n : ℕ} {mid : Sched} (hctx : (s.client c).context = some x)
    (hidle : ((leaveRunning cfg env x c s).ctx x).runningList = [])
    (hmid : trySchedule cfg env fuel x
      (checkWaitQueue cfg env x (leaveRunning cfg env x c s)) = some mid)
    (hn : s.ticks ≤ n) (hlt : n < mid.ticks) : ReadBy cfg env c s n := by
  refine ⟨hn, fun m t ht => ?_⟩
  obtain ⟨mid', hmid', hticks⟩ := ticks_of_deleteClient hctx hidle ht
  have hsame := trySchedule_mono (le_max_left fuel m) hmid
  rw [trySchedule_mono (le_max_right fuel m) hmid'] at hsame
  rw [hticks, Option.some.inj hsame]
  exact hlt

theorem readBy_of_stuck {n : ℕ} (hctx : (s.client c).context = some x)
    (hidle : ((leaveRunning cfg env x c s).ctx x).runningList = [])
    (hstuck : ¬ ∃ fuel mid, trySchedule cfg env fuel x
      (checkWaitQueue cfg env x (leaveRunning cfg env x c s)) = some mid)
    (hn : s.ticks ≤ n) : ReadBy cfg env c s n := by
  refine ⟨hn, fun fuel t ht => ?_⟩
  obtain ⟨mid, hmid, -⟩ := ticks_of_deleteClient hctx hidle ht
  exact absurd ⟨fuel, mid, hmid⟩ hstuck

/-- The call that schedules others returns: if it did not, none of its readings would end the
window. -/
theorem PassedBy.returns (hwf : WellFormed s) (hlinked : Linked s) (hsolvent : ∀ d, Solvent s d)
    (hctx : (s.client c).context = some x)
    (hidle : ((leaveRunning cfg env x c s).ctx x).runningList = [])
    (h : PassedBy cfg env c s) :
    ∃ fuel mid, trySchedule cfg env fuel x
      (checkWaitQueue cfg env x (leaveRunning cfg env x c s)) = some mid := by
  obtain ⟨hnodup, hsend, hside⟩ := h x hctx
  by_contra hstuck
  have hleave : Block cfg env anyone x s (leaveRunning cfg env x c s) := .leave s c trivial
  have hcheck : Path cfg env nobody x (leaveRunning cfg env x c s)
      (checkWaitQueue cfg env x (leaveRunning cfg env x c s)) := checkWaitQueue_path _
  have hready := (ready_of_invariants hwf hlinked hsolvent hnodup).block hleave
  have hready' := hcheck.invariant (I := Ready x) (fun _ _ hb hu => hu.block hb) hready
  have hread : ∀ n, (leaveRunning cfg env x c s).ticks ≤ n → ReadBy cfg env c s n :=
    fun n hn => readBy_of_stuck hctx hidle hstuck (hleave.ticks_le.trans hn)
  have hscanned := hcheck.sidelined (sidelined_leaveRunning hnodup hside)
    fun n hn _ => hread n hn
  have hfirst := hscanned.firstGrantDelivered hready' ((hsend.path hleave.path).path hcheck)
    fun n hn => hread n (hcheck.ticks_le.trans hn)
  obtain ⟨fuel, mid, -, hmid, -⟩ := trySchedule_returns hready' (Or.inr hfirst)
  exact hstuck ⟨fuel, mid, hmid⟩

/-- The client is passed by while others are scheduled. -/
theorem removes_of_passedBy (hwf : WellFormed s) (hlinked : Linked s)
    (hsolvent : ∀ d, Solvent s d) (hmem : c ∈ s.clients) (h : PassedBy cfg env c s) :
    Removes cfg env c s := by
  cases hctx : (s.client c).context with
  | none => exact removes_of_noContext hwf hmem hctx
  | some x =>
      obtain ⟨hnodup, hsend, hside⟩ := h x hctx
      by_cases hidle : ((leaveRunning cfg env x c s).ctx x).runningList = []
      · obtain ⟨fuel, mid, hmid⟩ := h.returns hwf hlinked hsolvent hctx hidle
        have hleave : Block cfg env anyone x s (leaveRunning cfg env x c s) := .leave s c trivial
        have hcheck : Path cfg env nobody x (leaveRunning cfg env x c s)
            (checkWaitQueue cfg env x (leaveRunning cfg env x c s)) := checkWaitQueue_path _
        have hbelongs := ((hwf.belongs x).path hleave.path).path hcheck
        have hread : ∀ n, (leaveRunning cfg env x c s).ticks ≤ n → n < mid.ticks →
            ReadBy cfg env c s n :=
          fun n hn => readBy_of_returns hctx hidle hmid (hleave.ticks_le.trans hn)
        have hle : (checkWaitQueue cfg env x (leaveRunning cfg env x c s)).ticks ≤ mid.ticks :=
          (trySchedule_anyone hbelongs hmid).ticks_le
        have hsidelined := sidelined_leaveRunning hnodup hside
        have hscanned := hcheck.sidelined hsidelined
          fun n hn hlt => hread n hn (hlt.trans_le hle)
        have hpath := hcheck.trans (trySchedule_passing hbelongs hscanned
          ((hsend.path hleave.path).path hcheck)
          (fun n hn => hread n (hcheck.ticks_le.trans hn)) hmid)
        exact removes_of_passing hwf hmem hctx hidle hmid hpath
          (hpath.sidelined hsidelined hread).notRunning
      · exact removes_of_busy hwf hmem hctx hidle (leaveRunning_notMem cfg env hnodup)

/-- Whether a client is removable does not depend on the messages. -/
theorem removable_sending (sendOk : ℕ → ClientId → Bool) :
    Removable cfg (env.sending sendOk) c s ↔ Removable cfg env c s := by
  have hleave : ∀ x, leaveRunning cfg (env.sending sendOk) x c s = leaveRunning cfg env x c s :=
    fun _ => rfl
  simp only [Removable, hleave, refusesAll_sending]

/-- In every reachable state `delete_client` removes a client completely and loses no other
client to which no message failed: for every pattern of send results exactly if the client is
removable, and for one of them if it is passed by. -/
theorem client_removal_complete (hreach : Transition.Reaches (Step cfg env) Sched.init s)
    (hmem : c ∈ s.clients) :
    ((∀ sendOk, Removes cfg (env.sending sendOk) c s) ↔ Removable cfg env c s) ∧
      ∀ sendOk, PassedBy cfg (env.sending sendOk) c s → Removes cfg (env.sending sendOk) c s := by
  have hwf := wellFormed_of_reaches hreach
  have hguarded : Transition.Reaches (Transition.guarded (Step cfg env) fun _ _ => True)
      Sched.init s := hreach.mono fun _ _ _ hstep => ⟨trivial, hstep⟩
  have hsolvent := solvent_of_reaches hguarded
  refine ⟨⟨fun h => ?_, fun h sendOk => ?_⟩, fun sendOk => ?_⟩
  · exact (removable_sending _).mp (removable_of_removes hwf hsolvent (fun _ _ => rfl)
      (h fun _ _ => false))
  · exact removes_of_removable hwf hmem ((removable_sending sendOk).mpr h)
  · exact removes_of_passedBy hwf (linked_of_reaches hguarded) hsolvent hmem

/-- A clock that stands at 1 for two readings and at 1100 afterwards. -/
def later : Env where
  clock n := if n < 2 then 1 else 1100
  sendOk _ _ := true

/-- The only running client is removed while another one waits. And a client whose quota has
shrunk below what it has used waits alone: it is removed however the messages turn out. -/
theorem client_removal_complete_last_runner :
    (∃ s, Transition.Reaches (Step {} steady) Sched.init s ∧ (s.ctx 0).runningList = [0] ∧
      (s.ctx 0).waitQueue = [1] ∧ Removes {} steady 0 s) ∧
    ∃ s, Transition.Reaches (Step {} later) Sched.init s ∧ (s.ctx 0).runningList = [] ∧
      (s.ctx 0).waitQueue = [0] ∧ (s.client 0).isThrottled = false ∧
      ∀ sendOk, Removes {} (later.sending sendOk) 0 s := by
  refine ⟨?_, ?_⟩
  · obtain ⟨s, hs, hrun, hwait, hreq, hctx, hmem⟩ := exists_reaches {} steady (fun _ _ => True) 9
      [.accept {}, .accept {}, enter 0 1, enter 1 2, .message 0 (.memUpdate 10000000000),
        .message 1 (.memUpdate 10000000000), .message 0 .reqLock, .message 1 .reqLock]
      (fun s => (s.ctx 0).runningList = [0] ∧ (s.ctx 0).waitQueue = [1] ∧
        (s.ctx 0).requests = [] ∧ (s.client 0).context = some 0 ∧ 0 ∈ s.clients)
      (by decide +kernel)
    have hreach := hs.mono fun _ _ _ h => h.2
    refine ⟨s, hreach, hrun, hwait, (client_removal_complete hreach hmem).2 steady.sendOk ?_⟩
    intro x hx
    obtain rfl : 0 = x := Option.some.inj (hctx.symm.trans hx)
    refine ⟨?_, fun _ _ _ _ _ => rfl, Or.inl ?_⟩
    · simp [GpuContext.entries, hrun, hwait, hreq]
    · simp [GpuContext.pending, hwait, hreq]
  · obtain ⟨s, hs, hrun, hwait, hreq, hfree, hctx, hmem, hrefused⟩ :=
      exists_reaches {} later (fun _ _ => True) 9
        [.accept {}, .accept {}, enterQuota 0 1 60, .message 0 .reqLock,
          .message 0 .lockReleased, enterQuota 1 2 60, .message 0 .reqLock]
        (fun s => (s.ctx 0).runningList = [] ∧ (s.ctx 0).waitQueue = [0] ∧
          (s.ctx 0).requests = [] ∧ (s.client 0).isThrottled = false ∧
          (s.client 0).context = some 0 ∧ 0 ∈ s.clients ∧
          refusesAll {} later 0 [0, 0] (leaveRunning {} later 0 0 s) = true)
        (by decide +kernel)
    have hreach := hs.mono fun _ _ _ h => h.2
    refine ⟨s, hreach, hrun, hwait, hfree, (client_removal_complete hreach hmem).1.mpr ?_⟩
    intro x hx
    obtain rfl : 0 = x := Option.some.inj (hctx.symm.trans hx)
    obtain ⟨htable, -, -⟩ := leaveRunning_spec {} later 0 0 s
    have hreq' : ((leaveRunning {} later 0 0 s).ctx 0).requests = [] :=
      (congrArg LockTable.requests htable).trans hreq
    have hwait' : ((leaveRunning {} later 0 0 s).ctx 0).waitQueue = [0] :=
      (congrArg LockTable.waiting htable).trans hwait
    have hrun' : ((leaveRunning {} later 0 0 s).ctx 0).runningList = [] := by
      rw [leaveRunning_erases, hrun]
      rfl
    simp only [hrun', if_true, not_clashes, rounds, hreq', hwait']
    exact ⟨⟨List.nodup_nil, fun d hd => by cases hd⟩, hrefused⟩

/-! ## A client that is granted the lock while it is removed -/

/-- A clock under which a client of half the GPU uses up its share of the first window, and
that window is over when it hangs up. -/
def overdue : Env where
  clock n := if n < 4 then 1 else if n < 8 then 1500 else 4000
  sendOk _ _ := true

/-- A throttled client waits and hangs up after its window has ended. `remove_req` resets the
window, promotes the client and grants it the lock, so that the running list refers to a
client that no longer exists. -/
theorem removed_client_is_granted :
    ¬ ∀ (cfg : Config) (env : Env) (s : Sched) (c : ClientId), Monotone env.clock →
      Transition.Reaches (Step cfg env) Sched.init s → c ∈ s.clients → Removes cfg env c s := by
  intro h
  obtain ⟨s, hs, hmem, hlate⟩ := exists_reaches {} overdue (fun _ _ => True) 9
    [.accept {}, .message 0 (.register {} { generatedId := 1, coreAnnotated := some 50 }),
      .message 0 .reqLock, .timerBegin 0, .timerEnd 0 true, .message 0 .lockReleased,
      .message 0 .reqLock]
    (fun s => 0 ∈ s.clients ∧
      (deleteClient {} overdue (trySchedule {} overdue 9) 0 s).any
        (fun t => (t.ctx 0).runningList = [0]) = true)
    (by decide +kernel)
  rw [Option.any_eq_true] at hlate
  obtain ⟨t, ht, hrun⟩ := hlate
  have hmono : Monotone overdue.clock := by
    intro n m hnm
    simp only [overdue]
    split_ifs <;> omega
  obtain ⟨n, t', ht', hremoved⟩ := h {} overdue s 0 hmono (hs.mono fun _ _ _ hstep => hstep.2) hmem
  have hsame := deleteClient_mono (fun _ _ _ => trySchedule_mono (le_max_left 9 n)) ht
  rw [deleteClient_mono (fun _ _ _ => trySchedule_mono (le_max_right 9 n)) ht'] at hsame
  obtain rfl := Option.some.inj hsame
  refine hremoved.entries 0 (mem_entries_of_running ?_)
  rw [of_decide_eq_true hrun]
  exact List.mem_singleton.mpr rfl

end XpuShare
