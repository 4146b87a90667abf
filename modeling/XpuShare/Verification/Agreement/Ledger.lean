import XpuShare.Model.System
import XpuShare.Verification.Isolation.Correctness

/-! # The scheduler's side of the lock protocol

For each client the scheduler keeps an account: every LOCK_OK it sends moves one entry of
the client from the queues to the running list, a REQ_LOCK adds an entry and a LOCK_RELEASED
takes one away. Nothing else changes the account. -/

namespace XpuShare

variable {cfg : Config} {env : Env} {x : CtxId} {c d : ClientId} {s t u : Sched}

theorem messagesTo_append (c : ClientId) (sent sent' : List Sent) :
    messagesTo c (sent ++ sent') = messagesTo c sent ++ messagesTo c sent' := by
  simp [messagesTo]

theorem messagesTo_eq_nil {sent : List Sent} (h : ∀ m ∈ sent, m.dest ≠ c) :
    messagesTo c sent = [] := by
  rw [messagesTo, List.map_eq_nil_iff, List.filter_eq_nil_iff]
  intro m hm
  simpa using h m hm

theorem count_messagesTo {sent : List Sent} (h : ∀ m ∈ sent, m.msg ≠ .lockOk) :
    (messagesTo c sent).count .lockOk = 0 := by
  rw [List.count_eq_zero]
  intro hmem
  obtain ⟨m, hm, hmsg⟩ := List.mem_map.mp hmem
  exact h m (List.mem_filter.mp hm).1 hmsg

theorem sentTo_append {sent : List Sent} (c : ClientId) (h : t.out = s.out ++ sent) :
    t.sentTo c = s.sentTo c ++ messagesTo c sent := by
  rw [Sched.sentTo, h, messagesTo_append]
  rfl

/-- The account of `c` on context `x` between two states: `arrived` new requests, `left`
entries given up, and a LOCK_OK for each entry that joined the running list. -/
structure Ledger (x : CtxId) (c : ClientId) (arrived left : ℕ) (s t : Sched) : Prop where
  context : (t.client c).context = (s.client c).context
  entries : (t.ctx x).entries.count c + left = (s.ctx x).entries.count c + arrived
  sent : ∃ new, t.sentTo c = s.sentTo c ++ new ∧
    (t.ctx x).runningList.count c + left = (s.ctx x).runningList.count c + new.count .lockOk

theorem Ledger.refl (x : CtxId) (c : ClientId) (s : Sched) : Ledger x c 0 0 s s :=
  ⟨rfl, rfl, [], by simp, by simp⟩

theorem Ledger.trans {arrived left arrived' left' : ℕ} (h : Ledger x c arrived left s t)
    (h' : Ledger x c arrived' left' t u) :
    Ledger x c (arrived + arrived') (left + left') s u where
  context := h'.context.trans h.context
  entries := by
    have hfirst := h.entries
    have hsecond := h'.entries
    omega
  sent := by
    obtain ⟨new, hnew, hrun⟩ := h.sent
    obtain ⟨new', hnew', hrun'⟩ := h'.sent
    refine ⟨new ++ new', by rw [hnew', hnew, List.append_assoc], ?_⟩
    rw [List.count_append]
    omega

theorem count_entries (g : GpuContext) (c : ClientId) :
    g.entries.count c = g.pending.count c + g.runningList.count c := by
  rw [GpuContext.entries, List.count_append, GpuContext.pending]

/-! ## Steps that leave the account alone -/

theorem Ledger.of_table {new : List Sent} (hctx : (t.client c).context = (s.client c).context)
    (htable : (t.ctx x).table = (s.ctx x).table) (hout : t.out = s.out ++ new)
    (hnew : ∀ m ∈ new, m.msg ≠ .lockOk) : Ledger x c 0 0 s t where
  context := hctx
  entries := by rw [entries_of_table htable]
  sent := by
    refine ⟨messagesTo c new, sentTo_append c hout, ?_⟩
    have hrun : (t.ctx x).runningList = (s.ctx x).runningList :=
      congrArg LockTable.running htable
    rw [hrun, count_messagesTo hnew]

theorem Tuned.ledger (h : Tuned s t) : Ledger x c 0 0 s t := by
  obtain ⟨new, hnew, hmsg⟩ := h.sent
  exact Ledger.of_table (context_of_core (h.client c)) (table_of_core (h.ctx x)) hnew
    fun m hm => (hmsg m hm).1

/-- Nothing that concerns `c` has changed. -/
structure Unmoved (c : ClientId) (s t : Sched) : Prop where
  client : t.client c = s.client c
  table : ∀ x, (s.client c).context = some x → (t.ctx x).table = (s.ctx x).table
  sentTo : t.sentTo c = s.sentTo c

theorem Unmoved.ledger (h : Unmoved c s t) (hctx : (s.client c).context = some x) :
    Ledger x c 0 0 s t where
  context := by rw [h.client]
  entries := by rw [entries_of_table (h.table x hctx)]
  sent := by
    refine ⟨[], by rw [h.sentTo, List.append_nil], ?_⟩
    have hrun : (t.ctx x).runningList = (s.ctx x).runningList :=
      congrArg LockTable.running (h.table x hctx)
    rw [hrun, List.count_nil]

/-- Events of one context leave the clients of the others alone. -/
theorem Local.unmoved (h : Local x s t) (hc : (s.client c).context ≠ some x) :
    Unmoved c s t where
  client := h.client c hc
  table y hy := by
    have hne : y ≠ x := fun he => hc (he ▸ hy)
    rw [h.ctx_ne y hne]
  sentTo := by
    obtain ⟨new, hnew, hdest⟩ := h.sent
    have hnone : ∀ m ∈ new, m.dest ≠ c := fun m hm he => hc (he ▸ hdest m hm)
    rw [sentTo_append c hnew, messagesTo_eq_nil hnone, List.append_nil]

/-! ## Scheduling -/

/-- A block in which nobody leaves moves entries about and announces each grant. -/
theorem Block.ledger (h : Block cfg env nobody x s t) : Ledger x c 0 0 s t := by
  have hctx : (t.client c).context = (s.client c).context :=
    context_of_static (h.frame.static c)
  cases h with
  | window =>
      have heff := freshWindow_effect cfg env x s
      exact Ledger.of_table hctx heff.table_eq heff.out_eq (by simp)
  | defer d rest hreq hno hwait =>
      have heff := moveToWaitQueue_effect env hwait
      have hd : d ∈ (s.ctx x).table.requests := by simp [GpuContext.table, hreq]
      refine ⟨hctx, ?_, _, sentTo_append c heff.out_eq, ?_⟩
      · have hperm := LockTable.defer_entries_perm hd
        rw [← heff.table_eq] at hperm
        exact hperm.count_eq c
      · have hrun : ((moveToWaitQueue env x d s).ctx x).runningList = (s.ctx x).runningList :=
          congrArg LockTable.running heff.table_eq
        rw [hrun, count_messagesTo]
        unfold deferNotice
        split <;> simp
  | promote front d back hwait hok =>
      have heff := promote_effect env x front d back s
      refine ⟨hctx, ?_, _, sentTo_append c heff.out_eq, ?_⟩
      · have hperm := LockTable.promote_entries_perm (t := (s.ctx x).table) hwait
        rw [← heff.table_eq] at hperm
        exact hperm.count_eq c
      · have hrun : ((XpuShare.promote env x front d back s).ctx x).runningList
            = (s.ctx x).runningList := congrArg LockTable.running heff.table_eq
        rw [hrun, count_messagesTo (by simp)]
  | grant d rest hreq hok hsend =>
      have hd : d ∈ (s.ctx x).table.requests := by simp [GpuContext.table, hreq]
      have heff := grantSent_effect env (mem_entries_of_requests hd)
      refine ⟨hctx, ?_, _, sentTo_append c heff.out_eq, ?_⟩
      · have hperm := LockTable.enter_entries_perm hd
        rw [← heff.table_eq] at hperm
        exact hperm.count_eq c
      · have hrun : ((XpuShare.grant env x d (sendMessage env d .lockOk s)).ctx x).runningList
            = (s.ctx x).runningList ++ [d] := congrArg LockTable.running heff.table_eq
        rw [hrun, List.count_append]
        by_cases hdc : d = c <;> simp [messagesTo, hdc]
  | refuse d rest hreq hok hsend hD => exact hD.elim
  | leave d hD => exact hD.elim
  | withdraw d hD => exact hD.elim
  | unlink d hD hctx hgone => exact hD.elim

theorem Path.ledger (h : Path cfg env nobody x s t) : Ledger x c 0 0 s t := by
  induction h with
  | refl => exact Ledger.refl x c s
  | tail _ hlast ih => exact ih.trans hlast.ledger

/-- A client that is not queued is not scheduled. -/
theorem Ledger.notMem_pending (h : Ledger x c 0 0 s t) (hs : c ∉ (s.ctx x).pending) :
    c ∉ (t.ctx x).pending := by
  obtain ⟨new, -, hrun⟩ := h.sent
  have hentries := h.entries
  rw [count_entries, count_entries] at hentries
  rw [← List.count_eq_zero] at hs ⊢
  omega

theorem leaveRunning_pending (cfg : Config) (env : Env) (x : CtxId) (d : ClientId) (s : Sched) :
    ((leaveRunning cfg env x d s).ctx x).pending = (s.ctx x).pending :=
  congrArg (fun table : LockTable ClientId => table.requests ++ table.waiting)
    (leaveRunning_spec cfg env x d s).1

theorem leaveRunning_ledger (cfg : Config) (env : Env) (hrun : d ∈ (s.ctx x).runningList) :
    Ledger x c 0 ([d].count c) s (leaveRunning cfg env x d s) := by
  have heff := leaveRunning_effect cfg env hrun
  have hreleased : ((leaveRunning cfg env x d s).ctx x).runningList
      = (s.ctx x).runningList.erase d := congrArg LockTable.running heff.table_eq
  have hcount : ((s.ctx x).runningList.erase d).count c + [d].count c
      = (s.ctx x).runningList.count c := by
    simp [(List.perm_cons_erase hrun).count_eq c, List.count_cons]
  refine ⟨context_of_static (heff.static c), ?_, _, sentTo_append c heff.out_eq, ?_⟩
  · rw [count_entries, count_entries, leaveRunning_pending, hreleased]
    omega
  · rw [hreleased, hcount]
    rfl

theorem dropPending_ledger (hgone : d ∉ (s.ctx x).pending) :
    Ledger x c 0 0 s (dropPending x d s) := by
  have heff := dropPending_effect x d s
  have htable : (s.ctx x).table.withdraw d = (s.ctx x).table := by
    rw [GpuContext.pending, List.mem_append, not_or] at hgone
    have hreq : (s.ctx x).requests.filter (· ≠ d) = (s.ctx x).requests :=
      List.filter_eq_self.mpr fun a ha => by simpa using fun he : a = d => hgone.1 (he ▸ ha)
    have hwait : (s.ctx x).waitQueue.filter (· ≠ d) = (s.ctx x).waitQueue :=
      List.filter_eq_self.mpr fun a ha => by simpa using fun he : a = d => hgone.2 (he ▸ ha)
    simp only [LockTable.withdraw, GpuContext.table, hreq, hwait]
  exact Ledger.of_table (context_of_static (heff.static c)) (heff.table_eq.trans htable)
    heff.out_eq (by simp)

theorem memUpdate_ledger (cfg : Config) (env : Env) (x : CtxId) (c d : ClientId) (v : ℕ)
    (s : Sched) : Ledger x c 0 0 s (memUpdate cfg env d v s) := by
  rcases memUpdate_spec cfg env d v s with hsame | ⟨y, -, htuned⟩
  · rw [hsame]
    exact Ledger.refl x c s
  · have hcontext : ((creditMemory cfg y d v s).client c).context = (s.client c).context := by
      rw [creditMemory_client]
      exact storeMemory_field Client.context (fun _ _ _ => rfl) d c v s
    have hout : (creditMemory cfg y d v s).out = s.out ++ [] := by
      obtain ⟨usage, peak, overloaded, hcredit⟩ := creditMemory_spec cfg y d v s
      rw [hcredit, List.append_nil]
      rfl
    have hcredit : Ledger x c 0 0 s (creditMemory cfg y d v s) :=
      Ledger.of_table hcontext (creditMemory_table cfg y d v s x) hout (by simp)
    exact hcredit.trans htuned.ledger

section Handlers

variable {fuel : ℕ} (hsent : env.AllSent)

include hsent

theorem trySchedule_ledger (hb : Belongs x s) (h : trySchedule cfg env fuel x s = some t) :
    Ledger x c 0 0 s t :=
  (trySchedule_sent hsent hb h).ledger

theorem scheduleIfFree_ledger (hb : Belongs x s)
    (h : scheduleIfFree cfg env fuel x s = some t) : Ledger x c 0 0 s t := by
  unfold scheduleIfFree at h
  split at h
  · exact (Option.some.inj h) ▸ Ledger.refl x c s
  · exact trySchedule_ledger hsent hb h

theorem timerBegin_ledger (hb : Belongs x s) (h : timerBegin cfg env fuel x s = some t) :
    Ledger x c 0 0 s t := by
  have hfresh : Path cfg env nobody x s (freshWindow cfg env x s) := (Block.window s).path
  simp only [timerBegin, checkAndResetWindow_snd, Option.map_eq_some_iff] at h
  obtain ⟨u, hu, rfl⟩ := h
  have hsleep : Ledger x c 0 0 u (timerSleep cfg env x u) := (timerSleep_tuned cfg env x u).ledger
  split at hu
  · exact (hfresh.ledger.trans (trySchedule_ledger hsent (hb.path hfresh) hu)).trans hsleep
  · rw [← Option.some.inj hu] at hsleep ⊢
    exact hfresh.ledger.trans hsleep

/-- REQ_LOCK of a client that is not queued adds one entry for it. -/
theorem reqLock_ledger (hb : Belongs x s) (hctx : (s.client d).context = some x)
    (hreq : d ∉ (s.ctx x).requests) (h : reqLock cfg env fuel d s = some t) :
    Ledger x c ([d].count c) 0 s t := by
  have hledger : Ledger x c ([d].count c) 0 s (insertReq d s) := by
    rw [insertReq_of_notMem hctx hreq]
    refine ⟨rfl, ?_, [], by simp [Sched.sentTo], by simp⟩
    have hperm : ((s.ctx x).table.arrive d).entries.Perm (d :: (s.ctx x).entries) :=
      LockTable.arrive_entries_perm
    have hcount := hperm.count_eq c
    rw [← List.singleton_append, List.count_append, Nat.add_comm] at hcount
    simpa [GpuContext.entries, LockTable.entries, LockTable.arrive, GpuContext.table] using hcount
  simp only [reqLock, hctx] at h
  split at h
  · exact (Option.some.inj h) ▸ hledger
  · exact hledger.trans (trySchedule_ledger hsent (hb.insertReq hctx) h)

/-- LOCK_RELEASED of a client that runs and is not queued takes its entry away. -/
theorem lockReleased_ledger (hb : Belongs x s) (hctx : (s.client d).context = some x)
    (hrun : d ∈ (s.ctx x).runningList) (hpending : d ∉ (s.ctx x).pending)
    (h : lockReleased cfg env fuel d s = some t) : Ledger x c 0 ([d].count c) s t := by
  simp only [lockReleased, hctx, Option.bind_eq_some_iff] at h
  obtain ⟨v, hv, hvt⟩ := h
  have hleave : Path cfg env anyone x s (leaveRunning cfg env x d s) :=
    (Block.leave s d trivial).path
  have hbl : Belongs x (leaveRunning cfg env x d s) := hb.path hleave
  obtain ⟨mid, hmid, rfl⟩ := removeReq_spec hctx (fun _ _ => trySchedule_sent hsent) hbl hv
  -- Nobody schedules a client that is not queued, so `d` has nothing left to withdraw.
  have hleft : d ∉ ((leaveRunning cfg env x d s).ctx x).pending := by
    rwa [leaveRunning_pending]
  have hgone : d ∉ (mid.ctx x).pending := hmid.ledger.notMem_pending hleft
  have hwithdraw : Path cfg env anyone x mid (dropPending x d mid) :=
    (Block.withdraw mid d trivial).path
  have hbd : Belongs x (dropPending x d mid) := (hbl.path hmid).path hwithdraw
  have hfirst : Ledger x c 0 ([d].count c) s mid :=
    (leaveRunning_ledger cfg env hrun).trans hmid.ledger
  exact (hfirst.trans (dropPending_ledger hgone)).trans (scheduleIfFree_ledger hsent hbd hvt)

end Handlers

/-! ## New clients -/

theorem Unmoved.trans (h : Unmoved c s t) (h' : Unmoved c t u) : Unmoved c s u where
  client := h'.client.trans h.client
  table x hx := (h'.table x (h.client ▸ hx)).trans (h.table x hx)
  sentTo := h'.sentTo.trans h.sentTo

theorem accept_unmoved (garbage : Client) (hc : c ≠ s.nalloc) : Unmoved c s (accept garbage s) :=
  ⟨Function.update_of_ne hc _ _, fun _ _ => rfl, rfl⟩

theorem sendMessage_unmoved (env : Env) (m : ToClient) (s : Sched) (hd : d ≠ c) :
    Unmoved d s (sendMessage env c m s) := by
  refine ⟨rfl, fun _ _ => rfl, ?_⟩
  rw [sentTo_append d (sendMessage_out env c m s), messagesTo_eq_nil, List.append_nil]
  simpa using hd.symm

theorem applyInitialLimit_unmoved (env : Env) (limit : Option ℕ) (s : Sched) (hd : d ≠ c) :
    Unmoved d s (applyInitialLimit env c limit s) := by
  have hrefl : Unmoved d s s := ⟨rfl, fun _ _ => rfl, rfl⟩
  cases limit with
  | none => exact hrefl
  | some n =>
      unfold applyInitialLimit
      simp only
      split
      · have hstore : Unmoved d s (s.modifyClient c fun r => { r with memoryLimit := n }) :=
          ⟨Sched.modifyClient_client_ne _ _ _ _ hd, fun _ _ => rfl, rfl⟩
        exact hstore.trans (sendMessage_unmoved env _ _ hd)
      · exact hrefl

theorem enrol_unmoved (cfg : Config) (m : RegisterMsg) (e : RegisterEnv) (hwf : WellFormed s)
    (hd : d ≠ c) : Unmoved d s (enrol cfg c m e s) := by
  obtain ⟨x, hclient, -, -, -, -, -, hout, hctx⟩ := enrol_spec cfg c m e s
  refine ⟨?_, fun y hy => ?_, by rw [Sched.sentTo, hout]; rfl⟩
  · rw [hclient, Function.update_of_ne hd]
  · have hlt := hwf.context_lt d y hy
    rcases hctx with ⟨-, hctx⟩ | ⟨hx, hctx⟩
    · rw [hctx]
    · have hne : y ≠ x := hx ▸ Nat.ne_of_lt hlt
      rw [hctx, Function.update_of_ne hne]

/-- What REGISTER does for a client that has not registered, when every send succeeds. -/
theorem register_eq {fuel : ℕ} {m : RegisterMsg} {e : RegisterEnv} (hsent : env.AllSent)
    (hunreg : hasRegistered s c = false)
    (h : processMsg cfg env fuel c (.register m e) s = some t) :
    t = applyInitialLimit env c e.memoryAnnotated (sendMessage env c
      (.status (enrol cfg c m e s).schedulerOn e.generatedId
        ((enrol cfg c m e s).client c).coreLimit) (enrol cfg c m e s)) := by
  have hok : ∀ u, sendSucceeds env c u = true := fun u => hsent _ c
  simp only [processMsg, registerClient, hunreg, Bool.false_eq_true, if_false, hok, if_true,
    Option.some.injEq] at h
  exact h.symm

/-- Registration of one client leaves the others alone. -/
theorem register_unmoved {fuel : ℕ} {m : RegisterMsg} {e : RegisterEnv} (hsent : env.AllSent)
    (hwf : WellFormed s) (hunreg : hasRegistered s c = false) (hd : d ≠ c)
    (h : processMsg cfg env fuel c (.register m e) s = some t) : Unmoved d s t := by
  rw [register_eq hsent hunreg h]
  exact ((enrol_unmoved cfg m e hwf hd).trans (sendMessage_unmoved env _ _ hd)).trans
    (applyInitialLimit_unmoved env _ _ hd)

/-- The new client has a context, no entry and no LOCK_OK. -/
theorem register_entered {fuel : ℕ} {m : RegisterMsg} {e : RegisterEnv} (hsent : env.AllSent)
    (hwf : WellFormed s) (hunreg : hasRegistered s c = false)
    (h : processMsg cfg env fuel c (.register m e) s = some t) :
    ∃ x new, (t.client c).context = some x ∧ c ∉ (t.ctx x).entries ∧
      t.sentTo c = s.sentTo c ++ new ∧ .lockOk ∉ new := by
  have hnone : (s.client c).context = none := hwf.context_eq_none hunreg
  obtain ⟨x, hclient, -, -, -, -, -, hout, hctx⟩ := enrol_spec cfg c m e s
  rw [register_eq hsent hunreg h]
  generalize XpuShare.enrol cfg c m e s = v at hclient hout hctx
  have hstatus : Tuned v (sendMessage env c (.status v.schedulerOn e.generatedId
    (v.client c).coreLimit) v) := Tuned.sendMessage env c (by simp)
  have htuned := hstatus.trans (applyInitialLimit_tuned env c e.memoryAnnotated _)
  obtain ⟨new, hnew, hmsg⟩ := htuned.sent
  refine ⟨x, messagesTo c new, ?_, ?_, ?_, ?_⟩
  · rw [context_of_core (htuned.client c), hclient, Function.update_self]
    rfl
  · rw [entries_of_table (table_of_core (htuned.ctx x))]
    rcases hctx with ⟨-, hctx⟩ | ⟨-, hctx⟩
    · rw [hctx]
      exact hwf.notMem_entries hnone x
    · rw [hctx, Function.update_self]
      simp [GpuContext.entries]
  · exact sentTo_append c (hout ▸ hnew)
  · rw [← List.count_eq_zero]
    exact count_messagesTo fun m hm => (hmsg m hm).1

/-! ## Announcements -/

/-- The scheduler is on and has never told anybody that it is off. -/
structure OnAir (s : Sched) : Prop where
  on : s.schedulerOn = true
  sent : ∀ m ∈ s.out, m.msg.turnsOff = false

theorem OnAir.of_append {new : List Sent} (hs : OnAir s) (hon : t.schedulerOn = s.schedulerOn)
    (hout : t.out = s.out ++ new) (hnew : ∀ m ∈ new, m.msg.turnsOff = false) : OnAir t where
  on := hon.trans hs.on
  sent m hm := by
    rw [hout] at hm
    rcases List.mem_append.mp hm with hm | hm
    · exact hs.sent m hm
    · exact hnew m hm

theorem OnAir.of_out_eq (hs : OnAir s) (hon : t.schedulerOn = s.schedulerOn)
    (hout : t.out = s.out) : OnAir t :=
  hs.of_append hon (hout.trans (List.append_nil _).symm) (by simp)

theorem OnAir.block {D : Exits} (h : Block cfg env D x s t) (hs : OnAir s) : OnAir t := by
  have hon := h.frame.schedulerOn
  cases h with
  | window => exact hs.of_out_eq hon (freshWindow_out cfg env x s)
  | defer d rest hreq hno hwait =>
      refine hs.of_append hon (moveToWaitQueue_effect env hwait).out_eq ?_
      unfold deferNotice
      split <;> simp
  | promote front d back hwait hok =>
      exact hs.of_append hon (promote_effect env x front d back s).out_eq (by simp)
  | grant d rest hreq hok hsend =>
      have hd : d ∈ (s.ctx x).entries := mem_entries_of_requests (by simp [hreq])
      exact hs.of_append hon (grantSent_effect env hd).out_eq (by simp)
  | refuse d rest hreq hok hsend hD =>
      exact hs.of_append hon (sendMessage_effect env x d _ s).out_eq (by simp)
  | leave d hD => exact hs.of_out_eq hon (leaveRunning_spec cfg env x d s).2.2
  | withdraw d hD => exact hs.of_out_eq hon rfl
  | unlink d hD hctx hgone => exact hs.of_out_eq hon rfl

/-- Neither SCHED_ON nor SCHED_OFF. -/
def Unswitched (_ : Sched) (e : Event) : Prop :=
  ∀ c, e ≠ .message c .schedOn ∧ e ≠ .message c .schedOff

theorem OnAir.action {D : ClientId → Prop} (h : Action cfg env D Unswitched s t)
    (hs : OnAir s) : OnAir t := by
  cases h with
  | block x h => exact hs.block h
  | tune h =>
      obtain ⟨new, hnew, hmsg⟩ := h.sent
      refine hs.of_append h.schedulerOn hnew fun m hm => ?_
      rw [Bool.eq_false_iff]
      exact fun hoff => Bool.false_ne_true (((hmsg m hm).2 hoff).symm.trans hs.on)
  | accept garbage hok => exact hs.of_out_eq rfl rfl
  | enrol c m e hok hmem hunreg hid =>
      obtain ⟨x, -, -, -, -, -, hon, hout, -⟩ := enrol_spec cfg c m e s
      exact hs.of_out_eq hon hout
  | insert c x hok hmem hon hctx hreq => exact hs.of_out_eq rfl rfl
  | memory c x v hok hmem hctx =>
      obtain ⟨usage, peak, overloaded, hcredit⟩ := creditMemory_spec cfg x c v s
      rw [hcredit]
      exact hs.of_out_eq rfl rfl
  | unlink c hctx => exact hs.of_out_eq rfl rfl
  | power on c hok => cases on <;> simp [Unswitched] at hok
  | clear s₀ c hok => simp [Unswitched] at hok

theorem Step.onAir {e : Event} (hwf : WellFormed s) (hok : Unswitched s e)
    (h : Step cfg env s e t) (hs : OnAir s) : OnAir t := by
  have hactions : Actions cfg env (fun _ => True) Unswitched s t :=
    h.actions (fun _ _ _ => trivial) hwf hok fun _ _ => trivial
  exact hactions.invariant (fun _ _ ha hu => hu.action ha) hs

/-- Only a new connection takes up a record. -/
theorem Step.nalloc_eq {e : Event} (hwf : WellFormed s) (hok : ∀ garbage, e ≠ .accept garbage)
    (h : Step cfg env s e t) : t.nalloc = s.nalloc := by
  have hactions : Actions cfg env (fun _ => True) (fun _ e => ∀ garbage, e ≠ .accept garbage) s t :=
    h.actions (fun _ _ _ => trivial) hwf hok fun _ _ => trivial
  refine hactions.invariant (I := fun u => u.nalloc = s.nalloc) (fun u v ha hu => ?_) rfl
  rw [← hu]
  cases ha with
  | block x h => exact h.frame.nalloc
  | tune h => exact h.nalloc
  | accept garbage hok => exact absurd rfl (hok garbage)
  | enrol c m e hok hmem hunreg hid =>
      obtain ⟨x, -, -, -, -, hnalloc, -⟩ := enrol_spec cfg c m e u
      exact hnalloc
  | memory c x v hok hmem hctx =>
      obtain ⟨usage, peak, overloaded, hcredit⟩ := creditMemory_spec cfg x c v u
      rw [hcredit]
      rfl
  | insert c x hok hmem hon hctx hreq => rfl
  | unlink c hctx => rfl
  | power on c hok => rfl
  | clear s₀ c hok => rfl

end XpuShare
