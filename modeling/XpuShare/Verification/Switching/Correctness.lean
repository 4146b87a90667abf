import XpuShare.Model.Client
import XpuShare.Verification.Serial.Handlers

/-! # Switching the scheduler off and on

SCHED_OFF clears `requests` and `lock_held` only. When nobody runs or waits it therefore
resets the whole lock state, and nothing happens until SCHED_ON; clients that run or wait
keep their entries, and the timers go on scheduling them. -/

namespace XpuShare

variable {cfg : Config} {env : Env} {x : CtxId} {s t u : Sched} {c : ClientId}

/-- Nobody holds or waits for the lock of any context. -/
structure Quiet (s : Sched) : Prop where
  empty : ∀ x < s.nctx, (s.ctx x).entries = []
  free : ∀ x < s.nctx, (s.ctx x).lockHeld = false
  usage : ∀ x < s.nctx, (s.ctx x).runningMemoryUsage = 0
  stopped : ∀ c ∈ s.clients, (s.client c).isRunning = false

/-- Nobody runs or stands in a wait queue. A context with requests has no client to which a
message fails. -/
structure Idle (env : Env) (s : Sched) : Prop where
  running : ∀ x < s.nctx, (s.ctx x).runningList = []
  waiting : ∀ x < s.nctx, (s.ctx x).waitQueue = []
  usage : ∀ x < s.nctx, (s.ctx x).runningMemoryUsage = 0
  stopped : ∀ c ∈ s.clients, (s.client c).isRunning = false
  requests : ∀ x < s.nctx, (s.ctx x).requests = [] ∨
    ∀ n c, (s.client c).context = some x → env.sendOk n c = true

/-- Messages have been sent, but no LOCK_OK. -/
def Silent (s t : Sched) : Prop :=
  ∃ new, t.out = s.out ++ new ∧ ∀ m ∈ new, m.msg ≠ .lockOk

theorem Silent.refl (s : Sched) : Silent s s := ⟨[], by simp, by simp⟩

theorem Silent.trans (h : Silent s t) (h' : Silent t u) : Silent s u := by
  obtain ⟨new, hnew, hmsg⟩ := h
  obtain ⟨new', hnew', hmsg'⟩ := h'
  refine ⟨new ++ new', by rw [hnew', hnew, List.append_assoc], fun m hm => ?_⟩
  rcases List.mem_append.mp hm with hm | hm
  · exact hmsg m hm
  · exact hmsg' m hm

theorem Tuned.silent (h : Tuned s t) : Silent s t := by
  obtain ⟨new, hnew, hmsg⟩ := h.sent
  exact ⟨new, hnew, fun m hm => (hmsg m hm).1⟩

theorem Silent.of_out_eq (h : t.out = s.out) : Silent s t := ⟨[], by simp [h], by simp⟩

theorem Quiet.idle (h : Quiet s) : Idle env s := by
  have hparts : ∀ x < s.nctx, (s.ctx x).requests = [] ∧ (s.ctx x).waitQueue = [] ∧
      (s.ctx x).runningList = [] := by
    intro x hx
    have hempty := h.empty x hx
    simp only [GpuContext.entries, List.append_eq_nil_iff] at hempty
    exact ⟨hempty.1.1, hempty.1.2, hempty.2⟩
  exact ⟨fun x hx => (hparts x hx).2.2, fun x hx => (hparts x hx).2.1, h.usage, h.stopped,
    fun x hx => Or.inl (hparts x hx).1⟩

/-! ## Broadcasts -/

/-- Deleting a client of a context without entries schedules nobody. -/
theorem deleteClient_empty {n : ℕ} (hctx : (s.client c).context = some x)
    (hempty : (s.ctx x).entries = [])
    (h : deleteClient cfg env (trySchedule cfg env n) c s = some t) :
    t = { clearLock x s with clients := s.clients.filter (· ≠ c) } := by
  have hparts := hempty
  simp only [GpuContext.entries, List.append_eq_nil_iff] at hparts
  obtain ⟨⟨hreq, hwait⟩, hrun⟩ := hparts
  have hleft : leaveRunning cfg env x c s = clearLock x s :=
    leaveRunning_of_notMem cfg env (by simp [hrun])
  have heff := clearLock_effect x s
  have hrun' : ((clearLock x s).ctx x).runningList = [] :=
    (congrArg LockTable.running heff.table_eq).trans hrun
  have hwait' : ((clearLock x s).ctx x).waitQueue = [] :=
    (congrArg LockTable.waiting heff.table_eq).trans hwait
  have hreq' : ((clearLock x s).ctx x).requests = [] :=
    (congrArg LockTable.requests heff.table_eq).trans hreq
  have hpending : ((clearLock x s).ctx x).pending = [] := by
    simp [GpuContext.pending, hreq', hwait']
  simp only [deleteClient, removeReq, hctx, hleft, hrun', if_true, Option.bind_eq_some_iff,
    Option.map_eq_some_iff, checkWaitQueue_nil env hwait'] at h
  obtain ⟨mid, ⟨v, hv, rfl⟩, hunlink⟩ := h
  rw [trySchedule_idle hpending hv, dropPending_of_notMem (by simp [hpending])] at hunlink
  rw [unlinkClient_eq hunlink, heff.clients_eq]

theorem clearLock_idle (h : Idle env s) (x : CtxId) : Idle env (clearLock x s) := by
  have hfields : ∀ y, ((clearLock x s).ctx y).table = (s.ctx y).table ∧
      ((clearLock x s).ctx y).runningMemoryUsage = (s.ctx y).runningMemoryUsage := by
    intro y
    have heff := clearLock_effect x s
    by_cases hy : y = x
    · subst hy
      exact ⟨heff.table_eq, heff.memory_eq⟩
    · rw [heff.ctx_ne y hy]
      exact ⟨rfl, rfl⟩
  have hnctx : (clearLock x s).nctx = s.nctx := (clearLock_effect x s).nctx
  have hclients : (clearLock x s).clients = s.clients := (clearLock_effect x s).clients_eq
  have hclient : (clearLock x s).client = s.client := by
    unfold clearLock
    split <;> rfl
  refine ⟨fun y hy => ?_, fun y hy => ?_, fun y hy => ?_, fun c hc => ?_, fun y hy => ?_⟩
  · exact (congrArg LockTable.running (hfields y).1).trans (h.running y (hnctx ▸ hy))
  · exact (congrArg LockTable.waiting (hfields y).1).trans (h.waiting y (hnctx ▸ hy))
  · exact (hfields y).2.trans (h.usage y (hnctx ▸ hy))
  · rw [hclient]
    exact h.stopped c (hclients ▸ hc)
  · rw [hclient, show ((clearLock x s).ctx y).requests = (s.ctx y).requests from
      congrArg LockTable.requests (hfields y).1]
    exact h.requests y (hnctx ▸ hy)

theorem Idle.unlink (h : Idle env s) (c : ClientId) :
    Idle env { s with clients := s.clients.filter (· ≠ c) } :=
  ⟨h.running, h.waiting, h.usage, fun d hd => h.stopped d (List.mem_filter.mp hd).1, h.requests⟩

/-- The deletion of a client without entries around it. -/
theorem Idle.deleteClient {n : ℕ} {c : ClientId} (h : Idle env s)
    (hempty : ∀ x, (s.client c).context = some x → (s.ctx x).entries = [])
    (hd : deleteClient cfg env (trySchedule cfg env n) c s = some t) :
    Idle env t ∧ Silent s t ∧ t.schedulerOn = s.schedulerOn := by
  cases hctx : (s.client c).context with
  | none =>
      rw [deleteClient_unregistered hctx hd]
      exact ⟨h.unlink c, Silent.of_out_eq rfl, rfl⟩
  | some x =>
      have hclear := clearLock_effect x s
      have hidle := (clearLock_idle h x).unlink c
      rw [hclear.clients_eq] at hidle
      rw [deleteClient_empty hctx (hempty x hctx) hd]
      refine ⟨hidle, Silent.of_out_eq ?_, hclear.schedulerOn⟩
      exact hclear.out_eq.trans (List.append_nil _)

/-- Telling the clients that the scheduler is on or off changes nothing for them, even when
a message fails. -/
theorem bcastStatus_idle {n : ℕ} (hwf : WellFormed s) (h : Idle env s)
    (hb : bcastStatus cfg env n s = some t) :
    Idle env t ∧ Silent s t ∧ t.schedulerOn = s.schedulerOn := by
  have hall : WellFormed t ∧ Idle env t ∧ Silent s t ∧ t.schedulerOn = s.schedulerOn := by
    refine bcastFrom_induction (P := fun u => WellFormed u ∧ Idle env u ∧ Silent s u ∧
      u.schedulerOn = s.schedulerOn) ?_ ⟨hwf, h, Silent.refl s, rfl⟩ hb
    rintro u c v ⟨hwfu, hu, hsilent, hon⟩ hv
    have htuned := Tuned.announce env c u
    have hcases := (bcastClient_cases hv).2
    generalize (if u.schedulerOn then ToClient.schedOn else .schedOff) = m at hcases htuned
    have hwf' : WellFormed (sendMessage env c m u) := hwfu.tuned htuned
    have hsent : Silent s (sendMessage env c m u) := hsilent.trans htuned.silent
    have hidle : Idle env (sendMessage env c m u) :=
      ⟨hu.running, hu.waiting, hu.usage, hu.stopped, hu.requests⟩
    obtain ⟨-, rfl⟩ | ⟨-, ⟨-, rfl⟩ | ⟨hfail, hdelete⟩⟩ := hcases
    · exact ⟨hwfu, hu, hsilent, hon⟩
    · exact ⟨hwf', hidle, hsent, hon⟩
    · have hactions : Actions cfg env (fun _ => True) (fun _ _ => True) _ v :=
        deleteClient_actions (fun _ _ _ => trivial) hwf' (fun _ => trivial) hdelete
      have hempty : ∀ x, (u.client c).context = some x → (u.ctx x).entries = [] := by
        intro x hctx
        have hlt := hwfu.context_lt c x hctx
        have hreq : (u.ctx x).requests = [] := by
          rcases hu.requests x hlt with hnil | hall
          · exact hnil
          · have hok : sendSucceeds env c u = true := hall u.out.length c hctx
            rw [hok] at hfail
            cases hfail
        simp [GpuContext.entries, hreq, hu.waiting x hlt, hu.running x hlt]
      obtain ⟨hidle', hsilent', hon'⟩ := hidle.deleteClient hempty hdelete
      exact ⟨hactions.wellFormed hwf', hidle', hsent.trans hsilent', hon'.trans hon⟩
  exact hall.2

/-! ## While the scheduler is off -/

/-- The events between SCHED_OFF and SCHED_ON. The run flag of a new record is clear. -/
def WhileOff (_ : Sched) : Event → Prop
  | .message _ .schedOn => False
  | .accept garbage => garbage.isRunning = false
  | _ => True

instance (s : Sched) : DecidablePred (WhileOff s)
  | .message _ .schedOn => inferInstanceAs (Decidable False)
  | .accept _ => inferInstanceAs (Decidable (_ = _))
  | .message _ (.register _ _) | .message _ .schedOff | .message _ (.setTq _)
  | .message _ .reqLock | .message _ .lockReleased | .message _ (.memUpdate _)
  | .message _ .unknown | .disconnect _ | .timerBegin _ | .timerEnd _ _ | .annotated _ _ _ =>
      inferInstanceAs (Decidable True)

theorem Quiet.entries_nil (h : Quiet s) (hwf : WellFormed s) (x : CtxId) :
    (s.ctx x).entries = [] := by
  by_cases hx : x < s.nctx
  · exact h.empty x hx
  · refine List.eq_nil_iff_forall_not_mem.mpr fun d hd => ?_
    exact hx (hwf.context_lt d x (hwf.belongs x d hd))

/-- A change that keeps tables, lock flags, memory totals and run flags keeps a quiet state
quiet. -/
theorem Quiet.congr (h : Quiet s) (hnctx : t.nctx = s.nctx) (hclients : t.clients ⊆ s.clients)
    (htable : ∀ x, (t.ctx x).entries ⊆ (s.ctx x).entries)
    (hlock : ∀ x, (s.ctx x).lockHeld = false → (t.ctx x).lockHeld = false)
    (husage : ∀ x, (t.ctx x).runningMemoryUsage = (s.ctx x).runningMemoryUsage)
    (hrun : ∀ c, (t.client c).isRunning = (s.client c).isRunning) : Quiet t := by
  refine ⟨fun x hx => ?_, fun x hx => ?_, fun x hx => ?_, fun c hc => ?_⟩
  · exact List.subset_nil.mp ((h.empty x (hnctx ▸ hx)) ▸ htable x)
  · exact hlock x (h.free x (hnctx ▸ hx))
  · rw [husage]
    exact h.usage x (hnctx ▸ hx)
  · rw [hrun]
    exact h.stopped c (hclients hc)

/-- Blocks on a context without entries do not touch the lock. -/
theorem Block.quiet {D : Exits} (h : Block cfg env D x s t) (hwf : WellFormed s)
    (hs : Quiet s) : Quiet t ∧ Silent s t := by
  have hempty := hs.entries_nil hwf x
  have hreq : (s.ctx x).requests = [] := by
    simp only [GpuContext.entries, List.append_eq_nil_iff] at hempty
    exact hempty.1.1
  have hwait : (s.ctx x).waitQueue = [] := by
    simp only [GpuContext.entries, List.append_eq_nil_iff] at hempty
    exact hempty.1.2
  have hblock := h
  have hframe := h.frame
  have hof : (t.ctx x).lockHeld = false ∨ (t.ctx x).lockHeld = (s.ctx x).lockHeld →
      (t.ctx x).runningMemoryUsage = (s.ctx x).runningMemoryUsage →
      (∀ c, (t.client c).isRunning = (s.client c).isRunning) → Quiet t := by
    intro hlock husage hrun
    refine hs.congr hframe.nctx hblock.clients_sublist.subset (fun y => ?_) (fun y hy => ?_)
      (fun y => ?_) hrun
    all_goals by_cases hyx : y = x
    · exact hyx ▸ hblock.entries_subset
    · rw [hframe.ctx_ne y hyx]
      exact List.Subset.refl _
    · subst hyx
      rcases hlock with hlock | hlock
      · exact hlock
      · rw [hlock, hy]
    · rw [hframe.ctx_ne y hyx, hy]
    · exact hyx ▸ husage
    · rw [hframe.ctx_ne y hyx]
  cases h with
  | window =>
      have heff := freshWindow_effect cfg env x s
      exact ⟨hof (Or.inr heff.lock_eq) heff.memory_eq heff.run_eq,
        Silent.of_out_eq (freshWindow_out cfg env x s)⟩
  | defer c rest hcons => simp [hreq] at hcons
  | promote front c back hsplit => simp [hwait] at hsplit
  | grant c rest hcons => simp [hreq] at hcons
  | refuse c rest hcons => simp [hreq] at hcons
  | leave c hD =>
      have hnot : c ∉ (s.ctx x).runningList := by
        intro hc
        have hc' := mem_entries_of_running hc
        rw [hempty] at hc'
        cases hc'
      have heff := clearLock_effect x s
      have hleft := leaveRunning_of_notMem cfg env hnot
      have hrun : (s.ctx x).runningList = [] := by
        simp only [GpuContext.entries, List.append_eq_nil_iff] at hempty
        exact hempty.2
      rw [hleft] at hof ⊢
      refine ⟨hof (Or.inl ?_) heff.memory_eq heff.run_eq, Silent.of_out_eq ?_⟩
      · rw [heff.lock_eq, clearedLock, hrun]
        rfl
      · rw [heff.out_eq, List.append_nil]
  | withdraw c hD =>
      have heff := dropPending_effect x c s
      exact ⟨hof (Or.inr heff.lock_eq) heff.memory_eq heff.run_eq, Silent.of_out_eq rfl⟩
  | unlink c hD hctx hgone =>
      exact ⟨hof (Or.inr rfl) rfl fun _ => rfl, Silent.of_out_eq rfl⟩

theorem Quiet.clear (h : Idle env s) : Quiet (clearRequests s) := by
  have hctx : ∀ x < s.nctx, (clearRequests s).ctx x
      = { s.ctx x with requests := [], lockHeld := false } := by
    intro x hx
    simp only [clearRequests, if_pos hx]
  refine ⟨fun x hx => ?_, fun x hx => ?_, fun x hx => ?_, h.stopped⟩
  · rw [hctx x hx]
    simp [GpuContext.entries, h.waiting x hx, h.running x hx]
  · rw [hctx x hx]
  · rw [hctx x hx]
    exact h.usage x hx

/-- Registration finds a context or adds an empty one. -/
theorem enrol_contexts (cfg : Config) (c : ClientId) (m : RegisterMsg) (e : RegisterEnv)
    (s : Sched) :
    ((enrol cfg c m e s).nctx = s.nctx ∧ (enrol cfg c m e s).ctx = s.ctx) ∨
      ((enrol cfg c m e s).nctx = s.nctx + 1 ∧
        (enrol cfg c m e s).ctx = Function.update s.ctx s.nctx
          { uuid := strlcpy m.gpuUuid gpuUuidLen
            totalMemory := cfg.defaultGpuMemory
            availableMemory := cfg.defaultGpuMemory }) := by
  unfold enrol getOrCreateGpuContext
  split
  · exact Or.inl ⟨rfl, rfl⟩
  · exact Or.inr ⟨rfl, rfl⟩

/-- Nothing that happens while the scheduler is off disturbs a quiet state. -/
theorem Action.quiet {D : ClientId → Prop} {ok : Sched → Event → Prop}
    (hoff : ∀ e, ok s e → WhileOff s e ∧ s.schedulerOn = false)
    (h : Action cfg env D ok s t) (hwf : WellFormed s) (hs : Quiet s) :
    Quiet t ∧ Silent s t ∧ t.schedulerOn = s.schedulerOn := by
  cases h with
  | block x h =>
      obtain ⟨hquiet, hsilent⟩ := h.quiet hwf hs
      exact ⟨hquiet, hsilent, h.frame.schedulerOn⟩
  | tune h =>
      refine ⟨?_, h.silent, h.schedulerOn⟩
      refine hs.congr h.nctx (h.clients ▸ List.Subset.refl _) (fun x => ?_) (fun x hx => ?_)
        (fun x => usage_of_core (h.ctx x)) fun c => isRunning_of_core (h.client c)
      · rw [entries_of_table (table_of_core (h.ctx x))]
        exact List.Subset.refl _
      · rw [lockHeld_of_core (h.ctx x), hx]
  | accept garbage hok =>
      have hflag : garbage.isRunning = false := (hoff _ hok).1
      refine ⟨⟨hs.empty, hs.free, hs.usage, fun c hc => ?_⟩, Silent.of_out_eq rfl, rfl⟩
      by_cases hnew : c = s.nalloc
      · subst hnew
        simpa [XpuShare.accept] using hflag
      · have hold : c ∈ s.clients := by simpa [XpuShare.accept, hnew] using hc
        simpa [XpuShare.accept, hnew] using hs.stopped c hold
  | enrol c m e hok hmem hunreg hid =>
      obtain ⟨y, hclient, -, -, hclients, -, hon, hout, -⟩ := enrol_spec cfg c m e s
      have hstopped : ∀ d ∈ (XpuShare.enrol cfg c m e s).clients,
          ((XpuShare.enrol cfg c m e s).client d).isRunning = false := by
        intro d hd
        rw [hclients] at hd
        rw [hclient, Function.update_apply]
        split
        · exact hs.stopped c hmem
        · exact hs.stopped d hd
      refine ⟨?_, Silent.of_out_eq hout, hon⟩
      rcases enrol_contexts cfg c m e s with ⟨hnctx, hctx⟩ | ⟨hnctx, hctx⟩
      · exact ⟨fun x hx => by rw [hctx]; exact hs.empty x (hnctx ▸ hx),
          fun x hx => by rw [hctx]; exact hs.free x (hnctx ▸ hx),
          fun x hx => by rw [hctx]; exact hs.usage x (hnctx ▸ hx), hstopped⟩
      · have hsplit : ∀ x < s.nctx + 1, x = s.nctx ∨ x < s.nctx := fun x hx => by omega
        refine ⟨fun x hx => ?_, fun x hx => ?_, fun x hx => ?_, hstopped⟩
        all_goals rw [hctx, Function.update_apply]
        all_goals rcases hsplit x (hnctx ▸ hx) with hx | hx
        all_goals first | rw [if_pos hx] | rw [if_neg hx.ne]
        · rfl
        · exact hs.empty x hx
        · exact hs.free x hx
        · exact hs.usage x hx
  | insert c x hok hmem hon hctx hreq =>
      rw [(hoff _ hok).2] at hon
      cases hon
  | memory c x v hok hmem hctx =>
      have hstore : creditMemory cfg x c v s = storeMemory c v s := by
        simp [creditMemory, hs.stopped c hmem]
      rw [hstore]
      refine ⟨hs.congr rfl (List.Subset.refl _) (fun _ => List.Subset.refl _) (fun _ h => h)
        (fun _ => rfl) fun d => ?_, Silent.of_out_eq rfl, rfl⟩
      exact storeMemory_field Client.isRunning (fun _ _ _ => rfl) c d v s
  | unlink c hctx =>
      refine ⟨hs.congr rfl List.filter_sublist.subset (fun _ => List.Subset.refl _)
        (fun _ h => h) (fun _ => rfl) fun _ => rfl, Silent.of_out_eq rfl, rfl⟩
  | power on c hok =>
      cases on with
      | true => exact (hoff _ hok).1.elim
      | false =>
          exact ⟨⟨hs.empty, hs.free, hs.usage, hs.stopped⟩, Silent.of_out_eq rfl,
            (hoff _ hok).2.symm⟩
  | clear s₀ c hok => exact ⟨Quiet.clear (hs.idle : Idle env s), Silent.of_out_eq rfl, rfl⟩

theorem Actions.quiet {D : ClientId → Prop} {ok : Sched → Event → Prop}
    (hoff : ∀ s e, ok s e → WhileOff s e ∧ s.schedulerOn = false)
    (h : Actions cfg env D ok s t) (hwf : WellFormed s) (hs : Quiet s) :
    Quiet t ∧ Silent s t ∧ t.schedulerOn = s.schedulerOn := by
  have hall := h.invariant (I := fun u => WellFormed u ∧ Quiet u ∧ Silent s u ∧
    u.schedulerOn = s.schedulerOn)
    (by
      rintro u v ha ⟨hwfu, hu, hsilent, honu⟩
      obtain ⟨hv, hsilent', honv⟩ := ha.quiet (hoff u) hwfu hu
      exact ⟨ha.wellFormed hwfu, hv, hsilent.trans hsilent', honv.trans honu⟩)
    ⟨hwf, hs, Silent.refl s, rfl⟩
  exact hall.2

/-! ## Steps and runs -/

theorem WellFormed.switched (hwf : WellFormed s) (on : Bool) :
    WellFormed { s with schedulerOn := on } :=
  hwf.of_frame (List.Sublist.refl _) rfl rfl (fun _ => rfl) (fun _ => rfl)
    fun _ _ hd => Or.inl hd

theorem Idle.switched (h : Idle env s) (on : Bool) : Idle env { s with schedulerOn := on } :=
  ⟨h.running, h.waiting, h.usage, h.stopped, h.requests⟩

theorem Step.schedOff (h : Step cfg env s (.message c .schedOff) t) (hwf : WellFormed s)
    (hon : s.schedulerOn = true) (hidle : Idle env s) :
    Quiet t ∧ Silent s t ∧ t.schedulerOn = false := by
  obtain ⟨-, n, h⟩ := h
  simp only [handle, processMsg, hon, if_true, Option.map_eq_some_iff] at h
  obtain ⟨u, hu, rfl⟩ := h
  obtain ⟨hidle', hsilent, hoff⟩ :=
    bcastStatus_idle (hwf.switched false) (hidle.switched false) hu
  exact ⟨Quiet.clear hidle', hsilent, hoff⟩

theorem Step.schedOn (h : Step cfg env s (.message c .schedOn) t) (hwf : WellFormed s)
    (hoff : s.schedulerOn = false) (hs : Quiet s) : Quiet t ∧ Silent s t := by
  obtain ⟨-, n, h⟩ := h
  simp only [handle, processMsg, hoff, Bool.false_eq_true, if_false] at h
  have hbcast : Actions cfg env (fun _ => True) (fun _ _ => False) { s with schedulerOn := true }
      t := bcastStatus_actions (fun _ _ _ => trivial) (hwf.switched true) h
  obtain ⟨hquiet, hsilent, -⟩ := hbcast.quiet (fun _ _ hno => hno.elim) (hwf.switched true)
    ⟨hs.empty, hs.free, hs.usage, hs.stopped⟩
  exact ⟨hquiet, hsilent⟩

theorem Step.whileOff {e : Event} (h : Step cfg env s e t) (hok : WhileOff s e)
    (hwf : WellFormed s) (hs : Quiet s) (hoff : s.schedulerOn = false) :
    Quiet t ∧ Silent s t ∧ t.schedulerOn = false := by
  have hactions : Actions cfg env (fun _ => True)
      (fun s e => WhileOff s e ∧ s.schedulerOn = false) s t :=
    h.actions (fun _ _ _ => trivial) hwf ⟨hok, hoff⟩ fun _ _ => trivial
  obtain ⟨hquiet, hsilent, hon⟩ := hactions.quiet (fun _ _ hok => hok) hwf hs
  exact ⟨hquiet, hsilent, hon.trans hoff⟩

/-- A SCHED_OFF that finds nobody running or waiting resets the lock state: until SCHED_ON
nobody has an entry, a lock or a run flag and no LOCK_OK is sent, and after SCHED_ON it is
still so, when the clients have given up their lock and their requests too. -/
theorem sched_off_resets_idle (hreach : Transition.Reaches (Step cfg env) Sched.init s)
    (hon : s.schedulerOn = true) (hidle : Idle env s)
    (hoff : Step cfg env s (.message c .schedOff) t)
    (hrun : Transition.Reaches (Transition.guarded (Step cfg env) WhileOff) t u) :
    Quiet u ∧ u.schedulerOn = false ∧ Silent s u ∧
      (∀ d v, Step cfg env u (.message d .schedOn) v → Quiet v ∧ Silent s v) ∧
      ∀ r : LibState, r.schedulerOn = false →
        (handleMessage .schedOn r).1.ownLock = false ∧
          (handleMessage .schedOn r).1.needLock = false := by
  have hwf := wellFormed_of_reaches hreach
  obtain ⟨hquiet, hsilent, hnow⟩ := hoff.schedOff hwf hon hidle
  have hall : WellFormed u ∧ Quiet u ∧ Silent s u ∧ u.schedulerOn = false := by
    refine hrun.invariant (I := fun u => WellFormed u ∧ Quiet u ∧ Silent s u ∧
      u.schedulerOn = false) ?_ ⟨hoff.wellFormed hwf, hquiet, hsilent, hnow⟩
    rintro v e w ⟨hok, hstep⟩ ⟨hwfv, hv, hsilentv, hoffv⟩
    obtain ⟨hw, hsilentw, hoffw⟩ := hstep.whileOff hok hwfv hv hoffv
    exact ⟨hstep.wellFormed hwfv, hw, hsilentv.trans hsilentw, hoffw⟩
  obtain ⟨hwfu, hu, hsilentu, hoffu⟩ := hall
  refine ⟨hu, hoffu, hsilentu, fun d v hstep => ?_, fun r hr => ?_⟩
  · obtain ⟨hv, hsilentv⟩ := hstep.schedOn hwfu hoffu hu
    exact ⟨hv, hsilentu.trans hsilentv⟩
  · simp [handleMessage, onSchedOn, hr]

/-- A client has run and given the lock back before the scheduler is switched off, and asks
in vain afterwards. -/
theorem sched_off_resets_idle_after_release :
    ∃ s t u, s.schedulerOn = true ∧ Step {} steady s (.message 0 .schedOff) t ∧
      Step {} steady t (.message 0 .reqLock) u ∧ Quiet u := by
  obtain ⟨s, hs, ⟨hon, hnctx, hlist, hctx, hclient⟩, hoff⟩ :=
    exists_reaches {} steady (fun _ _ => True) 9
      [.accept {}, enter 0 1, .message 0 .reqLock, .message 0 .lockReleased]
      (fun s => (s.schedulerOn = true ∧ s.nctx = 1 ∧ s.clients = [0] ∧
        ((s.ctx 0).entries = [] ∧ (s.ctx 0).runningMemoryUsage = 0) ∧
        (s.client 0).isRunning = false) ∧
        (tryStep {} steady (fun _ _ => True) 9 s (.message 0 .schedOff)).any (fun t =>
          (tryStep {} steady WhileOff 9 t (.message 0 .reqLock)).isSome) = true)
      (by decide +kernel)
  rw [Option.any_eq_true] at hoff
  obtain ⟨t, ht, hmore⟩ := hoff
  obtain ⟨u, hu⟩ := Option.isSome_iff_exists.mp hmore
  have hstep := (tryStep_guarded {} steady _ ht).2
  have hstep' := tryStep_guarded {} steady _ hu
  have hempty := hctx.1
  simp only [GpuContext.entries, List.append_eq_nil_iff] at hempty
  have hidle : Idle steady s := by
    refine ⟨fun x hx => ?_, fun x hx => ?_, fun x hx => ?_, fun c hc => ?_, fun x hx => ?_⟩
    · obtain rfl : x = 0 := by omega
      exact hempty.2
    · obtain rfl : x = 0 := by omega
      exact hempty.1.2
    · obtain rfl : x = 0 := by omega
      exact hctx.2
    · rw [hlist] at hc
      rw [List.mem_singleton.mp hc]
      exact hclient
    · exact Or.inr fun n c _ => steady_allSent n c
  have hquiet := sched_off_resets_idle (hs.mono fun _ _ _ h => h.2) hon hidle hstep
    ((Transition.Reaches.refl t).tail hstep')
  exact ⟨s, t, u, hon, hstep, hstep'.2, hquiet.1⟩

/-- A client that runs when the scheduler is switched off stays in the running list. -/
theorem sched_off_keeps_runner :
    ¬ ∀ (cfg : Config) (env : Env) (s t u : Sched) (c : ClientId), env.AllSent →
      Transition.Reaches (Step cfg env) Sched.init s → s.schedulerOn = true →
      Step cfg env s (.message c .schedOff) t →
      Transition.Reaches (Transition.guarded (Step cfg env) WhileOff) t u → Quiet u := by
  intro h
  obtain ⟨s, hs, hon, hoff⟩ := exists_reaches {} steady (fun _ _ => True) 9
    [.accept {}, enter 0 1, .message 0 .reqLock]
    (fun s => s.schedulerOn = true ∧
      (tryStep {} steady (fun _ _ => True) 9 s (.message 0 .schedOff)).any (fun t =>
        0 < t.nctx ∧ (t.ctx 0).entries = [0]) = true) (by decide +kernel)
  rw [Option.any_eq_true] at hoff
  obtain ⟨t, ht, hkept⟩ := hoff
  obtain ⟨hlt, hentries⟩ := of_decide_eq_true hkept
  have hquiet := h {} steady s t t 0 steady_allSent (hs.mono fun _ _ _ hstep => hstep.2) hon
    (tryStep_guarded {} steady _ ht).2 (Transition.Reaches.refl t)
  rw [hquiet.empty 0 hlt] at hentries
  cases hentries

end XpuShare
