import XpuShare.Verification.Accounting.Attended
import XpuShare.Verification.Accounting.Oversubscription
import XpuShare.Verification.Removal.Correctness
import XpuShare.Verification.SafeLimit.Correctness

/-! # Contexts that everybody has left

A context whose clients have all disconnected is as good as new: its queues are empty, the
lock is free and no memory is counted. There are three exceptions. Nothing ever clears
`memory_overloaded`, a client that is granted the lock while it is removed stays in the
running list, and `window_start_ms` keeps its value, so that the first window of the next
clients is cut short. -/

namespace XpuShare

variable {cfg : Config} {env : Env} {x : CtxId} {s t : Sched} {c : ClientId}

/-- The scheduling state of a context that has just been created. -/
structure AsNew (g : GpuContext) : Prop where
  requests : g.requests = []
  running : g.runningList = []
  waiting : g.waitQueue = []
  lock : g.lockHeld = false
  usage : g.runningMemoryUsage = 0
  overloaded : g.memoryOverloaded = false

/-- The state in which all that admission reads of the context is as
`get_or_create_gpu_context` sets it. The requests of newcomers stay. -/
def Sched.renewed (cfg : Config) (s : Sched) (x : CtxId) : Sched :=
  s.modifyCtx x fun g =>
    { g with
      runningList := [], lockHeld := false, totalMemory := cfg.defaultGpuMemory
      runningMemoryUsage := 0, memoryOverloaded := false, windowStartMs := 0 }

/-- A client that has not used compute time since it registered. -/
structure Newcomer (s : Sched) (c : ClientId) : Prop where
  ran : (s.client c).runTimeInWindowMs = 0
  debt : (s.client c).quotaDebtMs = 0
  free : (s.client c).isThrottled = false

/-- A context on which nobody runs and nobody connected has run. -/
structure Unused (x : CtxId) (s : Sched) : Prop where
  created : x < s.nctx
  idle : (s.ctx x).runningList = []
  newcomers : ∀ c ∈ s.clients, (s.client c).context = some x → Newcomer s c

/-- A check at time `now` starts a window at `now`. -/
def StartsWindow (cfg : Config) (g : GpuContext) (now : ℤ) : Prop :=
  g.windowStartMs = 0 ∨ windowExpired cfg g now = true ∨ g.windowStartMs = now

/-- Reports of running clients keep the running total within the safe limit, and a client that
disconnects has no request that could be granted meanwhile. -/
def LeavesNoTrace (cfg : Config) (env : Env) (s : Sched) : Event → Prop
  | .message c (.memUpdate v) => ∀ x ∈ (s.client c).context, c ∈ (s.ctx x).runningList →
      held x (storeMemory c v s) ≤ safeLimit cfg (s.ctx x)
  | .disconnect c => ∀ x ∈ (s.client c).context, c ∈ (s.ctx x).pending →
      Removable cfg env c s ∨ Barred cfg env x c (ReadBy cfg env c s) s
  | _ => True

/-- Clients that disconnect do not wait. -/
def LeavesUnasked (cfg : Config) (s : Sched) : Event → Prop
  | .message c (.memUpdate v) => ∀ x ∈ (s.client c).context, c ∈ (s.ctx x).runningList →
      held x (storeMemory c v s) ≤ safeLimit cfg (s.ctx x)
  | .disconnect c => ∀ x ∈ (s.client c).context, c ∉ (s.ctx x).pending
  | _ => True

instance (cfg : Config) (s : Sched) : DecidablePred (LeavesUnasked cfg s)
  | .message c (.memUpdate _) =>
      inferInstanceAs (Decidable (∀ x ∈ (s.client c).context, _ → _))
  | .disconnect c => inferInstanceAs (Decidable (∀ x ∈ (s.client c).context, _ ∉ _))
  | .accept _ | .message _ (.register _ _) | .message _ .schedOn | .message _ .schedOff
  | .message _ (.setTq _) | .message _ .reqLock | .message _ .lockReleased
  | .message _ .unknown | .timerBegin _ | .timerEnd _ _ | .annotated _ _ _ =>
      inferInstanceAs (Decidable True)

theorem LeavesUnasked.noTrace {e : Event} (h : LeavesUnasked cfg s e) :
    LeavesNoTrace cfg env s e := by
  cases e with
  | disconnect c => exact fun x hx hp => absurd hp (h x hx)
  | message c m =>
      cases m with
      | memUpdate v => exact h
      | _ => trivial
  | _ => trivial

/-! ## Every entry belongs to a connected client -/

/-- The entries of every context belong to connected clients. -/
def Connected (s : Sched) : Prop := ∀ x, ∀ c ∈ (s.ctx x).entries, c ∈ s.clients

/-- An action that deletes no registered client. -/
theorem Action.connected {ok : Sched → Event → Prop}
    (h : Action cfg env (fun _ => False) ok s t) (hwf : WellFormed s) (hs : Connected s) :
    Connected t := by
  intro y d hd
  cases h with
  | block x h =>
      have hclients : t.clients = s.clients := by
        rcases h.clients_cases with heq | ⟨c, hD, -⟩
        · exact heq
        · exact False.elim hD
      rw [hclients]
      by_cases hy : y = x
      · subst hy
        exact hs y d (h.entries_subset hd)
      · rw [h.frame.ctx_ne y hy] at hd
        exact hs y d hd
  | tune h =>
      rw [entries_of_table (table_of_core (h.ctx y))] at hd
      rw [h.clients]
      exact hs y d hd
  | accept garbage hok => exact List.mem_append_left _ (hs y d hd)
  | enrol c m e hok hmem hunreg hid =>
      obtain ⟨x, -, -, -, hclients, -, -, -, hctx⟩ := enrol_spec cfg c m e s
      rw [hclients]
      rcases hctx with ⟨-, hctx⟩ | ⟨-, hctx⟩
      · rw [hctx] at hd
        exact hs y d hd
      · rw [hctx, Function.update_apply] at hd
        split at hd
        · simp [GpuContext.entries] at hd
        · exact hs y d hd
  | insert c x hok hmem hon hctx hreq =>
      rw [Sched.modifyCtx_ctx] at hd
      split at hd
      · rcases List.mem_cons.mp ((LockTable.arrive_entries_perm (t := (s.ctx x).table)
          (a := c)).subset hd) with rfl | hd
        · exact hmem
        · exact hs x d hd
      · exact hs y d hd
  | memory c x v hok hmem hctx =>
      rw [entries_of_table (creditMemory_table cfg x c v s y)] at hd
      obtain ⟨usage, peak, overloaded, h⟩ := creditMemory_spec cfg x c v s
      rw [h]
      exact hs y d hd
  | unlink c hctx =>
      have hne : d ≠ c := by
        rintro rfl
        exact hwf.notMem_entries hctx y hd
      exact List.mem_filter.mpr ⟨hs y d hd, by simpa using hne⟩
  | power on c hok => exact hs y d hd
  | clear s₀ c hok =>
      simp only [clearRequests] at hd
      split at hd
      · simp only [GpuContext.entries, List.nil_append, List.mem_append] at hd
        refine hs y d ?_
        simp only [GpuContext.entries, List.mem_append]
        tauto
      · exact hs y d hd

theorem Actions.connected {ok : Sched → Event → Prop}
    (h : Actions cfg env (fun _ => False) ok s t) (hwf : WellFormed s) (hs : Connected s) :
    Connected t := by
  have hboth := h.invariant (I := fun u => WellFormed u ∧ Connected u)
    (fun _ _ ha hu => ⟨ha.wellFormed hu.1, ha.connected hu.1 hu.2⟩) ⟨hwf, hs⟩
  exact hboth.2

/-- A path that may delete `c` alone keeps everybody else connected. -/
theorem Path.keeps_others {D : Exits} {d : ClientId} (h : Path cfg env D x s t)
    (hD : ∀ e, D.deleted e → e = c) (hdc : d ≠ c) (hd : d ∈ s.clients) : d ∈ t.clients := by
  refine h.invariant (I := fun u => d ∈ u.clients) (fun u v hb hu => ?_) hd
  rcases hb.clients_cases with heq | ⟨e, he, -, -, rfl⟩
  · rwa [heq]
  · have hde : d ≠ e := by
      rw [hD e he]
      exact hdc
    exact List.mem_filter.mpr ⟨hu, by simpa using hde⟩

/-- A client that disconnects without a trace is removed completely. -/
theorem LeavesNoTrace.removes (hok : LeavesNoTrace cfg env s (.disconnect c))
    (hsent : env.AllSent) (hreach : Transition.Reaches (Step cfg env) Sched.init s)
    (hsingle : SingleEntries s) (hmem : c ∈ s.clients) (hctx : (s.client c).context = some x) :
    Removes cfg env c s := by
  have hwf := wellFormed_of_reaches hreach
  have hguarded : Transition.Reaches (Transition.guarded (Step cfg env) fun _ _ => True)
      Sched.init s := hreach.mono fun _ _ _ hstep => ⟨trivial, hstep⟩
  have hpassed : c ∉ (s.ctx x).pending ∨ Barred cfg env x c (ReadBy cfg env c s) s →
      Removes cfg env c s := by
    intro hside
    refine removes_of_passedBy hwf (linked_of_reaches hguarded) (solvent_of_reaches hguarded) hmem
      fun y hy => ?_
    obtain rfl : x = y := Option.some.inj (hctx.symm.trans hy)
    exact ⟨hsingle x, fun n _ d _ _ => hsent n d, hside⟩
  by_cases hp : c ∈ (s.ctx x).pending
  · rcases hok x hctx hp with hremovable | hbarred
    · exact removes_of_removable hwf hmem hremovable
    · exact hpassed (Or.inr hbarred)
  · exact hpassed (Or.inl hp)

/-- A path that deletes one client, of which no entry is left then. -/
theorem Path.connected (hpath : Path cfg env (deleting (· = c)) x s t) (hs : Connected s)
    (hgone : ∀ y, c ∉ (t.ctx y).entries) : Connected t := by
  intro y d hd
  have hdc : d ≠ c := by
    rintro rfl
    exact hgone y hd
  refine hpath.keeps_others (fun e he => he) hdc ?_
  by_cases hy : y = x
  · subst hy
    exact hs y d (hpath.entries_subset hd)
  · rw [hpath.frame.ctx_ne y hy] at hd
    exact hs y d hd

/-- A client that disconnects without a trace leaves no entry behind. -/
theorem disconnect_connected {n : ℕ} (hsent : env.AllSent)
    (hreach : Transition.Reaches (Step cfg env) Sched.init s) (hsingle : SingleEntries s)
    (hs : Connected s) (hmem : c ∈ s.clients) (hok : LeavesNoTrace cfg env s (.disconnect c))
    (h : disconnect cfg env n c s = some t) : Connected t := by
  have hwf := wellFormed_of_reaches hreach
  rw [disconnect, Option.bind_eq_some_iff] at h
  obtain ⟨u, hu, hut⟩ := h
  cases hctx : (s.client c).context with
  | none =>
      simp only [hctx, Option.some.injEq] at hut
      subst hut
      have hactions : Actions cfg env (fun _ => False) (fun _ _ => True) s u :=
        deleteClient_actions hsent.never hwf (fun hne => absurd hctx hne) hu
      exact hactions.connected hwf hs
  | some x =>
      obtain ⟨m, u', hu', hremoved⟩ := hok.removes hsent hreach hsingle hmem hctx
      have hsame := deleteClient_mono (fun _ _ _ => trySchedule_mono (le_max_left n m)) hu
      rw [deleteClient_mono (fun _ _ _ => trySchedule_mono (le_max_right n m)) hu'] at hsame
      obtain rfl := Option.some.inj hsame
      have hpath : Path cfg env (deleting (· = c)) x s u' :=
        deleteClient_path hctx ⟨trivial, rfl⟩ (fun v w hv hvw =>
          trySchedule_path (fun n d hfail => (hsent.never n d hfail).elim) hv hvw)
          (hwf.belongs x) hu
      have hconnected := hpath.connected hs hremoved.entries
      have hwfu : WellFormed u' :=
        hpath.invariant (I := WellFormed) (fun _ _ hb hv => hv.block hb) hwf
      simp only [hctx] at hut
      split at hut
      · have hactions : Actions cfg env (fun _ => False) (fun _ _ => True) u' t :=
          scheduleIfFree_actions hsent.never hwfu hut
        exact hactions.connected hwfu hconnected
      · rw [← Option.some.inj hut]
        exact hconnected

/-- A polite client is deleted only when it disconnects. -/
theorem Polite.deletes {e : Event} {d : ClientId} (h : Polite s e) (hdel : e.deletes s d) :
    e = .disconnect d := by
  cases e with
  | disconnect c => exact congrArg Event.disconnect hdel
  | message c m =>
      cases m with
      | register m e =>
          obtain ⟨rfl, hreg⟩ := hdel
          have hunreg : hasRegistered s c = false := h
          rw [hunreg] at hreg
          cases hreg
      | _ => exact False.elim hdel
  | _ => exact False.elim hdel

/-- In runs whose clients leave no trace, every entry belongs to a connected client. -/
theorem connected_of_reaches (hsent : env.AllSent)
    (h : Transition.Reaches (Transition.guarded (Step cfg env)
      fun s e => Polite s e ∧ LeavesNoTrace cfg env s e) Sched.init s) : Connected s := by
  induction h with
  | refl =>
      intro x c hc
      simp [Sched.init, GpuContext.entries] at hc
  | tail hrun hlast ih =>
      rename_i u v
      obtain ⟨e, hok, hstep⟩ := hlast
      have hreach := Transition.Reaches.mono (fun _ _ _ hstep => hstep.2) hrun
      have hsingle := (attended_of_reaches
        (Transition.Reaches.mono (fun _ _ _ hstep => ⟨hstep.1.1, hstep.2⟩) hrun)).single
      have hwf := wellFormed_of_reaches hreach
      by_cases hleave : ∃ c, e = .disconnect c
      · obtain ⟨c, rfl⟩ := hleave
        obtain ⟨henabled, n, hn⟩ := hstep
        have hmem : c ∈ u.clients := Event.connected_of_enabled henabled rfl
        exact disconnect_connected hsent hreach hsingle ih hmem hok.2 hn
      · have hactions : Actions cfg env (fun _ => False) (fun _ _ => True) u v :=
          hstep.actions hsent.never hwf trivial fun d hdel => hleave ⟨d, hok.1.deletes hdel⟩
        exact hactions.connected hwf ih

/-! ## Nobody is overloaded -/

/-- Reports within the safe limit mark no context as overloaded. -/
theorem Action.notOverloaded {D : ClientId → Prop}
    (h : Action cfg env D (fun s e => Tallies s e ∧ LeavesNoTrace cfg env s e) s t)
    (hs : Tallied s) (ht : Tallied t) (hclear : ∀ x, (s.ctx x).memoryOverloaded = false)
    (y : CtxId) : (t.ctx y).memoryOverloaded = false := by
  cases h with
  | block x h =>
      by_cases hy : y = x
      · subst hy
        rw [show (t.ctx y).memoryOverloaded = (s.ctx y).memoryOverloaded from
          (congrArg GpuContext.memoryOverloaded h.frame.fixed :)]
        exact hclear y
      · rw [h.frame.ctx_ne y hy]
        exact hclear y
  | tune h =>
      rw [overloaded_of_core (h.ctx y)]
      exact hclear y
  | accept garbage hok => exact hclear y
  | enrol c m e hok hmem hunreg hid =>
      obtain ⟨x, -, -, -, -, -, -, -, hctx⟩ := enrol_spec cfg c m e s
      rcases hctx with ⟨-, hctx⟩ | ⟨-, hctx⟩
      · rw [hctx]
        exact hclear y
      · rw [hctx, Function.update_apply]
        split
        · rfl
        · exact hclear y
  | insert c x hok hmem hon hctx hreq =>
      rw [Sched.modifyCtx_ctx]
      split
      · exact hclear x
      · exact hclear y
  | memory c x v hok hmem hctx =>
      by_cases hy : y = x
      · subst hy
        rw [creditMemory_overloaded, hclear y, Bool.false_or, Bool.and_eq_false_iff]
        by_cases hrun : (s.client c).isRunning = true
        · right
          have hc := ((hs.accounted y).flags c hctx).mp hrun
          have hlimit := hok.2 y hctx hc
          have hheld : held y (creditMemory cfg y c v s) = held y (storeMemory c v s) := by
            rw [held, held, memories_creditMemory, memories_storeMemory]
            rw [show ((creditMemory cfg y c v s).ctx y).runningList = _ from
              congrArg LockTable.running (creditMemory_table cfg y c v s y)]
            rfl
          rw [(ht.accounted y).usage, hheld]
          exact decide_eq_false (Nat.not_lt.mpr hlimit)
        · exact Or.inl (Bool.eq_false_of_not_eq_true hrun)
      · rw [(creditMemory_untouched cfg v hctx hy).1]
        exact hclear y
  | unlink c hctx => exact hclear y
  | power on c hok => exact hclear y
  | clear s₀ c hok => exact False.elim hok.1

theorem clear_of_reaches
    (h : Transition.Reaches (Transition.guarded (Step cfg env)
      fun s e => Tallies s e ∧ LeavesNoTrace cfg env s e) Sched.init s) (x : CtxId) :
    (s.ctx x).memoryOverloaded = false := by
  have hboth := invariant_of_any_actions
    (I := fun s => Tallied s ∧ ∀ x, (s.ctx x).memoryOverloaded = false)
    (fun s t ha hwf hs => by
      have ht := (ha.mono fun _ _ hok => hok.1).tallied hwf hs.1
      exact ⟨ht, fun y => ha.notOverloaded hs.1 ht hs.2 y⟩)
    ⟨Tallied.init, fun _ => rfl⟩ h
  exact hboth.2 x

/-! ## Unused contexts -/

/-- A reset changes nothing about a newcomer. -/
theorem resetClient_newcomer (hnew : (s.client c).context = some x → Newcomer s c)
    (hsolvent : Solvent s c) : resetClient cfg x s c = s := by
  unfold resetClient
  split
  · rename_i hctx
    obtain ⟨hran, hdebt, hfree⟩ := hnew hctx
    have hquota := getEffectiveQuotaMs_nonneg cfg x (hsolvent (by rw [hctx]; simp)).1
    have hexcess : ¬((s.client c).coreLimit < 100 ∧
        0 < (s.client c).runTimeInWindowMs - getEffectiveQuotaMs cfg s x c) := by
      rw [hran]
      omega
    have hsame : { s.client c with quotaDebtMs := 0, runTimeInWindowMs := 0, isThrottled := false }
        = s.client c := by
      generalize s.client c = r at hran hdebt hfree ⊢
      cases r
      simp only at hran hdebt hfree
      rw [hran, hdebt, hfree]
    simp only [Sched.modifyClient, hexcess, if_false, hsame, Function.update_eq_self]
  · rfl

/-- A window check on an unused context only starts the window. -/
theorem freshWindow_unused (cfg : Config) (env : Env) (hnew : Unused x s)
    (hsolvent : ∀ c, Solvent s c) :
    freshWindow cfg env x s = s.tick.modifyCtx x fun g =>
      { g with windowStartMs :=
          if windowExpired cfg (s.ctx x) (currentTimeMs env s) = true then currentTimeMs env s
          else windowStartAt (s.ctx x) (currentTimeMs env s) } := by
  rw [freshWindow, checkAndResetWindow]
  by_cases hover : windowExpired cfg (s.ctx x) (currentTimeMs env s) = true
  · simp only [hover, if_true]
    generalize hu : (s.tick.modifyCtx x fun g =>
      { g with windowStartMs := currentTimeMs env s }) = u
    have hclient : u.client = s.client := by
      rw [← hu]
      rfl
    have hidle : (u.ctx x).runningList = [] := by
      rw [← hu]
      simpa using hnew.idle
    have haccrue : accrueRunningUsage x (currentTimeMs env s) none u = u := by
      rw [accrueRunningUsage, hidle]
      rfl
    rw [resetWindow, hu, haccrue]
    refine List.foldlRecOn (motive := fun v => v = u) _ _ rfl ?_
    rintro v rfl c hc
    refine resetClient_newcomer (fun hctx => ?_) ?_
    · rw [hclient] at hctx
      have hmem : c ∈ s.clients := by
        rw [← hu] at hc
        exact hc
      obtain ⟨hran, hdebt, hfree⟩ := hnew.newcomers c hmem hctx
      exact ⟨by rw [hclient]; exact hran, by rw [hclient]; exact hdebt,
        by rw [hclient]; exact hfree⟩
    · rw [Solvent, hclient]
      exact hsolvent c
  · simp only [hover, if_false, Bool.false_eq_true]
    rfl

/-- The start of the window does not matter to the tests of `can_run`. -/
theorem canRunTest_startWindow (c : ClientId) (start : ℤ) (s : Sched) :
    canRunTest cfg (s.modifyCtx x fun g => { g with windowStartMs := start }) x c =
      canRunTest cfg s x c := by
  have hmemory : canRunWithMemory cfg
      (s.modifyCtx x fun g => { g with windowStartMs := start }) x c =
      canRunWithMemory cfg s x c := by
    apply canRunWithMemory_congr <;> simp
  rw [canRunTest, canRunTest, hmemory]
  rfl

/-- Where the window starts after a check at time `now`. -/
theorem startsWindow_iff (cfg : Config) (g : GpuContext) (now : ℤ) :
    (if windowExpired cfg g now = true then now else windowStartAt g now) = now ↔
      StartsWindow cfg g now := by
  unfold StartsWindow windowStartAt
  split_ifs <;> simp_all

/-- On an unused context `can_run` answers as if the context were new, and the state after it
is the same if a new window starts. -/
theorem canRun_unused (hnew : Unused x s) (hsolvent : ∀ c, Solvent s c)
    (hlock : (s.ctx x).lockHeld = false) (husage : (s.ctx x).runningMemoryUsage = 0)
    (hclear : (s.ctx x).memoryOverloaded = false)
    (htotal : (s.ctx x).totalMemory = cfg.defaultGpuMemory) :
    (∀ c, (canRun cfg env x c s).1 = (canRun cfg env x c (s.renewed cfg x)).1) ∧
      (freshWindow cfg env x s = freshWindow cfg env x (s.renewed cfg x) ↔
        StartsWindow cfg (s.ctx x) (currentTimeMs env s)) := by
  have hrenewed : s.renewed cfg x = s.modifyCtx x fun g => { g with windowStartMs := 0 } := by
    have hidle := hnew.idle
    rw [Sched.renewed, Sched.modifyCtx, Sched.modifyCtx]
    generalize s.ctx x = g at hidle hlock husage hclear htotal
    cases g
    simp only at hidle hlock husage hclear htotal
    rw [hidle, hlock, husage, hclear, htotal]
  have hagain : Unused x (s.renewed cfg x) := by
    rw [hrenewed]
    refine ⟨hnew.created, by simpa using hnew.idle, fun c hc hctx => ?_⟩
    obtain ⟨hran, hdebt, hfree⟩ := hnew.newcomers c hc hctx
    exact ⟨hran, hdebt, hfree⟩
  have hsolvent' : ∀ c, Solvent (s.renewed cfg x) c := hsolvent
  have hnow : currentTimeMs env (s.renewed cfg x) = currentTimeMs env s := rfl
  have hstart : ((s.renewed cfg x).ctx x).windowStartMs = 0 := by
    rw [hrenewed]
    simp
  have hfresh := freshWindow_unused cfg env hnew hsolvent
  have hfresh' : freshWindow cfg env x (s.renewed cfg x) = s.tick.modifyCtx x fun g =>
      { g with windowStartMs := currentTimeMs env s } := by
    have hstarts := (startsWindow_iff cfg ((s.renewed cfg x).ctx x) (currentTimeMs env s)).mpr
      (Or.inl hstart)
    rw [freshWindow_unused cfg env hagain hsolvent', hnow, hstarts, hrenewed]
    simp [Sched.tick, Sched.modifyCtx]
  refine ⟨fun c => ?_, ?_⟩
  · rw [canRun, canRun, hfresh, hfresh']
    simp only [canRunTest_startWindow]
  · rw [hfresh, hfresh', ← startsWindow_iff]
    refine ⟨fun heq => ?_, fun heq => by rw [heq]⟩
    have hctx := congrArg (fun u => (u.ctx x).windowStartMs) heq
    simpa using hctx

/-! ## Drained contexts -/

/-- In runs of protocol-following clients with successful sends that leave no trace, a context
without connected clients is as good as new. Whoever asks next is answered as on a new
context, and unless a new window starts then, the end of the old one is all that is left. -/
theorem drained_context_as_new (hsent : env.AllSent)
    (h : Transition.Reaches (Transition.guarded (Step cfg env)
      fun s e => Polite s e ∧ Tallies s e ∧ LeavesNoTrace cfg env s e) Sched.init s) (x : CtxId) :
    ((∀ c ∈ s.clients, (s.client c).context ≠ some x) → AsNew (s.ctx x)) ∧
      (Unused x s → ∀ env : Env,
        (∀ c, (canRun cfg env x c s).1 = (canRun cfg env x c (s.renewed cfg x)).1) ∧
          (freshWindow cfg env x s = freshWindow cfg env x (s.renewed cfg x) ↔
            StartsWindow cfg (s.ctx x) (currentTimeMs env s))) := by
  have hreach := h.mono fun _ _ _ hstep => hstep.2
  have hwf := wellFormed_of_reaches hreach
  have hconnected := connected_of_reaches hsent
    (h.mono fun _ _ _ hstep => ⟨⟨hstep.1.1, hstep.1.2.2⟩, hstep.2⟩)
  have htallied := tallied_of_reaches (h.mono fun _ _ _ hstep => ⟨hstep.1.2.1, hstep.2⟩)
  have hclear := clear_of_reaches
    (h.mono fun _ _ _ hstep => ⟨hstep.1.2, hstep.2⟩) x
  have hlock : (s.ctx x).runningList = [] → (s.ctx x).lockHeld = false := by
    intro hrun
    rw [← Bool.not_eq_true, (htallied.accounted x).lock, not_not]
    exact hrun
  have husage : (s.ctx x).runningList = [] → (s.ctx x).runningMemoryUsage = 0 := by
    intro hrun
    rw [(htallied.accounted x).usage, held, hrun]
    rfl
  refine ⟨fun hgone => ?_, fun hnew env' => ?_⟩
  · have hentries : (s.ctx x).entries = [] := by
      refine List.eq_nil_iff_forall_not_mem.mpr fun c hc => ?_
      exact hgone c (hconnected x c hc) (hwf.belongs x c hc)
    obtain ⟨hreq, hwait, hrun⟩ : (s.ctx x).requests = [] ∧ (s.ctx x).waitQueue = [] ∧
        (s.ctx x).runningList = [] := by simpa [GpuContext.entries] using hentries
    exact ⟨hreq, hrun, hwait, hlock hrun, husage hrun, hclear⟩
  · have hguarded : Transition.Reaches (Transition.guarded (Step cfg env) fun _ _ => True)
        Sched.init s := hreach.mono fun _ _ _ hstep => ⟨trivial, hstep⟩
    exact canRun_unused hnew (solvent_of_reaches hguarded) (hlock hnew.idle)
      (husage hnew.idle) hclear (equipped_of_reaches hreach x hnew.created)

/-- Two clients have run side by side and left, the second after it reported more memory.
Another one registers, and is answered as on a new context. -/
theorem drained_context_as_new_two_clients :
    (∃ s, Transition.Reaches (Transition.guarded (Step {} steady)
        fun s e => Polite s e ∧ Tallies s e ∧ LeavesNoTrace {} steady s e) Sched.init s ∧
      s.nctx = 1 ∧ s.clients = [] ∧ AsNew (s.ctx 0)) ∧
    ∃ s, Transition.Reaches (Transition.guarded (Step {} steady)
        fun s e => Polite s e ∧ Tallies s e ∧ LeavesNoTrace {} steady s e) Sched.init s ∧
      s.clients = [1] ∧ (s.ctx 0).windowStartMs = 1 ∧
      (canRun {} steady 0 1 s).1 = (canRun {} steady 0 1 (s.renewed {} 0)).1 := by
  have hloose : ∀ s t e, Transition.guarded (Step {} steady)
        (fun s e => Polite s e ∧ Tallies s e ∧ LeavesUnasked {} s e) s e t →
      Transition.guarded (Step {} steady)
        (fun s e => Polite s e ∧ Tallies s e ∧ LeavesNoTrace {} steady s e) s e t :=
    fun _ _ _ hstep => ⟨⟨hstep.1.1, hstep.1.2.1, hstep.1.2.2.noTrace⟩, hstep.2⟩
  refine ⟨?_, ?_⟩
  · obtain ⟨s, hs, hnctx, hclients⟩ := exists_reaches {} steady
      (fun s e => Polite s e ∧ Tallies s e ∧ LeavesUnasked {} s e) 9
      [.accept {}, .accept {}, enter 0 1, enter 1 2, .message 0 (.memUpdate 5),
        .message 0 .reqLock, .message 1 .reqLock, .message 1 (.memUpdate 7), .disconnect 0,
        .disconnect 1]
      (fun s => s.nctx = 1 ∧ s.clients = []) (by decide +kernel)
    have hreach := hs.mono fun s e t => hloose s t e
    refine ⟨s, hreach, hnctx, hclients, (drained_context_as_new steady_allSent hreach 0).1 ?_⟩
    simp [hclients]
  · obtain ⟨s, hs, hnctx, hclients, hrun, hrecord, hstart⟩ := exists_reaches {} steady
      (fun s e => Polite s e ∧ Tallies s e ∧ LeavesUnasked {} s e) 9
      [.accept {}, enter 0 1, .message 0 .reqLock, .disconnect 0, .accept {}, enterQuota 1 2 50]
      (fun s => s.nctx = 1 ∧ s.clients = [1] ∧ (s.ctx 0).runningList = [] ∧
        ((s.client 1).runTimeInWindowMs = 0 ∧ (s.client 1).quotaDebtMs = 0 ∧
          (s.client 1).isThrottled = false) ∧ (s.ctx 0).windowStartMs = 1)
      (by decide +kernel)
    have hreach := hs.mono fun s e t => hloose s t e
    have hunused : Unused 0 s := by
      refine ⟨by rw [hnctx]; exact Nat.one_pos, hrun, fun c hc _ => ?_⟩
      rw [hclients, List.mem_singleton] at hc
      subst hc
      exact ⟨hrecord.1, hrecord.2.1, hrecord.2.2⟩
    refine ⟨s, hreach, hclients, hstart, ?_⟩
    exact ((drained_context_as_new steady_allSent hreach 0).2 hunused steady).1 1

/-- A client reports 20 GB while it runs alone on a GPU of 16 GB and disconnects. The GPU stays
marked as overloaded although nobody is left. -/
theorem drained_context_overloaded :
    ¬ ∀ (cfg : Config) (env : Env) (s : Sched) (x : CtxId), env.AllSent →
      Transition.Reaches (Transition.guarded (Step cfg env)
        fun s e => Polite s e ∧ Tallies s e) Sched.init s →
      (∀ c ∈ s.clients, (s.client c).context ≠ some x) → AsNew (s.ctx x) := by
  intro h
  obtain ⟨s, hs, hclients, hover⟩ := exists_reaches {} steady
    (fun s e => Polite s e ∧ Tallies s e) 9
    [.accept {}, enter 0 1, .message 0 .reqLock, .message 0 (.memUpdate 20000000000),
      .disconnect 0]
    (fun s => s.clients = [] ∧ (s.ctx 0).memoryOverloaded = true) (by decide +kernel)
  have hnew := h {} steady s 0 steady_allSent hs (by simp [hclients])
  rw [hnew.overloaded] at hover
  cases hover

end XpuShare
