import XpuShare.Verification.Peaks.Placement

/-! # Handlers and the peaks

The running total of every context stays below its recorded peak while a handler runs, if
what its event may grant fits below it. -/

namespace XpuShare

open Transition

variable {cfg : Config} {env : Env} {s t u s₀ : Sched} {x : CtxId} {c : ClientId} {fuel : ℕ}
  {p : Standing}

/-! ## Running totals -/

/-- The running total of every context is at most its recorded peak. -/
def Dominated (s : Sched) : Prop :=
  ∀ x, (s.ctx x).runningMemoryUsage ≤ (s.ctx x).peakMemoryUsage

/-- No running total has risen, and no peak has changed. -/
def Lowered (s t : Sched) : Prop :=
  ∀ x, (t.ctx x).runningMemoryUsage ≤ (s.ctx x).runningMemoryUsage ∧
    (t.ctx x).peakMemoryUsage = (s.ctx x).peakMemoryUsage

theorem Lowered.refl (s : Sched) : Lowered s s := fun _ => ⟨le_rfl, rfl⟩

theorem Lowered.trans (h : Lowered s t) (h' : Lowered t u) : Lowered s u :=
  fun x => ⟨(h' x).1.trans (h x).1, (h' x).2.trans (h x).2⟩

theorem Lowered.of_ctx (h : t.ctx = s.ctx) : Lowered s t := by
  intro x
  rw [h]
  exact ⟨le_rfl, rfl⟩

theorem Dominated.lowered (hs : Dominated s) (h : Lowered s t) : Dominated t := by
  intro x
  rw [(h x).2]
  exact (h x).1.trans (hs x)

/-- A function with a known effect on one context that does not raise its running total. -/
theorem Lowered.of_effect {table : LockTable ClientId} {lock : Bool} {memory : ℕ}
    {run : ClientId → Bool} {clients : List ClientId} {sent : List Sent}
    (h : Effect x s t table lock memory run clients sent)
    (hle : memory ≤ (s.ctx x).runningMemoryUsage) : Lowered s t := by
  intro y
  by_cases hy : y = x
  · rw [hy, h.memory_eq]
    exact ⟨hle, peak_of_fixed h.fixed⟩
  · rw [h.ctx_ne y hy]
    exact ⟨le_rfl, rfl⟩

theorem peak_of_core {g g' : GpuContext} (h : g.core = g'.core) :
    g.peakMemoryUsage = g'.peakMemoryUsage :=
  (congrArg GpuContext.peakMemoryUsage h :)

theorem Lowered.tuned (h : Tuned s t) : Lowered s t :=
  fun x => ⟨(usage_of_core (h.ctx x)).le, peak_of_core (h.ctx x)⟩

theorem freshWindow_lowered (cfg : Config) (env : Env) (x : CtxId) (s : Sched) :
    Lowered s (freshWindow cfg env x s) :=
  .of_effect (freshWindow_effect cfg env x s) le_rfl

theorem checkWaitQueueFrom_lowered (front back : List ClientId) (s : Sched) :
    Lowered s (checkWaitQueueFrom cfg env x front back s) := by
  induction back generalizing front s with
  | nil => exact .refl s
  | cons c back ih =>
      have hfresh : Lowered s (canRun cfg env x c s).2 := freshWindow_lowered cfg env x s
      rw [checkWaitQueueFrom]
      split
      · exact hfresh.trans (.of_effect (promote_effect env x front c back _) le_rfl)
      · exact hfresh.trans (ih _ _)

theorem checkWaitQueue_lowered (s : Sched) : Lowered s (checkWaitQueue cfg env x s) :=
  checkWaitQueueFrom_lowered _ _ s

theorem refill_lowered (s : Sched) : Lowered s (refill cfg env x s) := by
  unfold refill
  split
  · exact checkWaitQueue_lowered s
  · exact .refl s

theorem moveToWaitQueue_lowered (c : ClientId) (s : Sched) :
    Lowered s (moveToWaitQueue env x c s) := by
  by_cases hc : c ∈ (s.ctx x).waitQueue
  · rw [moveToWaitQueue_of_mem env hc]
    exact .refl s
  · exact .of_effect (moveToWaitQueue_effect env hc) le_rfl

theorem leaveRunning_lowered (c : ClientId) (s : Sched) :
    Lowered s (leaveRunning cfg env x c s) := by
  by_cases hc : c ∈ (s.ctx x).runningList
  · apply Lowered.of_effect (leaveRunning_effect cfg env hc)
    unfold memoryAfter
    split <;> omega
  · rw [leaveRunning_of_notMem cfg env hc]
    exact .of_effect (clearLock_effect x s) le_rfl

theorem Dominated.unlinkClient (hs : Dominated s) (h : unlinkClient c s = some t) :
    Dominated t := by
  rw [unlinkClient_eq h]
  exact hs

/-! ## Scheduling -/

theorem Dominated.grant {rest : List ClientId} (hd : Dominated s) (hs : Placed s₀ x p s)
    (hample : p.Ample cfg s₀ x) (hreq : (s.ctx x).requests = c :: rest)
    (hok : canRunWithMemory cfg s x c = true) :
    Dominated (grant env x c (sendMessage env c .lockOk s)) := by
  have hc : c ∈ (s.ctx x).entries := mem_entries_of_requests (by rw [hreq]; simp)
  intro y
  by_cases hy : y = x
  · rw [hy]
    exact (hs.grant hample hreq hok).2
  · rw [(grantSent_effect env hc).ctx_ne y hy]
    exact hd y

/-- The totals stay below the peaks, and the clients of the standing in their places. -/
structure InBounds (s₀ : Sched) (x : CtxId) (p : Standing) (s : Sched) : Prop where
  placed : Placed s₀ x p s
  dominated : Dominated s

section Schedule

variable (hample : p.Ample cfg s₀ x)
  (hjoined : ∀ c ∈ p.pending, (s₀.client c).context = some x)

include hjoined

/-- Deleting a client that waits. -/
theorem InBounds.deleteClient {schedule : CtxId → Sched → Option Sched} (hs : InBounds s₀ x p s)
    (hc : c ∈ (s.ctx x).pending)
    (hschedule : ∀ u v, schedule x u = some v → InBounds s₀ x p u → InBounds s₀ x p v)
    (h : deleteClient cfg env schedule c s = some t) : InBounds s₀ x p t := by
  have hctx : (s.client c).context = some x := by
    rw [context_of_static (hs.placed.static c)]
    exact hjoined c (Standing.mem_pending_of_movable (hs.placed.mem_movable hc))
  rw [XpuShare.deleteClient, Option.bind_eq_some_iff] at h
  obtain ⟨removed, hremoved, hunlink⟩ := h
  have hleft : InBounds s₀ x p (leaveRunning cfg env x c s) :=
    ⟨hs.placed.leave hc, hs.dominated.lowered (leaveRunning_lowered c s)⟩
  have hdrop : ∀ u, InBounds s₀ x p u → InBounds s₀ x p (dropPending x c u) := fun u hu =>
    ⟨hu.placed.withdraw c, hu.dominated.lowered (.of_effect (dropPending_effect x c u) le_rfl)⟩
  have hgone : InBounds s₀ x p removed := by
    unfold removeReq at hremoved
    simp only [hctx] at hremoved
    split at hremoved
    · rw [Option.map_eq_some_iff] at hremoved
      obtain ⟨mid, hmid, rfl⟩ := hremoved
      refine hdrop mid (hschedule _ mid hmid ⟨hleft.placed.checkWaitQueue, ?_⟩)
      exact hleft.dominated.lowered (checkWaitQueue_lowered _)
    · exact Option.some.inj hremoved ▸ hdrop _ hleft
  refine ⟨?_, hgone.dominated.unlinkClient hunlink⟩
  rw [unlinkClient_eq hunlink]
  exact ⟨hgone.placed.fixed, hgone.placed.static, hgone.placed.lock, hgone.placed.split⟩

include hample

theorem InBounds.trySchedule (hs : InBounds s₀ x p s)
    (h : trySchedule cfg env fuel x s = some t) : InBounds s₀ x p t := by
  induction fuel generalizing s t with
  | zero => cases h
  | succ fuel ih =>
      have hrefilled : InBounds s₀ x p (refill cfg env x s) :=
        ⟨hs.placed.refill, hs.dominated.lowered (refill_lowered s)⟩
      unfold XpuShare.trySchedule at h
      generalize refill cfg env x s = r at h hrefilled
      simp only at h
      split at h
      · exact Option.some.inj h ▸ hrefilled
      · rename_i c rest hreq
        have hfresh : InBounds s₀ x p (freshWindow cfg env x r) :=
          ⟨hrefilled.placed.window,
            hrefilled.dominated.lowered (freshWindow_lowered cfg env x r)⟩
        have hhead : ((freshWindow cfg env x r).ctx x).requests = c :: rest := by
          rw [freshWindow_requests, hreq]
        generalize freshWindow cfg env x r = f at h hfresh hhead
        split at h
        · rename_i hok
          have hmemory : canRunWithMemory cfg f x c = true := (Bool.and_eq_true_iff.mp hok).2
          split at h
          · have hgranted : InBounds s₀ x p
                (XpuShare.grant env x c (sendMessage env c .lockOk f)) :=
              ⟨(hfresh.placed.grant hample hhead hmemory).1,
                hfresh.dominated.grant hfresh.placed hample hhead hmemory⟩
            split at h
            · exact Option.some.inj h ▸ hgranted
            · exact ih hgranted h
          · -- The LOCK_OK is lost, and the client deleted on the way.
            rw [Option.bind_eq_some_iff] at h
            obtain ⟨mid, hmid, hagain⟩ := h
            have hsent : InBounds s₀ x p (sendMessage env c .lockOk f) := by
              refine ⟨?_, hfresh.dominated⟩
              exact hfresh.placed.of_pending (sendMessage_effect env x c .lockOk f) rfl
                hfresh.placed.lock (List.Subperm.refl _)
            have hc : c ∈ (f.ctx x).pending := by simp [GpuContext.pending, hhead]
            exact ih (hsent.deleteClient hjoined hc (fun u v huv hu => ih hu huv) hmid) hagain
        · exact ih ⟨hfresh.placed.defer hhead,
            hfresh.dominated.lowered (moveToWaitQueue_lowered c f)⟩ h

end Schedule

/-! ## Handlers -/

/-- A client runs only while the lock is taken. -/
def Occupied (s : Sched) : Prop :=
  ∀ x, (s.ctx x).runningList ≠ [] → (s.ctx x).lockHeld = true

theorem Block.occupied {D : Exits} (h : Block cfg env D x s t) (hs : Occupied s) :
    Occupied t := by
  have hframe := h.frame
  intro y
  by_cases hy : y = x
  · rw [hy]
    have hsame : ∀ {table : LockTable ClientId} {lock : Bool} {memory : ℕ}
        {run : ClientId → Bool} {clients : List ClientId} {sent : List Sent},
        Effect x s t table lock memory run clients sent →
        (table.running ≠ [] → lock = true) → (t.ctx x).runningList ≠ [] →
        (t.ctx x).lockHeld = true := by
      intro table lock memory run clients sent heff hlock hne
      rw [heff.lock_eq]
      rw [show (t.ctx x).runningList = table.running from
        congrArg LockTable.running heff.table_eq] at hne
      exact hlock hne
    cases h with
    | window => exact hsame (freshWindow_effect cfg env x s) (hs x)
    | defer c rest hreq hno hwait => exact hsame (moveToWaitQueue_effect env hwait) (hs x)
    | promote front c back hwait hok => exact hsame (promote_effect env x front c back s) (hs x)
    | grant c rest hreq hok hsend =>
        have hc : c ∈ (s.ctx x).entries := mem_entries_of_requests (by simp [hreq])
        exact hsame (grantSent_effect env hc) fun _ => rfl
    | refuse c rest hreq hok hsend hD => exact hsame (sendMessage_effect env x c _ s) (hs x)
    | leave c hD =>
        by_cases hc : c ∈ (s.ctx x).runningList
        · refine hsame (leaveRunning_effect cfg env hc) fun hne => ?_
          have hbusy : (s.ctx x).runningList.erase c ≠ [] := hne
          rw [lockAfter, hs x (List.ne_nil_of_mem hc)]
          simpa using hbusy
        · rw [leaveRunning_of_notMem cfg env hc] at hsame ⊢
          refine hsame (clearLock_effect x s) fun hne => ?_
          have hbusy : (s.ctx x).runningList ≠ [] := hne
          simp [clearedLock, hbusy, hs x hbusy]
    | withdraw c hD => exact hsame (dropPending_effect x c s) (hs x)
    | unlink c hD hctx hgone => exact hs x
  · rw [hframe.ctx_ne y hy]
    exact hs y

theorem Action.occupied {D : ClientId → Prop}
    (h : Action cfg env D (fun _ e => PeakEvent e) s t) (hs : Occupied s) : Occupied t := by
  cases h with
  | block x h => exact h.occupied hs
  | tune h =>
      intro y
      rw [lockHeld_of_core (h.ctx y), show (t.ctx y).runningList = (s.ctx y).runningList from
        congrArg LockTable.running (table_of_core (h.ctx y))]
      exact hs y
  | accept garbage hok => exact hs
  | enrol c m e hok hmem hunreg hid =>
      obtain ⟨x, -, -, -, -, -, -, -, hctx⟩ := enrol_spec cfg c m e s
      intro y
      rcases hctx with ⟨-, hctx⟩ | ⟨-, hctx⟩
      · rw [hctx]
        exact hs y
      · rw [hctx, Function.update_apply]
        split
        · exact fun hne => absurd rfl hne
        · exact hs y
  | insert c x hok hmem hon hctx hreq =>
      intro y
      rw [Sched.modifyCtx_ctx]
      split
      · exact hs x
      · exact hs y
  | memory c x v hok hmem hctx =>
      intro y
      obtain ⟨usage, peak, overloaded, h⟩ := creditMemory_spec cfg x c v s
      rw [h, Sched.modifyCtx_ctx]
      split
      · exact hs x
      · exact hs y
  | unlink c hctx => exact hs
  | power on c hok => exact hs
  | clear s₀ c hok => exact False.elim hok

/-- The clients that wait on a context have joined it. -/
theorem WellFormed.joined (hwf : WellFormed s) (hc : c ∈ (s.ctx x).pending) :
    (s.client c).context = some x :=
  hwf.belongs x c (List.mem_append_left _ hc)

/-- What the handlers of a run find. -/
structure Peaked (s : Sched) : Prop where
  wf : WellFormed s
  occupied : Occupied s
  dominated : Dominated s

/-- The lock of the context is taken, or all that may yet be granted there fits below the
peak. -/
def Bounded (cfg : Config) (s₀ : Sched) (x : CtxId) (t : Sched) : Prop :=
  (t.ctx x).lockHeld = true ∨ ∃ p, p.Ample cfg s₀ x ∧
    (∀ c ∈ p.pending, (s₀.client c).context = some x) ∧ InBounds s₀ x p t

theorem leaveRunning_usage (cfg : Config) (env : Env) (x : CtxId) (c : ClientId) (s : Sched) :
    ((leaveRunning cfg env x c s).ctx x).runningMemoryUsage =
      if c ∈ (s.ctx x).runningList then memoryAfter (s.ctx x) (s.client c).memoryAllocated
      else (s.ctx x).runningMemoryUsage := by
  split
  · rename_i hc
    exact (leaveRunning_effect cfg env hc).memory_eq
  · rename_i hc
    rw [leaveRunning_of_notMem cfg env hc]
    exact (clearLock_effect x s).memory_eq

/-- The lock stays taken as long as somebody is left. -/
theorem Occupied.leaveRunning (hs : Occupied s)
    (hbusy : ((leaveRunning cfg env x c s).ctx x).runningList ≠ []) :
    ((leaveRunning cfg env x c s).ctx x).lockHeld = true := by
  rw [leaveRunning_erases] at hbusy
  have hheld : (s.ctx x).lockHeld = true := hs x fun hnil => hbusy (by rw [hnil]; rfl)
  by_cases hc : c ∈ (s.ctx x).runningList
  · rw [(leaveRunning_effect cfg env hc).lock_eq, lockAfter, hheld]
    simpa using hbusy
  · rw [List.erase_of_not_mem hc] at hbusy
    rw [leaveRunning_of_notMem cfg env hc, (clearLock_effect x s).lock_eq, clearedLock, hheld]
    simpa using hbusy

theorem Peaked.removeReq (hs : Peaked s) (hctx : (s.client c).context = some x)
    (hfits : ∀ p ∈ standingLeft s x c, p.Ample cfg s x)
    (h : removeReq cfg env (trySchedule cfg env fuel) c s = some t) :
    Dominated t ∧ Bounded cfg s x t := by
  have hleft : Dominated (XpuShare.leaveRunning cfg env x c s) :=
    hs.dominated.lowered (leaveRunning_lowered c s)
  unfold XpuShare.removeReq at h
  simp only [hctx] at h
  split at h
  · rename_i hidle
    rw [Option.map_eq_some_iff] at h
    obtain ⟨mid, hmid, rfl⟩ := h
    rw [standingLeft, if_pos (leaveRunning_erases cfg env x c s ▸ hidle)] at hfits
    have hample := hfits _ rfl
    have hleave : Block cfg env anyone x s (XpuShare.leaveRunning cfg env x c s) :=
      .leave s c trivial
    have hframe := hleave.frame
    obtain ⟨htable, -, -⟩ := leaveRunning_spec cfg env x c s
    have hpending : ((XpuShare.leaveRunning cfg env x c s).ctx x).pending = (s.ctx x).pending :=
      congrArg (fun table : LockTable ClientId => table.requests ++ table.waiting) htable
    have hplaced := Placed.begin hample hframe.fixed hframe.static (fun hne => absurd hidle hne)
      hidle (leaveRunning_usage cfg env x c s) (by rw [hpending])
    have hjoined : ∀ c ∈ (s.ctx x).pending, (s.client c).context = some x :=
      fun c hc => hs.wf.joined hc
    have hscheduled := InBounds.trySchedule hample hjoined
      ⟨hplaced.checkWaitQueue, hleft.lowered (checkWaitQueue_lowered _)⟩ hmid
    have hdropped := hscheduled.dominated.lowered (.of_effect (dropPending_effect x c mid) le_rfl)
    exact ⟨hdropped, Or.inr ⟨_, hample, hjoined, hscheduled.placed.withdraw c, hdropped⟩⟩
  · rename_i hbusy
    rw [← Option.some.inj h]
    refine ⟨hleft.lowered (.of_effect (dropPending_effect x c _) le_rfl), Or.inl ?_⟩
    have hlock := hs.occupied.leaveRunning hbusy
    simpa [dropPending] using hlock

/-- The removal of a client leaves what may be granted below the peak. -/
def LeavesWithin (cfg : Config) (s : Sched) (c : ClientId) : Prop :=
  ∀ x, (s.client c).context = some x → ∀ p ∈ standingLeft s x c, p.Ample cfg s x

theorem Peaked.deleteClient (hs : Peaked s) (hfits : LeavesWithin cfg s c)
    (h : deleteClient cfg env (trySchedule cfg env fuel) c s = some t) : Dominated t ∧
      ∀ x, (s.client c).context = some x → Bounded cfg s x t := by
  rw [XpuShare.deleteClient, Option.bind_eq_some_iff] at h
  obtain ⟨removed, hremoved, hunlink⟩ := h
  rw [unlinkClient_eq hunlink]
  cases hctx : (s.client c).context with
  | none =>
      simp only [XpuShare.removeReq, hctx, Option.some.injEq] at hremoved
      rw [← hremoved]
      exact ⟨hs.dominated, fun x hx => by cases hx⟩
  | some x =>
      obtain ⟨hdom, hrest⟩ := hs.removeReq hctx (hfits x hctx) hremoved
      refine ⟨hdom, fun y hy => ?_⟩
      rw [← Option.some.inj hy]
      rcases hrest with hlock | ⟨p, hample, hjoined, hbounds⟩
      · exact Or.inl hlock
      · have hplaced := hbounds.placed
        exact Or.inr ⟨p, hample, hjoined,
          ⟨hplaced.fixed, hplaced.static, hplaced.lock, hplaced.split⟩, hdom⟩

/-- Scheduling after a removal. -/
theorem Bounded.scheduleIfFree (hd : Dominated s) (hs : Bounded cfg s₀ x s)
    (h : scheduleIfFree cfg env fuel x s = some t) : Dominated t := by
  unfold XpuShare.scheduleIfFree at h
  split at h
  · exact Option.some.inj h ▸ hd
  · rename_i hfree
    obtain ⟨p, hample, hjoined, hbounds⟩ := hs.resolve_left hfree
    exact (hbounds.trySchedule hample hjoined h).dominated

theorem Dominated.enrol (hs : Dominated s) (cfg : Config) (c : ClientId) (m : RegisterMsg)
    (e : RegisterEnv) : Dominated (enrol cfg c m e s) := by
  obtain ⟨x, -, -, -, -, -, -, -, hctx⟩ := enrol_spec cfg c m e s
  rcases hctx with ⟨-, hctx⟩ | ⟨-, hctx⟩
  · exact hs.lowered (.of_ctx hctx)
  · intro y
    rw [hctx, Function.update_apply]
    split
    · exact le_rfl
    · exact hs y

/-- A registration whose reply is lost is undone, and others may be granted the lock. -/
theorem Peaked.enrolled (hs : Peaked s) (m : RegisterMsg) {e : RegisterEnv}
    (hunreg : hasRegistered s c = false) (hmem : c ∈ s.clients)
    (hid : acceptableId s e.generatedId)
    (hfits : ∀ x < s.nctx, ∀ p ∈ standingLeft s x c, p.Ample cfg s x) :
    Peaked (enrol cfg c m e s) ∧ LeavesWithin cfg (enrol cfg c m e s) c := by
  have hwf : WellFormed (enrol cfg c m e s) := hs.wf.enrol m hunreg hmem hid
  have hdom := hs.dominated.enrol cfg c m e
  have hmemories : memories (enrol cfg c m e s) = memories s :=
    funext fun d => enrol_memory cfg c d m e s
  obtain ⟨x, hclient, -, -, -, -, -, -, hctx⟩ := enrol_spec cfg c m e s
  generalize enrol cfg c m e s = u at hwf hdom hmemories hclient hctx
  have hjoins : ∀ y, (u.client c).context = some y → y = x := by
    intro y hy
    simpa [hclient, registeredRecord] using hy.symm
  rcases hctx with ⟨hlt, hctx⟩ | ⟨-, hctx⟩
  · refine ⟨⟨hwf, fun y => by rw [hctx]; exact hs.occupied y, hdom⟩, fun y hy p hp => ?_⟩
    rw [hjoins y hy] at hp ⊢
    refine (hfits x hlt p ?_).congr (by rw [hctx]) hmemories
    have hmemory : (u.client c).memoryAllocated = (s.client c).memoryAllocated :=
      congrFun hmemories c
    simpa only [standingLeft, hctx, hmemory] using hp
  · refine ⟨⟨hwf, fun y => ?_, hdom⟩, fun y hy p hp => ?_⟩
    · rw [hctx, Function.update_apply]
      split
      · exact fun hne => absurd rfl hne
      · exact hs.occupied y
    · rw [hjoins y hy] at hp ⊢
      have hnew : p = ⟨[], 0, []⟩ := by
        simpa [standingLeft, hctx, GpuContext.pending, eq_comm] using hp
      rw [hnew]
      exact Standing.ample_nobody

/-- A memory report raises the peak together with the running total. -/
theorem Dominated.memUpdate (hs : Dominated s) (cfg : Config) (env : Env) (c : ClientId) (v : ℕ) :
    Dominated (memUpdate cfg env c v s) := by
  have hcredited : ∀ x, Dominated (creditMemory cfg x c v s) := by
    intro x y
    have hy := hs y
    unfold creditMemory
    split
    · rw [accountMemory, Sched.modifyCtx_ctx]
      split
      · exact le_max_right _ _
      · exact hy
    · exact hy
  rcases memUpdate_cases cfg env c v s with hsame | ⟨x, -, hcredit | hpreempt⟩
  · rwa [hsame]
  · rw [hcredit]
    exact hcredited x
  · rw [hpreempt]
    exact (hcredited x).lowered (.tuned (forcePreemption_tuned env x _))

theorem Peaked.register {m : RegisterMsg} {e : RegisterEnv} (hs : Peaked s)
    (henabled : (Event.message c (.register m e)).enabled s = true)
    (hfits : GrantsWithinPeaks cfg s (.message c (.register m e)))
    (h : processMsg cfg env fuel c (.register m e) s = some t) : Dominated t := by
  have hleaves : LeavesWithin cfg s c := by
    intro x hx p hp
    refine hfits x (hs.wf.context_lt c x hx) p ?_
    simpa [Event.standing, hx] using hp
  by_cases hreg : hasRegistered s c = true
  · simp only [processMsg, registerClient, hreg, if_true, Bool.false_eq_true, if_false] at h
    exact (hs.deleteClient hleaves h).1
  · have hunreg : hasRegistered s c = false := by simpa using hreg
    have hnone : (s.client c).context = none := hs.wf.context_eq_none hunreg
    have hconnected : c ∈ s.clients := Event.connected_of_enabled henabled rfl
    obtain ⟨hu, hleft⟩ : Peaked (enrol cfg c m e s) ∧ LeavesWithin cfg (enrol cfg c m e s) c :=
      hs.enrolled m hunreg hconnected (Event.acceptable_of_enabled henabled) fun x hx p hp =>
        hfits x hx p (by simpa [Event.standing, hnone] using hp)
    simp only [processMsg, registerClient, hunreg, Bool.false_eq_true, if_false] at h
    generalize enrol cfg c m e s = u at h hu hleft
    split at h
    · have hsent : Dominated (sendMessage env c
          (.status u.schedulerOn e.generatedId (u.client c).coreLimit) u) := hu.dominated
      rw [← Option.some.inj h]
      exact hsent.lowered (.tuned (applyInitialLimit_tuned env c _ _))
    · refine (Peaked.deleteClient (s := sendMessage env c _ u) ⟨?_, hu.occupied, hu.dominated⟩
        hleft h).1
      exact hu.wf.tuned (Tuned.sendMessage env c (by simp))

theorem WellFormed.joined_asked (hs : WellFormed s) (hctx : (s.client c).context = some x) :
    ∀ d ∈ (standingAsked s x c).pending, (s.client d).context = some x := by
  intro d hd
  simp only [standingAsked] at hd
  split at hd
  · exact hs.joined hd
  · rcases List.mem_append.mp hd with hold | hnew
    · exact hs.joined hold
    · rwa [List.mem_singleton.mp hnew]

/-- A request that has been put in the queue. -/
theorem Peaked.asked (hs : Peaked s) (hctx : (s.client c).context = some x)
    (hample : (standingAsked s x c).Ample cfg s x) :
    InBounds s x (standingAsked s x c) (insertReq c s) := by
  by_cases hc : c ∈ (s.ctx x).requests
  · rw [insertReq_of_mem hctx hc]
    refine ⟨.begin hample rfl (fun _ => rfl) (hs.occupied x) rfl rfl ?_, hs.dominated⟩
    rw [standingAsked, if_pos hc]
  · rw [insertReq_of_notMem hctx hc]
    refine ⟨.begin hample (by simp [GpuContext.fixed]) (fun _ => rfl) ?_ ?_ ?_ ?_, fun y => ?_⟩
    · simpa using hs.occupied x
    · simp [standingAsked, standingNow]
    · simp [standingAsked, standingNow]
    · rw [Sched.modifyCtx_ctx_self]
      refine List.Perm.subperm ?_
      simp only [standingAsked, standingNow, hc, if_false, GpuContext.pending, List.append_assoc]
      exact List.perm_append_comm.append_left _
    · rw [Sched.modifyCtx_ctx]
      split
      · exact hs.dominated x
      · exact hs.dominated y

theorem Peaked.reqLock (hs : Peaked s) (hfits : GrantsWithinPeaks cfg s (.message c .reqLock))
    (h : reqLock cfg env fuel c s = some t) : Dominated t := by
  unfold XpuShare.reqLock at h
  cases hctx : (s.client c).context with
  | none =>
      simp only [hctx] at h
      exact (hs.deleteClient (fun x hx => by rw [hctx] at hx; cases hx) h).1
  | some x =>
      have hample : (standingAsked s x c).Ample cfg s x :=
        hfits x (hs.wf.context_lt c x hctx) _ (by simp [Event.standing, hctx])
      have hqueued := hs.asked hctx hample
      simp only [hctx] at h
      split at h
      · exact Option.some.inj h ▸ hqueued.dominated
      · exact (hqueued.trySchedule hample (hs.wf.joined_asked hctx) h).dominated

theorem Peaked.lockReleased (hs : Peaked s)
    (hfits : GrantsWithinPeaks cfg s (.message c .lockReleased))
    (h : lockReleased cfg env fuel c s = some t) : Dominated t := by
  unfold XpuShare.lockReleased at h
  cases hctx : (s.client c).context with
  | none =>
      simp only [hctx] at h
      exact (hs.deleteClient (fun x hx => by rw [hctx] at hx; cases hx) h).1
  | some x =>
      simp only [hctx, Option.bind_eq_some_iff] at h
      obtain ⟨mid, hmid, hagain⟩ := h
      obtain ⟨hdom, hbounded⟩ := hs.removeReq hctx (fun p hp =>
        hfits x (hs.wf.context_lt c x hctx) p (by simpa [Event.standing, hctx] using hp)) hmid
      exact hbounded.scheduleIfFree hdom hagain

theorem Peaked.processMsg {m : FromClient} (hs : Peaked s)
    (hm : PeakEvent (.message c m)) (henabled : (Event.message c m).enabled s = true)
    (hfits : GrantsWithinPeaks cfg s (.message c m))
    (h : processMsg cfg env fuel c m s = some t) : Dominated t := by
  have hunreg : (!hasRegistered s c) = true → LeavesWithin cfg s c := by
    intro hnot x hx
    rw [hs.wf.context_eq_none (by simpa using hnot)] at hx
    cases hx
  cases m with
  | register m e => exact hs.register henabled hfits h
  | reqLock =>
      simp only [XpuShare.processMsg] at h
      split at h
      · rename_i hnot
        exact (hs.deleteClient (hunreg hnot) h).1
      · split at h
        · exact hs.reqLock hfits h
        · exact Option.some.inj h ▸ hs.dominated
  | lockReleased =>
      simp only [XpuShare.processMsg] at h
      split at h
      · rename_i hnot
        exact (hs.deleteClient (hunreg hnot) h).1
      · split at h
        · exact hs.lockReleased hfits h
        · exact Option.some.inj h ▸ hs.dominated
  | memUpdate v => exact Option.some.inj h ▸ hs.dominated.memUpdate cfg env c v
  | schedOn => exact False.elim hm
  | schedOff => exact False.elim hm
  | setTq v => exact False.elim hm
  | unknown => exact False.elim hm

theorem Peaked.disconnect (hs : Peaked s) (hfits : GrantsWithinPeaks cfg s (.disconnect c))
    (h : disconnect cfg env fuel c s = some t) : Dominated t := by
  rw [XpuShare.disconnect, Option.bind_eq_some_iff] at h
  obtain ⟨deleted, hdeleted, hagain⟩ := h
  obtain ⟨hdom, hbounded⟩ := hs.deleteClient (fun x hx p hp =>
    hfits x (hs.wf.context_lt c x hx) p (by simpa [Event.standing, hx] using hp)) hdeleted
  cases hctx : (s.client c).context with
  | none =>
      simp only [hctx, Option.some.injEq] at hagain
      exact hagain ▸ hdom
  | some x =>
      simp only [hctx] at hagain
      split at hagain
      · exact (hbounded x hctx).scheduleIfFree hdom hagain
      · exact Option.some.inj hagain ▸ hdom

theorem Peaked.timerBegin (hs : Peaked s) (hx : x < s.nctx)
    (hfits : GrantsWithinPeaks cfg s (.timerBegin x))
    (h : timerBegin cfg env fuel x s = some t) : Dominated t := by
  have hample : (standingNow s x).Ample cfg s x := hfits x hx _ (by simp [Event.standing])
  have hplaced : Placed s x (standingNow s x) s :=
    .begin hample rfl (fun _ => rfl) (hs.occupied x) rfl rfl (List.Subperm.refl _)
  have hfresh : InBounds s x (standingNow s x) (checkAndResetWindow cfg env x s).2 :=
    ⟨hplaced.window, hs.dominated.lowered (freshWindow_lowered cfg env x s)⟩
  rw [XpuShare.timerBegin, Option.map_eq_some_iff] at h
  obtain ⟨mid, hmid, rfl⟩ := h
  have hscheduled : Dominated mid := by
    split at hmid
    · exact (hfresh.trySchedule hample (fun d hd => hs.wf.joined hd) hmid).dominated
    · exact Option.some.inj hmid ▸ hfresh.dominated
  exact hscheduled.lowered (.tuned (timerSleep_tuned cfg env x mid))

theorem Peaked.dominated_step {e : Event} (hs : Peaked s)
    (h : guarded (Step cfg env) (FittingEvent cfg) s e t) : Dominated t := by
  obtain ⟨⟨hevent, hfits⟩, henabled, fuel, hhandle⟩ := h
  cases e with
  | accept garbage => exact Option.some.inj hhandle ▸ hs.dominated
  | message c m => exact hs.processMsg hevent henabled hfits hhandle
  | disconnect c => exact hs.disconnect hfits hhandle
  | timerBegin x =>
      have hpossible := Event.possible_of_enabled henabled
      have hx : x < s.nctx := by
        simp only [Event.possible, Bool.and_eq_true, decide_eq_true_eq] at hpossible
        exact hpossible.1
      exact hs.timerBegin hx hfits hhandle
  | timerEnd x timedOut =>
      rw [← Option.some.inj hhandle]
      exact hs.dominated.lowered (.tuned (timerEnd_tuned cfg env x timedOut s))
  | annotated id memory core => exact False.elim hevent

end XpuShare
