import XpuShare.Verification.Scheduler.Blocks

/-! # Changes outside the lock tables

Timers, annotation updates, preemption and the replies to clients change quota fields,
limits and timer variables and send messages, but no queue, no run flag and no memory
figure. `Tuned` is that relation. -/

namespace XpuShare

variable (cfg : Config) (env : Env)

/-- A registered client has a positive compute limit and has not been billed less than
nothing. -/
def Solvent (s : Sched) (c : ClientId) : Prop :=
  (s.client c).context ≠ none → 1 ≤ (s.client c).coreLimit ∧ 0 ≤ (s.client c).runTimeInWindowMs

/-- A client record without quota fields and limits. -/
def Client.core (r : Client) : Client := { r.unbilled with coreLimit := 0, memoryLimit := 0 }

/-- A context without its timer. -/
def GpuContext.core (g : GpuContext) : GpuContext :=
  { g with mustResetTimer := false, timer := {} }

/-- SCHED_OFF, on its own or as the reply to REGISTER. -/
@[simp]
def ToClient.turnsOff : ToClient → Bool
  | .schedOff => true
  | .status on _ _ => !on
  | _ => false

/-- `t` differs from `s` in quota fields, limits, timers and messages other than LOCK_OK.
SCHED_OFF is sent only while the scheduler is off. -/
structure Tuned (s t : Sched) : Prop where
  clients : t.clients = s.clients
  nctx : t.nctx = s.nctx
  schedulerOn : t.schedulerOn = s.schedulerOn
  nalloc : t.nalloc = s.nalloc
  ctx : ∀ x, (t.ctx x).core = (s.ctx x).core
  client : ∀ c, (t.client c).core = (s.client c).core
  solvent : (∀ c, Solvent s c) → ∀ c, Solvent t c
  sent : ∃ new, t.out = s.out ++ new ∧
    ∀ m ∈ new, m.msg ≠ .lockOk ∧ (m.msg.turnsOff = true → s.schedulerOn = false)

section Core

variable {r r' : Client} (h : r.core = r'.core)

include h

theorem id_of_core : r.id = r'.id := (congrArg Client.id h :)
theorem context_of_core : r.context = r'.context := (congrArg Client.context h :)
theorem isRunning_of_core : r.isRunning = r'.isRunning := (congrArg Client.isRunning h :)
theorem memory_of_core : r.memoryAllocated = r'.memoryAllocated :=
  (congrArg Client.memoryAllocated h :)

end Core

section CtxCore

variable {g g' : GpuContext} (h : g.core = g'.core)

include h

theorem table_of_core : g.table = g'.table := (congrArg GpuContext.table h :)
theorem lockHeld_of_core : g.lockHeld = g'.lockHeld := (congrArg GpuContext.lockHeld h :)
theorem usage_of_core : g.runningMemoryUsage = g'.runningMemoryUsage :=
  (congrArg GpuContext.runningMemoryUsage h :)
theorem overloaded_of_core : g.memoryOverloaded = g'.memoryOverloaded :=
  (congrArg GpuContext.memoryOverloaded h :)
theorem totalMemory_of_core : g.totalMemory = g'.totalMemory :=
  (congrArg GpuContext.totalMemory h :)

end CtxCore

namespace Tuned

variable {s t u : Sched}

theorem runningList (h : Tuned s t) (x : CtxId) :
    (t.ctx x).runningList = (s.ctx x).runningList :=
  congrArg LockTable.running (table_of_core (h.ctx x))

theorem refl (s : Sched) : Tuned s s :=
  ⟨rfl, rfl, rfl, rfl, fun _ => rfl, fun _ => rfl, fun h => h, [], by simp, by simp⟩

theorem trans (h : Tuned s t) (h' : Tuned t u) : Tuned s u where
  clients := h'.clients.trans h.clients
  nctx := h'.nctx.trans h.nctx
  schedulerOn := h'.schedulerOn.trans h.schedulerOn
  nalloc := h'.nalloc.trans h.nalloc
  ctx x := (h'.ctx x).trans (h.ctx x)
  client c := (h'.client c).trans (h.client c)
  solvent hs := h'.solvent (h.solvent hs)
  sent := by
    obtain ⟨new, hnew, hmsg⟩ := h.sent
    obtain ⟨new', hnew', hmsg'⟩ := h'.sent
    refine ⟨new ++ new', by rw [hnew', hnew, List.append_assoc], ?_⟩
    intro m hm
    rcases List.mem_append.mp hm with hm | hm
    · exact hmsg m hm
    · exact h.schedulerOn ▸ hmsg' m hm

theorem foldl {f : Sched → ClientId → Sched} (hf : ∀ s c, Tuned s (f s c))
    (l : List ClientId) (s : Sched) : Tuned s (l.foldl f s) :=
  List.foldlRecOn l f (refl s) fun t ht c _ => ht.trans (hf t c)

theorem tick (s : Sched) : Tuned s s.tick :=
  ⟨rfl, rfl, rfl, rfl, fun _ => rfl, fun _ => rfl, fun h => h, [], by simp, by simp⟩

theorem sendMessage (c : ClientId) {m : ToClient} {s : Sched}
    (hm : m ≠ .lockOk ∧ (m.turnsOff = true → s.schedulerOn = false)) :
    Tuned s (XpuShare.sendMessage env c m s) :=
  ⟨rfl, rfl, rfl, rfl, fun _ => rfl, fun _ => rfl, fun h => h, _, rfl, by simpa using hm⟩

/-- Telling a client whether the scheduler is on. -/
theorem announce (c : ClientId) (s : Sched) :
    Tuned s (XpuShare.sendMessage env c (if s.schedulerOn then .schedOn else .schedOff) s) := by
  apply sendMessage
  split <;> simp_all

theorem modifyCtx (x : CtxId) {f : GpuContext → GpuContext} (hf : ∀ g, (f g).core = g.core)
    (s : Sched) : Tuned s (s.modifyCtx x f) := by
  refine ⟨rfl, rfl, rfl, rfl, fun y => ?_, fun _ => rfl, fun h => h, [], by simp, by simp⟩
  rw [Sched.modifyCtx_ctx]
  split
  · rename_i hy
    rw [hf, hy]
  · rfl

/-- Rewriting quota fields and limits of one record so that it stays solvent. -/
theorem modifyClient (c : ClientId) {f : Client → Client}
    (hf : (f (s.client c)).core = (s.client c).core)
    (hsolvent : (s.client c).context ≠ none → 1 ≤ (s.client c).coreLimit →
      0 ≤ (s.client c).runTimeInWindowMs →
      1 ≤ (f (s.client c)).coreLimit ∧ 0 ≤ (f (s.client c)).runTimeInWindowMs) :
    Tuned s (s.modifyClient c f) := by
  refine ⟨rfl, rfl, rfl, rfl, fun _ => rfl, fun d => ?_, fun h d => ?_, [], by simp, by simp⟩
  · rw [Sched.modifyClient_client]
    split
    · rename_i hd
      rw [hf, hd]
    · rfl
  · unfold Solvent
    rw [Sched.modifyClient_client]
    split
    · intro hctx
      rw [context_of_core hf] at hctx
      obtain ⟨hlimit, hrun⟩ := h c hctx
      exact hsolvent hctx hlimit hrun
    · exact h d

end Tuned

/-! ## Quotas are not negative -/

theorem calculateTotalQuota_pos (s : Sched) (x : CtxId) : 0 < calculateTotalQuota s x := by
  unfold calculateTotalQuota
  simp only
  split
  · assumption
  · norm_num

theorem getEffectiveQuotaMs_nonneg {s : Sched} {c : ClientId} (x : CtxId)
    (h : 1 ≤ (s.client c).coreLimit) : 0 ≤ getEffectiveQuotaMs cfg s x c := by
  have hwindow := cfg.window_bounds
  have hprod : 0 ≤ cfg.computeWindowMs * (s.client c).coreLimit :=
    mul_nonneg (by omega) (by omega)
  have hbase : 0 ≤ (cfg.computeWindowMs * (s.client c).coreLimit).tdiv 100 :=
    Int.tdiv_nonneg hprod (by norm_num)
  have htotal := calculateTotalQuota_pos s x
  unfold getEffectiveQuotaMs
  simp only
  split
  · exact hbase
  · exact Int.tdiv_nonneg (by omega) (by omega)

theorem annotatedCoreLimit_pos (value : Option ℤ) : 1 ≤ annotatedCoreLimit value := by
  cases value with
  | none => decide
  | some v =>
      unfold annotatedCoreLimit
      split
      · omega
      · norm_num

/-! ## What timers, annotations and preemption do -/

theorem preemptClient_tuned (s : Sched) (c : ClientId) : Tuned s (preemptClient env s c) := by
  have hsent : Tuned s (sendMessage env c .dropLock s) := Tuned.sendMessage env c (by simp)
  unfold preemptClient
  simp only
  split
  · refine (hsent.trans (Tuned.tick _)).trans (Tuned.modifyClient c rfl ?_)
    intro _ hlimit hrun
    exact ⟨hlimit, hrun⟩
  · exact hsent

theorem forcePreemption_tuned (x : CtxId) (s : Sched) : Tuned s (forcePreemption env x s) :=
  Tuned.foldl (preemptClient_tuned env) _ s

theorem throttleClient_tuned (x : CtxId) (count now : ℤ) (s : Sched) (c : ClientId) :
    Tuned s (throttleClient cfg env x count now s c) := by
  unfold throttleClient
  simp only
  split
  · rename_i hover
    refine (Tuned.modifyClient c rfl ?_).trans (Tuned.sendMessage env c (by simp))
    intro _ hlimit _
    exact ⟨hlimit, (getEffectiveQuotaMs_nonneg cfg x hlimit).trans hover.2.2.2⟩
  · exact Tuned.refl s

theorem rotateClient_tuned (count now : ℤ) (s : Sched) (c : ClientId) :
    Tuned s (rotateClient env count now s c) := by
  unfold rotateClient
  simp only
  split
  · refine (Tuned.modifyClient c rfl ?_).trans (Tuned.sendMessage env c (by simp))
    intro _ hlimit hrun
    exact ⟨hlimit, hrun⟩
  · exact Tuned.refl s

theorem enforceLimits_tuned (x : CtxId) (s : Sched) : Tuned s (enforceLimits cfg env x s) :=
  (Tuned.tick s).trans (Tuned.foldl (throttleClient_tuned cfg env x _ _) _ _)

theorem rotateRunning_tuned (x : CtxId) (s : Sched) : Tuned s (rotateRunning env x s) :=
  (Tuned.tick s).trans (Tuned.foldl (rotateClient_tuned env _ _) _ _)

theorem timerEnd_tuned (x : CtxId) (timedOut : Bool) (s : Sched) :
    Tuned s (timerEnd cfg env x timedOut s) := by
  have henforced := enforceLimits_tuned cfg env x s
  unfold timerEnd
  simp only
  split
  · refine (henforced.trans (rotateRunning_tuned env x _)).trans (Tuned.modifyCtx x ?_ _)
    intro g
    rfl
  · refine henforced.trans (Tuned.modifyCtx x ?_ _)
    intro g
    rfl

theorem timerSleep_tuned (x : CtxId) (s : Sched) : Tuned s (timerSleep cfg env x s) := by
  refine (Tuned.tick s).trans (Tuned.modifyCtx x ?_ _)
  intro g
  rfl

theorem setTq_tuned (v : ℤ) (s : Sched) : Tuned s (setTq v s) := by
  refine ⟨rfl, rfl, rfl, rfl, fun x => ?_, fun _ => rfl, fun h => h, [], by simp [setTq], by simp⟩
  unfold setTq
  simp only
  split <;> rfl

theorem updateMemoryLimit_tuned (c : ClientId) (limit : Option ℕ) (s : Sched) :
    Tuned s (updateMemoryLimit env c limit s) := by
  unfold updateMemoryLimit
  split
  · split
    · refine (Tuned.modifyClient c rfl ?_).trans (Tuned.sendMessage env c (by simp))
      intro _ hlimit hrun
      exact ⟨hlimit, hrun⟩
    · exact Tuned.refl s
  · exact Tuned.refl s

theorem updateCoreLimit_tuned (c : ClientId) (value : Option ℤ) (s : Sched) :
    Tuned s (updateCoreLimit env c value s) := by
  unfold updateCoreLimit
  simp only
  split
  · refine (Tuned.modifyClient c rfl ?_).trans (Tuned.sendMessage env c (by simp))
    intro _ _ hrun
    exact ⟨annotatedCoreLimit_pos value, hrun⟩
  · exact Tuned.refl s

theorem annotationUpdate_tuned (id : ℕ) (memory : Option ℕ) (core : Option ℤ) (s : Sched) :
    Tuned s (annotationUpdate env id memory core s) := by
  unfold annotationUpdate
  split
  · exact (updateMemoryLimit_tuned env _ memory s).trans (updateCoreLimit_tuned env _ core _)
  · exact Tuned.refl s

theorem applyInitialLimit_tuned (c : ClientId) (limit : Option ℕ) (s : Sched) :
    Tuned s (applyInitialLimit env c limit s) := by
  unfold applyInitialLimit
  split
  · split
    · refine (Tuned.modifyClient c rfl ?_).trans (Tuned.sendMessage env c (by simp))
      intro _ hlimit hrun
      exact ⟨hlimit, hrun⟩
    · exact Tuned.refl s
  · exact Tuned.refl s

end XpuShare
