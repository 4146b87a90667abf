import XpuShare.Verification.Queues.Correctness

/-! # The running set and its memory

`running_memory_usage`, `is_running` and `lock_held` repeat what the running list says. As
long as the memory of the clients in the queues of a context fits in `size_t`, every block
of scheduling code keeps them in step. -/

namespace XpuShare

variable {cfg : Config} {env : Env} {x y : CtxId} {s t : Sched} {c d : ClientId}

/-- The memory that each client has reported. -/
def memories (s : Sched) (c : ClientId) : ℕ := (s.client c).memoryAllocated

/-- The memory of the clients that run on a context. -/
def held (x : CtxId) (s : Sched) : ℕ := ((s.ctx x).runningList.map (memories s)).sum

/-- The memory of all clients in the queues of a context. -/
def claimed (x : CtxId) (s : Sched) : ℕ := ((s.ctx x).entries.map (memories s)).sum

/-- The memory of the clients in the queues of a context fits in `size_t`. -/
def Fits (x : CtxId) (s : Sched) : Prop := claimed x s < sizeMod

/-- The memory total, the run flags and the lock flag of a context agree with its running
list, and nobody stands twice in its queues. -/
structure Accounted (x : CtxId) (s : Sched) : Prop where
  nodup : (s.ctx x).entries.Nodup
  usage : (s.ctx x).runningMemoryUsage = held x s
  flags : ∀ c, (s.client c).context = some x →
    ((s.client c).isRunning = true ↔ c ∈ (s.ctx x).runningList)
  lock : (s.ctx x).lockHeld = true ↔ (s.ctx x).runningList ≠ []

theorem Frame.memories (h : Frame x s t) : memories t = memories s :=
  funext fun c => memory_of_static (h.static c)

/-- An effect whose outcome is consistent leaves an accounted context. -/
theorem Effect.accounted {table : LockTable ClientId} {lock : Bool} {memory : ℕ}
    {run : ClientId → Bool} {clients : List ClientId} {sent : List Sent}
    (h : Effect x s t table lock memory run clients sent) (hnodup : table.entries.Nodup)
    (hmemory : memory = (table.running.map (memories s)).sum)
    (hrun : ∀ c, (s.client c).context = some x → (run c = true ↔ c ∈ table.running))
    (hlock : lock = true ↔ table.running ≠ []) : Accounted x t := by
  have hrunning : (t.ctx x).runningList = table.running :=
    congrArg LockTable.running h.table_eq
  refine ⟨?_, ?_, fun c hctx => ?_, ?_⟩
  · rw [entries_eq_of_table h.table_eq]
    exact hnodup
  · rw [h.memory_eq, hmemory, held, hrunning, h.toFrame.memories]
  · rw [context_of_static (h.static c)] at hctx
    rw [h.run_eq, hrunning]
    exact hrun c hctx
  · rw [h.lock_eq, hrunning]
    exact hlock

/-- Moves between the pending queues do not touch the running set. -/
theorem Accounted.of_pending {table : LockTable ClientId} {clients : List ClientId}
    {sent : List Sent} (hs : Accounted x s)
    (h : Effect x s t table (s.ctx x).lockHeld (s.ctx x).runningMemoryUsage (runFlags s)
      clients sent)
    (hrunning : table.running = (s.ctx x).runningList) (hnodup : table.entries.Nodup) :
    Accounted x t :=
  h.accounted hnodup (by rw [hrunning]; exact hs.usage) (by rw [hrunning]; exact hs.flags)
    (by rw [hrunning]; exact hs.lock)

theorem Accounted.grant {rest : List ClientId} (hs : Accounted x s) (hfits : Fits x s)
    (hreq : (s.ctx x).requests = c :: rest) :
    Accounted x (grant env x c (sendMessage env c .lockOk s)) := by
  have hc : c ∈ (s.ctx x).table.requests := by simp [GpuContext.table, hreq]
  have hperm := LockTable.enter_entries_perm hc
  have hclaimed : claimed x s = (s.client c).memoryAllocated + (rest.map (memories s)).sum
      + ((s.ctx x).waitQueue.map (memories s)).sum + held x s := by
    simp [claimed, held, GpuContext.entries, hreq, memories]
    omega
  have hadd : (((s.ctx x).runningList ++ [c]).map (memories s)).sum
      = (s.ctx x).runningMemoryUsage + (s.client c).memoryAllocated := by
    rw [hs.usage]
    simp [held, memories]
  have hlt : (s.ctx x).runningMemoryUsage + (s.client c).memoryAllocated < sizeMod := by
    have hfits' : claimed x s < sizeMod := hfits
    rw [hs.usage]
    omega
  refine (grantSent_effect env (mem_entries_of_requests hc)).accounted
    (hperm.nodup_iff.mpr hs.nodup) ?_ ?_ ?_
  · rw [Nat.mod_eq_of_lt hlt]
    exact hadd.symm
  · intro d hd
    by_cases hdc : d = c
    · subst hdc
      simp [LockTable.enter]
    · have hflag := hs.flags d hd
      simpa [LockTable.enter, GpuContext.table, hdc, runFlags] using hflag
  · simp [LockTable.enter]

theorem Accounted.leave (hs : Accounted x s) (hc : c ∈ (s.ctx x).runningList) :
    Accounted x (leaveRunning cfg env x c s) := by
  have hnodup : (s.ctx x).runningList.Nodup := hs.nodup.sublist (List.sublist_append_right _ _)
  have hsplit : (s.client c).memoryAllocated
      + (((s.ctx x).runningList.erase c).map (memories s)).sum
      = (s.ctx x).runningMemoryUsage := by
    rw [hs.usage]
    exact List.sum_map_erase (memories s) hc
  have hheld : (s.ctx x).lockHeld = true := hs.lock.mpr (List.ne_nil_of_mem hc)
  refine (leaveRunning_effect cfg env hc).accounted
    (hs.nodup.sublist LockTable.release_entries_sublist) ?_ ?_ ?_
  · have hle : (s.client c).memoryAllocated ≤ (s.ctx x).runningMemoryUsage := by omega
    rw [memoryAfter, if_pos hle]
    simp only [LockTable.release, GpuContext.table]
    omega
  · intro d hd
    by_cases hdc : d = c
    · subst hdc
      simp [LockTable.release, GpuContext.table, hnodup.not_mem_erase]
    · have hflag := hs.flags d hd
      simpa [LockTable.release, GpuContext.table, hdc, runFlags, List.mem_erase_of_ne hdc]
        using hflag
  · simp [lockAfter, hheld, LockTable.release, GpuContext.table]

theorem Accounted.idle (hs : Accounted x s) (hc : c ∉ (s.ctx x).runningList) :
    Accounted x (leaveRunning cfg env x c s) := by
  rw [leaveRunning_of_notMem cfg env hc]
  refine (clearLock_effect x s).accounted hs.nodup hs.usage hs.flags ?_
  have hlock := hs.lock
  simp only [clearedLock, Bool.and_eq_true, Bool.not_eq_true', List.isEmpty_eq_false_iff,
    GpuContext.table]
  tauto

/-! ## Blocks -/

theorem Block.claimed_le {D : Exits} (h : Block cfg env D x s t) : claimed x t ≤ claimed x s := by
  obtain ⟨l, hperm, hsub⟩ := h.entries_subperm
  rw [claimed, claimed, h.frame.memories, ← (hperm.map _).sum_eq]
  exact (hsub.map _).sum_le_sum fun _ _ => Nat.zero_le _

theorem Block.accounted {D : Exits} (h : Block cfg env D x s t) (hs : Accounted x s)
    (hfits : Fits x s) : Accounted x t := by
  have hnodup : (t.ctx x).entries.Nodup := by
    obtain ⟨l, hperm, hsub⟩ := h.entries_subperm
    exact hperm.nodup_iff.mp (hs.nodup.sublist hsub)
  cases h with
  | window => exact hs.of_pending (freshWindow_effect cfg env x s) rfl hs.nodup
  | defer c rest hreq hno hwait =>
      have heff := moveToWaitQueue_effect env hwait
      exact hs.of_pending heff rfl (entries_eq_of_table heff.table_eq ▸ hnodup)
  | promote front c back hwait hok =>
      have heff := promote_effect env x front c back s
      exact hs.of_pending heff rfl (entries_eq_of_table heff.table_eq ▸ hnodup)
  | grant c rest hreq hok hsend => exact hs.grant hfits hreq
  | refuse c rest hreq hok hsend hD =>
      exact hs.of_pending (sendMessage_effect env x c _ s) rfl hs.nodup
  | leave c hD =>
      by_cases hc : c ∈ (s.ctx x).runningList
      · exact hs.leave hc
      · exact hs.idle hc
  | withdraw c hD =>
      have heff := dropPending_effect x c s
      exact hs.of_pending heff rfl (entries_eq_of_table heff.table_eq ▸ hnodup)
  | unlink c hD hctx hgone => exact ⟨hs.nodup, hs.usage, hs.flags, hs.lock⟩

theorem Block.fits {D : Exits} (h : Block cfg env D x s t) (hfits : Fits x s) : Fits x t :=
  h.claimed_le.trans_lt hfits

/-- A context is accounted for as long as it and the records of its clients stay the same. -/
theorem Accounted.congr (hs : Accounted y s) (hctx : t.ctx y = s.ctx y)
    (hcontext : ∀ c, (t.client c).context = some y → (s.client c).context = some y)
    (hclient : ∀ c, (s.client c).context = some y → t.client c = s.client c)
    (hb : Belongs y s) : Accounted y t := by
  have hheld : held y t = held y s := by
    unfold held
    rw [hctx]
    refine congrArg List.sum (List.map_congr_left fun c hc => ?_)
    exact congrArg Client.memoryAllocated (hclient c (hb c (mem_entries_of_running hc)))
  refine ⟨by rw [hctx]; exact hs.nodup, by rw [hctx, hheld]; exact hs.usage, ?_,
    by rw [hctx]; exact hs.lock⟩
  intro c hc
  have hc' := hcontext c hc
  rw [hclient c hc', hctx]
  exact hs.flags c hc'

theorem Tuned.memories (h : Tuned s t) : memories t = memories s :=
  funext fun c => memory_of_core (h.client c)

theorem Accounted.tuned (hs : Accounted y s) (h : Tuned s t) : Accounted y t := by
  have htable := table_of_core (h.ctx y)
  have hrunning : (t.ctx y).runningList = (s.ctx y).runningList :=
    congrArg LockTable.running htable
  refine ⟨?_, ?_, fun c hc => ?_, ?_⟩
  · rw [entries_of_table htable]
    exact hs.nodup
  · rw [usage_of_core (h.ctx y), held, hrunning, h.memories]
    exact hs.usage
  · rw [context_of_core (h.client c)] at hc
    rw [isRunning_of_core (h.client c), hrunning]
    exact hs.flags c hc
  · rw [lockHeld_of_core (h.ctx y), hrunning]
    exact hs.lock

/-! ## Connections, registrations, requests and memory reports -/

theorem accept_client_of_ne (garbage : Client) (hc : c ≠ s.nalloc) :
    (accept garbage s).client c = s.client c := by
  simp [accept, hc]

theorem accept_context (garbage : Client) :
    ((accept garbage s).client s.nalloc).context = none := by
  simp [accept]

theorem Accounted.accept (hs : Accounted y s) (hwf : WellFormed s) (garbage : Client) :
    Accounted y (accept garbage s) := by
  refine hs.congr rfl (fun c hc => ?_) (fun c hc => ?_) (hwf.belongs y)
  · have hne : c ≠ s.nalloc := by
      rintro rfl
      rw [accept_context] at hc
      cases hc
    rwa [accept_client_of_ne garbage hne] at hc
  · refine accept_client_of_ne garbage ?_
    rintro rfl
    rw [hwf.fresh s.nalloc le_rfl] at hc
    cases hc

theorem Accounted.enrol {m : RegisterMsg} {e : RegisterEnv} (hs : ∀ y, Accounted y s)
    (hwf : WellFormed s) (hnone : (s.client c).context = none)
    (hidle : (s.client c).isRunning = false) (y : CtxId) :
    Accounted y (enrol cfg c m e s) := by
  obtain ⟨x, hclient, -, -, -, -, -, -, hctx⟩ := enrol_spec cfg c m e s
  generalize XpuShare.enrol cfg c m e s = t at hclient hctx
  have hself : t.client c = registeredRecord m e x (s.client c) := by simp [hclient]
  have hother : ∀ d, d ≠ c → t.client d = s.client d := by
    intro d hd
    simp [hclient, hd]
  have hkeep : ∀ d z, (s.client d).context = some z → t.client d = s.client d := by
    intro d z hd
    refine hother d ?_
    rintro rfl
    rw [hnone] at hd
    cases hd
  have hback : ∀ d z, z ≠ x → (t.client d).context = some z → (s.client d).context = some z := by
    intro d z hz hd
    have hne : d ≠ c := by
      rintro rfl
      rw [hself] at hd
      exact hz (Option.some.inj hd).symm
    rwa [hother d hne] at hd
  by_cases hy : y = x
  · subst hy
    rcases hctx with ⟨-, hctx⟩ | ⟨hnew, hctx⟩
    · have hacc := hs y
      have hheld : held y t = held y s := by
        unfold held
        rw [hctx]
        refine congrArg List.sum (List.map_congr_left fun d hd => ?_)
        exact congrArg Client.memoryAllocated
          (hkeep d y (hwf.belongs y d (mem_entries_of_running hd)))
      refine ⟨by rw [hctx]; exact hacc.nodup, by rw [hctx, hheld]; exact hacc.usage, ?_,
        by rw [hctx]; exact hacc.lock⟩
      intro d hd
      rw [hctx]
      by_cases hdc : d = c
      · subst hdc
        have hnot : d ∉ (s.ctx y).runningList :=
          fun hr => hwf.notMem_entries hnone y (mem_entries_of_running hr)
        rw [hself]
        simp [registeredRecord, hidle, hnot]
      · rw [hother d hdc] at hd ⊢
        exact hacc.flags d hd
    · refine ⟨by simp [hctx, GpuContext.entries], by simp [hctx, held], ?_, by simp [hctx]⟩
      intro d hd
      have hdc : d = c := by
        by_contra hdc
        rw [hother d hdc] at hd
        exact absurd (hwf.context_lt d y hd) (by rw [hnew]; exact lt_irrefl _)
      subst hdc
      rw [hself]
      simp [registeredRecord, hidle, hctx]
  · have hsame : t.ctx y = s.ctx y := by
      rcases hctx with ⟨-, hctx⟩ | ⟨-, hctx⟩
      · rw [hctx]
      · rw [hctx, Function.update_of_ne hy]
    exact (hs y).congr hsame (fun d hd => hback d y hy hd) (fun d hd => hkeep d y hd)
      (hwf.belongs y)

theorem Accounted.insert (hs : Accounted y s) (hnew : c ∉ (s.ctx x).entries) :
    Accounted y (s.modifyCtx x fun g => { g with requests := g.requests ++ [c] }) := by
  by_cases hy : y = x
  · subst hy
    have hnodup : ((s.ctx y).table.arrive c).entries.Nodup :=
      LockTable.arrive_entries_perm.nodup_iff.mpr (List.nodup_cons.mpr ⟨hnew, hs.nodup⟩)
    refine ⟨?_, ?_, fun d hd => ?_, ?_⟩
    · rw [Sched.modifyCtx_ctx_self]
      exact hnodup
    · simp only [held, Sched.modifyCtx_ctx_self]
      exact hs.usage
    · rw [Sched.modifyCtx_ctx_self]
      exact hs.flags d hd
    · rw [Sched.modifyCtx_ctx_self]
      exact hs.lock
  · have hsame := Sched.modifyCtx_ctx_ne s x y
      (fun g => { g with requests := g.requests ++ [c] }) hy
    refine ⟨by rw [hsame]; exact hs.nodup, ?_, fun d hd => by rw [hsame]; exact hs.flags d hd,
      by rw [hsame]; exact hs.lock⟩
    rw [hsame, held, hsame]
    exact hs.usage

theorem memories_storeMemory (c : ClientId) (v : ℕ) (s : Sched) :
    memories (storeMemory c v s) = Function.update (memories s) c v := by
  funext d
  unfold memories storeMemory
  rw [Sched.modifyClient_client, Function.update_apply]
  split <;> rfl

theorem memories_creditMemory (cfg : Config) (x : CtxId) (c : ClientId) (v : ℕ) (s : Sched) :
    memories (creditMemory cfg x c v s) = Function.update (memories s) c v := by
  rw [← memories_storeMemory]
  unfold memories
  rw [creditMemory_client]

/-- A memory report keeps the accounts of its context, if the new total fits. -/
theorem Accounted.memory {v : ℕ} (hs : Accounted x s) (hctx : (s.client c).context = some x)
    (hfits : held x (creditMemory cfg x c v s) < sizeMod) :
    Accounted x (creditMemory cfg x c v s) := by
  have htable := creditMemory_table cfg x c v s x
  have hrunning : ((creditMemory cfg x c v s).ctx x).runningList = (s.ctx x).runningList :=
    congrArg LockTable.running htable
  have hnodup : (s.ctx x).runningList.Nodup := hs.nodup.sublist (List.sublist_append_right _ _)
  have hlock : ((creditMemory cfg x c v s).ctx x).lockHeld = (s.ctx x).lockHeld := by
    obtain ⟨usage, peak, overloaded, h⟩ := creditMemory_spec cfg x c v s
    rw [h, Sched.modifyCtx_ctx_self]
    rfl
  refine ⟨by rw [entries_of_table htable]; exact hs.nodup, ?_, fun d hd => ?_,
    by rw [hlock, hrunning]; exact hs.lock⟩
  · rw [held, hrunning, memories_creditMemory] at hfits ⊢
    by_cases hrun : (s.client c).isRunning = true
    · have hc := (hs.flags c hctx).mp hrun
      have hupdate := List.sum_map_update hnodup hc (memories s) v
      have hold : memories s c ≤ held x s := by
        rw [held, ← List.sum_map_erase (memories s) hc]
        exact Nat.le_add_right _ _
      have husage : (s.ctx x).runningMemoryUsage = held x s := hs.usage
      have hmem : (s.client c).memoryAllocated = memories s c := rfl
      have hstored : (storeMemory c v s).ctx = s.ctx := rfl
      rw [creditMemory, if_pos hrun, accountMemory, Sched.modifyCtx_ctx_self, hstored]
      simp only [hmem, husage, if_pos hold]
      rw [held] at hold ⊢
      rw [Nat.mod_eq_of_lt (by omega)]
      omega
    · have hc : c ∉ (s.ctx x).runningList := fun hc => hrun ((hs.flags c hctx).mpr hc)
      rw [creditMemory, if_neg hrun, List.sum_map_update_of_notMem hc]
      exact hs.usage
  · rw [creditMemory_client] at hd ⊢
    rw [storeMemory_field Client.context fun _ _ _ => rfl] at hd
    rw [storeMemory_field Client.isRunning fun _ _ _ => rfl, hrunning]
    exact hs.flags d hd

/-- A memory report leaves the other contexts alone. -/
theorem Accounted.memory_ne {v : ℕ} (hs : Accounted y s) (hwf : WellFormed s)
    (hctx : (s.client c).context = some x) (hy : y ≠ x) :
    Accounted y (creditMemory cfg x c v s) := by
  obtain ⟨usage, peak, overloaded, h⟩ := creditMemory_spec cfg x c v s
  have hclient := creditMemory_client cfg x c v s
  refine hs.congr ?_ (fun d hd => ?_) (fun d hd => ?_) (hwf.belongs y)
  · rw [h, Sched.modifyCtx_ctx_ne _ _ _ _ hy]
    rfl
  · rw [hclient] at hd
    rwa [storeMemory_field Client.context fun _ _ _ => rfl] at hd
  · rw [hclient]
    refine Sched.modifyClient_client_ne _ _ _ _ ?_
    rintro rfl
    rw [hctx] at hd
    exact hy (Option.some.inj hd).symm

end XpuShare
