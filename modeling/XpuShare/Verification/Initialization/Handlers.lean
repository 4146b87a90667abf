import XpuShare.Verification.Initialization.Twins

/-! # Handlers of twin states

A handler reads a field that registration leaves alone in three places: REQ_LOCK puts a client
in line whose memory usage decides on its admission, MEM_UPDATE asks whether the client runs,
and the annotation watcher compares the limits it has fetched with the ones it finds. Where
the two runs agree on what is read there, every handler keeps the states twins. -/

namespace XpuShare

variable {cfg : Config} {env : Env} {s s' t u u' : Sched} {c d : ClientId} {x : CtxId}

namespace Twins

/-! ## Registration -/

theorem insertReq (h : Twins s s') (hmemory : (s.client c).context ≠ none →
    (s'.client c).memoryAllocated = (s.client c).memoryAllocated) :
    Twins (insertReq c s) (insertReq c s') := by
  unfold XpuShare.insertReq
  rw [h.context, h.ctx]
  split
  · exact h
  · rename_i x hctx
    have hreg : (s.client c).context ≠ none := by simp [hctx]
    split
    · exact h
    · refine h.modifyCtx_shown x fun d hd => ?_
      simp only [GpuContext.entries, List.mem_append, List.mem_singleton] at hd
      rcases hd with ((hd | rfl) | hd) | hd
      · exact h.shown x d (mem_entries_of_requests hd)
      · exact ⟨hreg, hmemory hreg⟩
      · exact h.shown x d (mem_entries_of_waitQueue hd)
      · exact h.shown x d (mem_entries_of_running hd)

theorem getOrCreateGpuContext (h : Twins s s') (cfg : Config) (uuid : String) :
    (getOrCreateGpuContext cfg uuid s').1 = (getOrCreateGpuContext cfg uuid s).1 ∧
      Twins (getOrCreateGpuContext cfg uuid s).2 (getOrCreateGpuContext cfg uuid s').2 := by
  unfold XpuShare.getOrCreateGpuContext
  rw [h.ctx, h.nctx]
  split
  · exact ⟨rfl, h⟩
  · refine ⟨rfl, ?_, h.client, fun y c hc => ?_⟩
    · exact congrArg (fun u : Sched => { u with
        nctx := s.nctx + 1
        ctx := Function.update s.ctx s.nctx
          { uuid := strlcpy uuid gpuUuidLen
            totalMemory := cfg.defaultGpuMemory
            availableMemory := cfg.defaultGpuMemory } }) h.rest
    · dsimp only at hc
      rw [Function.update_apply] at hc
      split at hc
      · simp [GpuContext.entries] at hc
      · exact h.shown y c hc

theorem enrol (h : Twins s s') (cfg : Config) (c : ClientId) (m : RegisterMsg) (e : RegisterEnv) :
    Twins (enrol cfg c m e s) (enrol cfg c m e s') := by
  obtain ⟨hsame, hcreated⟩ := h.getOrCreateGpuContext cfg m.gpuUuid
  unfold XpuShare.enrol
  rw [hsame]
  refine hcreated.modifyClient rfl (fun _ => ?_) fun hmemory => hmemory
  exact Option.some_ne_none _

theorem applyInitialLimit (h : Twins s s') (env : Env) (hc : (s.client c).context ≠ none)
    (limit : Option ℕ) :
    Twins (applyInitialLimit env c limit s) (applyInitialLimit env c limit s') := by
  unfold XpuShare.applyInitialLimit
  split
  · rename_i n
    split
    · refine (h.modifyRegistered hc ?_ ?_).sendMessage env c (.updateLimit n)
      · exact fun _ => rfl
      · exact fun r memory running _ => ⟨memory, running, n, rfl, fun h => h⟩
    · exact h
  · exact h

theorem registerClient (h : Twins s s') (cfg : Config) (env : Env) (c : ClientId)
    (m : RegisterMsg) (e : RegisterEnv) :
    (registerClient cfg env c m e s').1 = (registerClient cfg env c m e s).1 ∧
      Twins (registerClient cfg env c m e s).2 (registerClient cfg env c m e s').2 := by
  have henrolled := h.enrol cfg c m e
  have hreg : ((XpuShare.enrol cfg c m e s).client c).context ≠ none := by
    simp [XpuShare.enrol, registeredRecord]
  have hsent := henrolled.sendMessage env c (.status (XpuShare.enrol cfg c m e s).schedulerOn
    e.generatedId ((XpuShare.enrol cfg c m e s).client c).coreLimit)
  unfold XpuShare.registerClient
  rw [h.hasRegistered]
  split
  · exact ⟨rfl, h⟩
  · simp only [henrolled.schedulerOn, henrolled.coreLimit hreg, henrolled.sendSucceeds]
    split
    · exact ⟨rfl, hsent.applyInitialLimit env hreg e.memoryAnnotated⟩
    · exact ⟨rfl, hsent⟩

/-! ## Messages -/

theorem bcastClient (cfg : Config) (env : Env) (fuel : ℕ) (c : ClientId) :
    Follows fun s => bcastClient cfg env fuel s c := by
  intro s s' t h ht
  simp only [XpuShare.bcastClient] at ht ⊢
  simp only [h.clients, h.hasRegistered, h.schedulerOn, h.sendSucceeds]
  split at ht
  · cases ht
  · rename_i hmem
    rw [if_neg hmem]
    split at ht
    · rename_i hnot
      rw [if_pos hnot]
      exact ⟨s', rfl, (Option.some.inj ht) ▸ h⟩
    · rename_i hreg
      rw [if_neg hreg]
      have hsent := h.sendMessage env c (if s.schedulerOn then .schedOn else .schedOff)
      split at ht
      · rename_i hsend
        rw [if_pos hsend]
        exact ⟨_, rfl, (Option.some.inj ht) ▸ hsent⟩
      · rename_i hfail
        rw [if_neg hfail]
        exact deleteClient (trySchedule cfg env fuel) cfg env c _ _ t hsent ht

theorem bcastFrom (cfg : Config) (env : Env) (fuel : ℕ) (linked l : List ClientId) :
    Follows (bcastFrom cfg env fuel linked l) := by
  intro s s' t h ht
  induction l generalizing linked s s' with
  | nil => exact ⟨s', rfl, (Option.some.inj ht) ▸ h⟩
  | cons c l ih =>
      rw [XpuShare.bcastFrom] at ht ⊢
      split at ht
      · rename_i hunlinked
        rw [if_pos hunlinked]
        exact ih linked s s' h ht
      · rename_i hlinked
        rw [if_neg hlinked]
        rw [Option.bind_eq_some_iff] at ht
        obtain ⟨u, hu, hut⟩ := ht
        obtain ⟨u', hu', htwins⟩ := bcastClient cfg env fuel c s s' u h hu
        obtain ⟨t', ht', hend⟩ := ih s.clients u u' htwins hut
        refine ⟨t', ?_, hend⟩
        rw [Option.bind_eq_some_iff, h.clients]
        exact ⟨u', hu', ht'⟩

theorem bcastStatus (cfg : Config) (env : Env) (fuel : ℕ) : Follows (bcastStatus cfg env fuel) := by
  intro s s' t h ht
  unfold XpuShare.bcastStatus at ht ⊢
  rw [h.clients]
  exact bcastFrom cfg env fuel s.clients s.clients s s' t h ht

theorem power (h : Twins s s') (on : Bool) :
    Twins { s with schedulerOn := on } { s' with schedulerOn := on } where
  rest := congrArg (fun u : Sched => { u with schedulerOn := on }) h.rest
  client := h.client
  shown := h.shown

theorem clearRequests (h : Twins s s') : Twins (clearRequests s) (clearRequests s') where
  rest := congrArg XpuShare.clearRequests h.rest
  client := h.client
  shown y c hc := by
    simp only [XpuShare.clearRequests] at hc
    split at hc
    · simp only [GpuContext.entries, List.nil_append, List.mem_append] at hc
      rcases hc with hc | hc
      · exact h.shown y c (mem_entries_of_waitQueue hc)
      · exact h.shown y c (mem_entries_of_running hc)
    · exact h.shown y c hc

theorem setTq (h : Twins s s') (v : ℤ) : Twins (setTq v s) (setTq v s') where
  rest := congrArg (XpuShare.setTq v) h.rest
  client := h.client
  shown y c hc := by
    simp only [XpuShare.setTq] at hc
    split at hc
    · exact h.shown y c hc
    · exact h.shown y c hc

theorem preemptClient (h : Twins s s') (env : Env) (hc : (s.client c).context ≠ none) :
    Twins (preemptClient env s c) (preemptClient env s' c) := by
  have hsent := h.sendMessage env c .dropLock
  unfold XpuShare.preemptClient
  simp only [h.sendSucceeds, hsent.currentTimeMs]
  split
  · refine hsent.tick.modifyRegistered hc ?_ ?_
    · exact fun _ => rfl
    · exact fun r memory running limit => ⟨memory, running, limit, rfl, fun h => h⟩
  · exact hsent

theorem forcePreemption (h : Twins s s') (env : Env) (x : CtxId) :
    Twins (forcePreemption env x s) (forcePreemption env x s') := by
  unfold XpuShare.forcePreemption
  rw [h.ctx]
  refine h.foldl (fun u c => ?_) fun u u' c hu hsame hc => ?_
  · unfold XpuShare.preemptClient
    simp only
    split <;> rfl
  · refine hu.preemptClient env (hu.shown x c ?_).1
    rw [hsame]
    exact mem_entries_of_running hc

/-- MEM_UPDATE, if the two runs agree whether the client runs and, if it does, on what it has
reported before. -/
theorem memUpdate (h : Twins s s') (cfg : Config) (env : Env) (v : ℕ)
    (hread : (s.client c).context ≠ none →
      (s'.client c).isRunning = (s.client c).isRunning ∧
        ((s.client c).isRunning = true →
          (s'.client c).memoryAllocated = (s.client c).memoryAllocated)) :
    Twins (memUpdate cfg env c v s) (memUpdate cfg env c v s') := by
  unfold XpuShare.memUpdate
  rw [h.context, h.hasRegistered]
  split
  · exact h
  · rename_i x hctx
    have hreg : (s.client c).context ≠ none := by simp [hctx]
    obtain ⟨hruns, hmemory⟩ := hread hreg
    have hstored : Twins (storeMemory c v s) (storeMemory c v s') := by
      refine h.modifyRegistered hreg ?_ ?_
      · exact fun _ => rfl
      · exact fun r _ running limit => ⟨v, running, limit, rfl, fun _ => rfl⟩
    split
    · exact h
    · simp only [hruns]
      split
      · rename_i hrunning
        have hcounted :
            Twins (accountMemory cfg x (s.client c).memoryAllocated v (storeMemory c v s))
              (accountMemory cfg x (s.client c).memoryAllocated v (storeMemory c v s')) :=
          hstored.modifyCtx_same x fun _ => rfl
        rw [hmemory hrunning, h.ctx, hcounted.ctx]
        split
        · exact hcounted.forcePreemption env x
        · exact hcounted
      · exact hstored

theorem scheduleIfFree (cfg : Config) (env : Env) (fuel : ℕ) (x : CtxId) :
    Follows (scheduleIfFree cfg env fuel x) := by
  intro s s' t h ht
  unfold XpuShare.scheduleIfFree at ht ⊢
  rw [h.ctx]
  split at ht
  · rename_i hheld
    rw [if_pos hheld]
    exact ⟨s', rfl, (Option.some.inj ht) ▸ h⟩
  · rename_i hfree
    rw [if_neg hfree]
    exact trySchedule cfg env fuel x s s' t h ht

theorem lockReleased (cfg : Config) (env : Env) (fuel : ℕ) (c : ClientId) :
    Follows (lockReleased cfg env fuel c) := by
  intro s s' t h ht
  unfold XpuShare.lockReleased at ht ⊢
  rw [h.context]
  split at ht
  · exact deleteClient (trySchedule cfg env fuel) cfg env c s s' t h ht
  · rename_i x hctx
    rw [Option.bind_eq_some_iff] at ht
    obtain ⟨u, hu, hut⟩ := ht
    obtain ⟨u', hu', htwins⟩ := removeReq (trySchedule cfg env fuel) cfg env c s s' u h hu
    obtain ⟨t', ht', hend⟩ := scheduleIfFree cfg env fuel x u u' t htwins hut
    exact ⟨t', by rw [hu', Option.bind_some, ht'], hend⟩

theorem disconnect (cfg : Config) (env : Env) (fuel : ℕ) (c : ClientId) :
    Follows (disconnect cfg env fuel c) := by
  intro s s' t h ht
  unfold XpuShare.disconnect at ht ⊢
  rw [Option.bind_eq_some_iff] at ht
  obtain ⟨u, hu, hut⟩ := ht
  obtain ⟨u', hu', htwins⟩ := deleteClient (trySchedule cfg env fuel) cfg env c s s' u h hu
  rw [hu', Option.bind_some, h.context, htwins.schedulerOn]
  split at hut
  · exact ⟨u', rfl, (Option.some.inj hut) ▸ htwins⟩
  · rename_i x hctx
    split at hut
    · rename_i hon
      rw [if_pos hon]
      exact scheduleIfFree cfg env fuel x u u' t htwins hut
    · rename_i hoff
      rw [if_neg hoff]
      exact ⟨u', rfl, (Option.some.inj hut) ▸ htwins⟩

theorem reqLock (h : Twins s s') (hmemory : (s.client c).context ≠ none →
    (s'.client c).memoryAllocated = (s.client c).memoryAllocated) {fuel : ℕ}
    (ht : reqLock cfg env fuel c s = some t) :
    ∃ t', XpuShare.reqLock cfg env fuel c s' = some t' ∧ Twins t t' := by
  have hqueued := h.insertReq hmemory
  unfold XpuShare.reqLock at ht ⊢
  rw [h.context]
  split at ht
  · exact deleteClient (trySchedule cfg env fuel) cfg env c s s' t h ht
  · rename_i x hctx
    dsimp only at ht ⊢
    rw [hqueued.ctx]
    split at ht
    · rename_i hheld
      rw [if_pos hheld]
      exact ⟨_, rfl, (Option.some.inj ht) ▸ hqueued⟩
    · rename_i hfree
      rw [if_neg hfree]
      exact trySchedule cfg env fuel x _ _ t hqueued ht

/-! ## Timers -/

theorem currentUsage (h : Twins s s') (hc : (s.client c).context ≠ none) (count now : ℤ) :
    currentUsage s' count now c = currentUsage s count now c := by
  obtain ⟨_, _, _, heq⟩ := h.record hc
  rw [XpuShare.currentUsage, XpuShare.currentUsage, heq]

theorem minSleepMs (h : Twins s s') (cfg : Config) (x : CtxId) (now : ℤ) :
    minSleepMs cfg s' x now = minSleepMs cfg s x now := by
  have hreg : ∀ c ∈ (s.ctx x).runningList, (s.client c).context ≠ none :=
    fun c hc => (h.shown x c (mem_entries_of_running hc)).1
  have hsleep : ∀ init, (s.ctx x).runningList.foldl (sleepForClient cfg s' x now) init =
      (s.ctx x).runningList.foldl (sleepForClient cfg s x now) init := by
    intro init
    apply List.foldl_ext
    intro sleep c hc
    simp only [sleepForClient_eq, h.coreLimit (hreg c hc), h.countRunningClients,
      h.getEffectiveQuotaMs cfg x (hreg c hc), h.currentUsage (hreg c hc)]
  have hany : ((s.ctx x).runningList.any fun c => (s'.client c).coreLimit < 100) =
      (s.ctx x).runningList.any fun c => (s.client c).coreLimit < 100 := by
    rw [Bool.eq_iff_iff, List.any_eq_true, List.any_eq_true]
    refine exists_congr fun c => and_congr_right fun hc => ?_
    rw [h.coreLimit (hreg c hc)]
  simp only [minSleepMs_eq, h.ctx, hsleep, hany]

theorem timerSleep (h : Twins s s') (cfg : Config) (env : Env) (x : CtxId) :
    Twins (timerSleep cfg env x s) (timerSleep cfg env x s') := by
  unfold XpuShare.timerSleep
  rw [h.currentTimeMs, h.minSleepMs]
  exact h.tick.modifyCtx_same x fun _ => rfl

theorem timerBegin (cfg : Config) (env : Env) (fuel : ℕ) (x : CtxId) :
    Follows (timerBegin cfg env fuel x) := by
  intro s s' t h ht
  obtain ⟨hsame, hchecked⟩ := h.checkAndResetWindow cfg env x
  simp only [XpuShare.timerBegin, Option.map_eq_some_iff] at ht ⊢
  obtain ⟨u, hu, rfl⟩ := ht
  rw [hsame]
  split at hu
  · rename_i hreset
    obtain ⟨u', hu', htwins⟩ := trySchedule cfg env fuel x _ _ u hchecked hu
    exact ⟨_, ⟨u', by rw [if_pos hreset, hu'], rfl⟩, htwins.timerSleep cfg env x⟩
  · rename_i hkept
    rw [← Option.some.inj hu]
    exact ⟨_, ⟨_, by rw [if_neg hkept], rfl⟩, hchecked.timerSleep cfg env x⟩

theorem throttleClient (h : Twins s s') (cfg : Config) (env : Env)
    (hc : (s.client c).context ≠ none) (x : CtxId) (count now : ℤ) :
    Twins (throttleClient cfg env x count now s c) (throttleClient cfg env x count now s' c) := by
  obtain ⟨_, _, _, heq⟩ := h.record hc
  unfold XpuShare.throttleClient
  simp only [h.getEffectiveQuotaMs cfg x hc, h.currentUsage hc, heq]
  split
  · refine (h.modifyRegistered hc ?_ ?_).sendMessage env c .dropLock
    · exact fun _ => rfl
    · exact fun r memory running limit => ⟨memory, running, limit, rfl, fun h => h⟩
  · exact h

theorem rotateClient (h : Twins s s') (env : Env) (hc : (s.client c).context ≠ none)
    (count now : ℤ) : Twins (rotateClient env count now s c) (rotateClient env count now s' c) := by
  obtain ⟨_, _, _, heq⟩ := h.record hc
  unfold XpuShare.rotateClient
  simp only [heq]
  split
  · refine (h.modifyRegistered hc ?_ ?_).sendMessage env c .dropLock
    · exact fun _ => rfl
    · exact fun r memory running limit => ⟨memory, running, limit, rfl, fun h => h⟩
  · exact h

theorem enforceLimits (h : Twins s s') (cfg : Config) (env : Env) (x : CtxId) :
    Twins (enforceLimits cfg env x s) (enforceLimits cfg env x s') := by
  unfold XpuShare.enforceLimits
  rw [h.ctx, h.countRunningClients, h.currentTimeMs]
  refine h.tick.foldl (fun u c => ?_) fun u u' c hu hsame hc => ?_
  · unfold XpuShare.throttleClient
    simp only
    split <;> rfl
  · refine hu.throttleClient cfg env (hu.shown x c ?_).1 x _ _
    rw [hsame]
    exact mem_entries_of_running hc

theorem rotateRunning (h : Twins s s') (env : Env) (x : CtxId) :
    Twins (rotateRunning env x s) (rotateRunning env x s') := by
  unfold XpuShare.rotateRunning
  rw [h.ctx, h.countRunningClients, h.currentTimeMs]
  refine h.tick.foldl (fun u c => ?_) fun u u' c hu hsame hc => ?_
  · unfold XpuShare.rotateClient
    simp only
    split <;> rfl
  · refine hu.rotateClient env (hu.shown x c ?_).1 _ _
    rw [hsame]
    exact mem_entries_of_running hc

theorem timerEnd (h : Twins s s') (cfg : Config) (env : Env) (x : CtxId) (timedOut : Bool) :
    Twins (timerEnd cfg env x timedOut s) (timerEnd cfg env x timedOut s') := by
  have henforced := h.enforceLimits cfg env x
  unfold XpuShare.timerEnd
  simp only [henforced.ctx]
  split
  · exact (henforced.rotateRunning env x).modifyCtx_same x fun _ => rfl
  · exact henforced.modifyCtx_same x fun _ => rfl

/-! ## Annotations -/

theorem updateMemoryLimit (h : Twins s s') (env : Env) {memory : Option ℕ}
    (hread : ∀ n ∈ memory, 0 < n →
      (n = (s'.client c).memoryLimit ↔ n = (s.client c).memoryLimit)) :
    Twins (updateMemoryLimit env c memory s) (updateMemoryLimit env c memory s') := by
  unfold XpuShare.updateMemoryLimit
  cases memory with
  | none => exact h
  | some n =>
      have hsame : (0 < n ∧ n ≠ (s'.client c).memoryLimit) ↔
          (0 < n ∧ n ≠ (s.client c).memoryLimit) :=
        and_congr_right fun hn => not_congr (hread n rfl hn)
      have hlimit : ∀ r : Client, Client.written { r with memoryLimit := n } = r.written := by
        intro r
        cases hctx : r.context <;> simp only [Client.written, hctx]
      simp only [hsame]
      split
      · refine (h.modifyClient ?_ (fun hc => hc) fun hm => hm).sendMessage env c (.updateLimit n)
        rw [hlimit, hlimit, h.client]
      · exact h

theorem updateCoreLimit (h : Twins s s') (env : Env) {core : Option ℤ}
    (hread : annotatedCoreLimit core = (s'.client c).coreLimit ↔
      annotatedCoreLimit core = (s.client c).coreLimit) :
    Twins (updateCoreLimit env c core s) (updateCoreLimit env c core s') := by
  unfold XpuShare.updateCoreLimit
  simp only [ne_eq, hread]
  split
  · refine (h.modifyClient ?_ (fun hc => hc) fun hm => hm).sendMessage env c _
    by_cases hc : (s.client c).context = none
    · have hc' : (s'.client c).context = none := by rw [h.context, hc]
      simp only [Client.written, hc, hc', h.id]
    · obtain ⟨_, _, _, heq⟩ := h.record hc
      obtain ⟨x, hx⟩ := Option.ne_none_iff_exists'.mp hc
      rw [heq]
      simp only [Client.written, hx]
  · exact h

end Twins

/-! ## What is read -/

/-- The two runs agree on what the handler of an event reads of the fields that registration
leaves alone, and of the records of clients that have not registered. -/
def ReadsAgree (s s' : Sched) : Event → Prop
  | .message c .reqLock => s.schedulerOn = true → (s.client c).context ≠ none →
      (s'.client c).memoryAllocated = (s.client c).memoryAllocated
  | .message c (.memUpdate _) => (s.client c).context ≠ none →
      (s'.client c).isRunning = (s.client c).isRunning ∧
        ((s.client c).isRunning = true →
          (s'.client c).memoryAllocated = (s.client c).memoryAllocated)
  | .annotated id memory core => ∀ c ∈ s.clients.find? fun c => (s.client c).id = id,
      (∀ n ∈ memory, 0 < n →
        (n = (s'.client c).memoryLimit ↔ n = (s.client c).memoryLimit)) ∧
      (annotatedCoreLimit core = (s'.client c).coreLimit ↔
        annotatedCoreLimit core = (s.client c).coreLimit)
  | _ => True

instance (s s' : Sched) : DecidablePred (ReadsAgree s s')
  | .message c .reqLock =>
      inferInstanceAs (Decidable (s.schedulerOn = true → (s.client c).context ≠ none → _))
  | .message c (.memUpdate _) => inferInstanceAs (Decidable ((s.client c).context ≠ none → _))
  | .annotated id _ _ =>
      inferInstanceAs (Decidable (∀ c ∈ s.clients.find? fun c => (s.client c).id = id, _))
  | .accept _ | .message _ (.register _ _) | .message _ .schedOn | .message _ .schedOff
  | .message _ (.setTq _) | .message _ .lockReleased | .message _ .unknown | .disconnect _
  | .timerBegin _ | .timerEnd _ _ => inferInstanceAs (Decidable True)

namespace Twins

theorem annotationUpdate (h : Twins s s') (env : Env) {id : ℕ} {memory : Option ℕ}
    {core : Option ℤ} (hread : ReadsAgree s s' (.annotated id memory core)) :
    Twins (annotationUpdate env id memory core s) (annotationUpdate env id memory core s') := by
  unfold XpuShare.annotationUpdate
  simp only [h.clients, h.id]
  split
  · rename_i c hfind
    obtain ⟨hmemory, hcore⟩ := hread c hfind
    have hkept : ∀ u : Sched, ((XpuShare.updateMemoryLimit env c memory u).client c).coreLimit =
        (u.client c).coreLimit := by
      intro u
      unfold XpuShare.updateMemoryLimit
      split
      · split
        · simp
        · rfl
      · rfl
    refine (h.updateMemoryLimit env hmemory).updateCoreLimit env ?_
    rw [hkept, hkept]
    exact hcore
  · exact h

theorem processMsg (h : Twins s s') {fuel : ℕ} {m : FromClient}
    (hread : ReadsAgree s s' (.message c m)) (ht : processMsg cfg env fuel c m s = some t) :
    ∃ t', XpuShare.processMsg cfg env fuel c m s' = some t' ∧ Twins t t' := by
  have hdelete := deleteClient (trySchedule cfg env fuel) cfg env c
  cases m with
  | register m e =>
      obtain ⟨hsame, hregistered⟩ := h.registerClient cfg env c m e
      simp only [XpuShare.processMsg, hsame] at ht ⊢
      split at ht
      · rename_i hok
        rw [if_pos hok]
        exact ⟨_, rfl, (Option.some.inj ht) ▸ hregistered⟩
      · rename_i hfail
        rw [if_neg hfail]
        exact hdelete _ _ t hregistered ht
  | schedOn =>
      simp only [XpuShare.processMsg, h.schedulerOn] at ht ⊢
      split at ht
      · rename_i hon
        rw [if_pos hon]
        exact ⟨s', rfl, (Option.some.inj ht) ▸ h⟩
      · rename_i hoff
        rw [if_neg hoff]
        exact bcastStatus cfg env fuel _ _ t (h.power true) ht
  | schedOff =>
      simp only [XpuShare.processMsg, h.schedulerOn] at ht ⊢
      split at ht
      · rename_i hon
        rw [Option.map_eq_some_iff] at ht
        obtain ⟨u, hu, rfl⟩ := ht
        obtain ⟨u', hu', htwins⟩ := bcastStatus cfg env fuel _ _ u (h.power false) hu
        exact ⟨_, by rw [if_pos hon, hu', Option.map_some], htwins.clearRequests⟩
      · rename_i hoff
        rw [if_neg hoff]
        exact ⟨s', rfl, (Option.some.inj ht) ▸ h⟩
  | setTq v =>
      cases v with
      | none => exact ⟨s', rfl, (Option.some.inj ht) ▸ h⟩
      | some v => exact ⟨_, rfl, (Option.some.inj ht) ▸ h.setTq v⟩
  | reqLock =>
      simp only [XpuShare.processMsg, h.hasRegistered, h.schedulerOn] at ht ⊢
      split at ht
      · rename_i hnot
        rw [if_pos hnot]
        exact hdelete s s' t h ht
      · rename_i hreg
        rw [if_neg hreg]
        split at ht
        · rename_i hon
          rw [if_pos hon]
          exact h.reqLock (hread hon) ht
        · rename_i hoff
          rw [if_neg hoff]
          exact ⟨s', rfl, (Option.some.inj ht) ▸ h⟩
  | lockReleased =>
      simp only [XpuShare.processMsg, h.hasRegistered, h.schedulerOn] at ht ⊢
      split at ht
      · rename_i hnot
        rw [if_pos hnot]
        exact hdelete s s' t h ht
      · rename_i hreg
        rw [if_neg hreg]
        split at ht
        · rename_i hon
          rw [if_pos hon]
          exact lockReleased cfg env fuel c s s' t h ht
        · rename_i hoff
          rw [if_neg hoff]
          exact ⟨s', rfl, (Option.some.inj ht) ▸ h⟩
  | memUpdate v => exact ⟨_, rfl, (Option.some.inj ht) ▸ h.memUpdate cfg env v hread⟩
  | unknown => exact ⟨s', rfl, (Option.some.inj ht) ▸ h⟩

end Twins

end XpuShare
