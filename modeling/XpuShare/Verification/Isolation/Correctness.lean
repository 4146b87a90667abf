import XpuShare.Verification.Scheduler.Moves
import XpuShare.Verification.Scheduler.Runs

/-! # Isolation of the contexts

What a client, a timer or an annotation does on one GPU stays on that GPU: other contexts,
the records of their clients and their message streams are left alone, although all
handlers share one client list and call one another. The entries of a context are those of its
own clients, as long as no block is handed out again to which an entry still refers. -/

namespace XpuShare

variable {cfg : Config} {env : Env} {x : CtxId} {s t u : Sched}

/-- `t` differs from `s` only in context `x` and in the clients registered on it, and
messages were sent to these clients only. -/
structure Local (x : CtxId) (s t : Sched) : Prop where
  schedulerOn : t.schedulerOn = s.schedulerOn
  ctx_ne : ∀ y, y ≠ x → t.ctx y = s.ctx y
  context : ∀ d, (t.client d).context = (s.client d).context
  client : ∀ d, (s.client d).context ≠ some x → t.client d = s.client d
  clients : ∀ d ∈ s.clients, (s.client d).context ≠ some x → d ∈ t.clients
  sent : ∃ new, t.out = s.out ++ new ∧ ∀ m ∈ new, (s.client m.dest).context = some x

namespace Local

theorem refl (s : Sched) : Local x s s :=
  ⟨rfl, fun _ _ => rfl, fun _ => rfl, fun _ _ => rfl, fun _ hd _ => hd, [], by simp, by simp⟩

theorem trans (h : Local x s t) (h' : Local x t u) : Local x s u where
  schedulerOn := h'.schedulerOn.trans h.schedulerOn
  ctx_ne y hy := (h'.ctx_ne y hy).trans (h.ctx_ne y hy)
  context d := (h'.context d).trans (h.context d)
  client d hd := by
    have hd' : (t.client d).context ≠ some x := by rwa [h.context]
    rw [h'.client d hd', h.client d hd]
  clients d hd hctx := by
    have hctx' : (t.client d).context ≠ some x := by rwa [h.context]
    exact h'.clients d (h.clients d hd hctx) hctx'
  sent := by
    obtain ⟨new, hnew, hdest⟩ := h.sent
    obtain ⟨new', hnew', hdest'⟩ := h'.sent
    refine ⟨new ++ new', by rw [hnew', hnew, List.append_assoc], ?_⟩
    intro m hm
    rcases List.mem_append.mp hm with hm | hm
    · exact hdest m hm
    · rw [← h.context]
      exact hdest' m hm

theorem tick (s : Sched) : Local x s s.tick :=
  ⟨rfl, fun _ _ => rfl, fun _ => rfl, fun _ _ => rfl, fun _ hd _ => hd, [], by simp, by simp⟩

theorem sendMessage {c : ClientId} (m : ToClient) (hc : (s.client c).context = some x) :
    Local x s (XpuShare.sendMessage env c m s) :=
  ⟨rfl, fun _ _ => rfl, fun _ => rfl, fun _ _ => rfl, fun _ hd _ => hd, _, rfl, by simpa using hc⟩

theorem modifyCtx (f : GpuContext → GpuContext) (s : Sched) : Local x s (s.modifyCtx x f) :=
  ⟨rfl, fun _ hy => Sched.modifyCtx_ctx_ne _ _ _ _ hy, fun _ => rfl, fun _ _ => rfl,
    fun _ hd _ => hd, [], by simp, by simp⟩

theorem modifyClient {c : ClientId} {f : Client → Client}
    (hf : (f (s.client c)).context = (s.client c).context)
    (hc : (s.client c).context = some x) : Local x s (s.modifyClient c f) := by
  refine ⟨rfl, fun _ _ => rfl, fun d => ?_, fun d hd => ?_, fun _ hd _ => hd, [], by simp, by simp⟩
  · rw [Sched.modifyClient_client]
    split
    · rename_i hd
      rw [hf, hd]
    · rfl
  · have hne : d ≠ c := fun he => hd (he ▸ hc)
    exact Sched.modifyClient_client_ne _ _ _ _ hne

/-- A loop over clients of the context. -/
theorem foldl {f : Sched → ClientId → Sched} {l : List ClientId}
    (hf : ∀ u c, (u.client c).context = some x → Local x u (f u c))
    (hl : ∀ c ∈ l, (s.client c).context = some x) : Local x s (l.foldl f s) := by
  refine List.foldlRecOn (motive := fun u => Local x s u) l f (refl s) ?_
  intro u hu c hc
  exact hu.trans (hf u c (by rw [hu.context, hl c hc]))

end Local

/-! ## Blocks -/

theorem Block.local {D : Exits} (h : Block cfg env D x s t) (hb : Belongs x s) :
    Local x s t where
  schedulerOn := h.frame.schedulerOn
  ctx_ne := h.frame.ctx_ne
  context d := context_of_static (h.frame.static d)
  client d hd := h.frame.others d (fun hent => hd (hb d hent)) hd
  clients d hd hctx := h.keeps hd hctx
  sent := by
    obtain ⟨new, hnew, hdest⟩ := h.sent
    exact ⟨new, hnew, fun m hm => hb _ (hdest m hm)⟩

theorem Path.local {D : Exits} (h : Path cfg env D x s t) (hb : Belongs x s) :
    Local x s t := by
  induction h with
  | refl => exact Local.refl s
  | tail hpath hlast ih => exact ih.trans (hlast.local (hb.path hpath))

/-! ## Handlers -/

theorem trySchedule_local {fuel : ℕ} (hb : Belongs x s)
    (h : trySchedule cfg env fuel x s = some t) : Local x s t :=
  (trySchedule_path (D := anyone) (fun _ _ _ => ⟨trivial, trivial⟩) hb h).local hb

theorem removeReq_local {fuel : ℕ} {c : ClientId} (hb : Belongs x s)
    (hctx : (s.client c).context = some x)
    (h : removeReq cfg env (trySchedule cfg env fuel) c s = some t) :
    Local x s t ∧ Belongs x t := by
  have hpath : Path cfg env anyone x s t := (removeReq_path hctx trivial
    (fun u v hu huv => trySchedule_path (fun _ _ _ => ⟨trivial, trivial⟩) hu huv) hb h).1
  exact ⟨hpath.local hb, hb.path hpath⟩

theorem deleteClient_local {fuel : ℕ} {c : ClientId} (hb : Belongs x s)
    (hctx : (s.client c).context = some x)
    (h : deleteClient cfg env (trySchedule cfg env fuel) c s = some t) :
    Local x s t ∧ Belongs x t := by
  have hpath : Path cfg env anyone x s t := deleteClient_path hctx ⟨trivial, trivial⟩
    (fun u v hu huv => trySchedule_path (fun _ _ _ => ⟨trivial, trivial⟩) hu huv) hb h
  exact ⟨hpath.local hb, hb.path hpath⟩

theorem scheduleIfFree_local {fuel : ℕ} (hb : Belongs x s)
    (h : scheduleIfFree cfg env fuel x s = some t) : Local x s t := by
  unfold scheduleIfFree at h
  split at h
  · exact (Option.some.inj h) ▸ Local.refl s
  · exact trySchedule_local hb h

theorem reqLock_local {fuel : ℕ} {c : ClientId} (hb : Belongs x s)
    (hctx : (s.client c).context = some x) (h : reqLock cfg env fuel c s = some t) :
    Local x s t := by
  have hinsert : Local x s (insertReq c s) := by
    by_cases hc : c ∈ (s.ctx x).requests
    · rw [insertReq_of_mem hctx hc]
      exact Local.refl s
    · rw [insertReq_of_notMem hctx hc]
      exact Local.modifyCtx _ s
  simp only [reqLock, hctx] at h
  split at h
  · exact (Option.some.inj h) ▸ hinsert
  · exact hinsert.trans (trySchedule_local (hb.insertReq hctx) h)

theorem lockReleased_local {fuel : ℕ} {c : ClientId} (hb : Belongs x s)
    (hctx : (s.client c).context = some x) (h : lockReleased cfg env fuel c s = some t) :
    Local x s t := by
  simp only [lockReleased, hctx, Option.bind_eq_some_iff] at h
  obtain ⟨u, hu, hut⟩ := h
  obtain ⟨hremove, hb'⟩ := removeReq_local hb hctx hu
  exact hremove.trans (scheduleIfFree_local hb' hut)

theorem disconnect_local {fuel : ℕ} {c : ClientId} (hb : Belongs x s)
    (hctx : (s.client c).context = some x) (h : disconnect cfg env fuel c s = some t) :
    Local x s t := by
  simp only [disconnect, hctx, Option.bind_eq_some_iff] at h
  obtain ⟨u, hu, hut⟩ := h
  obtain ⟨hdelete, hb'⟩ := deleteClient_local hb hctx hu
  split at hut
  · exact hdelete.trans (scheduleIfFree_local hb' hut)
  · exact (Option.some.inj hut) ▸ hdelete

theorem preemptClient_local {c : ClientId} (hctx : (u.client c).context = some x) :
    Local x u (preemptClient env u c) := by
  have hsent : Local x u (sendMessage env c .dropLock u) := Local.sendMessage _ hctx
  unfold preemptClient
  simp only
  split
  · exact (hsent.trans (Local.tick _)).trans (Local.modifyClient rfl hctx)
  · exact hsent

theorem storeMemory_local {c : ClientId} (v : ℕ) (hctx : (s.client c).context = some x) :
    Local x s (storeMemory c v s) :=
  Local.modifyClient rfl hctx

theorem memUpdate_local {c : ClientId} {v : ℕ} (hb : Belongs x s)
    (hctx : (s.client c).context = some x) : Local x s (memUpdate cfg env c v s) := by
  have hstored := storeMemory_local v hctx
  unfold memUpdate
  rw [hctx]
  simp only
  split
  · exact Local.refl s
  · split
    · have hcounted : Local x s (accountMemory cfg x (s.client c).memoryAllocated v
          (storeMemory c v s)) := hstored.trans (Local.modifyCtx _ _)
      split
      · refine hcounted.trans (Local.foldl (fun _ _ => preemptClient_local) ?_)
        intro d hd
        rw [hcounted.context]
        rw [accountMemory, Sched.modifyCtx_ctx_self] at hd
        exact hb d (mem_entries_of_running hd)
      · exact hcounted
    · exact hstored

theorem throttleClient_local {count now : ℤ} {c : ClientId}
    (hctx : (u.client c).context = some x) :
    Local x u (throttleClient cfg env x count now u c) := by
  unfold throttleClient
  simp only
  split
  · refine (Local.modifyClient rfl hctx).trans (Local.sendMessage _ ?_)
    simpa using hctx
  · exact Local.refl u

theorem rotateClient_local {count now : ℤ} {c : ClientId}
    (hctx : (u.client c).context = some x) : Local x u (rotateClient env count now u c) := by
  unfold rotateClient
  simp only
  split
  · refine (Local.modifyClient rfl hctx).trans (Local.sendMessage _ ?_)
    simpa using hctx
  · exact Local.refl u

theorem timerBegin_local {fuel : ℕ} (hb : Belongs x s)
    (h : timerBegin cfg env fuel x s = some t) : Local x s t := by
  have hpath : Path cfg env anyone x s (freshWindow cfg env x s) := (Block.window s).path
  have hsleep : ∀ u, Local x u (timerSleep cfg env x u) :=
    fun u => (Local.tick u).trans (Local.modifyCtx _ _)
  simp only [timerBegin, checkAndResetWindow_snd, Option.map_eq_some_iff] at h
  obtain ⟨u, hu, rfl⟩ := h
  split at hu
  · exact ((hpath.local hb).trans (trySchedule_local (hb.path hpath) hu)).trans (hsleep u)
  · rw [← Option.some.inj hu]
    exact (hpath.local hb).trans (hsleep _)

theorem timerEnd_local (timedOut : Bool) (hb : Belongs x s) :
    Local x s (timerEnd cfg env x timedOut s) := by
  have hrun : ∀ c ∈ (s.ctx x).runningList, (s.client c).context = some x :=
    fun c hc => hb c (mem_entries_of_running hc)
  have henforced : Local x s (enforceLimits cfg env x s) :=
    (Local.tick s).trans (Local.foldl (fun _ _ => throttleClient_local) hrun)
  have hkeeps : ((enforceLimits cfg env x s).ctx x).runningList = (s.ctx x).runningList :=
    (enforceLimits_tuned cfg env x s).runningList x
  generalize hu : enforceLimits cfg env x s = u at henforced hkeeps
  have hrotated : Local x s (rotateRunning env x u) := by
    refine henforced.trans ((Local.tick u).trans (Local.foldl (fun _ _ => rotateClient_local) ?_))
    intro c hc
    rw [Sched.tick_client, henforced.context]
    exact hrun c (hkeeps ▸ hc)
  unfold timerEnd
  rw [hu]
  simp only
  split
  · exact hrotated.trans (Local.modifyCtx _ _)
  · exact henforced.trans (Local.modifyCtx _ _)

theorem annotationUpdate_local {c : ClientId} {memory : Option ℕ} {core : Option ℤ}
    (hwf : WellFormed s) (hmem : c ∈ s.clients) (hctx : (s.client c).context = some x) :
    Local x s (annotationUpdate env (s.client c).id memory core s) := by
  unfold annotationUpdate
  split
  · rename_i d hfind
    have hid : (s.client d).id = (s.client c).id := by simpa using List.find?_some hfind
    have hreg : hasRegistered s c = true := hwf.registered (by simp [hctx])
    have hdc : c = d := hwf.ids c hmem d (List.mem_of_find?_eq_some hfind) hreg hid.symm
    subst hdc
    have hlimit : Local x s (updateMemoryLimit env c memory s) := by
      unfold updateMemoryLimit
      split
      · split
        · refine (Local.modifyClient rfl hctx).trans (Local.sendMessage _ ?_)
          simpa using hctx
        · exact Local.refl s
      · exact Local.refl s
    have hctx' : ((updateMemoryLimit env c memory s).client c).context = some x := by
      rw [hlimit.context, hctx]
    refine hlimit.trans ?_
    unfold updateCoreLimit
    simp only
    split
    · refine (Local.modifyClient rfl hctx').trans (Local.sendMessage _ ?_)
      simpa using hctx'
    · exact Local.refl _
  · exact Local.refl s

/-! ## Steps -/

/-- The events of context `x`: messages of its clients other than the three that concern
the whole scheduler, their disconnects, its timer and the annotations of its clients. -/
def Event.concerns (x : CtxId) (s : Sched) : Event → Prop
  | .accept _ | .message _ .schedOn | .message _ .schedOff | .message _ (.setTq _) => False
  | .message c _ => (s.client c).context = some x
  | .disconnect c => (s.client c).context = some x
  | .timerBegin y => y = x
  | .timerEnd y _ => y = x
  | .annotated id _ _ => ∃ c ∈ s.clients, (s.client c).id = id ∧ (s.client c).context = some x

theorem processMsg_local {fuel : ℕ} {c : ClientId} {m : FromClient} (hwf : WellFormed s)
    (hevent : (Event.message c m).concerns x s)
    (h : processMsg cfg env fuel c m s = some t) : Local x s t := by
  have hb := hwf.belongs x
  have hreg : (s.client c).context = some x → hasRegistered s c = true :=
    fun hctx => hwf.registered (by simp [hctx])
  cases m with
  | register m e =>
      have hctx : (s.client c).context = some x := hevent
      simp only [processMsg, registerClient, hreg hctx, if_true, Bool.false_eq_true,
        if_false] at h
      exact (deleteClient_local hb hctx h).1
  | schedOn => exact hevent.elim
  | schedOff => exact hevent.elim
  | setTq v => exact hevent.elim
  | reqLock =>
      have hctx : (s.client c).context = some x := hevent
      simp only [processMsg, hreg hctx, Bool.not_true, Bool.false_eq_true, if_false] at h
      split at h
      · exact reqLock_local hb hctx h
      · exact (Option.some.inj h) ▸ Local.refl s
  | lockReleased =>
      have hctx : (s.client c).context = some x := hevent
      simp only [processMsg, hreg hctx, Bool.not_true, Bool.false_eq_true, if_false] at h
      split at h
      · exact lockReleased_local hb hctx h
      · exact (Option.some.inj h) ▸ Local.refl s
  | memUpdate v =>
      have hctx : (s.client c).context = some x := hevent
      exact (Option.some.inj h) ▸ memUpdate_local hb hctx
  | unknown => exact (Option.some.inj h) ▸ Local.refl s

theorem Step.local {e : Event} (hwf : WellFormed s) (hevent : e.concerns x s)
    (h : Step cfg env s e t) : Local x s t := by
  have hb := hwf.belongs x
  obtain ⟨henabled, fuel, h⟩ := h
  cases e with
  | accept garbage => exact hevent.elim
  | message c m => exact processMsg_local hwf hevent h
  | disconnect c => exact disconnect_local hb hevent h
  | timerBegin y =>
      have hy : y = x := hevent
      subst hy
      exact timerBegin_local hb h
  | timerEnd y timedOut =>
      have hy : y = x := hevent
      subst hy
      exact (Option.some.inj h) ▸ timerEnd_local timedOut hb
  | annotated id memory core =>
      obtain ⟨c, hmem, rfl, hctx⟩ := hevent
      exact (Option.some.inj h) ▸ annotationUpdate_local hwf hmem hctx

/-! ## Blocks that are handed out again -/

/-- No entry refers to the freed record whose block a new connection gets. -/
def Clean (s : Sched) : ReuseEvent → Prop
  | .reuse c _ => ∀ x < s.nctx, c ∉ (s.ctx x).entries
  | .event _ => True

instance (s : Sched) : DecidablePred (Clean s)
  | .reuse _ _ => inferInstanceAs (Decidable (∀ x < s.nctx, _))
  | .event _ => isTrue trivial

theorem wellFormed_of_reuse
    (hreach : Transition.Reaches (Transition.guarded (ReuseStep cfg env) Clean) Sched.init s) :
    WellFormed s := by
  refine hreach.invariant (I := WellFormed) ?_ WellFormed.init
  rintro s e t ⟨hclean, henabled, fuel, h⟩ hwf
  cases e with
  | event e => exact Step.wellFormed ⟨henabled, fuel, h⟩ hwf
  | reuse c garbage =>
      simp only [ReuseEvent.enabled, Bool.and_eq_true, decide_eq_true_eq] at henabled
      rw [← Option.some.inj h]
      refine hwf.acceptAt garbage le_rfl henabled.1.2 henabled.2 fun x hc => ?_
      exact hclean x (hwf.context_lt c x (hwf.belongs x c hc)) hc

/-- In every run in which no block is handed out again while an entry refers to it, an event of
context `x` whose handler returns, whatever the clock and the sockets do, changes no other
context and no client registered on another context, deletes no such client and sends it
nothing. -/
theorem contexts_isolated
    (hreach : Transition.Reaches (Transition.guarded (ReuseStep cfg env) Clean) Sched.init s)
    {e : Event} (hevent : e.concerns x s) (hstep : Step cfg env s e t) :
    (∀ y, y ≠ x → t.ctx y = s.ctx y) ∧
      ∀ d y, (s.client d).context = some y → y ≠ x →
        t.client d = s.client d ∧ (d ∈ s.clients → d ∈ t.clients) ∧
          ∃ new, t.out = s.out ++ new ∧ ∀ m ∈ new, m.dest ≠ d := by
  have hlocal := hstep.local (wellFormed_of_reuse hreach) hevent
  refine ⟨hlocal.ctx_ne, ?_⟩
  intro d y hd hy
  have hne : (s.client d).context ≠ some x := by
    rw [hd]
    exact fun h => hy (Option.some.inj h)
  refine ⟨hlocal.client d hne, fun hmem => hlocal.clients d hmem hne, ?_⟩
  obtain ⟨new, hnew, hdest⟩ := hlocal.sent
  exact ⟨new, hnew, fun m hm he => hne (he ▸ hdest m hm)⟩

/-- Handling one event, if it is possible and admitted, when blocks are handed out again. -/
def tryReuse (cfg : Config) (env : Env) (ok : Sched → ReuseEvent → Prop)
    [∀ s, DecidablePred (ok s)] (fuel : ℕ) (s : Sched) (e : ReuseEvent) : Option Sched :=
  if ok s e ∧ e.enabled s = true then reuseHandle cfg env fuel e s else none

/-- A list of events leads to a state with a property that can be evaluated. -/
theorem exists_reuse (cfg : Config) (env : Env) (ok : Sched → ReuseEvent → Prop)
    [∀ s, DecidablePred (ok s)] (fuel : ℕ) (events : List ReuseEvent)
    (P : Sched → Prop) [DecidablePred P]
    (h : (Transition.execute (tryReuse cfg env ok fuel) events Sched.init).any (P ·) = true) :
    ∃ s, Transition.Reaches (Transition.guarded (ReuseStep cfg env) ok) Sched.init s ∧ P s := by
  rw [Option.any_eq_true] at h
  obtain ⟨s, hs, hP⟩ := h
  refine ⟨s, Transition.Reaches.of_execute (fun s e t h => ?_) hs, of_decide_eq_true hP⟩
  unfold tryReuse at h
  split at h
  · rename_i hok
    exact ⟨hok.1, hok.2, fuel, h⟩
  · cases h

/-- Two clients run on different GPUs, the second in the block of one that has hung up, and the
first hangs up. -/
theorem contexts_isolated_two_gpus :
    ∃ s t, (s.ctx 0).runningList = [0] ∧ (s.ctx 1).runningList = [1] ∧
      Step {} steady s (.disconnect 0) t ∧ t.ctx 1 = s.ctx 1 ∧ t.client 1 = s.client 1 := by
  obtain ⟨s, hs, ⟨hrun, hrun', hctx, hctx'⟩, hret⟩ := exists_reuse {} steady Clean 9
    [.event (.accept {}), .event (.accept {}), .event (enter 0 1), .event (enter 1 2),
      .event (.message 1 .reqLock), .event (.disconnect 1), .reuse 1 {},
      .event (.message 1 (.register { gpuUuid := "GPU-1" } { generatedId := 3 })),
      .event (.message 0 .reqLock), .event (.message 1 .reqLock)]
    (fun s => ((s.ctx 0).runningList = [0] ∧ (s.ctx 1).runningList = [1] ∧
      (s.client 0).context = some 0 ∧ (s.client 1).context = some 1) ∧
      (Event.disconnect 0).enabled s = true ∧
        (handle {} steady 9 (.disconnect 0) s).isSome = true) (by decide +kernel)
  obtain ⟨t, ht⟩ := Option.isSome_iff_exists.mp hret.2
  have hstep : Step {} steady s (.disconnect 0) t := ⟨hret.1, 9, ht⟩
  obtain ⟨hothers, hclient⟩ := contexts_isolated (x := 0) (e := .disconnect 0) hs hctx hstep
  exact ⟨s, t, hrun, hrun', hstep, hothers 1 (by decide), (hclient 1 1 hctx' (by decide)).1⟩

/-- A clock that shows five seconds. -/
def fiveSeconds : Env where
  clock _ := 5000
  sendOk _ _ := true

/-- A client of one GPU is granted the lock, asks for it again after SCHED_OFF and SCHED_ON, and
hangs up: one of its two entries stays in the running list. Its block serves a client of another
GPU, which the timer of the first GPU throttles. -/
theorem reused_client_throttled :
    ∃ s t, Transition.Reaches (ReuseStep {} fiveSeconds) Sched.init s ∧
      (Event.timerEnd 0 true).concerns 0 s ∧ Step {} fiveSeconds s (.timerEnd 0 true) t ∧
      0 ∈ s.clients ∧ (s.client 0).context = some 1 ∧ t.client 0 ≠ s.client 0 ∧
      ⟨0, .dropLock, true⟩ ∈ t.out.drop s.out.length := by
  obtain ⟨s, hs, henabled, hmem, hctx, hfree, hmarked, htold⟩ := exists_reuse {} fiveSeconds
    (fun _ _ => True) 9
    [.event (.accept {}), .event (enter 0 1), .event (.message 0 .reqLock),
      .event (.accept {}), .event (.message 1 .schedOff), .event (.disconnect 1),
      .event (.accept {}), .event (.message 2 .schedOn), .event (.disconnect 2),
      .event (.message 0 .reqLock), .event (.disconnect 0), .reuse 0 {},
      .event (.message 0 (.register { gpuUuid := "GPU-1" }
        { generatedId := 2, coreAnnotated := some 50 })), .event (.timerBegin 0)]
    (fun s => (Event.timerEnd 0 true).enabled s = true ∧ 0 ∈ s.clients ∧
      (s.client 0).context = some 1 ∧ (s.client 0).isThrottled = false ∧
      ((timerEnd {} fiveSeconds 0 true s).client 0).isThrottled = true ∧
      ⟨0, .dropLock, true⟩ ∈ (timerEnd {} fiveSeconds 0 true s).out.drop s.out.length)
    (by decide +kernel)
  refine ⟨s, timerEnd {} fiveSeconds 0 true s, hs.mono fun _ _ _ h => h.2, rfl,
    ⟨henabled, 0, rfl⟩, hmem, hctx, fun hsame => ?_, htold⟩
  rw [hsame, hfree] at hmarked
  cases hmarked

end XpuShare
