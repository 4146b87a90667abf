import XpuShare.Verification.Queues.Termination

/-! # The handlers return

While every send succeeds and nobody asks for the lock while waiting or running, every call
of `try_schedule` returns and so does every handler. A client that asks again while it
waits makes the loop run forever. -/

namespace XpuShare

variable {cfg : Config} {env : Env} {x : CtxId} {s t : Sched} {c : ClientId}

/-- The states reached when nobody asks for the lock while waiting or running. -/
structure Sound (s : Sched) : Prop where
  wellFormed : WellFormed s
  linked : Linked s
  solvent : ∀ c, Solvent s c
  single : SingleEntries s

theorem sound_of_reaches
    (h : Transition.Reaches (Transition.guarded (Step cfg env) FreshRequest) Sched.init s) :
    Sound s where
  wellFormed := wellFormed_of_reaches (h.mono fun _ _ _ hstep => hstep.2)
  linked := linked_of_reaches h
  solvent := solvent_of_reaches h
  single := singleEntries_of_reaches h

theorem Sound.ready (h : Sound s) (x : CtxId) : Ready x s :=
  ready_of_invariants h.wellFormed h.linked h.solvent (h.single x)

/-! ## Scheduling calls, when every send succeeds -/

theorem trySchedule_returns_of_allSent (cfg : Config) (hsent : env.AllSent) (hr : Ready x s) :
    ∃ n t, trySchedule cfg env n x s = some t ∧ Ready x t ∧ t.clients = s.clients := by
  have hfirst : FirstGrantDelivered cfg env x s := firstGrantDelivered_of_allSent hsent x s
  obtain ⟨n, t, new, ht, hrt, -⟩ := trySchedule_returns hr (Or.inr hfirst)
  exact ⟨n, t, ht, hrt, (trySchedule_sent hsent hr.belongs ht).clients_eq⟩

theorem scheduleIfFree_returns (cfg : Config) (hsent : env.AllSent) (hr : Ready x s) :
    ∃ n t, scheduleIfFree cfg env n x s = some t := by
  unfold scheduleIfFree
  split
  · exact ⟨0, s, rfl⟩
  · obtain ⟨n, t, ht, -⟩ := trySchedule_returns_of_allSent cfg hsent hr
    exact ⟨n, t, ht⟩

theorem removeReq_returns (cfg : Config) (hsent : env.AllSent) (hr : Ready x s)
    (hctx : (s.client c).context = some x) :
    ∃ n t, removeReq cfg env (trySchedule cfg env n) c s = some t ∧ Ready x t ∧
      t.clients = s.clients := by
  have hleave : Block cfg env anyone x s (leaveRunning cfg env x c s) := .leave s c trivial
  have hleft := hr.block hleave
  have hclients : (leaveRunning cfg env x c s).clients = s.clients := by
    by_cases hc : c ∈ (s.ctx x).runningList
    · exact (leaveRunning_effect cfg env hc).clients_eq
    · rw [leaveRunning_of_notMem cfg env hc, (clearLock_effect x s).clients_eq]
  have hdrop : ∀ u, Ready x u → Ready x (dropPending x c u) := by
    intro u hu
    have hblock : Block cfg env anyone x u (dropPending x c u) := .withdraw u c trivial
    exact hu.block hblock
  simp only [removeReq, hctx]
  by_cases hempty : ((leaveRunning cfg env x c s).ctx x).runningList = []
  · have hcheck : Path cfg env nobody x (leaveRunning cfg env x c s)
        (checkWaitQueue cfg env x (leaveRunning cfg env x c s)) := checkWaitQueue_path _
    have hready := hcheck.invariant (I := Ready x) (fun _ _ hb hu => hu.block hb) hleft
    obtain ⟨n, t, ht, hrt, hclients'⟩ :=
      trySchedule_returns_of_allSent cfg hsent hready
    refine ⟨n, dropPending x c t, ?_, hdrop t hrt, ?_⟩
    · rw [if_pos hempty, ht, Option.map_some]
    · rw [← hclients, ← hcheck.clients_eq, ← hclients']
      rfl
  · refine ⟨0, _, if_neg hempty, hdrop _ hleft, ?_⟩
    rw [← hclients]
    rfl

theorem deleteClient_returns (cfg : Config) (hsent : env.AllSent) (hs : Sound s)
    (hmem : c ∈ s.clients) :
    ∃ n t, deleteClient cfg env (trySchedule cfg env n) c s = some t ∧
      ∀ y, (s.client c).context = some y → Ready y t := by
  cases hctx : (s.client c).context with
  | none =>
      refine ⟨0, { s with clients := s.clients.filter (· ≠ c) }, ?_, fun y hy => by cases hy⟩
      simp [deleteClient, removeReq, hctx, unlinkClient, hmem]
  | some x =>
      obtain ⟨n, u, hu, hru, hclients⟩ :=
        removeReq_returns cfg hsent (hs.ready x) hctx
      have hmem' : c ∈ u.clients := hclients ▸ hmem
      have hsched : ∀ v w, Belongs x v → trySchedule cfg env n x v = some w →
          Path cfg env anyone x v w :=
        fun v w hv hvw => trySchedule_path (fun _ _ _ => ⟨trivial, trivial⟩) hv hvw
      obtain ⟨hpath, hgone⟩ := removeReq_path hctx (D := anyone) trivial hsched
        (hs.wellFormed.belongs x) hu
      have hctx' : (u.client c).context = some x := by
        rw [context_of_static (hpath.frame.static c), hctx]
      have hunlink : Block cfg env anyone x u
          { u with clients := u.clients.filter (· ≠ c) } := .unlink u c trivial hctx' hgone
      refine ⟨n, { u with clients := u.clients.filter (· ≠ c) }, ?_, ?_⟩
      · simp [deleteClient, hu, unlinkClient, hmem']
      · intro y hy
        rw [← Option.some.inj hy]
        exact hru.block hunlink

theorem bcastStatus_returns (cfg : Config) (hsent : env.AllSent) (fuel : ℕ) (s : Sched) :
    ∃ t, bcastStatus cfg env fuel s = some t := by
  have hloop : ∀ (l linked : List ClientId) (u : Sched), l ⊆ u.clients →
      ∃ t, bcastFrom cfg env fuel linked l u = some t := by
    intro l
    induction l with
    | nil => exact fun _ u _ => ⟨u, rfl⟩
    | cons c l ih =>
        intro linked u hl
        have hmem : c ∈ u.clients := hl List.mem_cons_self
        have hrest : l ⊆ u.clients := fun d hd => hl (List.mem_cons_of_mem c hd)
        have hone : ∃ v, bcastClient cfg env fuel u c = some v ∧ v.clients = u.clients := by
          have hok : ∀ v : Sched, sendSucceeds env c v = true := fun v => hsent _ c
          simp only [bcastClient, hmem, not_true_eq_false, if_false, hok, if_true]
          split
          · exact ⟨u, rfl, rfl⟩
          · exact ⟨_, rfl, rfl⟩
        obtain ⟨v, hv, hclients⟩ := hone
        rw [bcastFrom]
        split
        · exact ih linked u hrest
        · rw [hv, Option.bind_some]
          exact ih u.clients v (hclients ▸ hrest)
  exact hloop s.clients s.clients s (List.Subset.refl _)

/-! ## Handlers -/

theorem reqLock_returns (cfg : Config) (hsent : env.AllSent) (hs : Sound s) (hmem : c ∈ s.clients)
    (hon : s.schedulerOn = true) (hfresh : FreshRequest s (.message c .reqLock)) :
    ∃ n t, reqLock cfg env n c s = some t := by
  cases hctx : (s.client c).context with
  | none =>
      obtain ⟨n, t, ht, -⟩ := deleteClient_returns cfg hsent hs hmem
      exact ⟨n, t, by simp only [reqLock, hctx, ht]⟩
  | some x =>
      have hready : Ready x (insertReq c s) := by
        unfold insertReq
        rw [hctx]
        simp only
        split
        · exact hs.ready x
        · rename_i hreq
          have haction : Action cfg env (fun _ => True) FreshRequest s
              (s.modifyCtx x fun g => { g with requests := g.requests ++ [c] }) :=
            .insert c x hfresh hmem hon hctx hreq
          exact ready_of_invariants (haction.wellFormed hs.wellFormed)
            (haction.linked hs.wellFormed hs.linked) (haction.solvent hs.solvent)
            (haction.singleEntries hs.single x)
      obtain ⟨n, t, ht, -⟩ := trySchedule_returns_of_allSent cfg hsent hready
      simp only [reqLock, hctx]
      by_cases hserial : cfg.schedulingMode = .serial ∧ ((insertReq c s).ctx x).lockHeld = true
      · exact ⟨0, _, if_pos hserial⟩
      · exact ⟨n, t, by rw [if_neg hserial, ht]⟩

theorem lockReleased_returns (cfg : Config) (hsent : env.AllSent) (hs : Sound s)
    (hmem : c ∈ s.clients) :
    ∃ n t, lockReleased cfg env n c s = some t := by
  cases hctx : (s.client c).context with
  | none =>
      obtain ⟨n, t, ht, -⟩ := deleteClient_returns cfg hsent hs hmem
      exact ⟨n, t, by simp only [lockReleased, hctx, ht]⟩
  | some x =>
      obtain ⟨n, u, hu, hru, -⟩ := removeReq_returns cfg hsent (hs.ready x) hctx
      obtain ⟨m, t, ht⟩ := scheduleIfFree_returns cfg hsent hru
      refine ⟨max n m, t, ?_⟩
      have hu' := removeReq_mono (fun _ _ _ => trySchedule_mono (le_max_left n m)) hu
      simp only [lockReleased, hctx, hu', Option.bind_some]
      exact scheduleIfFree_mono (le_max_right n m) ht

theorem disconnect_returns (hsent : env.AllSent) (hs : Sound s) (hmem : c ∈ s.clients) :
    ∃ n t, disconnect cfg env n c s = some t := by
  obtain ⟨n, u, hu, hru⟩ := deleteClient_returns cfg hsent hs hmem
  cases hctx : (s.client c).context with
  | none => exact ⟨n, u, by simp [disconnect, hu, hctx]⟩
  | some x =>
      obtain ⟨m, t, ht⟩ := scheduleIfFree_returns cfg hsent (hru x hctx)
      have hu' := deleteClient_mono (fun _ _ _ => trySchedule_mono (le_max_left n m)) hu
      simp only [disconnect, hctx]
      by_cases hon : u.schedulerOn = true
      · refine ⟨max n m, t, ?_⟩
        simp only [hu', Option.bind_some, hon, if_true]
        exact scheduleIfFree_mono (le_max_right n m) ht
      · exact ⟨n, u, by simp [hu, hon]⟩

theorem timerBegin_returns (hsent : env.AllSent) (hs : Sound s) (x : CtxId) :
    ∃ n t, timerBegin cfg env n x s = some t := by
  have hwindow : Block cfg env anyone x s (freshWindow cfg env x s) := .window s
  obtain ⟨n, t, ht, -⟩ :=
    trySchedule_returns_of_allSent cfg hsent ((hs.ready x).block hwindow)
  refine ⟨n, ?_⟩
  simp only [timerBegin, checkAndResetWindow_snd]
  split
  · exact ⟨_, by rw [ht, Option.map_some]⟩
  · exact ⟨_, rfl⟩

theorem processMsg_returns (hsent : env.AllSent) (hs : Sound s) {m : FromClient}
    (hmem : c ∈ s.clients) (hfresh : FreshRequest s (.message c m)) :
    ∃ n t, processMsg cfg env n c m s = some t := by
  have hdelete := deleteClient_returns cfg hsent hs hmem
  obtain ⟨n, t, ht, -⟩ := hdelete
  cases m with
  | register m e =>
      by_cases hreg : hasRegistered s c = true
      · refine ⟨n, t, ?_⟩
        simp only [processMsg, registerClient, hreg, if_true, Bool.false_eq_true, if_false, ht]
      · have hok : ∀ v : Sched, sendSucceeds env c v = true := fun v => hsent _ c
        refine ⟨0, ?_⟩
        simp only [processMsg, registerClient, hreg, Bool.false_eq_true, if_false, hok, if_true]
        exact ⟨_, rfl⟩
  | schedOn =>
      simp only [processMsg]
      split
      · exact ⟨0, s, rfl⟩
      · exact ⟨0, bcastStatus_returns cfg hsent 0 _⟩
  | schedOff =>
      simp only [processMsg]
      split
      · obtain ⟨u, hu⟩ :=
          bcastStatus_returns cfg hsent 0 { s with schedulerOn := false }
        exact ⟨0, clearRequests u, by rw [hu, Option.map_some]⟩
      · exact ⟨0, s, rfl⟩
  | setTq v => cases v with
    | none => exact ⟨0, s, rfl⟩
    | some v => exact ⟨0, setTq v s, rfl⟩
  | reqLock =>
      by_cases hreg : hasRegistered s c = true
      · by_cases hon : s.schedulerOn = true
        · obtain ⟨n, t, ht⟩ := reqLock_returns cfg hsent hs hmem hon hfresh
          exact ⟨n, t, by simp [processMsg, hreg, hon, ht]⟩
        · exact ⟨0, s, by simp [processMsg, hreg, hon]⟩
      · exact ⟨n, t, by simp [processMsg, hreg, ht]⟩
  | lockReleased =>
      by_cases hreg : hasRegistered s c = true
      · by_cases hon : s.schedulerOn = true
        · obtain ⟨n, t, ht⟩ := lockReleased_returns cfg hsent hs hmem
          exact ⟨n, t, by simp [processMsg, hreg, hon, ht]⟩
        · exact ⟨0, s, by simp [processMsg, hreg, hon]⟩
      · exact ⟨n, t, by simp [processMsg, hreg, ht]⟩
  | memUpdate v => exact ⟨0, memUpdate cfg env c v s, rfl⟩
  | unknown => exact ⟨0, s, rfl⟩

theorem handle_returns (cfg : Config) (hsent : env.AllSent) (hs : Sound s) {e : Event}
    (henabled : e.enabled s = true) (hfresh : FreshRequest s e) :
    ∃ n t, handle cfg env n e s = some t := by
  cases e with
  | accept garbage => exact ⟨0, _, rfl⟩
  | message c m =>
      have hmem : c ∈ s.clients := Event.connected_of_enabled henabled rfl
      exact processMsg_returns hsent hs hmem hfresh
  | disconnect c =>
      exact disconnect_returns hsent hs (Event.connected_of_enabled henabled rfl)
  | timerBegin x => exact timerBegin_returns hsent hs x
  | timerEnd x timedOut => exact ⟨0, _, rfl⟩
  | annotated id memory core => exact ⟨0, _, rfl⟩

/-- While every send succeeds and nobody asks for the lock while waiting or running, every
call of `try_schedule` in a reachable state returns, and so does every handler. -/
theorem scheduling_loop_returns (hsent : env.AllSent)
    (h : Transition.Reaches (Transition.guarded (Step cfg env) FreshRequest) Sched.init s) :
    (∀ x, ∃ fuel t, trySchedule cfg env fuel x s = some t) ∧
      ∀ e, FreshRequest s e → e.enabled s = true → ∃ t, Step cfg env s e t := by
  have hs := sound_of_reaches h
  refine ⟨fun x => ?_, fun e hfresh henabled => ?_⟩
  · obtain ⟨n, t, ht, -⟩ := trySchedule_returns_of_allSent cfg hsent (hs.ready x)
    exact ⟨n, t, ht⟩
  · obtain ⟨n, t, ht⟩ := handle_returns cfg hsent hs henabled hfresh
    exact ⟨t, henabled, n, ht⟩

theorem scheduling_loop_returns_two_requests :
    ∃ s, Transition.Reaches (Transition.guarded (Step {} steady) FreshRequest) Sched.init s ∧
      (s.ctx 0).waitQueue = [1] ∧ ∃ fuel t, trySchedule {} steady fuel 0 s = some t := by
  obtain ⟨s, hs, hwait⟩ := exists_reaches {} steady FreshRequest 9
    [.accept {}, .accept {}, enter 0 1, enter 1 2, .message 0 (.memUpdate 10000000000),
      .message 1 (.memUpdate 10000000000), .message 0 .reqLock, .message 1 .reqLock]
    (fun s => (s.ctx 0).waitQueue = [1]) (by decide +kernel)
  exact ⟨s, hs, hwait, (scheduling_loop_returns steady_allSent hs).1 0⟩

/-! ## A repeated request -/

/-- In serial mode the loop never returns while the lock is held and the first request
belongs to a client that also stands in the wait queue: the request is refused in every
pass and never moved. -/
theorem trySchedule_stuck {rest : List ClientId} (hserial : cfg.schedulingMode = .serial)
    (hreq : (s.ctx x).requests = c :: rest) (hwait : c ∈ (s.ctx x).waitQueue)
    (hheld : (s.ctx x).lockHeld = true) (fuel : ℕ) :
    trySchedule cfg env fuel x s = none := by
  induction fuel generalizing s with
  | zero => rfl
  | succ fuel ih =>
      have hrefill : refill cfg env x s = s := by
        rw [refill, if_neg (by rw [hreq]; exact List.cons_ne_nil c rest)]
      have hno : canRunTest cfg (freshWindow cfg env x s) x c = false := by
        simp [canRunTest, canRunWithMemory, hserial, hheld]
      have hwait' : c ∈ ((freshWindow cfg env x s).ctx x).waitQueue := by
        rwa [freshWindow_waitQueue]
      rw [trySchedule_of_defer hrefill hreq rfl hno, moveToWaitQueue_of_mem env hwait']
      refine ih ?_ hwait' ?_
      · rw [freshWindow_requests, hreq]
      · rw [freshWindow_lockHeld, hheld]

/-- A clock that jumps over one window after its second reading. -/
def leaping : Env where
  clock n := if n < 2 then 1 else 3001
  sendOk _ _ := true

/-- In serial mode a client whose request a window reset has moved to the wait queue asks
again, and the next call of `try_schedule` does not return. -/
theorem repeated_request_never_returns :
    ¬ ∀ (cfg : Config) (env : Env) (s : Sched) (x : CtxId), env.AllSent → Monotone env.clock →
      Transition.Reaches (Step cfg env) Sched.init s →
      ∃ fuel t, trySchedule cfg env fuel x s = some t := by
  intro h
  obtain ⟨s, hs, hreq, hwait, hheld⟩ := exists_reaches { schedulingMode := .serial } leaping
    (fun _ _ => True) 9
    [.accept {}, .accept {}, enter 0 1, enter 1 2, .message 0 .reqLock, .message 1 .reqLock,
      .timerBegin 0, .message 1 .reqLock]
    (fun s => (s.ctx 0).requests = [1] ∧ 1 ∈ (s.ctx 0).waitQueue ∧ (s.ctx 0).lockHeld = true)
    (by decide +kernel)
  have hmono : Monotone leaping.clock := by
    intro n m hle
    simp only [leaping]
    split <;> split <;> omega
  obtain ⟨fuel, t, ht⟩ := h { schedulingMode := .serial } leaping s 0 (fun _ _ => rfl) hmono
    (hs.mono fun _ _ _ hstep => hstep.2)
  rw [trySchedule_stuck rfl hreq hwait hheld fuel] at ht
  cases ht

end XpuShare
