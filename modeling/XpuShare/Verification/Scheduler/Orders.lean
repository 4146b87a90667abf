import XpuShare.Verification.Scheduler.Moves

/-! # What the handlers send

Scheduling, removal and the timer send orders about the lock and nothing else. Status and
limits are sent by the handlers that change them. -/

namespace XpuShare

variable {cfg : Config} {env : Env} {P Q : ToClient → Prop} {s t u : Sched} {c : ClientId}
  {x : CtxId} {fuel : ℕ}

/-- The messages that say who may run. -/
def ToClient.IsOrder : ToClient → Prop
  | .lockOk | .dropLock | .waitForMem | .memAvailable => True
  | _ => False

/-- The messages sent on the way from one state to another all have a property. -/
def Says (P : ToClient → Prop) (s t : Sched) : Prop :=
  ∃ new, t.out = s.out ++ new ∧ ∀ m ∈ new, P m.msg

theorem Says.of_out_eq (h : t.out = s.out) : Says P s t :=
  ⟨[], by rw [h, List.append_nil], by simp⟩

theorem Says.refl (s : Sched) : Says P s s := Says.of_out_eq rfl

theorem Says.trans (h : Says P s t) (h' : Says P t u) : Says P s u := by
  obtain ⟨new, hnew, hP⟩ := h
  obtain ⟨new', hnew', hP'⟩ := h'
  refine ⟨new ++ new', by rw [hnew', hnew, List.append_assoc], ?_⟩
  intro m hm
  rcases List.mem_append.mp hm with hm | hm
  · exact hP m hm
  · exact hP' m hm

theorem Says.mono (hPQ : ∀ m, P m → Q m) (h : Says P s t) : Says Q s t := by
  obtain ⟨new, hnew, hP⟩ := h
  exact ⟨new, hnew, fun m hm => hPQ _ (hP m hm)⟩

theorem Says.one {m : Sent} (h : t.out = s.out ++ [m]) (hP : P m.msg) : Says P s t := by
  refine ⟨[m], h, ?_⟩
  intro n hn
  rw [List.mem_singleton.mp hn]
  exact hP

theorem Says.sendMessage {m : ToClient} (hP : P m) : Says P s (sendMessage env c m s) :=
  Says.one rfl hP

/-! ## Orders

Scheduling, removal, reports and the timer send orders to clients that are registered and leave
what a client has been told about itself alone. -/

/-- A client record without what its reports, its runs and its bills change. -/
def Client.terms (r : Client) : Client := { r.static with memoryAllocated := 0, peakAllocated := 0 }

section Terms

variable {r r' : Client} (h : r.terms = r'.terms)

include h

theorem id_of_terms : r.id = r'.id := (congrArg Client.id h :)
theorem podName_of_terms : r.podName = r'.podName := (congrArg Client.podName h :)
theorem context_of_terms : r.context = r'.context := (congrArg Client.context h :)
theorem coreLimit_of_terms : r.coreLimit = r'.coreLimit := (congrArg Client.coreLimit h :)
theorem memoryLimit_of_terms : r.memoryLimit = r'.memoryLimit := (congrArg Client.memoryLimit h :)

end Terms

theorem terms_of_static {r r' : Client} (h : r.static = r'.static) : r.terms = r'.terms :=
  congrArg (fun q : Client => { q with memoryAllocated := 0, peakAllocated := 0 }) h

/-- Nothing but orders to registered clients has been sent, and no terms have changed. -/
structure Orders (s t : Sched) : Prop where
  clients : t.clients ⊆ s.clients
  terms : ∀ c, (t.client c).terms = (s.client c).terms
  schedulerOn : t.schedulerOn = s.schedulerOn
  nalloc : t.nalloc = s.nalloc
  sent : ∃ new, t.out = s.out ++ new ∧
    ∀ m ∈ new, m.msg.IsOrder ∧ (s.client m.dest).context ≠ none

namespace Orders

theorem messages (h : Orders s t) : Says ToClient.IsOrder s t := by
  obtain ⟨new, hnew, hall⟩ := h.sent
  exact ⟨new, hnew, fun m hm => (hall m hm).1⟩

/-- Nothing has been sent at all. -/
theorem silent (hclients : t.clients ⊆ s.clients)
    (hterms : ∀ c, (t.client c).terms = (s.client c).terms)
    (hon : t.schedulerOn = s.schedulerOn) (hnalloc : t.nalloc = s.nalloc)
    (hout : t.out = s.out) : Orders s t where
  clients := hclients
  terms := hterms
  schedulerOn := hon
  nalloc := hnalloc
  sent := ⟨[], by rw [hout, List.append_nil], by simp⟩

theorem refl (s : Sched) : Orders s s := silent (List.Subset.refl _) (fun _ => rfl) rfl rfl rfl

theorem trans (h : Orders s t) (h' : Orders t u) : Orders s u where
  clients := List.Subset.trans h'.clients h.clients
  terms c := (h'.terms c).trans (h.terms c)
  schedulerOn := h'.schedulerOn.trans h.schedulerOn
  nalloc := h'.nalloc.trans h.nalloc
  sent := by
    obtain ⟨new, hnew, hall⟩ := h.sent
    obtain ⟨new', hnew', hall'⟩ := h'.sent
    refine ⟨new ++ new', by rw [hnew', hnew, List.append_assoc], ?_⟩
    intro m hm
    rcases List.mem_append.mp hm with hm | hm
    · exact hall m hm
    · obtain ⟨horder, hctx⟩ := hall' m hm
      rw [context_of_terms (h.terms m.dest)] at hctx
      exact ⟨horder, hctx⟩

theorem sendMessage {m : ToClient} (hm : m.IsOrder) (hctx : (s.client c).context ≠ none) :
    Orders s (sendMessage env c m s) where
  clients := List.Subset.refl _
  terms _ := rfl
  schedulerOn := rfl
  nalloc := rfl
  sent := by
    refine ⟨_, rfl, ?_⟩
    intro n hn
    rw [List.mem_singleton.mp hn]
    exact ⟨hm, hctx⟩

theorem modifyClient {f : Client → Client} (hf : ∀ r, (f r).terms = r.terms) (s : Sched)
    (c : ClientId) : Orders s (s.modifyClient c f) := by
  refine silent (List.Subset.refl _) (fun d => ?_) rfl rfl rfl
  rw [Sched.modifyClient_client]
  split
  · rename_i hd
    rw [hd, hf]
  · rfl

/-- A loop over registered clients. -/
theorem foldl {f : Sched → ClientId → Sched} {l : List ClientId}
    (hf : ∀ s c, (s.client c).context ≠ none → Orders s (f s c))
    (hl : ∀ c ∈ l, (s.client c).context ≠ none) : Orders s (l.foldl f s) := by
  induction l generalizing s with
  | nil => exact refl s
  | cons c l ih =>
      have hone := hf s c (hl c List.mem_cons_self)
      refine hone.trans (ih fun d hd => ?_)
      rw [context_of_terms (hone.terms d)]
      exact hl d (List.mem_cons_of_mem c hd)

end Orders

/-! ## Scheduling and removal -/

theorem Block.orders {D : Exits} (hb : Belongs x s) (h : Block cfg env D x s t) :
    Orders s t where
  clients := h.clients_sublist.subset
  terms c := terms_of_static (h.frame.static c)
  schedulerOn := h.frame.schedulerOn
  nalloc := h.frame.nalloc
  sent := by
    obtain ⟨new, hnew, hdest⟩ := h.sent
    refine ⟨new, hnew, fun m hm => ⟨?_, ?_⟩⟩
    · have horder : ∀ new', t.out = s.out ++ new' → (∀ m ∈ new', m.msg.IsOrder) →
          m.msg.IsOrder := by
        intro new' hnew' hall
        rw [hnew] at hnew'
        exact hall m (List.append_cancel_left hnew' ▸ hm)
      cases h with
      | window =>
          exact horder [] (by rw [freshWindow_out cfg env x s, List.append_nil]) (by simp)
      | defer c rest hreq hno hwait =>
          apply horder _ (moveToWaitQueue_effect env hwait).out_eq
          intro n hn
          unfold deferNotice at hn
          split at hn
          · cases hn
          · rw [List.mem_singleton.mp hn]
            trivial
      | promote front c back hwait hok =>
          apply horder _ (promote_effect env x front c back s).out_eq
          intro n hn
          rw [List.mem_singleton.mp hn]
          trivial
      | grant c rest hreq hok hsend =>
          have hc : c ∈ (s.ctx x).entries := mem_entries_of_requests (by simp [hreq])
          apply horder _ (grantSent_effect env hc).out_eq
          intro n hn
          rw [List.mem_singleton.mp hn]
          trivial
      | refuse c rest hreq hok hsend hD =>
          apply horder _ rfl
          intro n hn
          rw [List.mem_singleton.mp hn]
          trivial
      | leave c hD =>
          exact horder [] (by rw [(leaveRunning_spec cfg env x c s).2.2, List.append_nil])
            (by simp)
      | withdraw c hD => exact horder [] (List.append_nil _).symm (by simp)
      | unlink c hD hctx hgone => exact horder [] (List.append_nil _).symm (by simp)
    · rw [hb m.dest (hdest m hm)]
      exact Option.some_ne_none x

theorem Path.orders {D : Exits} (hb : Belongs x s) (h : Path cfg env D x s t) : Orders s t := by
  induction h with
  | refl => exact Orders.refl s
  | tail hpath hlast ih => exact ih.trans (hlast.orders (hb.path hpath))

theorem removeReq_anyone (hctx : (s.client c).context = some x) (hb : Belongs x s)
    (h : removeReq cfg env (trySchedule cfg env fuel) c s = some t) :
    Path cfg env anyone x s t :=
  (removeReq_path hctx trivial (fun _ _ => trySchedule_anyone) hb h).1

theorem deleteClient_anyone (hctx : (s.client c).context = some x) (hb : Belongs x s)
    (h : deleteClient cfg env (trySchedule cfg env fuel) c s = some t) :
    Path cfg env anyone x s t :=
  deleteClient_path hctx ⟨trivial, trivial⟩ (fun _ _ => trySchedule_anyone) hb h

theorem scheduleIfFree_anyone (hb : Belongs x s)
    (h : scheduleIfFree cfg env fuel x s = some t) : Path cfg env anyone x s t := by
  unfold scheduleIfFree at h
  split at h
  · exact Option.some.inj h ▸ Path.refl s
  · exact trySchedule_anyone hb h

theorem deleteClient_orders (hwf : WellFormed s)
    (h : deleteClient cfg env (trySchedule cfg env fuel) c s = some t) : Orders s t := by
  cases hctx : (s.client c).context with
  | none =>
      simp only [deleteClient, removeReq, hctx, Option.bind_some] at h
      rw [unlinkClient_eq h]
      exact Orders.silent (List.filter_subset_self _) (fun _ => rfl) rfl rfl rfl
  | some x => exact (deleteClient_anyone hctx (hwf.belongs x) h).orders (hwf.belongs x)

theorem disconnect_orders (hwf : WellFormed s) (h : disconnect cfg env fuel c s = some t) :
    Orders s t := by
  rw [disconnect, Option.bind_eq_some_iff] at h
  obtain ⟨u, hu, hut⟩ := h
  have hdelete := deleteClient_orders hwf hu
  split at hut
  · exact Option.some.inj hut ▸ hdelete
  · rename_i x hctx
    have hb := (hwf.belongs x).path (deleteClient_anyone hctx (hwf.belongs x) hu)
    split at hut
    · exact hdelete.trans ((scheduleIfFree_anyone hb hut).orders hb)
    · exact Option.some.inj hut ▸ hdelete

/-! ## Messages -/

theorem insertReq_orders (c : ClientId) (s : Sched) : Orders s (insertReq c s) := by
  unfold insertReq
  split
  · exact Orders.refl s
  · split
    · exact Orders.refl s
    · exact Orders.silent (List.Subset.refl _) (fun _ => rfl) rfl rfl rfl

theorem reqLock_orders (hwf : WellFormed s) (h : reqLock cfg env fuel c s = some t) :
    Orders s t := by
  unfold reqLock at h
  split at h
  · exact deleteClient_orders hwf h
  · rename_i x hctx
    have hinsert := insertReq_orders c s
    have hb : Belongs x (insertReq c s) := (hwf.belongs x).insertReq hctx
    simp only at h
    split at h
    · exact Option.some.inj h ▸ hinsert
    · exact hinsert.trans ((trySchedule_anyone hb h).orders hb)

theorem lockReleased_orders (hwf : WellFormed s) (h : lockReleased cfg env fuel c s = some t) :
    Orders s t := by
  unfold lockReleased at h
  split at h
  · exact deleteClient_orders hwf h
  · rename_i x hctx
    rw [Option.bind_eq_some_iff] at h
    obtain ⟨u, hu, hut⟩ := h
    have hremove := removeReq_anyone hctx (hwf.belongs x) hu
    have hb := (hwf.belongs x).path hremove
    exact (hremove.orders (hwf.belongs x)).trans ((scheduleIfFree_anyone hb hut).orders hb)

theorem preemptClient_orders (s : Sched) (c : ClientId) (hctx : (s.client c).context ≠ none) :
    Orders s (preemptClient env s c) := by
  have hsent : Orders s (sendMessage env c .dropLock s) := Orders.sendMessage trivial hctx
  have htick : ∀ u : Sched, Orders u u.tick :=
    fun u => Orders.silent (List.Subset.refl _) (fun _ => rfl) rfl rfl rfl
  unfold preemptClient
  simp only
  split
  · refine (hsent.trans (htick _)).trans (Orders.modifyClient ?_ _ c)
    exact fun _ => rfl
  · exact hsent

/-- The runners of a context are registered. -/
theorem running_registered (hwf : WellFormed s) (x : CtxId) :
    ∀ c ∈ (s.ctx x).runningList, (s.client c).context ≠ none := by
  intro c hc
  rw [hwf.belongs x c (mem_entries_of_running hc)]
  exact Option.some_ne_none x

theorem memUpdate_orders (hwf : WellFormed s) (c : ClientId) (v : ℕ) :
    Orders s (memUpdate cfg env c v s) := by
  rcases memUpdate_cases cfg env c v s with hsame | ⟨x, -, hcases⟩
  · rw [hsame]
    exact Orders.refl s
  · have hcredit : Orders s (creditMemory cfg x c v s) := by
      obtain ⟨usage, peak, overloaded, h⟩ := creditMemory_spec cfg x c v s
      refine Orders.silent (by rw [h]; exact List.Subset.refl _) (fun d => ?_) (by rw [h]; rfl)
        (by rw [h]; rfl) (by rw [h]; rfl)
      rw [creditMemory_client]
      exact storeMemory_field Client.terms (fun _ _ _ => rfl) c d v s
    rcases hcases with heq | heq
    · rw [heq]
      exact hcredit
    · rw [heq]
      exact hcredit.trans (Orders.foldl preemptClient_orders
        (running_registered (hwf.memory x c v) x))

/-! ## The timer -/

theorem tick_orders (s : Sched) : Orders s s.tick :=
  Orders.silent (List.Subset.refl _) (fun _ => rfl) rfl rfl rfl

theorem timerBegin_orders (hwf : WellFormed s) (h : timerBegin cfg env fuel x s = some t) :
    Orders s t := by
  have hfresh : Path cfg env anyone x s (freshWindow cfg env x s) := (Block.window s).path
  simp only [timerBegin, checkAndResetWindow_snd, Option.map_eq_some_iff] at h
  obtain ⟨u, hu, rfl⟩ := h
  have hsleep : Orders u (timerSleep cfg env x u) :=
    Orders.silent (List.Subset.refl _) (fun _ => rfl) rfl rfl rfl
  have hwindow := hfresh.orders (hwf.belongs x)
  split at hu
  · have hb := (hwf.belongs x).path hfresh
    exact (hwindow.trans ((trySchedule_anyone hb hu).orders hb)).trans hsleep
  · rw [← Option.some.inj hu] at hsleep ⊢
    exact hwindow.trans hsleep

theorem throttleClient_orders (x : CtxId) (count now : ℤ) (s : Sched) (c : ClientId)
    (hctx : (s.client c).context ≠ none) :
    Orders s (throttleClient cfg env x count now s c) := by
  unfold throttleClient
  simp only
  split
  · refine (Orders.modifyClient ?_ s c).trans (Orders.sendMessage ?_ ?_)
    · exact fun _ => rfl
    · trivial
    · rw [Sched.modifyClient_client_self]
      exact hctx
  · exact Orders.refl s

theorem rotateClient_orders (count now : ℤ) (s : Sched) (c : ClientId)
    (hctx : (s.client c).context ≠ none) : Orders s (rotateClient env count now s c) := by
  unfold rotateClient
  simp only
  split
  · refine (Orders.modifyClient ?_ s c).trans (Orders.sendMessage ?_ ?_)
    · exact fun _ => rfl
    · trivial
    · rw [Sched.modifyClient_client_self]
      exact hctx
  · exact Orders.refl s

theorem timerEnd_orders (hwf : WellFormed s) (x : CtxId) (timedOut : Bool) :
    Orders s (timerEnd cfg env x timedOut s) := by
  have henforced : Orders s (enforceLimits cfg env x s) :=
    (tick_orders s).trans (Orders.foldl (throttleClient_orders x _ _) (running_registered hwf x))
  have hwf' : WellFormed (enforceLimits cfg env x s) :=
    hwf.tuned (enforceLimits_tuned cfg env x s)
  have hrotated : Orders (enforceLimits cfg env x s)
      (rotateRunning env x (enforceLimits cfg env x s)) :=
    (tick_orders _).trans (Orders.foldl (rotateClient_orders _ _) (running_registered hwf' x))
  have hwake : ∀ (u : Sched) (f : GpuContext → GpuContext), Orders u (u.modifyCtx x f) :=
    fun u f => Orders.silent (List.Subset.refl _) (fun _ => rfl) rfl rfl rfl
  unfold timerEnd
  simp only
  split
  · exact (henforced.trans hrotated).trans (hwake _ _)
  · exact henforced.trans (hwake _ _)

/-! ## Status and limits -/

theorem annotatedCoreLimit_bounds (v : Option ℤ) :
    1 ≤ annotatedCoreLimit v ∧ annotatedCoreLimit v ≤ 100 := by
  cases v with
  | none => decide
  | some v =>
      simp only [annotatedCoreLimit]
      split
      · assumption
      · norm_num

/-- The limits that an annotation update sends. -/
def IsLimit (memory : Option ℕ) : ToClient → Prop
  | .updateLimit n => memory = some n
  | .updateCoreLimit limit => 1 ≤ limit ∧ limit ≤ 100
  | _ => False

theorem annotationUpdate_limits (id : ℕ) (memory : Option ℕ) (core : Option ℤ) (s : Sched) :
    Says (IsLimit memory) s (annotationUpdate env id memory core s) := by
  unfold annotationUpdate
  split
  · rename_i c hfind
    have hmemory : Says (IsLimit memory) s (updateMemoryLimit env c memory s) := by
      unfold updateMemoryLimit
      split
      · split
        · exact Says.one rfl rfl
        · exact Says.refl s
      · exact Says.refl s
    refine hmemory.trans ?_
    unfold updateCoreLimit
    simp only
    split
    · exact Says.one rfl (annotatedCoreLimit_bounds core)
    · exact Says.refl _
  · exact Says.refl s

/-- What `register_client` tells a new client, besides orders to others when it fails. -/
def IsWelcome (on : Bool) (e : RegisterEnv) : ToClient → Prop
  | .status on' id coreLimit =>
      on' = on ∧ id = e.generatedId ∧ 1 ≤ coreLimit ∧ coreLimit ≤ 100
  | .updateLimit n => e.memoryAnnotated = some n
  | m => m.IsOrder

theorem ToClient.IsOrder.isWelcome {m : ToClient} (h : m.IsOrder) (on : Bool)
    (e : RegisterEnv) : IsWelcome on e m := by
  cases m <;> first | exact h | exact h.elim

theorem applyInitialLimit_welcome (on : Bool) (c : ClientId) (e : RegisterEnv) (s : Sched) :
    Says (IsWelcome on e) s (applyInitialLimit env c e.memoryAnnotated s) := by
  unfold applyInitialLimit
  split
  · rename_i n hn
    split
    · exact Says.one rfl hn
    · exact Says.refl s
  · exact Says.refl s

theorem register_welcome {m : RegisterMsg} {e : RegisterEnv} (hwf : WellFormed s)
    (henabled : (Event.message c (.register m e)).enabled s = true)
    (h : processMsg cfg env fuel c (.register m e) s = some t) :
    Says (IsWelcome s.schedulerOn e) s t := by
  simp only [processMsg, registerClient] at h
  by_cases hreg : hasRegistered s c = true
  · simp only [hreg, if_true, Bool.false_eq_true, if_false] at h
    exact (deleteClient_orders hwf h).messages.mono fun _ hm => hm.isWelcome _ _
  · have hunreg : hasRegistered s c = false := by simpa using hreg
    have hmove : Move cfg env (fun _ => True) (fun _ _ => True) s (enrol cfg c m e s) :=
      .enrol c m e trivial (Event.connected_of_enabled henabled rfl) hunreg
        (Event.acceptable_of_enabled henabled)
    have hwf' : WellFormed (enrol cfg c m e s) := hmove.moves.wellFormed hwf
    have hout : (enrol cfg c m e s).out = s.out := by
      unfold enrol getOrCreateGpuContext
      split <;> rfl
    have hon : (enrol cfg c m e s).schedulerOn = s.schedulerOn := by
      unfold enrol getOrCreateGpuContext
      split <;> rfl
    have hcore : ((enrol cfg c m e s).client c).coreLimit =
        annotatedCoreLimit e.coreAnnotated := by
      unfold enrol
      rw [Sched.modifyClient_client_self]
      rfl
    simp only [hunreg, Bool.false_eq_true, if_false, hon, hcore] at h
    have hsent : Says (IsWelcome s.schedulerOn e) s (sendMessage env c
        (.status s.schedulerOn e.generatedId (annotatedCoreLimit e.coreAnnotated))
        (enrol cfg c m e s)) := by
      have hwelcome : IsWelcome s.schedulerOn e
          (.status s.schedulerOn e.generatedId (annotatedCoreLimit e.coreAnnotated)) :=
        ⟨rfl, rfl, annotatedCoreLimit_bounds _⟩
      exact (Says.of_out_eq hout).trans (Says.sendMessage hwelcome)
    by_cases hdone : sendSucceeds env c (enrol cfg c m e s) = true
    · simp only [hdone, if_true, Option.some.injEq] at h
      exact h ▸ hsent.trans (applyInitialLimit_welcome _ c e _)
    · simp only [hdone, Bool.false_eq_true, if_false] at h
      have hwf'' : WellFormed (sendMessage env c
          (.status s.schedulerOn e.generatedId (annotatedCoreLimit e.coreAnnotated))
          (enrol cfg c m e s)) :=
        hwf'.tuned (Tuned.sendMessage env c (by simp [hon]))
      exact hsent.trans ((deleteClient_orders hwf'' h).messages.mono fun _ hm => hm.isWelcome _ _)

theorem wellFormed_power (hwf : WellFormed s) (on : Bool) :
    WellFormed { s with schedulerOn := on } := by
  have hmove : Move {} ⟨fun _ => 0, fun _ _ => true⟩ (fun _ => True) (fun _ _ => True) s
      { s with schedulerOn := on } := .power on 0 trivial
  exact hmove.moves.wellFormed hwf

/-- What a change of the status is announced by. -/
def IsAnnouncement : ToClient → Prop
  | .schedOn | .schedOff => True
  | m => m.IsOrder

theorem ToClient.IsOrder.isAnnouncement {m : ToClient} (h : m.IsOrder) : IsAnnouncement m := by
  cases m <;> first | exact h | exact h.elim

theorem bcastStatus_announcements (hwf : WellFormed s)
    (h : bcastStatus cfg env fuel s = some t) : Says IsAnnouncement s t := by
  have hboth : WellFormed t ∧ Says IsAnnouncement s t := by
    refine bcastFrom_induction (P := fun u => WellFormed u ∧ Says IsAnnouncement s u) ?_
      ⟨hwf, Says.refl s⟩ h
    rintro u c v ⟨hwfu, hu⟩ hv
    have hone : Says IsAnnouncement u
        (sendMessage env c (if u.schedulerOn then .schedOn else .schedOff) u) := by
      refine Says.sendMessage ?_
      split <;> trivial
    have hwf' : WellFormed (sendMessage env c (if u.schedulerOn then .schedOn else .schedOff) u) :=
      hwfu.tuned (Tuned.sendMessage env c (announce_plain u))
    obtain ⟨-, ⟨-, rfl⟩ | ⟨-, ⟨-, rfl⟩ | ⟨-, hdelete⟩⟩⟩ := bcastClient_cases hv
    · exact ⟨hwfu, hu⟩
    · exact ⟨hwf', hu.trans hone⟩
    · refine ⟨?_, (hu.trans hone).trans ((deleteClient_orders hwf' hdelete).messages.mono
        fun _ hm => hm.isAnnouncement)⟩
      have hmoves : Moves cfg env (fun _ => True) (fun _ _ => True) _ v :=
        deleteClient_moves (fun _ _ _ => trivial) hwf' (fun _ => trivial) hdelete
      exact hmoves.wellFormed hwf'
  exact hboth.2

/-- Everybody who is registered has been told whether the scheduler is on. -/
def Sched.announced (s : Sched) : Sched :=
  { s with out := s.out ++ (s.clients.filter (hasRegistered s ·)).map fun c =>
      ⟨c, if s.schedulerOn then .schedOn else .schedOff, true⟩ }

/-- A broadcast none of whose sends fails tells everybody. -/
theorem bcastStatus_announced (hsent : env.AllSent) (fuel : ℕ) (s : Sched) :
    bcastStatus cfg env fuel s = some s.announced := by
  have hloop : ∀ (l : List ClientId) (u : Sched), l ⊆ u.clients →
      bcastFrom cfg env fuel u.clients l u =
        some { u with out := u.out ++ (l.filter (hasRegistered u ·)).map fun c =>
          ⟨c, if u.schedulerOn then .schedOn else .schedOff, true⟩ } := by
    intro l
    induction l with
    | nil =>
        intro u hl
        simp [bcastFrom]
    | cons c l ih =>
        intro u hl
        have hmem : c ∈ u.clients := hl List.mem_cons_self
        have hrest : l ⊆ u.clients := fun d hd => hl (List.mem_cons_of_mem c hd)
        have hok : ∀ v : Sched, sendSucceeds env c v = true := fun v => hsent _ c
        rw [bcastFrom, if_neg (not_not.mpr hmem)]
        cases hreg : hasRegistered u c with
        | false =>
            have hskip : bcastClient cfg env fuel u c = some u := by
              simp [bcastClient, hmem, hreg]
            rw [hskip, Option.bind_some, ih u hrest, List.filter_cons_of_neg (by simp [hreg])]
        | true =>
            have htell : bcastClient cfg env fuel u c =
                some (sendMessage env c (if u.schedulerOn then .schedOn else .schedOff) u) := by
              simp [bcastClient, hmem, hreg, hok]
            rw [htell, Option.bind_some, List.filter_cons_of_pos hreg]
            refine (ih (sendMessage env c _ u) hrest).trans ?_
            rw [sendMessage_of_mem env hmem]
            simp only [hok, List.map_cons, List.append_assoc, List.singleton_append]
            rfl
  exact hloop s.clients s (List.Subset.refl _)

/-! ## Events -/

/-- The events whose handlers send nothing but orders. -/
def Event.OrdersOnly : Event → Prop
  | .accept _ => False
  | .message _ (.register _ _) => False
  | .message _ .schedOn => False
  | .message _ .schedOff => False
  | .annotated _ _ _ => False
  | _ => True

theorem Step.orders {e : Event} (hwf : WellFormed s) (he : e.OrdersOnly)
    (h : Step cfg env s e t) : Orders s t := by
  obtain ⟨-, fuel, h⟩ := h
  cases e with
  | accept garbage => exact he.elim
  | message c m =>
      cases m with
      | register m e => exact he.elim
      | schedOn => exact he.elim
      | schedOff => exact he.elim
      | setTq v =>
          have hsilent : ∀ v, Orders s (setTq v s) := fun v =>
            Orders.silent (List.Subset.refl _) (fun _ => rfl) rfl rfl rfl
          cases v with
          | none => exact Option.some.inj h ▸ Orders.refl s
          | some v => exact Option.some.inj h ▸ hsilent v
      | reqLock =>
          simp only [handle, processMsg] at h
          split at h
          · exact deleteClient_orders hwf h
          · split at h
            · exact reqLock_orders hwf h
            · exact Option.some.inj h ▸ Orders.refl s
      | lockReleased =>
          simp only [handle, processMsg] at h
          split at h
          · exact deleteClient_orders hwf h
          · split at h
            · exact lockReleased_orders hwf h
            · exact Option.some.inj h ▸ Orders.refl s
      | memUpdate v => exact Option.some.inj h ▸ memUpdate_orders hwf c v
      | unknown => exact Option.some.inj h ▸ Orders.refl s
  | disconnect c => exact disconnect_orders hwf h
  | timerBegin x => exact timerBegin_orders hwf h
  | timerEnd x timedOut => exact Option.some.inj h ▸ timerEnd_orders hwf x timedOut
  | annotated id memory core => exact he.elim

/-- What the handler of an event may send. -/
def Event.MaySend (s : Sched) : Event → ToClient → Prop
  | .message _ (.register _ e) => IsWelcome s.schedulerOn e
  | .message _ .schedOn => IsAnnouncement
  | .message _ .schedOff => IsAnnouncement
  | .annotated _ memory _ => IsLimit memory
  | _ => ToClient.IsOrder

/-- Every handler sends only what its event calls for. -/
theorem Step.maySend {e : Event} (hwf : WellFormed s) (h : Step cfg env s e t) :
    Says (e.MaySend s) s t := by
  have horders : e.OrdersOnly → Says ToClient.IsOrder s t :=
    fun he => (Step.orders hwf he h).messages
  obtain ⟨henabled, fuel, h⟩ := h
  cases e with
  | accept garbage => exact Option.some.inj h ▸ Says.of_out_eq rfl
  | message c m =>
      cases m with
      | register m e => exact register_welcome hwf henabled h
      | schedOn =>
          simp only [handle, processMsg] at h
          split at h
          · exact Option.some.inj h ▸ Says.refl s
          · have hpower : WellFormed { s with schedulerOn := true } := wellFormed_power hwf true
            have hbcast := bcastStatus_announcements hpower h
            exact hbcast
      | schedOff =>
          simp only [handle, processMsg] at h
          split at h
          · rw [Option.map_eq_some_iff] at h
            obtain ⟨u, hu, rfl⟩ := h
            have hpower : WellFormed { s with schedulerOn := false } := wellFormed_power hwf false
            have hbcast := bcastStatus_announcements hpower hu
            exact Says.trans hbcast (Says.of_out_eq rfl)
          · exact Option.some.inj h ▸ Says.refl s
      | _ => exact horders trivial
  | annotated id memory core => exact Option.some.inj h ▸ annotationUpdate_limits id memory core s
  | _ => exact horders trivial

end XpuShare
