import XpuShare.Verification.Scheduler.Moves

/-! # Who is deleted while something else is handled

A client that is not the one an event concerns leaves the client list for one reason only: a
LOCK_OK, SCHED_ON or SCHED_OFF to it has failed. `Tracks` says so of two states in both
directions, and is shown of every function that an event runs. -/

namespace XpuShare

variable (cfg : Config) (env : Env)

/-- The messages whose failure makes the scheduler delete the client they are for, when it is
not the client whose message is being handled. -/
@[simp]
def ToClient.vital : ToClient → Bool
  | .lockOk => true
  | .schedOn => true
  | .schedOff => true
  | _ => false

/-- One of the sends was vital to `d` and failed. -/
def GivenUp (d : ClientId) (sent : List Sent) : Prop :=
  ∃ m ∈ sent, m.dest = d ∧ m.msg.vital = true ∧ m.ok = false

theorem givenUp_append {d : ClientId} {new new' : List Sent} :
    GivenUp d (new ++ new') ↔ GivenUp d new ∨ GivenUp d new' := by
  simp only [GivenUp, List.mem_append, or_and_right, exists_or]

/-- From `s` to `t` the client `d` is not linked anew, and is unlinked if and only if it is
given up. -/
structure Tracks (d : ClientId) (s t : Sched) : Prop where
  nalloc : s.nalloc ≤ t.nalloc
  gone : d ∉ s.clients → d ∉ t.clients
  sent : ∃ new, t.out = s.out ++ new ∧ (d ∈ s.clients → (d ∈ t.clients ↔ ¬ GivenUp d new))

namespace Tracks

variable {d : ClientId} {s t u : Sched}

/-- Without a failed vital send, and with the same clients. -/
theorem of_sent {new : List Sent} (hclients : t.clients = s.clients)
    (hnalloc : t.nalloc = s.nalloc) (hout : t.out = s.out ++ new)
    (hnew : ∀ m ∈ new, m.msg.vital = true → m.ok = true) : Tracks d s t where
  nalloc := hnalloc.ge
  gone hd := by rwa [hclients]
  sent := by
    refine ⟨new, hout, fun hd => ?_⟩
    rw [hclients]
    refine iff_of_true hd ?_
    rintro ⟨m, hm, -, hvital, hfail⟩
    rw [hnew m hm hvital] at hfail
    cases hfail

theorem of_silent (hclients : t.clients = s.clients) (hnalloc : t.nalloc = s.nalloc)
    (hout : t.out = s.out) : Tracks d s t := by
  have hnone : t.out = s.out ++ [] := by rw [hout, List.append_nil]
  exact of_sent hclients hnalloc hnone (by simp)

theorem refl (s : Sched) : Tracks d s s := of_silent rfl rfl rfl

/-- A call that returns at once. -/
theorem of_some (h : some s = some t) : Tracks d s t := by
  rw [← Option.some.inj h]
  exact refl s

theorem trans (h : Tracks d s t) (h' : Tracks d t u) : Tracks d s u where
  nalloc := h.nalloc.trans h'.nalloc
  gone hd := h'.gone (h.gone hd)
  sent := by
    obtain ⟨new, hnew, hiff⟩ := h.sent
    obtain ⟨new', hnew', hiff'⟩ := h'.sent
    refine ⟨new ++ new', by rw [hnew', hnew, List.append_assoc], fun hd => ?_⟩
    rw [givenUp_append, not_or]
    by_cases hmid : d ∈ t.clients
    · rw [hiff' hmid]
      exact (and_iff_right ((hiff hd).mp hmid)).symm
    · refine iff_of_false (h'.gone hmid) ?_
      rintro ⟨hkept, -⟩
      exact hmid ((hiff hd).mpr hkept)

theorem foldl {f : Sched → ClientId → Sched} (hf : ∀ s c, Tracks d s (f s c))
    (l : List ClientId) (s : Sched) : Tracks d s (l.foldl f s) :=
  List.foldlRecOn l f (refl s) fun _ ht c _ => ht.trans (hf _ c)

/-- Whether a client is still linked can be read off the sends made in between. -/
theorem mem_iff (h : Tracks d s t) (hd : d ∈ s.clients) :
    d ∈ t.clients ↔ ¬ GivenUp d (t.out.drop s.out.length) := by
  obtain ⟨new, hnew, hiff⟩ := h.sent
  rw [hiff hd, hnew, List.drop_left]

/-- A send that is not vital, or that succeeds. -/
theorem sendMessage (c : ClientId) {m : ToClient} {s : Sched}
    (h : m.vital = true → sendSucceeds env c s = true) :
    Tracks d s (sendMessage env c m s) :=
  of_sent rfl rfl rfl (by simpa using h)

/-- A vital send to somebody else. -/
theorem sendMessage_ne {c : ClientId} (hne : d ≠ c) (m : ToClient) (s : Sched) :
    Tracks d s (XpuShare.sendMessage env c m s) where
  nalloc := le_rfl
  gone hd := hd
  sent := by
    refine ⟨_, rfl, fun hd => iff_of_true hd ?_⟩
    rintro ⟨m, hm, hdest, -, -⟩
    rw [List.mem_singleton.mp hm] at hdest
    exact hne hdest.symm

/-- The deletion of somebody else. -/
theorem unlink {c : ClientId} (hne : d ≠ c) (h : unlinkClient c s = some t) : Tracks d s t := by
  rw [unlinkClient_eq h]
  refine ⟨le_rfl, fun hd hmem => hd (List.mem_of_mem_filter hmem), [], by simp, fun hd => ?_⟩
  exact iff_of_true (List.mem_filter.mpr ⟨hd, by simpa using hne⟩) (by simp [GivenUp])

end Tracks

/-! ## Scheduling -/

section Scheduling

variable {cfg env} {d : ClientId} {s t : Sched}

/-- A block that deletes nobody and fails to send no LOCK_OK. -/
theorem Block.tracks {x : CtxId} (h : Block cfg env (deleting fun _ => False) x s t) :
    Tracks d s t := by
  have hclients : t.clients = s.clients := by
    rcases h.clients_cases with heq | ⟨c, hD, -⟩
    · exact heq
    · exact False.elim hD
  have hnalloc : t.nalloc = s.nalloc := h.frame.nalloc
  cases h with
  | window => exact Tracks.of_silent hclients hnalloc (freshWindow_out cfg env x s)
  | defer c rest hreq hno hwait =>
      refine Tracks.of_sent hclients hnalloc (moveToWaitQueue_effect env hwait).out_eq ?_
      intro m hm hvital
      unfold deferNotice at hm
      split at hm
      · cases hm
      · rw [List.mem_singleton.mp hm] at hvital
        cases hvital
  | promote front c back hwait hok =>
      refine Tracks.of_sent hclients hnalloc (promote_effect env x front c back s).out_eq ?_
      intro m hm hvital
      rw [List.mem_singleton.mp hm] at hvital
      cases hvital
  | grant c rest hreq hok hsend =>
      have hc : c ∈ (s.ctx x).entries := mem_entries_of_requests (by simp [hreq])
      refine Tracks.of_sent hclients hnalloc (grantSent_effect env hc).out_eq ?_
      intro m hm _
      rw [List.mem_singleton.mp hm]
      exact hsend
  | refuse c rest hreq hok hsend hD => exact False.elim hD
  | leave c hD =>
      exact Tracks.of_silent hclients hnalloc (leaveRunning_spec cfg env x c s).2.2
  | withdraw c hD => exact Tracks.of_silent hclients hnalloc rfl
  | unlink c hD hctx hgone => exact False.elim hD

theorem Path.tracks {x : CtxId} (h : Path cfg env (deleting fun _ => False) x s t) :
    Tracks d s t :=
  h.invariant (I := Tracks d s) (fun _ _ hb hu => hu.trans hb.tracks) (Tracks.refl s)

section Removal

variable {schedule : CtxId → Sched → Option Sched}
  (hsched : ∀ x u v, schedule x u = some v → Tracks d u v)

include hsched

theorem removeReq_tracks {c : ClientId} (h : removeReq cfg env schedule c s = some t) :
    Tracks d s t := by
  unfold removeReq at h
  split at h
  · exact Tracks.of_some h
  · rename_i x hctx
    have hleave : Tracks d s (leaveRunning cfg env x c s) := (Block.leave s c trivial).tracks
    have hdrop : ∀ u, Tracks d u (dropPending x c u) := fun u => Tracks.of_silent rfl rfl rfl
    simp only at h
    split at h
    · rw [Option.map_eq_some_iff] at h
      obtain ⟨mid, hmid, rfl⟩ := h
      have hcheck : Tracks d s (checkWaitQueue cfg env x (leaveRunning cfg env x c s)) :=
        hleave.trans (checkWaitQueue_path _).tracks
      exact (hcheck.trans (hsched _ _ _ hmid)).trans (hdrop mid)
    · rw [← Option.some.inj h]
      exact hleave.trans (hdrop _)

theorem deleteClient_tracks {c : ClientId} (hne : d ≠ c)
    (h : deleteClient cfg env schedule c s = some t) : Tracks d s t := by
  rw [deleteClient, Option.bind_eq_some_iff] at h
  obtain ⟨mid, hmid, hunlink⟩ := h
  exact (removeReq_tracks hsched hmid).trans (Tracks.unlink hne hunlink)

/-- A client to which a vital send has failed is deleted, and given up. -/
theorem deleteFailed_tracks {c : ClientId} {m : ToClient} (hvital : m.vital = true)
    (hfail : sendSucceeds env c s = false)
    (h : deleteClient cfg env schedule c (sendMessage env c m s) = some t) : Tracks d s t := by
  by_cases hne : d = c
  · subst hne
    rw [deleteClient, Option.bind_eq_some_iff] at h
    obtain ⟨mid, hmid, hunlink⟩ := h
    have hremove := removeReq_tracks hsched hmid
    obtain ⟨new, hnew, -⟩ := hremove.sent
    have hgone : d ∉ t.clients := by simp [unlinkClient_eq hunlink]
    have hgiven : GivenUp d (⟨d, m, sendSucceeds env d s⟩ :: new) :=
      ⟨_, List.mem_cons_self, rfl, hvital, hfail⟩
    refine ⟨?_, fun _ => hgone, _, ?_, fun _ => iff_of_false hgone (not_not.mpr hgiven)⟩
    · rw [unlinkClient_eq hunlink]
      exact hremove.nalloc
    · rw [unlinkClient_eq hunlink, hnew, sendMessage_out, List.append_assoc,
        List.singleton_append]
  · exact (Tracks.sendMessage_ne env hne m s).trans (deleteClient_tracks hsched hne h)

end Removal

theorem trySchedule_tracks {fuel : ℕ} {x : CtxId} (h : trySchedule cfg env fuel x s = some t) :
    Tracks d s t := by
  induction fuel generalizing x s t with
  | zero => cases h
  | succ fuel ih =>
      have hrefill : Tracks d s (refill cfg env x s) := (refill_path (x := x) s).tracks
      unfold trySchedule at h
      generalize refill cfg env x s = r at h hrefill
      simp only at h
      split at h
      · exact hrefill.trans (Tracks.of_some h)
      · rename_i c rest hreq
        have hfresh : Tracks d s (freshWindow cfg env x r) :=
          hrefill.trans (Block.window r).tracks
        have hreq' : ((freshWindow cfg env x r).ctx x).requests = c :: rest := by
          rw [freshWindow_requests, hreq]
        generalize freshWindow cfg env x r = f at h hfresh hreq'
        split at h
        · rename_i hok
          split at h
          · rename_i hsend
            have hgrant := hfresh.trans (Block.grant f c rest hreq' hok hsend).tracks
            split at h
            · exact hgrant.trans (Tracks.of_some h)
            · exact hgrant.trans (ih h)
          · rename_i hsend
            have hfail : sendSucceeds env c f = false := by simpa using hsend
            rw [Option.bind_eq_some_iff] at h
            obtain ⟨mid, hmid, hagain⟩ := h
            have hdelete := hfresh.trans (deleteFailed_tracks (fun _ _ _ => ih) rfl hfail hmid)
            exact hdelete.trans (ih hagain)
        · rename_i hno
          by_cases hwait : c ∈ (f.ctx x).waitQueue
          · rw [moveToWaitQueue_of_mem env hwait] at h
            exact hfresh.trans (ih h)
          · have hno' : canRunTest cfg f x c = false := by simpa using hno
            have hdefer : Tracks d s (moveToWaitQueue env x c f) :=
              hfresh.trans (Block.defer f c rest hreq' hno' hwait).tracks
            exact hdefer.trans (ih h)

theorem scheduleIfFree_tracks {fuel : ℕ} {x : CtxId}
    (h : scheduleIfFree cfg env fuel x s = some t) : Tracks d s t := by
  unfold scheduleIfFree at h
  split at h
  · exact Tracks.of_some h
  · exact trySchedule_tracks h

/-- One visit of `bcast_status`. -/
theorem bcastClient_tracks {fuel : ℕ} {c : ClientId} (h : bcastClient cfg env fuel s c = some t) :
    Tracks d s t := by
  have hvital : (if s.schedulerOn then ToClient.schedOn else .schedOff).vital = true := by
    split <;> rfl
  obtain ⟨-, ⟨-, rfl⟩ | ⟨-, ⟨hsend, rfl⟩ | ⟨hfail, hdelete⟩⟩⟩ := bcastClient_cases h
  · exact Tracks.refl t
  · exact Tracks.sendMessage env c fun _ => hsend
  · exact deleteFailed_tracks (fun _ _ _ => trySchedule_tracks) hvital hfail hdelete

end Scheduling

/-! ## Timers, annotations and preemption -/

section Tuning

variable {d : ClientId}

theorem preemptClient_tracks (s : Sched) (c : ClientId) :
    Tracks d s (preemptClient env s c) := by
  have hsent : Tracks d s (sendMessage env c .dropLock s) :=
    Tracks.sendMessage env c (by simp)
  unfold preemptClient
  simp only
  split
  · exact hsent.trans (Tracks.of_silent rfl rfl rfl)
  · exact hsent

theorem throttleClient_tracks (x : CtxId) (count now : ℤ) (s : Sched) (c : ClientId) :
    Tracks d s (throttleClient cfg env x count now s c) := by
  unfold throttleClient
  simp only
  split
  · exact Tracks.of_sent rfl rfl rfl (by simp)
  · exact Tracks.refl s

theorem rotateClient_tracks (count now : ℤ) (s : Sched) (c : ClientId) :
    Tracks d s (rotateClient env count now s c) := by
  unfold rotateClient
  simp only
  split
  · exact Tracks.of_sent rfl rfl rfl (by simp)
  · exact Tracks.refl s

theorem timerEnd_tracks (x : CtxId) (timedOut : Bool) (s : Sched) :
    Tracks d s (timerEnd cfg env x timedOut s) := by
  have htick : ∀ u : Sched, Tracks d u u.tick := fun u => Tracks.of_silent rfl rfl rfl
  have henforced : Tracks d s (enforceLimits cfg env x s) :=
    (htick s).trans (Tracks.foldl (throttleClient_tracks cfg env x _ _) _ _)
  have hrotated : ∀ u, Tracks d u (rotateRunning env x u) := fun u =>
    (htick u).trans (Tracks.foldl (rotateClient_tracks env _ _) _ _)
  unfold timerEnd
  simp only
  split
  · exact (henforced.trans (hrotated _)).trans (Tracks.of_silent rfl rfl rfl)
  · exact henforced.trans (Tracks.of_silent rfl rfl rfl)

theorem annotationUpdate_tracks (id : ℕ) (memory : Option ℕ) (core : Option ℤ) (s : Sched) :
    Tracks d s (annotationUpdate env id memory core s) := by
  have hmemory : ∀ c, Tracks d s (updateMemoryLimit env c memory s) := by
    intro c
    unfold updateMemoryLimit
    split
    · split
      · exact Tracks.of_sent rfl rfl rfl (by simp)
      · exact Tracks.refl s
    · exact Tracks.refl s
  have hcore : ∀ c u, Tracks d u (updateCoreLimit env c core u) := by
    intro c u
    unfold updateCoreLimit
    simp only
    split
    · exact Tracks.of_sent rfl rfl rfl (by simp)
    · exact Tracks.refl u
  unfold annotationUpdate
  split
  · exact (hmemory _).trans (hcore _ _)
  · exact Tracks.refl s

theorem applyInitialLimit_tracks (c : ClientId) (limit : Option ℕ) (s : Sched) :
    Tracks d s (applyInitialLimit env c limit s) := by
  unfold applyInitialLimit
  split
  · split
    · exact Tracks.of_sent rfl rfl rfl (by simp)
    · exact Tracks.refl s
  · exact Tracks.refl s

theorem memUpdate_tracks (c : ClientId) (v : ℕ) (s : Sched) :
    Tracks d s (memUpdate cfg env c v s) := by
  have hcredit : ∀ x, Tracks d s (creditMemory cfg x c v s) := by
    intro x
    unfold creditMemory
    split <;> exact Tracks.of_silent rfl rfl rfl
  rcases memUpdate_cases cfg env c v s with hsame | ⟨x, -, heq | heq⟩
  · rw [hsame]
    exact Tracks.refl s
  · rw [heq]
    exact hcredit x
  · rw [heq]
    exact (hcredit x).trans (Tracks.foldl (preemptClient_tracks env) _ _)

theorem enrol_tracks (c : ClientId) (m : RegisterMsg) (e : RegisterEnv) (s : Sched) :
    Tracks d s (enrol cfg c m e s) := by
  obtain ⟨x, t, heq, -, -, hclients, -, hnalloc, -, hout, -⟩ :=
    getOrCreateGpuContext_spec cfg m.gpuUuid s
  have henrol : enrol cfg c m e s = t.modifyClient c (registeredRecord m e x) := by
    simp only [enrol, heq]
  rw [henrol]
  exact Tracks.of_silent hclients hnalloc hout

end Tuning

/-! ## Handlers -/

section Handlers

variable {cfg env} {d : ClientId} {s t : Sched} {fuel : ℕ}

theorem bcastStatus_tracks (h : bcastStatus cfg env fuel s = some t) : Tracks d s t :=
  bcastFrom_induction (P := Tracks d s)
    (fun _ _ _ hu hv => hu.trans (bcastClient_tracks hv)) (Tracks.refl s) h

section Own

variable {c : ClientId} (hne : d ≠ c)

include hne

/-- The deletion of the client whose event is handled. -/
theorem deleteOwn_tracks (h : deleteClient cfg env (trySchedule cfg env fuel) c s = some t) :
    Tracks d s t :=
  deleteClient_tracks (fun _ _ _ => trySchedule_tracks) hne h

theorem register_tracks {m : RegisterMsg} {e : RegisterEnv}
    (h : processMsg cfg env fuel c (.register m e) s = some t) : Tracks d s t := by
  have hregister : Tracks d s (registerClient cfg env c m e s).2 := by
    unfold registerClient
    split
    · exact Tracks.refl s
    · have hsent := (enrol_tracks (d := d) cfg c m e s).trans
        (Tracks.sendMessage_ne env hne (.status (enrol cfg c m e s).schedulerOn e.generatedId
          ((enrol cfg c m e s).client c).coreLimit) _)
      simp only
      split
      · exact hsent.trans (applyInitialLimit_tracks env c _ _)
      · exact hsent
  simp only [processMsg] at h
  split at h
  · exact hregister.trans (Tracks.of_some h)
  · exact hregister.trans (deleteOwn_tracks hne h)

theorem reqLock_tracks (h : reqLock cfg env fuel c s = some t) : Tracks d s t := by
  unfold reqLock at h
  split at h
  · exact deleteOwn_tracks hne h
  · have hinsert : Tracks d s (insertReq c s) := by
      unfold insertReq
      split
      · exact Tracks.refl s
      · split
        · exact Tracks.refl s
        · exact Tracks.of_silent rfl rfl rfl
    simp only at h
    split at h
    · exact hinsert.trans (Tracks.of_some h)
    · exact hinsert.trans (trySchedule_tracks h)

theorem lockReleased_tracks (h : lockReleased cfg env fuel c s = some t) : Tracks d s t := by
  unfold lockReleased at h
  split at h
  · exact deleteOwn_tracks hne h
  · rw [Option.bind_eq_some_iff] at h
    obtain ⟨u, hu, hut⟩ := h
    have hremove : Tracks d s u := removeReq_tracks (fun _ _ _ => trySchedule_tracks) hu
    exact hremove.trans (scheduleIfFree_tracks hut)

theorem processMsg_tracks {m : FromClient} (h : processMsg cfg env fuel c m s = some t) :
    Tracks d s t := by
  cases m with
  | register m e => exact register_tracks hne h
  | schedOn =>
      simp only [processMsg] at h
      split at h
      · exact Tracks.of_some h
      · have hpower : Tracks d s { s with schedulerOn := true } := Tracks.of_silent rfl rfl rfl
        exact hpower.trans (bcastStatus_tracks h)
  | schedOff =>
      simp only [processMsg] at h
      split at h
      · rw [Option.map_eq_some_iff] at h
        obtain ⟨u, hu, rfl⟩ := h
        have hpower : Tracks d s { s with schedulerOn := false } := Tracks.of_silent rfl rfl rfl
        exact (hpower.trans (bcastStatus_tracks hu)).trans (Tracks.of_silent rfl rfl rfl)
      · exact Tracks.of_some h
  | setTq v =>
      cases v with
      | none =>
          exact Tracks.of_some h
      | some v =>
          rw [← Option.some.inj h]
          exact Tracks.of_silent rfl rfl rfl
  | reqLock =>
      simp only [processMsg] at h
      split at h
      · exact deleteOwn_tracks hne h
      · split at h
        · exact reqLock_tracks hne h
        · exact Tracks.of_some h
  | lockReleased =>
      simp only [processMsg] at h
      split at h
      · exact deleteOwn_tracks hne h
      · split at h
        · exact lockReleased_tracks hne h
        · exact Tracks.of_some h
  | memUpdate v =>
      rw [← Option.some.inj h]
      exact memUpdate_tracks cfg env c v s
  | unknown =>
      exact Tracks.of_some h

theorem disconnect_tracks (h : disconnect cfg env fuel c s = some t) : Tracks d s t := by
  rw [disconnect, Option.bind_eq_some_iff] at h
  obtain ⟨u, hu, hut⟩ := h
  have hdelete : Tracks d s u := deleteOwn_tracks hne hu
  split at hut
  · exact hdelete.trans (Tracks.of_some hut)
  · split at hut
    · exact hdelete.trans (scheduleIfFree_tracks hut)
    · exact hdelete.trans (Tracks.of_some hut)

end Own

theorem timerBegin_tracks {x : CtxId} (h : timerBegin cfg env fuel x s = some t) :
    Tracks d s t := by
  have hfresh : Tracks d s (freshWindow cfg env x s) := (Block.window s).tracks
  have hsleep : ∀ u, Tracks d u (timerSleep cfg env x u) := fun u => Tracks.of_silent rfl rfl rfl
  simp only [timerBegin, checkAndResetWindow_snd, Option.map_eq_some_iff] at h
  obtain ⟨u, hu, rfl⟩ := h
  split at hu
  · exact (hfresh.trans (trySchedule_tracks hu)).trans (hsleep u)
  · rw [← Option.some.inj hu]
    exact hfresh.trans (hsleep _)

theorem accept_tracks (garbage : Client) (hd : d < s.nalloc) :
    Tracks d s (accept garbage s) := by
  have hmem : d ∈ (accept garbage s).clients ↔ d ∈ s.clients := by
    simp [accept, hd.ne]
  refine ⟨Nat.le_succ _, fun h => mt hmem.mp h, [], by simp [accept], fun h => ?_⟩
  exact iff_of_true (hmem.mpr h) (by simp [GivenUp])

/-- An event that is not of `d` itself unlinks `d` if and only if a vital send to it fails. -/
theorem handle_tracks {e : Event} (hown : e.client ≠ some d) (hd : d < s.nalloc)
    (h : handle cfg env fuel e s = some t) : Tracks d s t := by
  cases e with
  | accept garbage =>
      rw [← Option.some.inj h]
      exact accept_tracks garbage hd
  | message c m =>
      have hne : d ≠ c := fun he => hown (congrArg some he.symm)
      exact processMsg_tracks hne h
  | disconnect c =>
      have hne : d ≠ c := fun he => hown (congrArg some he.symm)
      exact disconnect_tracks hne h
  | timerBegin x => exact timerBegin_tracks h
  | timerEnd x timedOut =>
      rw [← Option.some.inj h]
      exact timerEnd_tracks cfg env x timedOut s
  | annotated id memory core =>
      rw [← Option.some.inj h]
      exact annotationUpdate_tracks env id memory core s

end Handlers

end XpuShare
