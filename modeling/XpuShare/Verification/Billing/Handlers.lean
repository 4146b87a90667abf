import XpuShare.Verification.Billing.Charges
import XpuShare.Verification.Queues.Correctness

/-! # The handlers add up their charges

The handler of every event is a sequence of charges whose amounts are what the meter
records for the event. Scheduling on a context that may be in use begins in four handlers;
the condition carried by the window checks has to hold there. -/

namespace XpuShare

variable {cfg : Config} {env : Env} {K : CtxId → Sched → Prop} {ok : Sched → Event → Prop}
  {s t : Sched} {m : Meter} {x : CtxId}

/-- `K` holds where the handler of an event begins to schedule on a context, unless nobody
runs there. -/
def Event.Ready (cfg : Config) (env : Env) (K : CtxId → Sched → Prop) (s : Sched) :
    Event → Prop
  | .message c .reqLock => ∀ x, (s.client c).context = some x → K x (insertReq c s)
  | .message c .lockReleased | .disconnect c => ∀ x, (s.client c).context = some x →
      (s.ctx x).lockHeld = false → K x (leaveRunning cfg env x c s)
  | .timerBegin x => K x s
  | _ => True

theorem Charges.actions (h : Charges cfg env K ok s m t) :
    Actions cfg env (fun _ => True) ok s t := by
  induction h with
  | refl => exact Actions.refl _
  | tail _ hlast ih => exact ih.trans hlast.actions

theorem lockHeld_leaveRunning (cfg : Config) (env : Env) (x : CtxId) (c : ClientId) (s : Sched)
    (h : ((leaveRunning cfg env x c s).ctx x).runningList ≠ []) :
    ((leaveRunning cfg env x c s).ctx x).lockHeld = (s.ctx x).lockHeld := by
  by_cases hc : c ∈ (s.ctx x).runningList
  · have heff := leaveRunning_effect cfg env hc
    have hrun : ((leaveRunning cfg env x c s).ctx x).runningList
        = (s.ctx x).runningList.erase c := congrArg LockTable.running heff.table_eq
    rw [hrun] at h
    rw [heff.lock_eq, lockAfter]
    simp [h]
  · rw [leaveRunning_of_notMem cfg env hc] at h ⊢
    have heff := clearLock_effect x s
    have hrun : ((clearLock x s).ctx x).runningList = (s.ctx x).runningList :=
      congrArg LockTable.running heff.table_eq
    rw [hrun] at h
    rw [heff.lock_eq, clearedLock]
    simp [h]

section Handlers

variable {fuel : ℕ} {c : ClientId} (hK : Lasting cfg env K)

include hK

/-- When `remove_req` leaves the lock flag down, its context is free or was marked free
before. -/
theorem removeReq_ready (hctx : (s.client c).context = some x) (hb : Belongs x s)
    (hready : (s.ctx x).lockHeld = false → K x (leaveRunning cfg env x c s))
    (h : removeReq cfg env (trySchedule cfg env fuel) c s = some t)
    (hfree : (t.ctx x).lockHeld = false) : K x t := by
  have hbleft : Belongs x (leaveRunning cfg env x c s) :=
    hb.path (Block.leave (D := anyone) s c trivial).path
  have hlock := lockHeld_leaveRunning cfg env x c s
  simp only [removeReq, hctx] at h
  generalize leaveRunning cfg env x c s = left at h hready hbleft hlock
  by_cases hrun : (left.ctx x).runningList = []
  · rw [if_pos hrun, Option.map_eq_some_iff] at h
    obtain ⟨mid, hmid, rfl⟩ := h
    have hcheck : Path cfg env anyone x left (checkWaitQueue cfg env x left) :=
      checkWaitQueue_path left
    have hpath := hcheck.trans (trySchedule_anyone (hbleft.path hcheck) hmid)
    exact hK.block (Block.withdraw mid c trivial) (hK.path hpath (hK.idle hrun))
  · rw [if_neg hrun, Option.some.injEq] at h
    rw [← h] at hfree ⊢
    have hwas : (s.ctx x).lockHeld = false := by
      rw [← hlock hrun]
      simpa [dropPending] using hfree
    exact hK.block (Block.withdraw left c trivial) (hready hwas)

theorem deletion_charges (hwf : WellFormed s)
    (h : deleteClient cfg env (trySchedule cfg env fuel) c s = some t) :
    Charges cfg env K ok s (deleteClientMeter cfg env fuel c s) t := by
  cases hctx : (s.client c).context with
  | none =>
      simp only [deleteClient, removeReq, hctx, Option.bind_some] at h
      simp only [deleteClientMeter, removeReqMeter, hctx]
      rw [unlinkClient_eq h]
      exact charges_of_costless (Action.unlink c hctx).actions (unlink_costless c s)
  | some x =>
      exact deleteClient_charges hK hctx (fun _ _ => trySchedule_anyone)
        (fun _ _ => trySchedule_charges hK) (hwf.belongs x) h

theorem bcastClient_charges (hwf : WellFormed s) (h : bcastClient cfg env fuel s c = some t) :
    Charges cfg env K ok s (bcastClientMeter cfg env fuel s c) t := by
  have hsent : Actions cfg env (fun _ => True) ok s
      (sendMessage env c (if s.schedulerOn then .schedOn else .schedOff) s) :=
    (Actions.refl s).tuned (Tuned.announce env c s)
  have hcost : Costless env s
      (sendMessage env c (if s.schedulerOn then .schedOn else .schedOff) s) :=
    Costless.sendMessage c _ s
  unfold bcastClientMeter
  obtain ⟨hmem, ⟨hunreg, rfl⟩ | ⟨hreg, ⟨hsend, rfl⟩ | ⟨hfail, hdelete⟩⟩⟩ := bcastClient_cases h
  · have hnone : ¬ (c ∈ t.clients ∧ hasRegistered t c = true ∧
        sendSucceeds env c t = false) := by simp [hunreg]
    rw [if_neg hnone]
    exact .refl t
  · have hnone : ¬ (c ∈ s.clients ∧ hasRegistered s c = true ∧
        sendSucceeds env c s = false) := by simp [hsend]
    rw [if_neg hnone]
    exact charges_of_costless hsent hcost
  · rw [if_pos ⟨hmem, hreg, hfail⟩]
    exact costless_charges hsent hcost (deletion_charges hK (hsent.wellFormed hwf) hdelete)

theorem bcastFrom_charges {linked l : List ClientId} (hwf : WellFormed s)
    (h : bcastFrom cfg env fuel linked l s = some t) :
    Charges cfg env K ok s (bcastFromMeter cfg env fuel linked l s) t := by
  induction l generalizing linked s with
  | nil => exact (Option.some.inj h) ▸ .refl s
  | cons c l ih =>
      rw [bcastFrom] at h
      rw [bcastFromMeter]
      split at h
      · rename_i hunlinked
        rw [if_pos hunlinked]
        exact ih hwf h
      · rename_i hlinked
        rw [Option.bind_eq_some_iff] at h
        obtain ⟨u, hu, hut⟩ := h
        have hfirst : Charges cfg env K ok s _ u := bcastClient_charges hK hwf hu
        rw [if_neg hlinked, hu, Option.map_some, Option.getD_some]
        exact hfirst.trans (ih (hfirst.actions.wellFormed hwf) hut)

theorem bcastStatus_charges (hwf : WellFormed s) (h : bcastStatus cfg env fuel s = some t) :
    Charges cfg env K ok s (bcastStatusMeter cfg env fuel s) t :=
  bcastFrom_charges hK hwf h

theorem scheduleIfFree_charges (hb : Belongs x s)
    (hready : (s.ctx x).lockHeld = false → K x s)
    (h : scheduleIfFree cfg env fuel x s = some t) :
    Charges cfg env K ok s (scheduleIfFreeMeter cfg env fuel x s) t := by
  unfold scheduleIfFree at h
  unfold scheduleIfFreeMeter
  split at h
  · rename_i hheld
    rw [if_pos hheld, ← Option.some.inj h]
    exact .refl s
  · rename_i hfree
    rw [if_neg hfree]
    exact trySchedule_charges hK hb (hready (by simpa using hfree)) h

theorem register_charges {r : RegisterMsg} {e : RegisterEnv} (hwf : WellFormed s)
    (hok : ok s (.message c (.register r e))) (hmem : c ∈ s.clients)
    (hid : acceptableId s e.generatedId)
    (h : processMsg cfg env fuel c (.register r e) s = some t) :
    Charges cfg env K ok s (processMsgMeter cfg env fuel c (.register r e) s) t := by
  by_cases hreg : hasRegistered s c = true
  · simp only [processMsg, registerClient, hreg, if_true, Bool.false_eq_true, if_false] at h
    simp only [processMsgMeter, registerClient, hreg, if_true, Bool.false_eq_true, if_false]
    exact deletion_charges hK hwf h
  · have hunreg : hasRegistered s c = false := by simpa using hreg
    have henrol : Charges cfg env K ok s 0 (enrol cfg c r e s) :=
      .single (.enrol c r e hok hmem hunreg hid)
    simp only [processMsg, registerClient, hunreg, Bool.false_eq_true, if_false] at h
    simp only [processMsgMeter, registerClient, hunreg, Bool.false_eq_true, if_false]
    generalize enrol cfg c r e s = u at h henrol ⊢
    have hreply : Tuned u
        (sendMessage env c (.status u.schedulerOn e.generatedId (u.client c).coreLimit) u) :=
      Tuned.sendMessage env c (by simp)
    have hsent := charges_costless henrol ((Actions.refl u).tuned hreply)
      (Costless.sendMessage c _ u)
    generalize sendMessage env c (.status u.schedulerOn e.generatedId (u.client c).coreLimit) u
      = v at h hsent ⊢
    by_cases hdone : sendSucceeds env c u = true
    · simp only [hdone, if_true, Option.some.injEq] at h ⊢
      rw [← h]
      exact charges_costless hsent
        ((Actions.refl v).tuned (applyInitialLimit_tuned env c e.memoryAnnotated v))
        (applyInitialLimit_costless c v e.memoryAnnotated)
    · simp only [hdone, Bool.false_eq_true, if_false] at h ⊢
      have hdeleted := hsent.trans (deletion_charges hK (hsent.actions.wellFormed hwf) h)
      rwa [zero_add] at hdeleted

theorem reqLock_charges (hwf : WellFormed s) (hok : ok s (.message c .reqLock))
    (hmem : c ∈ s.clients) (hon : s.schedulerOn = true)
    (hready : (Event.message c .reqLock).Ready cfg env K s)
    (h : reqLock cfg env fuel c s = some t) :
    Charges cfg env K ok s (reqLockMeter cfg env fuel c s) t := by
  unfold reqLock at h
  unfold reqLockMeter
  cases hctx : (s.client c).context with
  | none =>
      simp only [hctx] at h ⊢
      exact deletion_charges hK hwf h
  | some x =>
      have hinsert : Actions cfg env (fun _ => True) ok s (insertReq c s) := by
        unfold insertReq
        rw [hctx]
        simp only
        split
        · exact Actions.refl s
        · rename_i hreq
          exact (Action.insert c x hok hmem hon hctx hreq).actions
      have hcost : Costless env s (insertReq c s) := insertReq_costless c s
      simp only [hctx] at h ⊢
      split at h
      · rename_i hserial
        rw [if_pos hserial, ← Option.some.inj h]
        exact charges_of_costless hinsert hcost
      · rename_i hfree
        rw [if_neg hfree]
        exact costless_charges hinsert hcost (trySchedule_charges hK
          ((hinsert.wellFormed hwf).belongs x) (hready x hctx) h)

theorem lockReleased_charges (hwf : WellFormed s)
    (hready : (Event.message c .lockReleased).Ready cfg env K s)
    (h : lockReleased cfg env fuel c s = some t) :
    Charges cfg env K ok s (lockReleasedMeter cfg env fuel c s) t := by
  unfold lockReleased at h
  unfold lockReleasedMeter
  cases hctx : (s.client c).context with
  | none =>
      simp only [hctx] at h ⊢
      exact deletion_charges hK hwf h
  | some x =>
      simp only [hctx] at h ⊢
      rw [Option.bind_eq_some_iff] at h
      obtain ⟨u, hu, hut⟩ := h
      have hremove : Charges cfg env K ok s _ u := removeReq_charges hK hctx
        (fun _ _ => trySchedule_charges hK) (hwf.belongs x) hu
      have hfree := removeReq_ready hK hctx (hwf.belongs x) (hready x hctx) hu
      rw [hu, Option.map_some, Option.getD_some]
      exact hremove.trans (scheduleIfFree_charges hK
        ((hremove.actions.wellFormed hwf).belongs x) hfree hut)

theorem processMsg_charges {r : FromClient} (hwf : WellFormed s) (hok : ok s (.message c r))
    (henabled : (Event.message c r).enabled s = true)
    (hready : (Event.message c r).Ready cfg env K s)
    (h : processMsg cfg env fuel c r s = some t) :
    Charges cfg env K ok s (processMsgMeter cfg env fuel c r s) t := by
  cases r with
  | register r e =>
      exact register_charges hK hwf hok (Event.connected_of_enabled henabled rfl)
        (Event.acceptable_of_enabled henabled) h
  | schedOn =>
      simp only [processMsg] at h
      simp only [processMsgMeter]
      split at h
      · rename_i hon
        rw [if_pos hon, ← Option.some.inj h]
        exact .refl s
      · rename_i hoff
        have hpower : Actions cfg env (fun _ => True) ok s { s with schedulerOn := true } :=
          (Action.power true c hok).actions
        rw [if_neg hoff]
        exact costless_charges hpower (power_costless s true)
          (bcastStatus_charges hK (hpower.wellFormed hwf) h)
  | schedOff =>
      simp only [processMsg] at h
      simp only [processMsgMeter]
      split at h
      · rename_i hon
        rw [Option.map_eq_some_iff] at h
        obtain ⟨u, hu, rfl⟩ := h
        have hpower : Actions cfg env (fun _ => True) ok s { s with schedulerOn := false } :=
          (Action.power false c hok).actions
        rw [if_pos hon]
        exact charges_costless (costless_charges hpower (power_costless s false)
          (bcastStatus_charges hK (hpower.wellFormed hwf) hu)) (Action.clear s c hok).actions
          (clearRequests_costless u)
      · rename_i hoff
        rw [if_neg hoff, ← Option.some.inj h]
        exact .refl s
  | setTq v =>
      cases v with
      | none => exact (Option.some.inj h) ▸ .refl s
      | some v =>
          exact (Option.some.inj h) ▸ charges_of_costless
            ((Actions.refl s).tuned (setTq_tuned v s)) (setTq_costless s v)
  | reqLock =>
      have hmem : c ∈ s.clients := Event.connected_of_enabled henabled rfl
      simp only [processMsg] at h
      simp only [processMsgMeter]
      split at h
      · rename_i hnot
        rw [if_pos hnot]
        exact deletion_charges hK hwf h
      · rename_i hreg
        rw [if_neg hreg]
        split at h
        · rename_i hon
          rw [if_pos hon]
          exact reqLock_charges hK hwf hok hmem hon hready h
        · rename_i hoff
          rw [if_neg hoff, ← Option.some.inj h]
          exact .refl s
  | lockReleased =>
      simp only [processMsg] at h
      simp only [processMsgMeter]
      split at h
      · rename_i hnot
        rw [if_pos hnot]
        exact deletion_charges hK hwf h
      · rename_i hreg
        rw [if_neg hreg]
        split at h
        · rename_i hon
          rw [if_pos hon]
          exact lockReleased_charges hK hwf hready h
        · rename_i hoff
          rw [if_neg hoff, ← Option.some.inj h]
          exact .refl s
  | memUpdate v =>
      have hmem : c ∈ s.clients := Event.connected_of_enabled henabled rfl
      exact (Option.some.inj h) ▸ charges_of_costless (memUpdate_actions hok hmem)
        (memUpdate_costless cfg c s v)
  | unknown => exact (Option.some.inj h) ▸ .refl s

theorem timerBegin_charges (hwf : WellFormed s) (hready : K x s)
    (h : timerBegin cfg env fuel x s = some t) :
    Charges cfg env K ok s (timerBeginMeter cfg env fuel x s) t := by
  have hfresh : Charges cfg env K ok s (freshWindowMeter cfg env x s)
      (freshWindow cfg env x s) := .single (.window x hready)
  have hsleep : ∀ u, Actions cfg env (fun _ => True) ok u (timerSleep cfg env x u) :=
    fun u => (Actions.refl u).tuned (timerSleep_tuned cfg env x u)
  simp only [timerBegin, checkAndResetWindow_snd, Option.map_eq_some_iff] at h
  simp only [timerBeginMeter, checkAndResetWindow_snd]
  obtain ⟨u, hu, rfl⟩ := h
  split at hu
  · rename_i hreset
    rw [if_pos hreset]
    have hsched : Charges cfg env K ok _ _ u := trySchedule_charges hK
      ((hfresh.actions.wellFormed hwf).belongs x) (hK.block (Block.window s) hready) hu
    exact charges_costless (hfresh.trans hsched) (hsleep u) (timerSleep_costless cfg x u)
  · rename_i hkept
    rw [if_neg hkept, add_zero, ← Option.some.inj hu]
    exact charges_costless hfresh (hsleep _) (timerSleep_costless cfg x _)

omit hK in
theorem timerEnd_charges (timedOut : Bool) :
    Charges cfg env K ok s (timerEndMeter cfg env x s) (timerEnd cfg env x timedOut s) := by
  have henforce : Charges cfg env K ok s (timerEndMeter cfg env x s)
      (enforceLimits cfg env x s) := .single (.enforce x)
  have hdone : ∀ u : Sched, Tuned u (u.modifyCtx x fun g =>
      { g with mustResetTimer := false, timer := { g.timer with waiting := false } }) := by
    intro u
    refine Tuned.modifyCtx x ?_ u
    intro g
    rfl
  unfold timerEnd
  simp only
  split
  · have hrotate := henforce.trans (.single (.rotate x))
    rw [add_zero] at hrotate
    exact charges_costless hrotate ((Actions.refl _).tuned (hdone _)) (Costless.modifyCtx x _)
  · exact charges_costless henforce ((Actions.refl _).tuned (hdone _)) (Costless.modifyCtx x _)

theorem disconnect_charges (hwf : WellFormed s)
    (hready : (Event.disconnect c).Ready cfg env K s)
    (h : disconnect cfg env fuel c s = some t) :
    Charges cfg env K ok s (disconnectMeter cfg env fuel c s) t := by
  rw [disconnect, Option.bind_eq_some_iff] at h
  obtain ⟨u, hu, hut⟩ := h
  have hdelete : Charges cfg env K ok s _ u := deletion_charges hK hwf hu
  unfold disconnectMeter
  rw [hu, Option.map_some, Option.getD_some]
  cases hctx : (s.client c).context with
  | none =>
      simp only [hctx, Option.some.injEq] at hut ⊢
      rw [← hut, add_zero]
      exact hdelete
  | some x =>
      simp only [hctx] at hut ⊢
      split at hut
      · rename_i hon
        have hfree : (u.ctx x).lockHeld = false → K x u := by
          intro hlock
          rw [deleteClient, Option.bind_eq_some_iff] at hu
          obtain ⟨v, hv, hunlink⟩ := hu
          rw [unlinkClient_eq hunlink] at hlock ⊢
          obtain ⟨hpath, hgone⟩ := removeReq_path hctx (D := anyone) trivial
            (fun _ _ => trySchedule_anyone) (hwf.belongs x) hv
          have hctx' : (v.client c).context = some x := by
            rw [context_of_static (hpath.frame.static c), hctx]
          exact hK.block (Block.unlink v c trivial hctx' hgone)
            (removeReq_ready hK hctx (hwf.belongs x) (hready x hctx) hv hlock)
        rw [if_pos hon]
        exact hdelete.trans (scheduleIfFree_charges hK
          ((hdelete.actions.wellFormed hwf).belongs x) hfree hut)
      · rename_i hoff
        rw [if_neg hoff, add_zero, ← Option.some.inj hut]
        exact hdelete

/-- The handler of an event is a sequence of charges, and the meter adds them up. -/
theorem handle_charges {e : Event} (hwf : WellFormed s) (hok : ok s e)
    (henabled : e.enabled s = true) (hready : e.Ready cfg env K s)
    (h : handle cfg env fuel e s = some t) :
    Charges cfg env K ok s (handleMeter cfg env fuel e s) t := by
  cases e with
  | accept garbage => exact (Option.some.inj h) ▸ .single (.accept garbage hok)
  | message c r => exact processMsg_charges hK hwf hok henabled hready h
  | disconnect c => exact disconnect_charges hK hwf hready h
  | timerBegin x => exact timerBegin_charges hK hwf hready h
  | timerEnd x timedOut => exact (Option.some.inj h) ▸ timerEnd_charges timedOut
  | annotated id memory core =>
      exact (Option.some.inj h) ▸ .single (.annotate id memory core hok)

/-- The invariant rule for one event: what every charge keeps, given the sum of the amounts
before it, holds after the event. -/
theorem handle_invariant {e : Event} {I : Sched → Meter → Prop}
    (hfresh : ∀ s e, ok s e → FreshRequest s e)
    (hcharge : ∀ s t m n, WellFormed s → SingleEntries s → Charge cfg env K ok s n t → I s m →
      I t (m + n))
    (hok : ok s e) (henabled : e.enabled s = true) (hready : e.Ready cfg env K s)
    (h : handle cfg env fuel e s = some t) (hs : WellFormed s ∧ SingleEntries s ∧ I s m) :
    WellFormed t ∧ SingleEntries t ∧ I t (m + handleMeter cfg env fuel e s) := by
  refine Transition.Accumulates.invariant
    (I := fun s m => WellFormed s ∧ SingleEntries s ∧ I s m) ?_
    (handle_charges hK hs.1 hok henabled hready h) hs
  intro u m v n hn hu
  obtain ⟨hwf, hsingle, hI⟩ := hu
  refine ⟨hn.actions.wellFormed hwf, ?_, hcharge u v m n hwf hsingle hn hI⟩
  exact hn.actions.invariant (I := SingleEntries)
    (fun _ _ ha => (ha.mono hfresh).singleEntries) hsingle

end Handlers

end XpuShare
