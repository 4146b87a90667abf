import XpuShare.Verification.Scheduler.Actions

/-! # Handlers as sequences of moves

A move is an action whose code is spelt out: where an action is any change outside the lock
tables, a move says which statement made it. Every handler is shown once to be a sequence of
moves. What follows for its actions is read off, and an invariant that depends on quota
flags or limits is checked against the moves themselves. -/

namespace XpuShare

variable (cfg : Config) (env : Env)

/-- One move of a handler, in a run whose events satisfy `ok` in the state before them and
that deletes no registered client outside `D`. -/
inductive Move (D : ClientId → Prop) (ok : Sched → Event → Prop) : Sched → Sched → Prop where
  | block {s t} (x) (h : Block cfg env (deleting D) x s t) : Move D ok s t
  | send {s} (c m) (hm : m ≠ .lockOk ∧ (m.turnsOff = true → s.schedulerOn = false)) :
      Move D ok s (sendMessage env c m s)
  | limit {s} (c limit) : Move D ok s (applyInitialLimit env c limit s)
  | preempt {s} (x) : Move D ok s (forcePreemption env x s)
  | setTq {s} (v) : Move D ok s (setTq v s)
  | sleep {s} (x) : Move D ok s (timerSleep cfg env x s)
  | wake {s} (x timedOut) (hok : ok s (.timerEnd x timedOut)) :
      Move D ok s (timerEnd cfg env x timedOut s)
  | annotate {s} (id memory core) (hok : ok s (.annotated id memory core)) :
      Move D ok s (annotationUpdate env id memory core s)
  | accept {s} (garbage) (hok : ok s (.accept garbage)) : Move D ok s (accept garbage s)
  | enrol {s} (c m e) (hok : ok s (.message c (.register m e))) (hmem : c ∈ s.clients)
      (hunreg : hasRegistered s c = false) (hid : acceptableId s e.generatedId) :
      Move D ok s (enrol cfg c m e s)
  | insert {s} (c x) (hok : ok s (.message c .reqLock)) (hmem : c ∈ s.clients)
      (hon : s.schedulerOn = true) (hctx : (s.client c).context = some x)
      (hreq : c ∉ (s.ctx x).requests) :
      Move D ok s (s.modifyCtx x fun g => { g with requests := g.requests ++ [c] })
  | memory {s} (c x v) (hok : ok s (.message c (.memUpdate v))) (hmem : c ∈ s.clients)
      (hctx : (s.client c).context = some x) : Move D ok s (creditMemory cfg x c v s)
  | unlink {s} (c) (hctx : (s.client c).context = none) :
      Move D ok s { s with clients := s.clients.filter (· ≠ c) }
  | power {s} (on c) (hok : ok s (.message c (if on then .schedOn else .schedOff))) :
      Move D ok s { s with schedulerOn := on }
  | clear {s} (s₀ c) (hok : ok s₀ (.message c .schedOff)) : Move D ok s (clearRequests s)

/-- A sequence of moves. -/
def Moves (D : ClientId → Prop) (ok : Sched → Event → Prop) : Sched → Sched → Prop :=
  Relation.ReflTransGen (Move cfg env D ok)

section Sequences

variable {cfg env} {D : ClientId → Prop} {ok : Sched → Event → Prop} {s t u : Sched}

/-- A move is an action. -/
theorem Move.action (h : Move cfg env D ok s t) : Action cfg env D ok s t := by
  cases h with
  | block x h => exact .block x h
  | send c m hm => exact .tune (Tuned.sendMessage env c hm)
  | limit c limit => exact .tune (applyInitialLimit_tuned env c limit s)
  | preempt x => exact .tune (forcePreemption_tuned env x s)
  | setTq v => exact .tune (setTq_tuned v s)
  | sleep x => exact .tune (timerSleep_tuned cfg env x s)
  | wake x timedOut hok => exact .tune (timerEnd_tuned cfg env x timedOut s)
  | annotate id memory core hok => exact .tune (annotationUpdate_tuned env id memory core s)
  | accept garbage hok => exact .accept garbage hok
  | enrol c m e hok hmem hunreg hid => exact .enrol c m e hok hmem hunreg hid
  | insert c x hok hmem hon hctx hreq => exact .insert c x hok hmem hon hctx hreq
  | memory c x v hok hmem hctx => exact .memory c x v hok hmem hctx
  | unlink c hctx => exact .unlink c hctx
  | power on c hok => exact .power on c hok
  | clear s₀ c hok => exact .clear s₀ c hok

theorem Moves.refl (s : Sched) : Moves cfg env D ok s s := Relation.ReflTransGen.refl

theorem Moves.trans (h : Moves cfg env D ok s t) (h' : Moves cfg env D ok t u) :
    Moves cfg env D ok s u :=
  Relation.ReflTransGen.trans h h'

theorem Move.moves (h : Move cfg env D ok s t) : Moves cfg env D ok s t :=
  Relation.ReflTransGen.single h

theorem Moves.actions (h : Moves cfg env D ok s t) : Actions cfg env D ok s t := by
  induction h with
  | refl => exact Actions.refl s
  | tail _ hlast ih => exact ih.trans hlast.action.actions

theorem Moves.wellFormed (h : Moves cfg env D ok s t) (hwf : WellFormed s) : WellFormed t :=
  h.actions.wellFormed hwf

/-- What every move preserves, a sequence of moves preserves. -/
theorem Moves.invariant {I : Sched → Prop}
    (hmove : ∀ s t, Move cfg env D ok s t → WellFormed s → I s → I t)
    (h : Moves cfg env D ok s t) (hwf : WellFormed s) (hs : I s) : I t := by
  induction h with
  | refl => exact hs
  | tail hpath hlast ih => exact hmove _ _ hlast (Moves.wellFormed hpath hwf) ih

theorem Path.moves {x : CtxId} (h : Path cfg env (deleting D) x s t) :
    Moves cfg env D ok s t := by
  induction h with
  | refl => exact Moves.refl s
  | tail _ hlast ih => exact ih.trans (Move.block x hlast).moves

end Sequences

/-! ## The handlers -/

/-- The events that delete a registered client. -/
def Event.deletes (s : Sched) (c : ClientId) : Event → Prop
  | .disconnect d => d = c
  | .message d (.register _ _) => d = c ∧ hasRegistered s c = true
  | _ => False

section Handlers

variable {cfg env} {D : ClientId → Prop} {ok : Sched → Event → Prop} {s t : Sched} {fuel : ℕ}

theorem unlinkClient_eq {c : ClientId} (h : unlinkClient c s = some t) :
    t = { s with clients := s.clients.filter (· ≠ c) } := by
  unfold unlinkClient at h
  split at h
  · exact (Option.some.inj h).symm
  · cases h

/-- MEM_UPDATE is ignored, or credits the figure and may preempt the running clients. -/
theorem memUpdate_cases (cfg : Config) (env : Env) (c : ClientId) (v : ℕ) (s : Sched) :
    memUpdate cfg env c v s = s ∨ ∃ x, (s.client c).context = some x ∧
      (memUpdate cfg env c v s = creditMemory cfg x c v s ∨
        memUpdate cfg env c v s = forcePreemption env x (creditMemory cfg x c v s)) := by
  unfold memUpdate
  split
  · exact Or.inl rfl
  · rename_i x hctx
    split
    · exact Or.inl rfl
    · refine Or.inr ⟨x, hctx, ?_⟩
      unfold creditMemory
      simp only
      split
      · split
        · exact Or.inr rfl
        · exact Or.inl rfl
      · exact Or.inl rfl

theorem memUpdate_spec (cfg : Config) (env : Env) (c : ClientId) (v : ℕ) (s : Sched) :
    memUpdate cfg env c v s = s ∨ ∃ x, (s.client c).context = some x ∧
      Tuned (creditMemory cfg x c v s) (memUpdate cfg env c v s) := by
  rcases memUpdate_cases cfg env c v s with hsame | ⟨x, hctx, hcredit | hpreempt⟩
  · exact Or.inl hsame
  · rw [hcredit]
    exact Or.inr ⟨x, hctx, Tuned.refl _⟩
  · rw [hpreempt]
    exact Or.inr ⟨x, hctx, forcePreemption_tuned env x _⟩

theorem memUpdate_moves {c : ClientId} {v : ℕ} (hok : ok s (.message c (.memUpdate v)))
    (hmem : c ∈ s.clients) : Moves cfg env D ok s (memUpdate cfg env c v s) := by
  rcases memUpdate_cases cfg env c v s with hsame | ⟨x, hctx, hcases⟩
  · rw [hsame]
    exact Moves.refl s
  · have hcredit : Moves cfg env D ok s (creditMemory cfg x c v s) :=
      (Move.memory c x v hok hmem hctx).moves
    rcases hcases with heq | heq
    · rw [heq]
      exact hcredit
    · rw [heq]
      exact hcredit.trans (Move.preempt x).moves

theorem memUpdate_actions {c : ClientId} {v : ℕ} (hok : ok s (.message c (.memUpdate v)))
    (hmem : c ∈ s.clients) : Actions cfg env D ok s (memUpdate cfg env c v s) :=
  (memUpdate_moves hok hmem).actions

theorem checkAndResetWindow_snd (x : CtxId) (s : Sched) :
    (checkAndResetWindow cfg env x s).2 = freshWindow cfg env x s := rfl

/-- SCHED_OFF is announced only while the scheduler is off. -/
theorem announce_plain (s : Sched) :
    (if s.schedulerOn then ToClient.schedOn else .schedOff) ≠ .lockOk ∧
      ((if s.schedulerOn then ToClient.schedOn else .schedOff).turnsOff = true →
        s.schedulerOn = false) := by
  split <;> simp_all

variable (hsend : ∀ n c, env.sendOk n c = false → D c)

include hsend

theorem trySchedule_deleting {x : CtxId} (hb : Belongs x s)
    (h : trySchedule cfg env fuel x s = some t) : Path cfg env (deleting D) x s t :=
  trySchedule_path (fun n c hfail => ⟨trivial, hsend n c hfail⟩) hb h

theorem trySchedule_moves {x : CtxId} (hwf : WellFormed s)
    (h : trySchedule cfg env fuel x s = some t) : Moves cfg env D ok s t :=
  (trySchedule_deleting hsend (hwf.belongs x) h).moves

theorem removeReq_moves {c : ClientId} (hwf : WellFormed s)
    (h : removeReq cfg env (trySchedule cfg env fuel) c s = some t) :
    Moves cfg env D ok s t := by
  cases hctx : (s.client c).context with
  | none =>
      simp only [removeReq, hctx, Option.some.injEq] at h
      exact h ▸ Moves.refl s
  | some x =>
      have hpath := removeReq_path hctx trivial
        (fun _ _ => trySchedule_deleting (x := x) hsend) (hwf.belongs x) h
      exact hpath.1.moves

theorem deleteClient_moves {c : ClientId} (hwf : WellFormed s)
    (hdel : (s.client c).context ≠ none → D c)
    (h : deleteClient cfg env (trySchedule cfg env fuel) c s = some t) :
    Moves cfg env D ok s t := by
  cases hctx : (s.client c).context with
  | none =>
      simp only [deleteClient, removeReq, hctx, Option.bind_some] at h
      rw [unlinkClient_eq h]
      exact (Move.unlink c hctx).moves
  | some x =>
      have hc : D c := hdel (by simp [hctx])
      have hpath := deleteClient_path hctx ⟨trivial, hc⟩
        (fun _ _ => trySchedule_deleting (x := x) hsend) (hwf.belongs x) h
      exact hpath.moves

theorem bcastStatus_moves (hwf : WellFormed s)
    (h : bcastStatus cfg env fuel s = some t) : Moves cfg env D ok s t := by
  refine bcastFrom_induction (P := Moves cfg env D ok s) ?_ (Moves.refl s) h
  intro u c v hu hv
  have hsent : Moves cfg env D ok s
      (sendMessage env c (if u.schedulerOn then .schedOn else .schedOff) u) :=
    hu.trans (Move.send c _ (announce_plain u)).moves
  obtain ⟨-, ⟨-, rfl⟩ | ⟨-, ⟨-, rfl⟩ | ⟨hfail, hdelete⟩⟩⟩ := bcastClient_cases hv
  · exact hu
  · exact hsent
  · have hc : D c := hsend _ c hfail
    exact hsent.trans
      (deleteClient_moves hsend (hsent.wellFormed hwf) (fun _ => hc) hdelete)

theorem scheduleIfFree_moves {x : CtxId} (hwf : WellFormed s)
    (h : scheduleIfFree cfg env fuel x s = some t) : Moves cfg env D ok s t := by
  unfold scheduleIfFree at h
  split at h
  · exact (Option.some.inj h) ▸ Moves.refl s
  · exact trySchedule_moves hsend hwf h

theorem register_moves {c : ClientId} {m : RegisterMsg} {e : RegisterEnv}
    (hwf : WellFormed s) (hok : ok s (.message c (.register m e))) (hmem : c ∈ s.clients)
    (hid : acceptableId s e.generatedId)
    (hdel : hasRegistered s c = true → D c)
    (h : processMsg cfg env fuel c (.register m e) s = some t) : Moves cfg env D ok s t := by
  by_cases hreg : hasRegistered s c = true
  · simp only [processMsg, registerClient, hreg, if_true, Bool.false_eq_true, if_false] at h
    exact deleteClient_moves hsend hwf (fun _ => hdel hreg) h
  · have hunreg : hasRegistered s c = false := by simpa using hreg
    have henrol : Moves cfg env D ok s (enrol cfg c m e s) :=
      (Move.enrol c m e hok hmem hunreg hid).moves
    simp only [processMsg, registerClient, hunreg, Bool.false_eq_true, if_false] at h
    generalize enrol cfg c m e s = u at h henrol
    have hsent := henrol.trans
      (Move.send c (.status u.schedulerOn e.generatedId (u.client c).coreLimit)
        (by simp)).moves
    generalize sendMessage env c (.status u.schedulerOn e.generatedId (u.client c).coreLimit) u
      = v at h hsent
    by_cases hdone : sendSucceeds env c u = true
    · simp only [hdone, if_true, Option.some.injEq] at h
      rw [← h]
      exact hsent.trans (Move.limit c e.memoryAnnotated).moves
    · have hc : D c := hsend _ c (by simpa [sendSucceeds] using hdone)
      simp only [hdone, Bool.false_eq_true, if_false] at h
      exact hsent.trans (deleteClient_moves hsend (hsent.wellFormed hwf) (fun _ => hc) h)

theorem reqLock_moves {c : ClientId} (hwf : WellFormed s)
    (hok : ok s (.message c .reqLock)) (hmem : c ∈ s.clients) (hon : s.schedulerOn = true)
    (h : reqLock cfg env fuel c s = some t) : Moves cfg env D ok s t := by
  unfold reqLock at h
  split at h
  · rename_i hctx
    exact deleteClient_moves hsend hwf (fun hne => absurd hctx hne) h
  · rename_i x hctx
    have hinsert : Moves cfg env D ok s (insertReq c s) := by
      unfold insertReq
      rw [hctx]
      simp only
      split
      · exact Moves.refl s
      · rename_i hreq
        exact (Move.insert c x hok hmem hon hctx hreq).moves
    simp only at h
    split at h
    · exact (Option.some.inj h) ▸ hinsert
    · exact hinsert.trans (trySchedule_moves hsend (hinsert.wellFormed hwf) h)

theorem lockReleased_moves {c : ClientId} (hwf : WellFormed s)
    (h : lockReleased cfg env fuel c s = some t) : Moves cfg env D ok s t := by
  unfold lockReleased at h
  split at h
  · rename_i hctx
    exact deleteClient_moves hsend hwf (fun hne => absurd hctx hne) h
  · rw [Option.bind_eq_some_iff] at h
    obtain ⟨u, hu, hut⟩ := h
    have hremove : Moves cfg env D ok s u := removeReq_moves hsend hwf hu
    exact hremove.trans (scheduleIfFree_moves hsend (hremove.wellFormed hwf) hut)

theorem processMsg_moves {c : ClientId} {m : FromClient} (hwf : WellFormed s)
    (hok : ok s (.message c m)) (henabled : (Event.message c m).enabled s = true)
    (hdel : ∀ d, (Event.message c m).deletes s d → D d)
    (h : processMsg cfg env fuel c m s = some t) : Moves cfg env D ok s t := by
  have hunreg : (!hasRegistered s c) = true → (s.client c).context ≠ none → D c := by
    intro hnot hne
    rw [hwf.registered hne] at hnot
    cases hnot
  cases m with
  | register m e =>
      exact register_moves hsend hwf hok (Event.connected_of_enabled henabled rfl)
        (Event.acceptable_of_enabled henabled) (fun hreg => hdel c ⟨rfl, hreg⟩) h
  | schedOn =>
      simp only [processMsg] at h
      split at h
      · exact (Option.some.inj h) ▸ Moves.refl s
      · have hpower : Moves cfg env D ok s { s with schedulerOn := true } :=
          (Move.power true c hok).moves
        exact hpower.trans (bcastStatus_moves hsend (hpower.wellFormed hwf) h)
  | schedOff =>
      simp only [processMsg] at h
      split at h
      · rw [Option.map_eq_some_iff] at h
        obtain ⟨u, hu, rfl⟩ := h
        have hpower : Moves cfg env D ok s { s with schedulerOn := false } :=
          (Move.power false c hok).moves
        have hbcast := hpower.trans (bcastStatus_moves hsend (hpower.wellFormed hwf) hu)
        exact hbcast.trans (Move.clear s c hok).moves
      · exact (Option.some.inj h) ▸ Moves.refl s
  | setTq v =>
      cases v with
      | none => exact (Option.some.inj h) ▸ Moves.refl s
      | some v => exact (Option.some.inj h) ▸ (Move.setTq v).moves
  | reqLock =>
      have hmem : c ∈ s.clients := Event.connected_of_enabled henabled rfl
      simp only [processMsg] at h
      split at h
      · rename_i hnot
        exact deleteClient_moves hsend hwf (hunreg hnot) h
      · split at h
        · rename_i hon
          exact reqLock_moves hsend hwf hok hmem hon h
        · exact (Option.some.inj h) ▸ Moves.refl s
  | lockReleased =>
      simp only [processMsg] at h
      split at h
      · rename_i hnot
        exact deleteClient_moves hsend hwf (hunreg hnot) h
      · split at h
        · exact lockReleased_moves hsend hwf h
        · exact (Option.some.inj h) ▸ Moves.refl s
  | memUpdate v =>
      have hmem : c ∈ s.clients := Event.connected_of_enabled henabled rfl
      exact (Option.some.inj h) ▸ memUpdate_moves hok hmem
  | unknown => exact (Option.some.inj h) ▸ Moves.refl s

theorem timerBegin_moves {x : CtxId} (hwf : WellFormed s)
    (h : timerBegin cfg env fuel x s = some t) : Moves cfg env D ok s t := by
  have hfresh : Moves cfg env D ok s (freshWindow cfg env x s) :=
    (Block.window s).path.moves
  simp only [timerBegin, checkAndResetWindow_snd, Option.map_eq_some_iff] at h
  obtain ⟨u, hu, rfl⟩ := h
  split at hu
  · have hsched := hfresh.trans (trySchedule_moves hsend (hfresh.wellFormed hwf) hu)
    exact hsched.trans (Move.sleep x).moves
  · rw [← Option.some.inj hu]
    exact hfresh.trans (Move.sleep x).moves

theorem disconnect_moves {c : ClientId} (hwf : WellFormed s) (hc : D c)
    (h : disconnect cfg env fuel c s = some t) : Moves cfg env D ok s t := by
  rw [disconnect, Option.bind_eq_some_iff] at h
  obtain ⟨u, hu, hut⟩ := h
  have hdelete : Moves cfg env D ok s u := deleteClient_moves hsend hwf (fun _ => hc) hu
  split at hut
  · exact (Option.some.inj hut) ▸ hdelete
  · split at hut
    · exact hdelete.trans (scheduleIfFree_moves hsend (hdelete.wellFormed hwf) hut)
    · exact (Option.some.inj hut) ▸ hdelete

/-- Every step of the scheduler is a sequence of moves. -/
theorem Step.moves {e : Event} (hwf : WellFormed s) (hok : ok s e)
    (hdel : ∀ c, e.deletes s c → D c) (h : Step cfg env s e t) : Moves cfg env D ok s t := by
  obtain ⟨henabled, fuel, h⟩ := h
  cases e with
  | accept garbage => exact (Option.some.inj h) ▸ (Move.accept garbage hok).moves
  | message c m => exact processMsg_moves hsend hwf hok henabled hdel h
  | disconnect c => exact disconnect_moves hsend hwf (hdel c rfl) h
  | timerBegin x => exact timerBegin_moves hsend hwf h
  | timerEnd x timedOut =>
      exact (Option.some.inj h) ▸ (Move.wake x timedOut hok).moves
  | annotated id memory core =>
      exact (Option.some.inj h) ▸ (Move.annotate id memory core hok).moves

/-! ## What follows for the actions -/

theorem deleteClient_actions {c : ClientId} (hwf : WellFormed s)
    (hdel : (s.client c).context ≠ none → D c)
    (h : deleteClient cfg env (trySchedule cfg env fuel) c s = some t) :
    Actions cfg env D ok s t :=
  (deleteClient_moves hsend hwf hdel h).actions

theorem bcastStatus_actions (hwf : WellFormed s)
    (h : bcastStatus cfg env fuel s = some t) : Actions cfg env D ok s t :=
  (bcastStatus_moves hsend hwf h).actions

theorem scheduleIfFree_actions {x : CtxId} (hwf : WellFormed s)
    (h : scheduleIfFree cfg env fuel x s = some t) : Actions cfg env D ok s t :=
  (scheduleIfFree_moves hsend hwf h).actions

theorem Step.actions {e : Event} (hwf : WellFormed s) (hok : ok s e)
    (hdel : ∀ c, e.deletes s c → D c) (h : Step cfg env s e t) : Actions cfg env D ok s t :=
  (h.moves hsend hwf hok hdel).actions

omit hsend

theorem Step.wellFormed {e : Event} (h : Step cfg env s e t) (hwf : WellFormed s) :
    WellFormed t := by
  have hactions : Actions cfg env (fun _ => True) (fun _ _ => True) s t :=
    h.actions (fun _ _ _ => trivial) hwf trivial fun _ _ => trivial
  exact hactions.wellFormed hwf

/-- Every state that the scheduler reaches is well formed. -/
theorem wellFormed_of_reaches (h : Transition.Reaches (Step cfg env) Sched.init s) :
    WellFormed s :=
  h.invariant (fun _ _ _ hstep hwf => hstep.wellFormed hwf) WellFormed.init

/-- A registration that succeeds fills the record in and changes nothing else of weight. -/
theorem register_tuned {c : ClientId} {m : RegisterMsg} {e : RegisterEnv}
    (hunreg : hasRegistered s c = false)
    (h : Step cfg env s (.message c (.register m e)) t) (hin : c ∈ t.clients) :
    Tuned (enrol cfg c m e s) t := by
  obtain ⟨-, fuel, h⟩ := h
  simp only [handle, processMsg, registerClient, hunreg, Bool.false_eq_true, if_false] at h
  generalize enrol cfg c m e s = u at h ⊢
  have hsent : Tuned u
      (sendMessage env c (.status u.schedulerOn e.generatedId (u.client c).coreLimit) u) :=
    Tuned.sendMessage env c (by simp)
  by_cases hdone : sendSucceeds env c u = true
  · simp only [hdone, if_true, Option.some.injEq] at h
    rw [← h]
    exact hsent.trans (applyInitialLimit_tuned env c _ _)
  · simp only [hdone, Bool.false_eq_true, if_false, deleteClient, unlinkClient,
      Option.bind_eq_some_iff] at h
    obtain ⟨v, -, hv⟩ := h
    split at hv
    · rw [← Option.some.inj hv] at hin
      simp at hin
    · cases hv

include hsend

/-- The invariant rule: what every action of an admitted event preserves holds in every
state that a run of admitted events reaches. -/
theorem invariant_of_actions {I : Sched → Prop}
    (hdel : ∀ s e c, ok s e → e.deletes s c → D c)
    (haction : ∀ s t, Action cfg env D ok s t → WellFormed s → I s → I t)
    (hinit : I Sched.init)
    (h : Transition.Reaches (Transition.guarded (Step cfg env) ok) Sched.init s) : I s := by
  have hboth : WellFormed s ∧ I s := by
    refine h.invariant (I := fun s => WellFormed s ∧ I s) ?_ ⟨WellFormed.init, hinit⟩
    rintro s e t ⟨hok, hstep⟩ ⟨hwf, hI⟩
    have hactions := hstep.actions hsend hwf hok fun c => hdel s e c hok
    refine hactions.invariant (I := fun s => WellFormed s ∧ I s) ?_ ⟨hwf, hI⟩
    rintro u v ha ⟨hwfu, hu⟩
    exact ⟨ha.wellFormed hwfu, haction u v ha hwfu hu⟩
  exact hboth.2

omit hsend

/-- The invariant rule for runs that may delete anybody. -/
theorem invariant_of_any_actions {I : Sched → Prop}
    (haction : ∀ s t, Action cfg env (fun _ => True) ok s t → WellFormed s → I s → I t)
    (hinit : I Sched.init)
    (h : Transition.Reaches (Transition.guarded (Step cfg env) ok) Sched.init s) : I s :=
  invariant_of_actions (fun _ _ _ => trivial) (fun _ _ _ _ _ => trivial) haction hinit h

/-- Every run is a sequence of moves. -/
theorem moves_of_reaches (hwf : WellFormed s)
    (h : Transition.Reaches (Transition.guarded (Step cfg env) ok) s t) :
    Moves cfg env (fun _ => True) ok s t := by
  induction h with
  | refl => exact Moves.refl s
  | tail _ hlast ih =>
      obtain ⟨e, hok, hstep⟩ := hlast
      exact ih.trans (hstep.moves (fun _ _ _ => trivial) (ih.wellFormed hwf) hok fun _ _ => trivial)

/-- The invariant rule for moves. -/
theorem invariant_of_moves {I : Sched → Prop}
    (hmove : ∀ s t, Move cfg env (fun _ => True) ok s t → WellFormed s → I s → I t)
    (hinit : I Sched.init)
    (h : Transition.Reaches (Transition.guarded (Step cfg env) ok) Sched.init s) : I s :=
  (moves_of_reaches WellFormed.init h).invariant hmove WellFormed.init hinit

end Handlers

end XpuShare
