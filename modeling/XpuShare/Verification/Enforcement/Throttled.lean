import XpuShare.Verification.Queues.Correctness
import XpuShare.Verification.Scheduler.Marks

/-! # Throttled clients while limits are constant

A limited client is granted the lock only while it is not throttled, so that a limited client
that runs and is throttled is being dropped. It stays throttled until the window of its GPU is
reset, and until then it is sent no LOCK_OK. -/

namespace XpuShare

variable {cfg : Config} {env : Env} {x : CtxId} {s t u : Sched} {c : ClientId}

/-- An annotation gives its client the limit that the client has. -/
def LimitsKept (s : Sched) : Event → Prop
  | .annotated id _ core => ∀ c ∈ s.clients, (s.client c).id = id →
      annotatedCoreLimit core = (s.client c).coreLimit
  | _ => True

instance (s : Sched) : DecidablePred (LimitsKept s)
  | .annotated _ _ _ => inferInstanceAs (Decidable (∀ c ∈ s.clients, _))
  | .message _ _ | .accept _ | .disconnect _ | .timerBegin _ | .timerEnd _ _ => isTrue trivial

/-- Clients ask for the lock only while they neither wait nor run, and limits are constant. -/
def Regulated (s : Sched) (e : Event) : Prop := FreshRequest s e ∧ LimitsKept s e

instance (s : Sched) : DecidablePred (Regulated s) :=
  fun e => inferInstanceAs (Decidable (FreshRequest s e ∧ LimitsKept s e))

/-! ## What timers and annotations do to the marks -/

/-- The limit is kept, no flag is lowered, and who is throttled anew is being dropped. -/
structure Raised (m m' : Marks) : Prop where
  coreLimit : m'.coreLimit = m.coreLimit
  isThrottled : m.isThrottled = true → m'.isThrottled = true
  pendingDrop : m.pendingDrop = true → m'.pendingDrop = true
  dropped : m'.isThrottled = true → m.isThrottled = true ∨ m'.pendingDrop = true

theorem Raised.refl (m : Marks) : Raised m m := ⟨rfl, fun h => h, fun h => h, fun h => Or.inl h⟩

theorem Raised.trans {m m' m'' : Marks} (h : Raised m m') (h' : Raised m' m'') :
    Raised m m'' where
  coreLimit := h'.coreLimit.trans h.coreLimit
  isThrottled hm := h'.isThrottled (h.isThrottled hm)
  pendingDrop hm := h'.pendingDrop (h.pendingDrop hm)
  dropped hm := by
    rcases h'.dropped hm with hold | hnew
    · exact (h.dropped hold).imp_right h'.pendingDrop
    · exact Or.inr hnew

theorem throttleClient_raised (cfg : Config) (env : Env) (x : CtxId) (count now : ℤ) (s : Sched)
    (c d : ClientId) : Raised (s.client d).marks
      ((throttleClient cfg env x count now s c).client d).marks := by
  unfold throttleClient
  simp only
  split
  · rw [sendMessage_client, Sched.modifyClient_client]
    split
    · rename_i hd
      rw [hd]
      exact ⟨rfl, fun _ => rfl, fun _ => rfl, fun _ => Or.inr rfl⟩
    · exact Raised.refl _
  · exact Raised.refl _

theorem rotateClient_raised (env : Env) (count now : ℤ) (s : Sched) (c d : ClientId) :
    Raised (s.client d).marks ((rotateClient env count now s c).client d).marks := by
  unfold rotateClient
  simp only
  split
  · rw [sendMessage_client, Sched.modifyClient_client]
    split
    · rename_i hd
      rw [hd]
      exact ⟨rfl, fun h => h, fun _ => rfl, fun h => Or.inl h⟩
    · exact Raised.refl _
  · exact Raised.refl _

theorem raised_foldl {f : Sched → ClientId → Sched} {d : ClientId}
    (hf : ∀ s c, Raised (s.client d).marks ((f s c).client d).marks) (l : List ClientId)
    (s : Sched) : Raised (s.client d).marks ((l.foldl f s).client d).marks :=
  List.foldlRecOn (motive := fun u : Sched => Raised (s.client d).marks (u.client d).marks) l f
    (Raised.refl _) fun u hu c _ => hu.trans (hf u c)

theorem timerEnd_raised (cfg : Config) (env : Env) (x : CtxId) (timedOut : Bool) (s : Sched)
    (d : ClientId) :
    Raised (s.client d).marks ((timerEnd cfg env x timedOut s).client d).marks := by
  have henforced : Raised (s.client d).marks ((enforceLimits cfg env x s).client d).marks :=
    raised_foldl (fun u c => throttleClient_raised cfg env x _ _ u c d) _ s.tick
  unfold timerEnd
  simp only
  split
  · exact henforced.trans (raised_foldl (fun u c => rotateClient_raised env _ _ u c d) _
      (enforceLimits cfg env x s).tick)
  · exact henforced

/-- An annotation that keeps the limit of its client leaves the marks alone. -/
theorem annotationUpdate_marks {id : ℕ} {memory : Option ℕ} {core : Option ℤ}
    (h : LimitsKept s (.annotated id memory core)) (env : Env) (d : ClientId) :
    ((annotationUpdate env id memory core s).client d).marks = (s.client d).marks := by
  unfold annotationUpdate
  split
  · rename_i c hfind
    have hkept := h c (List.mem_of_find?_eq_some hfind) (by simpa using List.find?_some hfind)
    have hlimit : ((updateMemoryLimit env c memory s).client c).coreLimit
        = (s.client c).coreLimit :=
      (congrArg Marks.coreLimit (updateMemoryLimit_marks env c memory s c) :)
    have hsame : updateCoreLimit env c core (updateMemoryLimit env c memory s)
        = updateMemoryLimit env c memory s := by
      simp [updateCoreLimit, hlimit, hkept]
    rw [hsame]
    exact updateMemoryLimit_marks env c memory s d
  · rfl

/-! ## Throttled and running -/

/-- A limited client that is throttled is being dropped. -/
def Marks.Consistent (m : Marks) : Prop :=
  m.coreLimit < 100 → m.isThrottled = true → m.pendingDrop = true

/-- The marks of the running clients are consistent. -/
def ConsistentMarks (s : Sched) : Prop :=
  ∀ x, ∀ c ∈ (s.ctx x).runningList, (s.client c).marks.Consistent

theorem Marks.Consistent.raised {m m' : Marks} (h : m.Consistent) (hraised : Raised m m') :
    m'.Consistent := by
  intro hlimit hthrottled
  rcases hraised.dropped hthrottled with hold | hnew
  · exact hraised.pendingDrop (h (hraised.coreLimit ▸ hlimit) hold)
  · exact hnew

theorem Marks.Consistent.freed (m : Marks) : m.freed.Consistent := fun _ h => by cases h

theorem ConsistentMarks.of_marks (hs : ConsistentMarks s)
    (hrun : ∀ x, (t.ctx x).runningList ⊆ (s.ctx x).runningList)
    (hmarks : ∀ x, ∀ c ∈ (t.ctx x).runningList, (t.client c).marks = (s.client c).marks) :
    ConsistentMarks t := by
  intro x c hc
  rw [hmarks x c hc]
  exact hs x c (hrun x hc)

/-- The quota test refuses a limited client that is throttled. -/
theorem not_throttled_of_canRun (h : canRunTest cfg s x c = true)
    (hlimit : (s.client c).coreLimit < 100) : (s.client c).isThrottled = false :=
  (unlimited_or_free_of_canRun h).resolve_left hlimit.not_ge

/-- Who runs after a block ran before it with the same marks or was freed by it, or has just
passed the quota test. -/
theorem Block.runner_cases {D : Exits} (h : Block cfg env D x s t) (hwf : WellFormed s)
    (hsingle : SingleEntries s) {y : CtxId} {d : ClientId} (hd : d ∈ (t.ctx y).runningList) :
    (d ∈ (s.ctx y).runningList ∧ ((t.client d).marks = (s.client d).marks ∨
      (t.client d).marks = (s.client d).marks.freed)) ∨
    (canRunTest cfg s x d = true ∧ (t.client d).marks = (s.client d).marks.undropped) := by
  have hframe := h.frame
  have hrun : ∀ {l : List ClientId}, (t.ctx x).runningList = l →
      (y = x ∧ d ∈ l) ∨ (y ≠ x ∧ d ∈ (s.ctx y).runningList) := by
    intro l hl
    by_cases hy : y = x
    · subst hy
      exact Or.inl ⟨rfl, hl ▸ hd⟩
    · rw [hframe.ctx_ne y hy] at hd
      exact Or.inr ⟨hy, hd⟩
  have hkept : (t.ctx x).runningList = (s.ctx x).runningList → d ∈ (s.ctx y).runningList := by
    intro hl
    rcases hrun hl with ⟨rfl, hmem⟩ | ⟨-, hmem⟩
    · exact hmem
    · exact hmem
  cases h with
  | window => exact Or.inl ⟨hkept (by simp), freshWindow_marks cfg env x s d⟩
  | defer c rest hreq hno hwait =>
      refine Or.inl ⟨hkept ?_, Or.inl (by rw [moveToWaitQueue_client])⟩
      exact congrArg LockTable.running (moveToWaitQueue_effect env hwait).table_eq
  | promote front c back hwait hok =>
      exact Or.inl ⟨hkept (by simp [XpuShare.promote]), Or.inl rfl⟩
  | grant c rest hreq hok hsend =>
      rcases grantSent_running hreq hd with ⟨rfl, hmarks⟩ | ⟨-, hmem, hmarks⟩
      · exact Or.inr ⟨hok, hmarks⟩
      · exact Or.inl ⟨hmem, Or.inl hmarks⟩
  | refuse c rest hreq hok hsend hD => exact Or.inl ⟨hkept rfl, Or.inl rfl⟩
  | leave c hD =>
      have hl : ((leaveRunning cfg env x c s).ctx x).runningList
          = (s.ctx x).runningList.erase c :=
        congrArg LockTable.running (leaveRunning_spec cfg env x c s).1
      have hmarks := leaveRunning_marks cfg env x c s d
      rcases hrun hl with ⟨rfl, hmem⟩ | ⟨hy, hmem⟩
      · have hne : d ≠ c := by
          rintro rfl
          exact (hsingle.running y).not_mem_erase hmem
        rw [if_neg fun hboth => hne hboth.1] at hmarks
        exact Or.inl ⟨List.mem_of_mem_erase hmem, Or.inl hmarks⟩
      · have hother : ¬ (d = c ∧ c ∈ (s.ctx x).runningList) := by
          rintro ⟨rfl, hx⟩
          have hctx := hwf.belongs x d (mem_entries_of_running hx)
          rw [hwf.belongs y d (mem_entries_of_running hmem)] at hctx
          exact hy (Option.some.inj hctx)
        rw [if_neg hother] at hmarks
        exact Or.inl ⟨hmem, Or.inl hmarks⟩
  | withdraw c hD => exact Or.inl ⟨hkept (by simp [dropPending]), Or.inl rfl⟩
  | unlink c hD hctx hgone => exact Or.inl ⟨hkept rfl, Or.inl rfl⟩

theorem ConsistentMarks.block {D : Exits} (hs : ConsistentMarks s) (hwf : WellFormed s)
    (hsingle : SingleEntries s) (h : Block cfg env D x s t) : ConsistentMarks t := by
  intro y d hd
  rcases h.runner_cases hwf hsingle hd with ⟨hrun, hsame | hfreed⟩ | ⟨hok, hmarks⟩
  · rw [hsame]
    exact hs y d hrun
  · rw [hfreed]
    exact Marks.Consistent.freed _
  · rw [hmarks]
    intro hlimit hthrottled
    have hthrottled' : (s.client d).isThrottled = true := hthrottled
    rw [not_throttled_of_canRun hok hlimit] at hthrottled'
    cases hthrottled'

theorem ConsistentMarks.tuned (hs : ConsistentMarks s) (h : Tuned s t)
    (hraised : ∀ c, Raised (s.client c).marks (t.client c).marks) : ConsistentMarks t := by
  intro x c hc
  rw [h.runningList] at hc
  exact (hs x c hc).raised (hraised c)

theorem Raised.of_eq {m m' : Marks} (h : m' = m) : Raised m m' := by
  subst h
  exact Raised.refl m'

theorem ConsistentMarks.move {D : ClientId → Prop} (hs : ConsistentMarks s) (hwf : WellFormed s)
    (hsingle : SingleEntries s) (h : Move cfg env D Regulated s t) : ConsistentMarks t := by
  have hknown : ∀ y, ∀ d ∈ (s.ctx y).runningList, (s.client d).context ≠ none :=
    fun y d hd hnone => hwf.notMem_entries hnone y (mem_entries_of_running hd)
  cases h with
  | block x h => exact hs.block hwf hsingle h
  | send c m hm => exact hs.tuned (Tuned.sendMessage env c hm) fun _ => Raised.refl _
  | limit c limit =>
      exact hs.tuned (applyInitialLimit_tuned env c limit s)
        fun d => Raised.of_eq (applyInitialLimit_marks env c limit s d)
  | preempt x =>
      exact hs.tuned (forcePreemption_tuned env x s)
        fun d => Raised.of_eq (forcePreemption_marks env x s d)
  | setTq v => exact hs.tuned (setTq_tuned v s) fun _ => Raised.refl _
  | sleep x => exact hs.tuned (timerSleep_tuned cfg env x s) fun _ => Raised.refl _
  | wake x timedOut hok =>
      exact hs.tuned (timerEnd_tuned cfg env x timedOut s) (timerEnd_raised cfg env x timedOut s)
  | annotate id memory core hok =>
      exact hs.tuned (annotationUpdate_tuned env id memory core s)
        fun d => Raised.of_eq (annotationUpdate_marks hok.2 env d)
  | accept garbage hok =>
      exact hs.of_marks (fun _ => List.Subset.refl _)
        fun y d hd => by rw [accept_client hwf garbage (hknown y d hd)]
  | enrol c m e hok hmem hunreg hid =>
      exact hs.of_marks (fun y => (enrol_lists cfg c m e s y).1) fun y d hd => by
        rw [enrol_client cfg hwf m e hunreg (hknown y d ((enrol_lists cfg c m e s y).1 hd))]
  | insert c x hok hmem hon hctx hreq =>
      refine hs.of_marks (fun y => ?_) fun _ _ _ => rfl
      rw [Sched.modifyCtx_ctx]
      split
      · rename_i hy
        rw [hy]
        exact List.Subset.refl _
      · exact List.Subset.refl _
  | memory c x v hok hmem hctx =>
      refine hs.of_marks (fun y => ?_) fun _ d _ => creditMemory_marks cfg x c v s d
      have hrun : ((creditMemory cfg x c v s).ctx y).runningList = (s.ctx y).runningList :=
        congrArg LockTable.running (creditMemory_table cfg x c v s y)
      rw [hrun]
      exact List.Subset.refl _
  | unlink c hctx => exact hs
  | power on c hok => exact hs
  | clear s₀ c hok =>
      refine hs.of_marks (fun y => ?_) fun _ _ _ => rfl
      simp only [clearRequests]
      split <;> exact List.Subset.refl _

theorem regulated_invariant
    (h : Transition.Reaches (Transition.guarded (Step cfg env) Regulated) Sched.init s) :
    SingleEntries s ∧ ConsistentMarks s := by
  refine invariant_of_moves (I := fun s => SingleEntries s ∧ ConsistentMarks s) ?_ ?_ h
  · intro s t hmove hwf hs
    have haction := hmove.action.mono fun _ _ hok => hok.1
    exact ⟨haction.singleEntries hs.1, hs.2.move hwf hs.1 hmove⟩
  · refine ⟨SingleEntries.init, ?_⟩
    intro x c hc
    simp [Sched.init] at hc

/-! ## Throttled until the window is reset -/

/-- A limited client of `x` that is throttled. -/
structure Suspended (x : CtxId) (c : ClientId) (s : Sched) : Prop where
  context : (s.client c).context = some x
  limited : (s.client c).coreLimit < 100
  throttled : (s.client c).isThrottled = true

/-- No LOCK_OK is sent to `c` between `s` and `t`. -/
def Ungranted (c : ClientId) (s t : Sched) : Prop :=
  ∃ new, t.out = s.out ++ new ∧ ∀ m ∈ new, m.dest = c → m.msg ≠ .lockOk

theorem Ungranted.of_out (h : t.out = s.out) : Ungranted c s t := ⟨[], by simp [h], by simp⟩

theorem Ungranted.trans (h : Ungranted c s t) (h' : Ungranted c t u) : Ungranted c s u := by
  obtain ⟨new, hout, hnew⟩ := h
  obtain ⟨new', hout', hnew'⟩ := h'
  refine ⟨new ++ new', by rw [hout', hout, List.append_assoc], ?_⟩
  intro m hm
  rcases List.mem_append.mp hm with hm | hm
  · exact hnew m hm
  · exact hnew' m hm

theorem Ungranted.tuned (h : Tuned s t) : Ungranted c s t := by
  obtain ⟨new, hout, hnew⟩ := h.sent
  exact ⟨new, hout, fun m hm _ => (hnew m hm).1⟩

theorem Suspended.raised (hs : Suspended x c s) (hctx : (t.client c).context = (s.client c).context)
    (h : Raised (s.client c).marks (t.client c).marks) : Suspended x c t where
  context := hctx.trans hs.context
  limited := by
    have hlimit : (t.client c).coreLimit = (s.client c).coreLimit := h.coreLimit
    rw [hlimit]
    exact hs.limited
  throttled := h.isThrottled hs.throttled

theorem Suspended.tuned (hs : Suspended x c s) (h : Tuned s t)
    (hraised : Raised (s.client c).marks (t.client c).marks) :
    Suspended x c t ∧ Ungranted c s t :=
  ⟨hs.raised (context_of_core (h.client c)) hraised, Ungranted.tuned h⟩

theorem Suspended.of_client (hs : Suspended x c s) (h : t.client c = s.client c) :
    Suspended x c t :=
  ⟨h ▸ hs.context, h ▸ hs.limited, h ▸ hs.throttled⟩

/-- The window of `x` is reset between `s` and `t`. -/
def Resets (cfg : Config) (env : Env) (x : CtxId) (s t : Sched) : Prop :=
  windowExpired cfg (s.ctx x) (currentTimeMs env s) = true ∧ t = freshWindow cfg env x s

/-- A window check that does not reset the window of `x` leaves its clients throttled. -/
theorem Suspended.window (hs : Suspended x c s) (hwf : WellFormed s) {y : CtxId}
    (hreset : ¬ Resets cfg env x s (freshWindow cfg env y s)) :
    Suspended x c (freshWindow cfg env y s) := by
  apply hs.of_client
  by_cases hy : y = x
  · subst hy
    have hopen : ¬ windowExpired cfg (s.ctx y) (currentTimeMs env s) = true :=
      fun hexpired => hreset ⟨hexpired, rfl⟩
    simp [freshWindow, checkAndResetWindow, hopen]
  · have hctx : (s.client c).context ≠ some y := by
      rw [hs.context]
      exact fun heq => hy (Option.some.inj heq).symm
    exact freshWindow_others cfg env s
      (fun hrun => hctx (hwf.belongs y c (mem_entries_of_running hrun))) hctx

/-- A suspended client fails the quota test. -/
theorem Suspended.canRunTest_eq_false (hs : Suspended x c s) (y : CtxId) :
    canRunTest cfg s y c = false := by
  by_contra hok
  have hfree := not_throttled_of_canRun (by simpa using hok) hs.limited
  rw [hs.throttled] at hfree
  cases hfree

theorem Suspended.block {D : Exits} (hs : Suspended x c s) (hwf : WellFormed s) {y : CtxId}
    (h : Block cfg env D y s t) (hreset : ¬ Resets cfg env x s t) :
    Suspended x c t ∧ Ungranted c s t := by
  have hpass : ∀ d, canRunTest cfg s y d = true → d ≠ c := by
    rintro d hok rfl
    rw [hs.canRunTest_eq_false y] at hok
    cases hok
  have hctx : (t.client c).context = (s.client c).context :=
    context_of_static (h.frame.static c)
  cases h with
  | window => exact ⟨hs.window hwf hreset, Ungranted.of_out (by simp)⟩
  | defer d rest hreq hno hwait =>
      refine ⟨hs.of_client (by rw [moveToWaitQueue_client]), _,
        (moveToWaitQueue_effect env hwait).out_eq, ?_⟩
      intro m hm _
      unfold deferNotice at hm
      split at hm
      · cases hm
      · rw [List.mem_singleton.mp hm]
        exact nofun
  | promote front d back hwait hok =>
      refine ⟨hs.of_client rfl, _, (promote_effect env y front d back s).out_eq, ?_⟩
      intro m hm _
      rw [List.mem_singleton.mp hm]
      exact nofun
  | grant d rest hreq hok hsend =>
      have hd : d ∈ (s.ctx y).entries := mem_entries_of_requests (by simp [hreq])
      have hmarks := grant_marks env y d (sendMessage env d .lockOk s) c
      rw [if_neg (hpass d hok).symm] at hmarks
      refine ⟨hs.raised hctx (Raised.of_eq hmarks), _, (grantSent_effect env hd).out_eq, ?_⟩
      intro m hm hdest
      rw [List.mem_singleton.mp hm] at hdest
      exact absurd hdest (hpass d hok)
  | refuse d rest hreq hok hsend hD =>
      refine ⟨hs.of_client rfl, _, rfl, ?_⟩
      intro m hm hdest
      rw [List.mem_singleton.mp hm] at hdest
      exact absurd hdest (hpass d hok)
  | leave d hD =>
      have hmarks := leaveRunning_marks cfg env y d s c
      refine ⟨?_, Ungranted.of_out (leaveRunning_spec cfg env y d s).2.2⟩
      split at hmarks
      · rename_i hboth
        obtain ⟨rfl, -⟩ := hboth
        have hlimit : ((leaveRunning cfg env y c s).client c).coreLimit
            = (s.client c).coreLimit := (congrArg Marks.coreLimit hmarks :)
        have hthrottled : ((leaveRunning cfg env y c s).client c).isThrottled
            = (s.client c).isThrottled := (congrArg Marks.isThrottled hmarks :)
        exact ⟨hctx.trans hs.context, by rw [hlimit]; exact hs.limited,
          hthrottled.trans hs.throttled⟩
      · exact hs.raised hctx (Raised.of_eq hmarks)
  | withdraw d hD => exact ⟨hs.of_client rfl, Ungranted.of_out (by simp [dropPending])⟩
  | unlink d hD hctx hgone => exact ⟨hs.of_client rfl, Ungranted.of_out rfl⟩

theorem Suspended.move {D : ClientId → Prop} (hs : Suspended x c s) (hwf : WellFormed s)
    (h : Move cfg env D Regulated s t) (hreset : ¬ Resets cfg env x s t) :
    Suspended x c t ∧ Ungranted c s t := by
  have hknown : (s.client c).context ≠ none := by
    rw [hs.context]
    exact Option.some_ne_none x
  cases h with
  | block y h => exact hs.block hwf h hreset
  | send d m hm => exact hs.tuned (Tuned.sendMessage env d hm) (Raised.refl _)
  | limit d limit =>
      exact hs.tuned (applyInitialLimit_tuned env d limit s)
        (Raised.of_eq (applyInitialLimit_marks env d limit s c))
  | preempt y =>
      exact hs.tuned (forcePreemption_tuned env y s)
        (Raised.of_eq (forcePreemption_marks env y s c))
  | setTq v => exact hs.tuned (setTq_tuned v s) (Raised.refl _)
  | sleep y => exact hs.tuned (timerSleep_tuned cfg env y s) (Raised.refl _)
  | wake y timedOut hok =>
      exact hs.tuned (timerEnd_tuned cfg env y timedOut s) (timerEnd_raised cfg env y timedOut s c)
  | annotate id memory core hok =>
      exact hs.tuned (annotationUpdate_tuned env id memory core s)
        (Raised.of_eq (annotationUpdate_marks hok.2 env c))
  | accept garbage hok =>
      exact ⟨hs.of_client (accept_client hwf garbage hknown), Ungranted.of_out rfl⟩
  | enrol d m e hok hmem hunreg hid =>
      obtain ⟨y, -, -, -, -, -, -, hout, -⟩ := enrol_spec cfg d m e s
      exact ⟨hs.of_client (enrol_client cfg hwf m e hunreg hknown), Ungranted.of_out hout⟩
  | insert d y hok hmem hon hctx hreq => exact ⟨hs.of_client rfl, Ungranted.of_out rfl⟩
  | memory d y v hok hmem hctx =>
      obtain ⟨usage, peak, overloaded, hcredit⟩ := creditMemory_spec cfg y d v s
      refine ⟨hs.raised ?_ (Raised.of_eq (creditMemory_marks cfg y d v s c)), ?_⟩
      · rw [creditMemory_client]
        exact storeMemory_field Client.context (fun _ _ _ => rfl) d c v s
      · exact Ungranted.of_out (by rw [hcredit]; rfl)
  | unlink d hctx => exact ⟨hs.of_client rfl, Ungranted.of_out rfl⟩
  | power on d hok => exact ⟨hs.of_client rfl, Ungranted.of_out rfl⟩
  | clear s₀ d hok => exact ⟨hs.of_client rfl, Ungranted.of_out rfl⟩

/-- On the way from `s` to `t` there is a point up to which `c` is sent no LOCK_OK: the end, or
the place where the window of `x` is reset. -/
def UngrantedUntilReset (cfg : Config) (env : Env) (x : CtxId) (c : ClientId) (s t : Sched) :
    Prop :=
  ∃ p, Moves cfg env (fun _ => True) Regulated s p ∧ Ungranted c s p ∧
    (t = p ∨ ∃ q, Resets cfg env x p q ∧ Moves cfg env (fun _ => True) Regulated q t)

/-- A suspended client is sent no LOCK_OK before the window is reset. -/
theorem Suspended.until_reset (hs : Suspended x c s) (hwf : WellFormed s)
    (h : Moves cfg env (fun _ => True) Regulated s t) :
    UngrantedUntilReset cfg env x c s t := by
  -- As long as the window is not reset the client stays suspended.
  have hpoint : (Suspended x c t ∧ Ungranted c s t) ∨
      ∃ p, Moves cfg env (fun _ => True) Regulated s p ∧ Ungranted c s p ∧
        ∃ q, Resets cfg env x p q ∧ Moves cfg env (fun _ => True) Regulated q t := by
    induction h with
    | refl => exact Or.inl ⟨hs, Ungranted.of_out rfl⟩
    | tail hpath hlast ih =>
        rename_i u v
        rcases ih with ⟨hsuspended, hsilent⟩ | ⟨p, hp, hsilent, q, hreset, hq⟩
        · by_cases hreset : Resets cfg env x u v
          · exact Or.inr ⟨u, hpath, hsilent, v, hreset, Moves.refl v⟩
          · obtain ⟨hnext, hsent⟩ := hsuspended.move (Moves.wellFormed hpath hwf) hlast hreset
            exact Or.inl ⟨hnext, hsilent.trans hsent⟩
        · exact Or.inr ⟨p, hp, hsilent, q, hreset, hq.trans hlast.moves⟩
  rcases hpoint with ⟨-, hsilent⟩ | ⟨p, hp, hsilent, hreset⟩
  · exact ⟨t, h, hsilent, Or.inl rfl⟩
  · exact ⟨p, hp, hsilent, Or.inr hreset⟩

end XpuShare
