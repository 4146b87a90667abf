import XpuShare.Verification.Scheduler.Moves

/-! # Drop marks

The two flags that a timer sets on a client it tells to drop the lock, with the compute
limit that decides what they mean. Scheduling only ever lowers the flags. -/

namespace XpuShare

variable {cfg : Config} {env : Env} {x : CtxId} {s t : Sched} {c d : ClientId}

/-- The fields of a record that say whether its client is being dropped. -/
structure Marks where
  coreLimit : ℤ
  isThrottled : Bool
  pendingDrop : Bool
  deriving DecidableEq

def Client.marks (r : Client) : Marks := ⟨r.coreLimit, r.isThrottled, r.pendingDrop⟩

/-- The marks after a window reset. -/
def Marks.freed (m : Marks) : Marks := { m with isThrottled := false }

/-- The marks when a grant begins or ends. -/
def Marks.undropped (m : Marks) : Marks := { m with pendingDrop := false }

/-- The limit is kept and no flag is raised. -/
structure Eased (m m' : Marks) : Prop where
  coreLimit : m'.coreLimit = m.coreLimit
  pendingDrop : m'.pendingDrop = true → m.pendingDrop = true
  isThrottled : m'.isThrottled = true → m.isThrottled = true

theorem Eased.of_eq {m m' : Marks} (h : m' = m) : Eased m m' := by
  subst h
  exact ⟨rfl, fun hm => hm, fun hm => hm⟩

theorem Eased.freed (m : Marks) : Eased m m.freed :=
  ⟨rfl, fun hm => hm, fun hm => absurd hm Bool.false_ne_true⟩

theorem Eased.undropped (m : Marks) : Eased m m.undropped :=
  ⟨rfl, fun hm => absurd hm Bool.false_ne_true, fun hm => hm⟩

theorem modifyClient_marks {f : Client → Client} (hf : (f (s.client c)).marks = (s.client c).marks)
    (d : ClientId) : ((s.modifyClient c f).client d).marks = (s.client d).marks := by
  rw [Sched.modifyClient_client]
  split
  · rename_i hd
    rw [hf, hd]
  · rfl

/-- Whom the quota test lets pass is unlimited or not marked as throttled. -/
theorem unlimited_or_free_of_canRun (h : canRunTest cfg s x c = true) :
    100 ≤ (s.client c).coreLimit ∨ (s.client c).isThrottled = false := by
  simp only [canRunTest, quotaAllows, Bool.and_eq_true, Bool.or_eq_true, decide_eq_true_eq,
    Bool.not_eq_true'] at h
  exact h.1.imp_right And.left

/-! ## Settling and window checks -/

theorem accrue_marks (x : CtxId) (now : ℤ) (exclude : Option ClientId) (s : Sched)
    (c : ClientId) :
    ((accrueRunningUsage x now exclude s).client c).marks = (s.client c).marks := by
  refine Loop.foldl_proj (π := fun u : Sched => (u.client c).marks) (fun u d => ?_) _ s
  unfold accrueClient
  simp only
  split
  · rfl
  · apply modifyClient_marks
    rfl

theorem resetClient_eased (cfg : Config) (x : CtxId) (s : Sched) (d c : ClientId) :
    ((resetClient cfg x s d).client c).marks = (s.client c).marks ∨
      ((resetClient cfg x s d).client c).marks =
        (s.client c).marks.freed := by
  unfold resetClient
  split
  · simp only [Sched.modifyClient_client]
    split
    · rename_i hc
      rw [hc]
      exact Or.inr rfl
    · exact Or.inl rfl
  · exact Or.inl rfl

/-- A window check may free a client that was throttled. -/
theorem freshWindow_marks (cfg : Config) (env : Env) (x : CtxId) (s : Sched) (c : ClientId) :
    ((freshWindow cfg env x s).client c).marks = (s.client c).marks ∨
      ((freshWindow cfg env x s).client c).marks =
        (s.client c).marks.freed := by
  unfold freshWindow checkAndResetWindow
  simp only
  split
  · unfold resetWindow
    refine List.foldlRecOn (motive := fun u : Sched => (u.client c).marks = (s.client c).marks ∨
      (u.client c).marks = (s.client c).marks.freed) _ _ ?_ ?_
    · exact Or.inl (accrue_marks x _ none _ c)
    · intro u hu d _
      rcases resetClient_eased cfg x u d c with hsame | hfreed
      · rwa [hsame]
      · right
        rcases hu with hu | hu
        · rw [hfreed, hu]
        · rw [hfreed, hu]
          rfl
  · exact Or.inl rfl

/-! ## Grants and releases -/

theorem grant_marks (env : Env) (x : CtxId) (c : ClientId) (s : Sched) (d : ClientId) :
    ((grant env x c s).client d).marks =
      if d = c then (s.client c).marks.undropped else (s.client d).marks := by
  have hsettled : ∀ e, ((settleRunners env x s).client e).marks = (s.client e).marks := by
    intro e
    unfold settleRunners
    split
    · rfl
    · exact accrue_marks x _ none _ e
  unfold grant
  simp only [Sched.modifyCtx_client, Sched.modifyClient_client, Sched.tick_client]
  split
  · rw [← hsettled c]
    rfl
  · exact hsettled d

/-- Who runs after the lock has been granted to `c`: `c`, with a new start, and those who ran
before, with the marks they had. -/
theorem grantSent_running {rest : List ClientId} {y : CtxId}
    (hreq : (s.ctx x).requests = c :: rest)
    (hd : d ∈ ((grant env x c (sendMessage env c .lockOk s)).ctx y).runningList) :
    (d = c ∧ ((grant env x c (sendMessage env c .lockOk s)).client d).marks =
        (s.client d).marks.undropped) ∨
      (d ≠ c ∧ d ∈ (s.ctx y).runningList ∧
        ((grant env x c (sendMessage env c .lockOk s)).client d).marks =
          (s.client d).marks) := by
  have hc : c ∈ (s.ctx x).entries := mem_entries_of_requests (by simp [hreq])
  have heff := grantSent_effect env hc
  have hmarks := grant_marks env x c (sendMessage env c .lockOk s) d
  generalize grant env x c (sendMessage env c .lockOk s) = t at heff hmarks hd ⊢
  by_cases hdc : d = c
  · subst hdc
    rw [if_pos rfl] at hmarks
    exact Or.inl ⟨rfl, hmarks⟩
  · rw [if_neg hdc] at hmarks
    refine Or.inr ⟨hdc, ?_, hmarks⟩
    by_cases hy : y = x
    · subst hy
      have hrunning : (t.ctx y).runningList = (s.ctx y).runningList ++ [c] :=
        congrArg LockTable.running heff.table_eq
      rw [hrunning, List.mem_append, List.mem_singleton] at hd
      exact hd.resolve_right hdc
    · rwa [heff.ctx_ne y hy] at hd

theorem leaveRunning_marks (cfg : Config) (env : Env) (x : CtxId) (c : ClientId) (s : Sched)
    (d : ClientId) : ((leaveRunning cfg env x c s).client d).marks =
      if d = c ∧ c ∈ (s.ctx x).runningList then (s.client c).marks.undropped
      else (s.client d).marks := by
  have hclear : ∀ u, (clearLock x u).client = u.client := by
    intro u
    unfold clearLock
    split <;> rfl
  unfold leaveRunning
  rw [hclear]
  by_cases hc : c ∈ (s.ctx x).runningList
  · rw [if_pos hc]
    unfold releaseRunning
    simp only [Sched.modifyCtx_client, Sched.modifyClient_client, hc, and_true]
    have hsettled := fun e => accrue_marks x
      (currentTimeMs env (giveBackMemory x (s.client c).memoryAllocated s)) (some c)
      (giveBackMemory x (s.client c).memoryAllocated s).tick e
    split
    · rw [show (s.client c).marks = _ from (hsettled c).symm]
      rfl
    · exact hsettled d
  · rw [if_neg hc, if_neg fun h => hc h.2]

/-- A block raises no flag. -/
theorem Block.eased {D : Exits} (h : Block cfg env D x s t) (d : ClientId) :
    Eased (s.client d).marks (t.client d).marks := by
  cases h with
  | window =>
      rcases freshWindow_marks cfg env x s d with hsame | hfreed
      · exact Eased.of_eq hsame
      · rw [hfreed]
        exact Eased.freed _
  | defer c rest hreq hno hwait => exact Eased.of_eq (by rw [moveToWaitQueue_client])
  | promote front c back hwait hok => exact Eased.of_eq rfl
  | grant c rest hreq hok hsend =>
      rw [grant_marks]
      split
      · rename_i hd
        rw [hd]
        exact Eased.undropped _
      · exact Eased.of_eq rfl
  | refuse c rest hreq hok hsend hD => exact Eased.of_eq rfl
  | leave c hD =>
      rw [leaveRunning_marks]
      split
      · rename_i hd
        rw [hd.1]
        exact Eased.undropped _
      · exact Eased.of_eq rfl
  | withdraw c hD => exact Eased.of_eq rfl
  | unlink c hD hctx hgone => exact Eased.of_eq rfl

/-! ## The other moves -/

theorem forcePreemption_marks (env : Env) (x : CtxId) (s : Sched) (c : ClientId) :
    ((forcePreemption env x s).client c).marks = (s.client c).marks := by
  refine Loop.foldl_proj (π := fun u : Sched => (u.client c).marks) (fun u d => ?_) _ s
  unfold preemptClient
  simp only
  split
  · apply modifyClient_marks
    rfl
  · rfl

theorem applyInitialLimit_marks (env : Env) (c : ClientId) (limit : Option ℕ) (s : Sched)
    (d : ClientId) : ((applyInitialLimit env c limit s).client d).marks = (s.client d).marks := by
  unfold applyInitialLimit
  split
  · split
    · rw [sendMessage_client]
      apply modifyClient_marks
      rfl
    · rfl
  · rfl

theorem creditMemory_marks (cfg : Config) (x : CtxId) (c : ClientId) (v : ℕ) (s : Sched)
    (d : ClientId) : ((creditMemory cfg x c v s).client d).marks = (s.client d).marks := by
  rw [creditMemory_client]
  exact storeMemory_field Client.marks (fun _ _ _ => rfl) c d v s

/-- A new connection and a registration leave the records of registered clients alone. -/
theorem accept_client (hwf : WellFormed s) (garbage : Client)
    (hc : (s.client c).context ≠ none) : (accept garbage s).client c = s.client c := by
  have hne : c ≠ s.nalloc := by
    rintro rfl
    exact hc (hwf.fresh _ le_rfl)
  simp [accept, hne]

theorem enrol_client (cfg : Config) (hwf : WellFormed s) (m : RegisterMsg) (e : RegisterEnv)
    (hunreg : hasRegistered s d = false) (hc : (s.client c).context ≠ none) :
    (enrol cfg d m e s).client c = s.client c := by
  have hne : c ≠ d := by
    rintro rfl
    exact hc (hwf.context_eq_none hunreg)
  obtain ⟨y, hclient, -⟩ := enrol_spec cfg d m e s
  rw [hclient, Function.update_of_ne hne]

theorem updateMemoryLimit_marks (env : Env) (c : ClientId) (limit : Option ℕ) (s : Sched)
    (d : ClientId) : ((updateMemoryLimit env c limit s).client d).marks = (s.client d).marks := by
  unfold updateMemoryLimit
  split
  · split
    · rw [sendMessage_client]
      apply modifyClient_marks
      rfl
    · rfl
  · rfl

/-- The queues of a context that a registration creates are empty. -/
theorem enrol_lists (cfg : Config) (c : ClientId) (m : RegisterMsg) (e : RegisterEnv) (s : Sched)
    (y : CtxId) : ((enrol cfg c m e s).ctx y).runningList ⊆ (s.ctx y).runningList ∧
      ((enrol cfg c m e s).ctx y).pending ⊆ (s.ctx y).pending := by
  obtain ⟨x, -, -, -, -, -, -, -, hctx⟩ := enrol_spec cfg c m e s
  rcases hctx with ⟨-, hctx⟩ | ⟨-, hctx⟩
  · rw [hctx]
    exact ⟨List.Subset.refl _, List.Subset.refl _⟩
  · rw [hctx, Function.update_apply]
    split
    · exact ⟨List.nil_subset _, List.nil_subset _⟩
    · exact ⟨List.Subset.refl _, List.Subset.refl _⟩

end XpuShare
