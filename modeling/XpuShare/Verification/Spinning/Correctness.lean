import XpuShare.Verification.Enforcement.Correctness

/-! # When the timer spins

A timer does not wait at all when its window has ended, a limited client that runs has used up
its quota, or the quantum has wrapped to zero. In the second case the enforcement step tells
such a client to drop the lock, unless every one of them has been told already. -/

namespace XpuShare

variable {cfg : Config} {env : Env} {x : CtxId} {s t : Sched} {c : ClientId} {now now' : ℤ}

/-! ## The sleep of length zero -/

/-- A limited client that has used up its quota at time `now`. -/
def UsedUp (cfg : Config) (s : Sched) (x : CtxId) (now : ℤ) (c : ClientId) : Prop :=
  (s.client c).coreLimit < 100 ∧ getEffectiveQuotaMs cfg s x c ≤ usageAt s x c now

/-- Usage only grows with time. -/
theorem UsedUp.mono (h : UsedUp cfg s x now c) (hle : now ≤ now') : UsedUp cfg s x now' c := by
  refine ⟨h.1, h.2.trans ?_⟩
  have hshare := Int.tdiv_le_tdiv (countRunningClients_pos s x)
    (sub_le_sub_right hle (s.client c).currentRunStartMs)
  unfold usageAt currentUsage
  omega

theorem windowRemainingMs_nonneg (cfg : Config) (g : GpuContext) (now : ℤ) :
    0 ≤ windowRemainingMs cfg g now := by
  have hwindow := cfg.window_bounds
  rw [windowRemainingMs_eq]
  split
  · exact le_max_left _ _
  · omega

/-- Nobody has told `c` to drop the lock in this window, as far as its marks say. -/
def Unmarked (s : Sched) (c : ClientId) : Prop :=
  (s.client c).isThrottled = false ∧ (s.client c).pendingDrop = false

theorem throttleClient_of_not {count now : ℤ}
    (h : ¬ ((s.client c).coreLimit < 100 ∧ Unmarked s c ∧
      getEffectiveQuotaMs cfg s x c ≤ currentUsage s count now c)) :
    throttleClient cfg env x count now s c = s := by
  unfold throttleClient
  apply if_neg
  rintro ⟨hlimit, hfree, hheld, hused⟩
  exact h ⟨hlimit, ⟨by simpa using hfree, by simpa using hheld⟩, hused⟩

theorem throttleClient_of_test {count now : ℤ}
    (h : (s.client c).coreLimit < 100 ∧ Unmarked s c ∧
      getEffectiveQuotaMs cfg s x c ≤ currentUsage s count now c) :
    (throttleClient cfg env x count now s c).out =
      s.out ++ [⟨c, .dropLock, sendSucceeds env c s⟩] := by
  obtain ⟨hlimit, ⟨hfree, hheld⟩, hused⟩ := h
  unfold throttleClient
  simp only [hlimit, hfree, hheld, hused, Bool.not_false, and_self, if_true]
  rfl

theorem throttleClient_out (count now : ℤ) (s : Sched) (c : ClientId) :
    ∃ new, (throttleClient cfg env x count now s c).out = s.out ++ new := by
  obtain ⟨new, hout, -⟩ := (throttleClient_tuned cfg env x count now s c).sent
  exact ⟨new, hout⟩

/-- Throttling takes no mark away. -/
theorem throttleClient_marked {count now : ℤ} {d : ClientId}
    (h : (s.client d).isThrottled = true) :
    ((throttleClient cfg env x count now s c).client d).isThrottled = true := by
  unfold throttleClient
  simp only
  split
  · rw [sendMessage_client, Sched.modifyClient_client]
    split
    · rfl
    · exact h
  · exact h

theorem throttleClient_marks {count now : ℤ}
    (h : (s.client c).coreLimit < 100 ∧ Unmarked s c ∧
      getEffectiveQuotaMs cfg s x c ≤ currentUsage s count now c) :
    ((throttleClient cfg env x count now s c).client c).isThrottled = true := by
  obtain ⟨hlimit, ⟨hfree, hheld⟩, hused⟩ := h
  unfold throttleClient
  simp only [hlimit, hfree, hheld, hused, Bool.not_false, and_self, if_true]
  rw [sendMessage_client, Sched.modifyClient_client_self]

/-- The loop over the running clients marks somebody if its test holds of one of them at its
beginning. -/
theorem enforceLoop_marks (env : Env) (count now : ℤ) (l : List ClientId) (s : Sched)
    (h : ∃ c ∈ l, (s.client c).coreLimit < 100 ∧ Unmarked s c ∧
      getEffectiveQuotaMs cfg s x c ≤ currentUsage s count now c) :
    ∃ c ∈ l, (s.client c).isThrottled = false ∧
      ((l.foldl (throttleClient cfg env x count now) s).client c).isThrottled = true := by
  induction l generalizing s with
  | nil =>
      obtain ⟨c, hc, -⟩ := h
      cases hc
  | cons c l ih =>
      rw [List.foldl_cons]
      by_cases htest : (s.client c).coreLimit < 100 ∧ Unmarked s c ∧
          getEffectiveQuotaMs cfg s x c ≤ currentUsage s count now c
      · refine ⟨c, List.mem_cons_self, htest.2.1.1, ?_⟩
        refine List.foldlRecOn (motive := fun u : Sched => (u.client c).isThrottled = true) _ _
          (throttleClient_marks htest) ?_
        intro u hu d _
        exact throttleClient_marked hu
      · rw [throttleClient_of_not htest]
        obtain ⟨d, hd, hpass⟩ := h
        have hdl : d ∈ l := by
          rcases List.mem_cons.mp hd with rfl | hdl
          · exact absurd hpass htest
          · exact hdl
        obtain ⟨m, hm, hbefore, hafter⟩ := ih s ⟨d, hdl, hpass⟩
        exact ⟨m, List.mem_cons_of_mem c hm, hbefore, hafter⟩

/-- The loop over the running clients sends something if and only if its test holds of one of
them at its beginning: the first of them is reached in the state before the loop. -/
theorem enforceLoop_sends_iff (hsent : env.AllSent) (count now : ℤ) (l : List ClientId)
    (s : Sched) :
    (∃ c before after, (l.foldl (throttleClient cfg env x count now) s).out =
        s.out ++ before ++ ⟨c, .dropLock, true⟩ :: after) ↔
      ∃ c ∈ l, (s.client c).coreLimit < 100 ∧ Unmarked s c ∧
        getEffectiveQuotaMs cfg s x c ≤ currentUsage s count now c := by
  induction l generalizing s with
  | nil =>
      constructor
      · rintro ⟨c, before, after, hout⟩
        have hlength := congrArg List.length hout
        simp at hlength
      · rintro ⟨c, hc, -⟩
        cases hc
  | cons c l ih =>
      rw [List.foldl_cons]
      by_cases htest : (s.client c).coreLimit < 100 ∧ Unmarked s c ∧
          getEffectiveQuotaMs cfg s x c ≤ currentUsage s count now c
      · refine iff_of_true ?_ ⟨c, List.mem_cons_self, htest⟩
        have hfirst : (throttleClient cfg env x count now s c).out =
            s.out ++ [⟨c, .dropLock, sendSucceeds env c s⟩] := throttleClient_of_test htest
        obtain ⟨after, hrest⟩ : ∃ after, (l.foldl (throttleClient cfg env x count now)
            (throttleClient cfg env x count now s c)).out =
            (throttleClient cfg env x count now s c).out ++ after := by
          refine List.foldlRecOn (motive := fun u : Sched => ∃ after, u.out =
            (throttleClient cfg env x count now s c).out ++ after) _ _ ⟨[], by simp⟩ ?_
          rintro u ⟨after, hu⟩ d _
          obtain ⟨new, hnew⟩ : ∃ new, (throttleClient cfg env x count now u d).out =
              u.out ++ new := throttleClient_out count now u d
          exact ⟨after ++ new, by rw [hnew, hu, List.append_assoc]⟩
        refine ⟨c, [], after, ?_⟩
        rw [hrest, hfirst, sendSucceeds, hsent]
        simp
      · rw [throttleClient_of_not htest, ih s, List.exists_mem_cons_iff]
        simp [htest]

/-! ## Spinning -/

/-- The enforcement step, in state `t`, tells somebody to drop the lock. -/
def Drops (cfg : Config) (env : Env) (x : CtxId) (t : Sched) : Prop :=
  ∃ c before after,
    (enforceLimits cfg env x t).out = t.out ++ before ++ ⟨c, .dropLock, true⟩ :: after

theorem drops_iff (hsent : env.AllSent) (cfg : Config) (x : CtxId) (t : Sched) :
    Drops cfg env x t ↔ ∃ c ∈ (t.ctx x).runningList,
      UsedUp cfg t x (currentTimeMs env t) c ∧ Unmarked t c := by
  refine (enforceLoop_sends_iff hsent (countRunningClients t x) (currentTimeMs env t)
    (t.ctx x).runningList t.tick).trans (exists_congr fun c => and_congr_right fun _ => ?_)
  constructor
  · rintro ⟨hlimit, hmarks, hused⟩
    exact ⟨⟨hlimit, hused⟩, hmarks⟩
  · rintro ⟨⟨hlimit, hused⟩, hmarks⟩
    exact ⟨hlimit, hmarks, hused⟩

/-! ## An iteration -/

/-- One that has used up its quota is not. -/
def Droppable (cfg : Config) (x : CtxId) (now : ℤ) (s : Sched) : Prop :=
  ∃ c ∈ (s.ctx x).runningList, UsedUp cfg s x now c ∧ Unmarked s c

theorem Droppable.mono (h : Droppable cfg x now s) (hle : now ≤ now') :
    Droppable cfg x now' s := by
  obtain ⟨c, hc, hused, hmarks⟩ := h
  exact ⟨c, hc, hused.mono hle, hmarks⟩

/-- Whoever is told to drop the lock is marked as throttled, and was not before. -/
theorem Drops.marks (hsent : env.AllSent) (h : Drops cfg env x t) :
    ∃ c ∈ (t.ctx x).runningList, (t.client c).isThrottled = false ∧
      ((enforceLimits cfg env x t).client c).isThrottled = true := by
  obtain ⟨c, hc, ⟨hlimit, hused⟩, hmarks⟩ := (drops_iff hsent cfg x t).mp h
  exact enforceLoop_marks env (countRunningClients t x) (currentTimeMs env t)
    (t.ctx x).runningList t.tick ⟨c, hc, hlimit, hmarks, hused⟩

/-- A switch time of 2 ^ 29 s makes a quantum of zero. -/
example (g : GpuContext) : defaultTqMs (initConfig (environment
    [("NVSHARE_SWITCH_TIME_MODE", "fixed"),
      ("NVSHARE_SWITCH_TIME_FIXED", "536870912")])) g = 0 := by
  rfl

end XpuShare
