import XpuShare.Verification.DropTail.Correctness
import XpuShare.Verification.Enforcement.Throttled

/-! # The timer enforces the quotas

A timer sleeps no longer than the remaining quota of any running client takes at the present
concurrency, rounded up to 10 ms. When it wakes it tells every limited client that has used
up its quota to drop the lock. -/

namespace XpuShare

variable {cfg : Config} {env : Env} {x : CtxId} {s s₁ s₂ t : Sched} {c : ClientId}

/-! ## The sleep -/

/-- Time that is at most `r` shares long adds at most `r` to the share of a run. -/
theorem tdiv_add_le {a k r n : ℤ} (hn : 0 < n) (hr : 0 ≤ r) (hk : k ≤ r * n) :
    (a + k).tdiv n ≤ a.tdiv n + r := by
  have hfloor : ∀ b : ℤ, b ≤ a + r * n → b / n ≤ a / n + r := by
    intro b hb
    rw [← Int.add_mul_ediv_right a r hn.ne']
    exact Int.ediv_le_ediv hn hb
  have hceil : ∀ b : ℤ, b ≤ 0 → b.tdiv n = -(-b / n) := by
    intro b hb
    rw [← Int.tdiv_eq_ediv_of_nonneg (by omega), Int.neg_tdiv, neg_neg]
  rcases le_or_gt 0 a with ha | ha
  · have hshare : 0 ≤ a.tdiv n := Int.tdiv_nonneg ha hn.le
    rcases le_or_gt 0 (a + k) with hak | hak
    · rw [Int.tdiv_eq_ediv_of_nonneg hak, Int.tdiv_eq_ediv_of_nonneg ha]
      exact hfloor (a + k) (by omega)
    · have hquotient : 0 ≤ -(a + k) / n := Int.ediv_nonneg (by omega) hn.le
      rw [hceil (a + k) hak.le]
      omega
  · rcases le_or_gt (a + k) 0 with hak | hak
    · have hle : -a + -r * n ≤ -(a + k) := by
        rw [neg_mul]
        omega
      have hquotient := Int.ediv_le_ediv hn hle
      rw [Int.add_mul_ediv_right _ _ hn.ne'] at hquotient
      rw [hceil (a + k) hak, hceil a ha.le]
      omega
    · -- The share of a negative run is rounded up, so it is at least the floor.
      have hbelow : a / n ≤ a.tdiv n := by
        rw [Int.tdiv_eq_ediv, Int.sign_eq_one_of_pos hn]
        split <;> omega
      rw [Int.tdiv_eq_ediv_of_nonneg hak.le]
      exact (hfloor (a + k) (by omega)).trans (by omega)

/-- The longest sleep that the quota of one client leaves room for. -/
def quotaSleep (cfg : Config) (s : Sched) (x : CtxId) (now : ℤ) (c : ClientId) : ℤ :=
  max 0 (getEffectiveQuotaMs cfg s x c - currentUsage s (countRunningClients s x) now c) *
    countRunningClients s x

theorem quotaSleep_nonneg (cfg : Config) (s : Sched) (x : CtxId) (now : ℤ) (c : ClientId) :
    0 ≤ quotaSleep cfg s x now c :=
  mul_nonneg (le_max_left _ _) (countRunningClients_pos s x).le

/-- One pass of the loop over the running clients keeps the sleep below a bound that is not
negative. -/
theorem sleepForClient_le {bound sleep : ℤ} (hbound : 0 ≤ bound) (hsleep : sleep ≤ bound)
    (now : ℤ) (d : ClientId) : sleepForClient cfg s x now sleep d ≤ bound := by
  rw [sleepForClient_eq]
  split
  · split
    · exact hbound
    · exact (min_le_left _ _).trans hsleep
  · exact hsleep

theorem sleepForClient_self_le (hlimit : (s.client c).coreLimit < 100) (now sleep : ℤ) :
    sleepForClient cfg s x now sleep c ≤ quotaSleep cfg s x now c := by
  rw [sleepForClient_eq, if_pos hlimit]
  split
  · exact quotaSleep_nonneg cfg s x now c
  · rename_i hleft
    refine (min_le_right _ _).trans ?_
    unfold quotaSleep
    rw [max_eq_right (by omega)]

theorem sleepLoop_le (cfg : Config) (x : CtxId) {l : List ClientId} (hc : c ∈ l)
    (hlimit : (s.client c).coreLimit < 100) (now sleep : ℤ) :
    l.foldl (sleepForClient cfg s x now) sleep ≤ quotaSleep cfg s x now c := by
  obtain ⟨front, back, rfl⟩ := List.append_of_mem hc
  rw [List.foldl_append, List.foldl_cons]
  refine List.foldlRecOn (motive := (· ≤ quotaSleep cfg s x now c)) back _ ?_ ?_
  · exact sleepForClient_self_le hlimit now _
  · intro sleep hsleep d _
    exact sleepForClient_le (quotaSleep_nonneg cfg s x now c) hsleep now d

/-- The sleep ends before the quota of a limited client is used up, or it lasts 10 ms because
some quota is nearly used up. -/
theorem minSleepMs_le (cfg : Config) (hc : c ∈ (s.ctx x).runningList)
    (hlimit : (s.client c).coreLimit < 100) (now : ℤ) :
    minSleepMs cfg s x now ≤ quotaSleep cfg s x now c ∨
      minSleepMs cfg s x now = 10 ∧ 0 < quotaSleep cfg s x now c := by
  have hloop := sleepLoop_le cfg x hc hlimit now
    (min (defaultTqMs cfg (s.ctx x)) (windowRemainingMs cfg (s.ctx x) now))
  have hclamp : ∀ capped remaining : ℤ, capped ≤ quotaSleep cfg s x now c →
      (if 0 < capped ∧ capped < 10 ∧ 10 < remaining then 10 else capped)
          ≤ quotaSleep cfg s x now c ∨
        (if 0 < capped ∧ capped < 10 ∧ 10 < remaining then 10 else capped) = 10 ∧
          0 < quotaSleep cfg s x now c := by
    intro capped remaining hcapped
    split
    · rename_i hshort
      exact Or.inr ⟨rfl, hshort.1.trans_le hcapped⟩
    · exact Or.inl hcapped
  rw [minSleepMs_eq]
  apply hclamp
  refine (min_le_left _ _).trans ?_
  split
  · exact (min_le_left _ _).trans hloop
  · exact hloop

/-- When the sleep is over, no limited client has used more than it had when the sleep was
computed, or more than 10 ms beyond its quota. -/
theorem usage_after_sleep (hc : c ∈ (s.ctx x).runningList)
    (hlimit : (s.client c).coreLimit < 100) (now : ℤ) :
    currentUsage s (countRunningClients s x) (now + minSleepMs cfg s x now) c ≤
      max (currentUsage s (countRunningClients s x) now c)
        (getEffectiveQuotaMs cfg s x c + 10) := by
  have hcount := countRunningClients_pos s x
  have hsplit : now + minSleepMs cfg s x now - (s.client c).currentRunStartMs =
      now - (s.client c).currentRunStartMs + minSleepMs cfg s x now := by omega
  have hgrow : ∀ r, 0 ≤ r → minSleepMs cfg s x now ≤ r * countRunningClients s x →
      currentUsage s (countRunningClients s x) (now + minSleepMs cfg s x now) c ≤
        currentUsage s (countRunningClients s x) now c + r := by
    intro r hr hsleep
    have hshare := tdiv_add_le (a := now - (s.client c).currentRunStartMs) hcount hr hsleep
    unfold currentUsage
    rw [hsplit]
    omega
  rcases minSleepMs_le cfg hc hlimit now with hquota | ⟨hten, hleft⟩
  · have husage := hgrow _ (le_max_left _ _) hquota
    omega
  · have hten' : minSleepMs cfg s x now ≤ 10 * countRunningClients s x := by omega
    have husage := hgrow 10 (by norm_num) hten'
    have hroom :
        currentUsage s (countRunningClients s x) now c < getEffectiveQuotaMs cfg s x c := by
      by_contra hover
      have hzero : max 0 (getEffectiveQuotaMs cfg s x c -
          currentUsage s (countRunningClients s x) now c) = 0 := max_eq_left (by omega)
      rw [quotaSleep, hzero, zero_mul] at hleft
      exact lt_irrefl _ hleft
    omega

/-! ## The enforcement step -/

theorem throttleClient_static (cfg : Config) (env : Env) (x : CtxId) (count now : ℤ) (s : Sched)
    (c d : ClientId) :
    ((throttleClient cfg env x count now s c).client d).static = (s.client d).static := by
  unfold throttleClient
  simp only
  split
  · rw [sendMessage_client, Sched.modifyClient_client]
    split
    · rename_i hd
      rw [hd]
      rfl
    · rfl
  · rfl

theorem rotateClient_static (env : Env) (count now : ℤ) (s : Sched) (c d : ClientId) :
    ((rotateClient env count now s c).client d).static = (s.client d).static := by
  unfold rotateClient
  simp only
  split
  · rw [sendMessage_client, Sched.modifyClient_client]
    split
    · rename_i hd
      rw [hd]
      rfl
    · rfl
  · rfl

theorem throttleClient_quota (cfg : Config) (env : Env) (x : CtxId) (count now : ℤ) (s : Sched)
    (c d : ClientId) : getEffectiveQuotaMs cfg (throttleClient cfg env x count now s c) x d =
      getEffectiveQuotaMs cfg s x d :=
  getEffectiveQuotaMs_congr (throttleClient_tuned cfg env x count now s c).clients
    (throttleClient_static cfg env x count now s c) x d

/-- The test of the enforcement step on a record with a given quota. -/
def Overdrawn (count now : ℤ) (r : Client) (quota : ℤ) : Prop :=
  r.coreLimit < 100 ∧ r.isThrottled = false ∧ r.pendingDrop = false ∧
    quota ≤ r.runTimeInWindowMs + (now - r.currentRunStartMs).tdiv count

/-- What the loop reads and writes of a client: its record, the messages sent to it and its
quota. -/
def Sched.standing (cfg : Config) (x : CtxId) (s : Sched) (c : ClientId) :
    (Client × List Sent) × ℤ :=
  (s.view c, getEffectiveQuotaMs cfg s x c)

/-- A visit tells an overdrawn client to drop the lock and leaves the others alone. -/
def Enforced (count now : ℤ) (c : ClientId) (p p' : (Client × List Sent) × ℤ) : Prop :=
  (Overdrawn count now p.1.1 p.2 → throttledAt count now p.1.1 p'.1.1 ∧
      p'.1.2 = p.1.2 ++ [⟨c, .dropLock, true⟩]) ∧
    (¬ Overdrawn count now p.1.1 p.2 → p'.1 = p.1)

theorem throttleClient_standing_ne (cfg : Config) (env : Env) (x : CtxId) (count now : ℤ)
    (s : Sched) (c d : ClientId) (h : d ≠ c) :
    (throttleClient cfg env x count now s c).standing cfg x d = s.standing cfg x d :=
  Prod.ext (throttleClient_view_ne cfg env x count now s c d h)
    (throttleClient_quota cfg env x count now s c d)

theorem throttleClient_standing (hsent : env.AllSent) (cfg : Config) (x : CtxId) {count : ℤ}
    (hcount : 0 < count) (now : ℤ) (s : Sched) (c : ClientId) :
    Enforced count now c (s.standing cfg x c)
      ((throttleClient cfg env x count now s c).standing cfg x c) := by
  have htest : Overdrawn count now (s.client c) (getEffectiveQuotaMs cfg s x c) ↔
      (s.client c).coreLimit < 100 ∧ (!(s.client c).isThrottled) = true ∧
        (!(s.client c).pendingDrop) = true ∧
        getEffectiveQuotaMs cfg s x c ≤ currentUsage s count now c := by
    simp only [Overdrawn, currentUsage, Bool.not_eq_true']
  constructor
  · intro hover
    have hover' := htest.mp hover
    have hthrottle : throttleClient cfg env x count now s c =
        sendMessage env c .dropLock (s.modifyClient c fun r =>
          { r with
            isThrottled := true, pendingDrop := true
            dropConcurrency := if 0 < count then count else 1
            runTimeInWindowMs := currentUsage s count now c
            currentRunStartMs := now, lastDropSentMs := now }) := by
      unfold throttleClient
      exact if_pos hover'
    rw [hthrottle]
    refine ⟨⟨hover.2.2.1, ?_⟩, ?_⟩
    · simp [Sched.standing, Sched.view, currentUsage, hcount]
    · simp only [Sched.standing, Sched.view]
      rw [sendsTo_sendMessage_self, sendSucceeds, hsent]
      rfl
  · intro hunder
    have hsame : throttleClient cfg env x count now s c = s := by
      unfold throttleClient
      exact if_neg fun hover => hunder (htest.mpr hover)
    rw [hsame]

theorem enforceLimits_standing (hsent : env.AllSent) (cfg : Config)
    (hnodup : (s.ctx x).runningList.Nodup) (hc : c ∈ (s.ctx x).runningList) :
    Enforced (countRunningClients s x) (currentTimeMs env s) c (s.standing cfg x c)
      ((enforceLimits cfg env x s).standing cfg x c) :=
  Loop.foldl_visit (π := Sched.standing cfg x) (R := Enforced _ _)
    (throttleClient_standing_ne cfg env x _ _)
    (throttleClient_standing hsent cfg x (countRunningClients_pos s x) _) hnodup hc s.tick

/-- Rotation leaves a throttled client alone and bills nobody. -/
def Spared (p p' : Client × List Sent) : Prop :=
  (p.1.isThrottled = true → p' = p) ∧ p'.1.isThrottled = p.1.isThrottled ∧
    p'.1.runTimeInWindowMs = p.1.runTimeInWindowMs ∧
    p'.1.currentRunStartMs = p.1.currentRunStartMs

theorem rotateClient_spared (env : Env) (count now : ℤ) (s : Sched) (c : ClientId) :
    Spared (s.view c) ((rotateClient env count now s c).view c) := by
  unfold rotateClient
  simp only
  split
  · rename_i hrotate
    refine ⟨fun hthrottled => ?_, by simp [Sched.view], by simp [Sched.view], by simp [Sched.view]⟩
    have hthrottled' : (s.client c).isThrottled = true := hthrottled
    simp [hthrottled'] at hrotate
  · exact ⟨fun _ => rfl, rfl, rfl, rfl⟩

theorem rotateRunning_spared (env : Env) (hnodup : (s.ctx x).runningList.Nodup)
    (hc : c ∈ (s.ctx x).runningList) : Spared (s.view c) ((rotateRunning env x s).view c) :=
  Loop.foldl_visit (π := Sched.view) (R := fun _ => Spared) (rotateClient_view_ne env _ _)
    (rotateClient_spared env _ _) hnodup hc s.tick

theorem Spared.refl (p : Client × List Sent) : Spared p p := ⟨fun _ => rfl, rfl, rfl, rfl⟩

theorem timerEnd_spared (cfg : Config) (env : Env) (timedOut : Bool)
    (hnodup : (s.ctx x).runningList.Nodup) (hc : c ∈ (s.ctx x).runningList) :
    Spared ((enforceLimits cfg env x s).view c) ((timerEnd cfg env x timedOut s).view c) := by
  have hrun := (enforceLimits_tuned cfg env x s).runningList x
  unfold timerEnd
  simp only
  split
  · exact rotateRunning_spared env (hrun ▸ hnodup) (hrun ▸ hc)
  · exact Spared.refl _

theorem timerEnd_static (cfg : Config) (env : Env) (x : CtxId) (timedOut : Bool) (s : Sched)
    (d : ClientId) :
    ((timerEnd cfg env x timedOut s).client d).static = (s.client d).static := by
  have henforced : ((enforceLimits cfg env x s).client d).static = (s.client d).static :=
    Loop.foldl_proj (π := fun u : Sched => (u.client d).static)
      (fun u c => throttleClient_static cfg env x _ _ u c d) _ s.tick
  unfold timerEnd
  simp only
  split
  · exact (Loop.foldl_proj (π := fun u : Sched => (u.client d).static)
      (fun u c => rotateClient_static env _ _ u c d) _ (enforceLimits cfg env x s).tick).trans
      henforced
  · exact henforced

/-- Usage of a running client at time `now`: what it has been billed, and its share of the run
since. -/
def usageAt (s : Sched) (x : CtxId) (c : ClientId) (now : ℤ) : ℤ :=
  currentUsage s (countRunningClients s x) now c

theorem countRunningClients_timerEnd (cfg : Config) (env : Env) (x : CtxId) (timedOut : Bool)
    (s : Sched) :
    countRunningClients (timerEnd cfg env x timedOut s) x = countRunningClients s x :=
  countRunningClients_congr ((timerEnd_tuned cfg env x timedOut s).runningList x)
    fun d _ => coreLimit_of_static (timerEnd_static cfg env x timedOut s d)

/-- After a wake-up, a limited client that was not being dropped is below its quota, or has
been told to drop the lock and is marked. -/
theorem timerEnd_enforces (hsent : env.AllSent) (cfg : Config) (timedOut : Bool)
    (hnodup : (s.ctx x).runningList.Nodup) (hc : c ∈ (s.ctx x).runningList)
    (hlimit : (s.client c).coreLimit < 100) (hthrottled : (s.client c).isThrottled = false)
    (hpending : (s.client c).pendingDrop = false) :
    (usageAt (timerEnd cfg env x timedOut s) x c (currentTimeMs env s) <
        getEffectiveQuotaMs cfg (timerEnd cfg env x timedOut s) x c ∧
      ((timerEnd cfg env x timedOut s).client c).isThrottled = false) ∨
    (⟨c, .dropLock, true⟩ ∈ (timerEnd cfg env x timedOut s).out.drop s.out.length ∧
      ((timerEnd cfg env x timedOut s).client c).isThrottled = true ∧
      ((timerEnd cfg env x timedOut s).client c).pendingDrop = true) := by
  have htuned := timerEnd_tuned cfg env x timedOut s
  have hcount := countRunningClients_timerEnd cfg env x timedOut s
  have hquota : getEffectiveQuotaMs cfg (timerEnd cfg env x timedOut s) x c =
      getEffectiveQuotaMs cfg s x c :=
    getEffectiveQuotaMs_congr htuned.clients (timerEnd_static cfg env x timedOut s) x c
  have henforced := enforceLimits_standing hsent cfg hnodup hc
  have hspared := timerEnd_spared cfg env timedOut hnodup hc
  generalize timerEnd cfg env x timedOut s = t at htuned hcount hquota hspared
  generalize enforceLimits cfg env x s = u at henforced hspared
  by_cases hover : Overdrawn (countRunningClients s x) (currentTimeMs env s) (s.client c)
      (getEffectiveQuotaMs cfg s x c)
  · right
    obtain ⟨hmarked, htold⟩ := henforced.1 hover
    have hrecord : (u.client c).isThrottled = true ∧ (u.client c).pendingDrop = true := by
      have heq : u.client c = _ := hmarked.2
      rw [heq]
      exact ⟨rfl, rfl⟩
    have hview : t.view c = u.view c := hspared.1 hrecord.1
    have hclient : t.client c = u.client c := congrArg Prod.fst hview
    have hsends : sendsTo c t.out = sendsTo c s.out ++ [⟨c, .dropLock, true⟩] :=
      (congrArg Prod.snd hview).trans htold
    obtain ⟨new, hout, -⟩ := htuned.sent
    refine ⟨?_, by rw [hclient]; exact hrecord.1, by rw [hclient]; exact hrecord.2⟩
    rw [hout, List.drop_left]
    have hnew : sendsTo c new = [⟨c, .dropLock, true⟩] := by
      rw [hout, sendsTo, List.filter_append] at hsends
      exact List.append_cancel_left hsends
    have hmem : (⟨c, .dropLock, true⟩ : Sent) ∈ sendsTo c new := by
      rw [hnew]
      exact List.mem_singleton_self _
    exact List.mem_of_mem_filter hmem
  · left
    have hview : u.view c = s.view c := henforced.2 hover
    have hclient : u.client c = s.client c := congrArg Prod.fst hview
    obtain ⟨-, hkept, hbilled, hstart⟩ := hspared
    have hkept' : (t.client c).isThrottled = (u.client c).isThrottled := hkept
    have hbilled' : (t.client c).runTimeInWindowMs = (u.client c).runTimeInWindowMs := hbilled
    have hstart' : (t.client c).currentRunStartMs = (u.client c).currentRunStartMs := hstart
    refine ⟨?_, by rw [hkept', hclient, hthrottled]⟩
    have hunder : usageAt s x c (currentTimeMs env s) < getEffectiveQuotaMs cfg s x c := by
      by_contra hle
      exact hover ⟨hlimit, hthrottled, hpending, not_lt.mp hle⟩
    rw [usageAt, currentUsage, hcount, hquota, hbilled', hstart', hclient]
    exact hunder

/-! ## A whole iteration -/

/-- The reading at which a timer that has just begun its wait computed the sleep. -/
def sleepReading (env : Env) (s : Sched) : ℤ := env.clock (s.ticks - 1)

theorem timerBegin_sleep {fuel : ℕ} (h : timerBegin cfg env fuel x s = some s₁) :
    ∃ u, s₁ = timerSleep cfg env x u := by
  simp only [timerBegin, Option.map_eq_some_iff] at h
  obtain ⟨u, -, hu⟩ := h
  exact ⟨u, hu.symm⟩

/-- The usage of a limited client when the wait ends at its deadline. -/
theorem usage_at_deadline {u : Sched} (hs : s₁ = timerSleep cfg env x u)
    (hdeadline : currentTimeMs env s₁ = sleepReading env s₁ + (s₁.ctx x).timer.minSleepMs)
    (hc : c ∈ (s₁.ctx x).runningList) (hlimit : (s₁.client c).coreLimit < 100) :
    usageAt s₁ x c (currentTimeMs env s₁) ≤
      max (usageAt s₁ x c (sleepReading env s₁)) (getEffectiveQuotaMs cfg s₁ x c + 10) := by
  have hrun : (s₁.ctx x).runningList = (u.ctx x).runningList := by
    rw [hs, timerSleep, Sched.modifyCtx_ctx_self]
    rfl
  have hclient : s₁.client = u.client := by rw [hs]; rfl
  have hclients : s₁.clients = u.clients := by rw [hs]; rfl
  have hcount : countRunningClients s₁ x = countRunningClients u x :=
    countRunningClients_congr hrun fun d _ => by rw [hclient]
  have hquota : getEffectiveQuotaMs cfg s₁ x c = getEffectiveQuotaMs cfg u x c :=
    getEffectiveQuotaMs_congr hclients (fun d => by rw [hclient]) x c
  have husage : ∀ now, usageAt s₁ x c now = currentUsage u (countRunningClients u x) now c := by
    intro now
    rw [usageAt, hcount, currentUsage, hclient]
    rfl
  have hreading : sleepReading env s₁ = currentTimeMs env u := by rw [hs]; rfl
  have hsleep : (s₁.ctx x).timer.minSleepMs = minSleepMs cfg u x (currentTimeMs env u) := by
    rw [hs, timerSleep, Sched.modifyCtx_ctx_self]
  rw [hdeadline, husage, husage, hquota, hreading, hsleep]
  rw [hrun] at hc
  rw [hclient] at hlimit
  exact usage_after_sleep hc hlimit (currentTimeMs env u)

/-- In a run with constant limits, successful sends and clients that ask for the lock only
while they neither wait nor run, let a timer wait until its deadline without an event in
between. Then a limited client that runs and is not being dropped has used no more than when
the sleep was computed, or than 10 ms beyond its quota; afterwards it is below its quota or has
been told to drop the lock; and who is throttled so is sent no LOCK_OK before the window is
reset. -/
theorem timer_enforces_quota {timedOut : Bool} (hsent : env.AllSent)
    (hrun : Transition.Reaches (Transition.guarded (Step cfg env) Regulated) Sched.init s)
    (hbegin : Step cfg env s (.timerBegin x) s₁) (hend : Step cfg env s₁ (.timerEnd x timedOut) s₂)
    (hdeadline : currentTimeMs env s₁ = sleepReading env s₁ + (s₁.ctx x).timer.minSleepMs)
    (hc : c ∈ (s₁.ctx x).runningList) (hlimit : (s₁.client c).coreLimit < 100)
    (hpending : (s₁.client c).pendingDrop = false) :
    usageAt s₁ x c (currentTimeMs env s₁) ≤
      max (usageAt s₁ x c (sleepReading env s₁)) (getEffectiveQuotaMs cfg s₁ x c + 10) ∧
    (usageAt s₂ x c (currentTimeMs env s₁) < getEffectiveQuotaMs cfg s₂ x c ∨
      ⟨c, .dropLock, true⟩ ∈ s₂.out.drop s₁.out.length ∧
        (s₂.client c).isThrottled = true ∧ (s₂.client c).pendingDrop = true) ∧
    ((s₂.client c).isThrottled = true → ∀ t,
      Transition.Reaches (Transition.guarded (Step cfg env) Regulated) s₂ t →
        UngrantedUntilReset cfg env x c s₂ t) := by
  have hrun₁ := hrun.tail (⟨⟨trivial, trivial⟩, hbegin⟩ :
    Transition.guarded (Step cfg env) Regulated s (.timerBegin x) s₁)
  have hrun₂ := hrun₁.tail (⟨⟨trivial, trivial⟩, hend⟩ :
    Transition.guarded (Step cfg env) Regulated s₁ (.timerEnd x timedOut) s₂)
  have hwf₂ : WellFormed s₂ := wellFormed_of_reaches (hrun₂.mono fun _ _ _ h => h.2)
  obtain ⟨hsingle, hmarks⟩ := regulated_invariant hrun₁
  have hthrottled : (s₁.client c).isThrottled = false := by
    by_contra hmarked
    have hdropped := hmarks x c hc hlimit (by simpa [Client.marks] using hmarked)
    rw [show (s₁.client c).pendingDrop = true from hdropped] at hpending
    cases hpending
  obtain ⟨-, fuel, hbegin⟩ := hbegin
  obtain ⟨-, fuel', hend⟩ := hend
  have hs₂ : s₂ = timerEnd cfg env x timedOut s₁ := (Option.some.inj hend).symm
  obtain ⟨u, hu⟩ := timerBegin_sleep hbegin
  refine ⟨usage_at_deadline hu hdeadline hc hlimit, ?_, ?_⟩
  · rw [hs₂]
    exact (timerEnd_enforces hsent cfg timedOut (hsingle.running x) hc hlimit hthrottled
      hpending).imp_left And.left
  · intro hsuspended t ht
    have hruns : c ∈ (s₂.ctx x).runningList := by
      rw [hs₂, (timerEnd_tuned cfg env x timedOut s₁).runningList]
      exact hc
    have hlimit₂ : (s₂.client c).coreLimit < 100 := by
      rw [hs₂, coreLimit_of_static (timerEnd_static cfg env x timedOut s₁ c)]
      exact hlimit
    have hs : Suspended x c s₂ :=
      ⟨hwf₂.belongs x c (mem_entries_of_running hruns), hlimit₂, hsuspended⟩
    exact hs.until_reset hwf₂ (moves_of_reaches hwf₂ ht)

/-- A clock that stands at 1 ms until the lock is granted, at 561 ms while the timer computes its
sleep, and at 601 ms when it wakes. -/
def punctual : Env where
  clock n := if n < 2 then 1 else if n < 4 then 561 else 601
  sendOk _ _ := true

/-- A client with a quota of 600 ms has 40 ms left when the sleep is computed. -/
theorem timer_enforces_quota_in_time :
    ∃ s₁ s₂ : Sched, Step {} punctual s₁ (.timerEnd 0 true) s₂ ∧
      usageAt s₁ 0 0 601 ≤ max 560 610 ∧ (s₂.client 0).isThrottled = true ∧
      ⟨0, .dropLock, true⟩ ∈ s₂.out.drop s₁.out.length ∧
      ∀ t, Transition.Reaches (Transition.guarded (Step {} punctual) Regulated) s₂ t →
        UngrantedUntilReset {} punctual 0 0 s₂ t := by
  obtain ⟨s, hs, henabled, hbegin⟩ := exists_reaches {} punctual Regulated 9
    [.accept {}, enterQuota 0 1 30, .message 0 .reqLock]
    (fun s => (Event.timerBegin 0).enabled s = true ∧
      (handle {} punctual 9 (.timerBegin 0) s).any (fun s₁ =>
        (Event.timerEnd 0 true).enabled s₁ = true ∧ 0 ∈ (s₁.ctx 0).runningList ∧
        (s₁.client 0).coreLimit < 100 ∧ (s₁.client 0).pendingDrop = false ∧
        currentTimeMs punctual s₁ = 601 ∧ sleepReading punctual s₁ = 561 ∧
        (s₁.ctx 0).timer.minSleepMs = 40 ∧ usageAt s₁ 0 0 561 = 560 ∧
        getEffectiveQuotaMs {} s₁ 0 0 = 600 ∧
        ((timerEnd {} punctual 0 true s₁).client 0).isThrottled = true ∧
        ⟨0, .dropLock, true⟩ ∈ (timerEnd {} punctual 0 true s₁).out.drop s₁.out.length) = true)
    (by decide +kernel)
  rw [Option.any_eq_true] at hbegin
  obtain ⟨s₁, hs₁, hfacts⟩ := hbegin
  obtain ⟨hready, hruns, hlimit, hpending, hnow, hreading, hsleep, hused, hquota, hmarked, htold⟩ :=
    of_decide_eq_true hfacts
  have hend : Step {} punctual s₁ (.timerEnd 0 true) (timerEnd {} punctual 0 true s₁) :=
    ⟨hready, 0, rfl⟩
  obtain ⟨husage, -, hsuspended⟩ := timer_enforces_quota (fun _ _ => rfl) hs ⟨henabled, 9, hs₁⟩ hend
    (by rw [hnow, hreading, hsleep]; norm_num) hruns hlimit hpending
  rw [hnow, hreading, hused, hquota] at husage
  exact ⟨s₁, _, hend, husage, hmarked, htold, hsuspended hmarked⟩

/-- The readings of a run in which the scheduler is turned off and on after the first LOCK_OK. -/
def reopened : Env where
  clock n := if n < 2 then 1 else if n < 5 then 101 else if n < 7 then 1851
    else if n < 8 then 1901 else 1911
  sendOk _ _ := true

/-- A client with a quota of 1000 ms asks for the lock again after SCHED_OFF and SCHED_ON and is
granted it a second time. It is throttled at 1901 and releases the lock at 1911, which takes one
of its two entries out of the running list and clears its pending drop. The next iteration finds
it running, its quota used up, and skips it as throttled. -/
theorem throttled_client_runs_on :
    ∃ s s₁ s₂ : Sched,
      Transition.Reaches (Transition.guarded (Step {} reopened) LimitsKept) Sched.init s ∧
      Step {} reopened s (.timerBegin 0) s₁ ∧ Step {} reopened s₁ (.timerEnd 0 true) s₂ ∧
      currentTimeMs reopened s₁ = sleepReading reopened s₁ + (s₁.ctx 0).timer.minSleepMs ∧
      0 ∈ (s₁.ctx 0).runningList ∧ (s₁.client 0).coreLimit < 100 ∧
      (s₁.client 0).pendingDrop = false ∧
      ¬ (usageAt s₂ 0 0 (currentTimeMs reopened s₁) < getEffectiveQuotaMs {} s₂ 0 0 ∨
        ⟨0, .dropLock, true⟩ ∈ s₂.out.drop s₁.out.length ∧
          (s₂.client 0).isThrottled = true ∧ (s₂.client 0).pendingDrop = true) := by
  obtain ⟨s, hs, henabled, hbegin⟩ := exists_reaches {} reopened LimitsKept 9
    [.accept {}, enterQuota 0 1 50, .message 0 .reqLock,
      .accept {}, .message 1 .schedOff, .disconnect 1,
      .accept {}, .message 2 .schedOn, .disconnect 2,
      .message 0 .reqLock, .timerBegin 0, .timerEnd 0 true, .message 0 .lockReleased]
    (fun s => (Event.timerBegin 0).enabled s = true ∧
      (handle {} reopened 9 (.timerBegin 0) s).any (fun s₁ =>
        (Event.timerEnd 0 true).enabled s₁ = true ∧
        currentTimeMs reopened s₁ = sleepReading reopened s₁ + (s₁.ctx 0).timer.minSleepMs ∧
        0 ∈ (s₁.ctx 0).runningList ∧ (s₁.client 0).coreLimit < 100 ∧
        (s₁.client 0).pendingDrop = false ∧
        usageAt (timerEnd {} reopened 0 true s₁) 0 0 (currentTimeMs reopened s₁) = 1013 ∧
        getEffectiveQuotaMs {} (timerEnd {} reopened 0 true s₁) 0 0 = 1000 ∧
        ((timerEnd {} reopened 0 true s₁).client 0).pendingDrop = false) = true)
    (by decide +kernel)
  rw [Option.any_eq_true] at hbegin
  obtain ⟨s₁, hs₁, hfacts⟩ := hbegin
  obtain ⟨hready, hdeadline, hruns, hlimit, hpending, hused, hquota, hheld⟩ :=
    of_decide_eq_true hfacts
  refine ⟨s, s₁, timerEnd {} reopened 0 true s₁, hs, ⟨henabled, 9, hs₁⟩, ⟨hready, 0, rfl⟩,
    hdeadline, hruns, hlimit, hpending, ?_⟩
  rintro (hunder | ⟨-, -, hdropped⟩)
  · rw [hused, hquota] at hunder
    exact absurd hunder (by decide)
  · rw [hheld] at hdropped
    cases hdropped

end XpuShare
