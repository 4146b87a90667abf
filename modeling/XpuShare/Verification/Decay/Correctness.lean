import XpuShare.Verification.Billing.Records
import XpuShare.Verification.Scheduler.Marks
import XpuShare.Verification.Scheduler.Runs

/-! # Quota debt decays

A client that does not run keeps its usage until the window of its context is reset. Each
reset takes the effective quota off and carries over at most what is left, so that a debt is
paid once the quotas granted since sum up to it. -/

namespace XpuShare

open Transition

variable {cfg : Config} {env : Env} {ok : Sched → Event → Prop} {s t u : Sched} {x : CtxId}
  {c d : ClientId}

/-! ## One reset -/

/-- What a client owes: its usage of the window, the part of it carried over, and whether it
has been throttled. -/
structure Account where
  runTimeInWindowMs : ℤ
  quotaDebtMs : ℤ
  isThrottled : Bool
  deriving DecidableEq

def Client.account (r : Client) : Account :=
  ⟨r.runTimeInWindowMs, r.quotaDebtMs, r.isThrottled⟩

/-- What a reset carries over of a record with a given effective quota. -/
def carryOver (cfg : Config) (quota : ℤ) (r : Client) : ℤ :=
  if r.coreLimit < 100 ∧ 0 < r.runTimeInWindowMs - quota then
    ((r.runTimeInWindowMs - quota) * cfg.quotaCarryoverPercent).tdiv 100
  else 0

/-- A reset carries over no more than the excess. -/
theorem carryOver_bounds (cfg : Config) (quota : ℤ) (r : Client) :
    0 ≤ carryOver cfg quota r ∧ carryOver cfg quota r ≤ max 0 (r.runTimeInWindowMs - quota) := by
  obtain ⟨hlo, hhi⟩ := cfg.carryover_bounds
  unfold carryOver
  split
  · rename_i hexcess
    have hpos : 0 ≤ (r.runTimeInWindowMs - quota) * cfg.quotaCarryoverPercent :=
      mul_nonneg hexcess.2.le hlo
    have hle : (r.runTimeInWindowMs - quota) * cfg.quotaCarryoverPercent ≤
        (r.runTimeInWindowMs - quota) * 100 := mul_le_mul_of_nonneg_left hhi hexcess.2.le
    rw [Int.tdiv_eq_ediv_of_nonneg hpos]
    omega
  · exact ⟨le_rfl, le_max_left _ _⟩

theorem resetClient_renewed (cfg : Config) (hctx : (s.client c).context = some x) :
    (resetClient cfg x s c).client c =
      (s.client c).renewed (carryOver cfg (getEffectiveQuotaMs cfg s x c) (s.client c)) := by
  rw [resetClient, if_pos hctx, Sched.modifyClient_client_self]
  rfl

theorem foldl_resetClient_of_notMem (cfg : Config) (x : CtxId) {l : List ClientId} (hc : c ∉ l)
    (s : Sched) : (l.foldl (resetClient cfg x) s).client c = s.client c :=
  Loop.foldl_unvisited (π := Sched.client) (resetClient_client_ne cfg x) hc s

/-- The reset loop renews the record of a connected client of the context. -/
theorem foldl_resetClient_renewed (cfg : Config) {l : List ClientId} (hl : l.Nodup) (hc : c ∈ l)
    (hctx : (s.client c).context = some x) :
    (l.foldl (resetClient cfg x) s).client c =
      (s.client c).renewed (carryOver cfg (getEffectiveQuotaMs cfg s x c) (s.client c)) := by
  obtain ⟨before, after, rfl⟩ := List.append_of_mem hc
  have hbefore : c ∉ before := fun h => (List.nodup_append.mp hl).2.2 c h c (by simp) rfl
  have hafter : c ∉ after := by
    have htail := (List.nodup_append.mp hl).2.1
    exact (List.nodup_cons.mp htail).1
  have hshape := SameShape.foldl (resetClient_shape cfg x) before s
  have hsame := foldl_resetClient_of_notMem cfg x hbefore s
  rw [List.foldl_append, List.foldl_cons, foldl_resetClient_of_notMem cfg x hafter]
  generalize before.foldl (resetClient cfg x) s = u at hshape hsame
  have hquota : getEffectiveQuotaMs cfg u x c = getEffectiveQuotaMs cfg s x c :=
    getEffectiveQuotaMs_congr hshape.clients (fun d => static_of_unbilled (hshape.unbilled d)) x c
  rw [resetClient_renewed cfg (hsame ▸ hctx), hquota, hsame]

/-- A connected client that does not run on its GPU. -/
structure Away (x : CtxId) (c : ClientId) (s : Sched) : Prop where
  connected : c ∈ s.clients
  context : (s.client c).context = some x
  away : c ∉ (s.ctx x).runningList

/-- When its window ends, the record of a client that is away is renewed. -/
theorem freshWindow_renewed (hwf : WellFormed s) (hc : Away x c s)
    (hexpired : windowExpired cfg (s.ctx x) (currentTimeMs env s) = true) :
    (freshWindow cfg env x s).client c =
      (s.client c).renewed (carryOver cfg (getEffectiveQuotaMs cfg s x c) (s.client c)) := by
  have hfresh : freshWindow cfg env x s = resetWindow cfg x (currentTimeMs env s) s.tick := by
    simp [freshWindow, checkAndResetWindow, hexpired]
  rw [hfresh, resetWindow]
  generalize hbegun : (s.tick.modifyCtx x fun g =>
    { g with windowStartMs := currentTimeMs env s }) = begun
  have hclient : begun.client = s.client := by
    rw [← hbegun]
    rfl
  have hclients : begun.clients = s.clients := by
    rw [← hbegun]
    rfl
  have haway : c ∉ (begun.ctx x).runningList := by
    rw [← hbegun]
    simpa using hc.away
  have hshape := accrueRunningUsage_shape x (currentTimeMs env s) none begun
  have hsame := accrue_client_of_notMem (currentTimeMs env s) none begun haway
  generalize accrueRunningUsage x (currentTimeMs env s) none begun = settled at hshape hsame
  rw [hclient] at hsame
  have hquota : getEffectiveQuotaMs cfg settled x c = getEffectiveQuotaMs cfg s x c := by
    refine getEffectiveQuotaMs_congr (hshape.clients.trans hclients) (fun d => ?_) x c
    rw [static_of_unbilled (hshape.unbilled d), hclient]
  rw [hclients, foldl_resetClient_renewed cfg hwf.nodup hc.connected
    (by rw [hsame]; exact hc.context), hquota, hsame]

/-! ## Everything else -/

theorem modifyClient_account {f : Client → Client}
    (hf : (f (s.client d)).account = (s.client d).account) (c : ClientId) :
    ((s.modifyClient d f).client c).account = (s.client c).account := by
  rw [Sched.modifyClient_client]
  split
  · rename_i hc
    rw [hf, hc]
  · rfl

theorem grant_account (env : Env) (hc : c ∉ (s.ctx x).runningList) (d : ClientId) :
    ((grant env x d s).client c).account = (s.client c).account := by
  have hsettled : (settleRunners env x s).client c = s.client c := by
    unfold settleRunners
    split
    · rfl
    · exact accrue_client_of_notMem _ none s.tick hc
  unfold grant
  simp only [Sched.modifyCtx_client]
  rw [modifyClient_account (by rfl)]
  exact congrArg Client.account hsettled

theorem leaveRunning_account (cfg : Config) (env : Env) (hc : c ∉ (s.ctx x).runningList)
    (d : ClientId) : ((leaveRunning cfg env x d s).client c).account = (s.client c).account := by
  by_cases hd : d ∈ (s.ctx x).runningList
  · have hne : c ≠ d := fun h => hc (h ▸ hd)
    rw [leaveRunning_client cfg env hd]
    unfold releaseRunning
    simp only [Sched.modifyCtx_client, Sched.modifyClient_client, hne, if_false]
    rw [accrue_client_of_notMem]
    · rfl
    · simpa [giveBackMemory] using hc
  · rw [leaveRunning_of_notMem cfg env hd, clearLock]
    split <;> rfl

/-- A block leaves the account of a client that is away alone, if it does not end the window
of its context. -/
theorem Block.account {D : Exits} {y : CtxId} (h : Block cfg env D y s t) (hwf : WellFormed s)
    (hc : Away x c s) (hopen : windowExpired cfg (s.ctx x) (currentTimeMs env s) = true →
      t ≠ freshWindow cfg env x s) : (t.client c).account = (s.client c).account := by
  have haway : c ∉ (s.ctx y).runningList := by
    intro hrun
    have hctx := hwf.belongs y c (mem_entries_of_running hrun)
    rw [hc.context, Option.some.injEq] at hctx
    exact hc.away (hctx ▸ hrun)
  cases h with
  | window =>
      by_cases hy : y = x
      · subst hy
        have hnot : windowExpired cfg (s.ctx y) (currentTimeMs env s) = false := by
          by_contra hexpired
          exact hopen (Bool.eq_true_of_not_eq_false hexpired) rfl
        rw [freshWindow_client_open hnot]
      · rw [freshWindow_others cfg env s haway]
        rw [hc.context]
        exact fun h => hy (Option.some.inj h).symm
  | defer d rest hreq hno hwait => rw [moveToWaitQueue_client]
  | promote front d back hwait hok => rfl
  | grant d rest hreq hok hsend =>
      exact grant_account (s := sendMessage env d .lockOk s) env haway d
  | refuse d rest hreq hok hsend hD => rfl
  | leave d hD => exact leaveRunning_account cfg env haway d
  | withdraw d hD => rfl
  | unlink d hD hctx hgone => rfl

theorem timerEnd_client_of_notMem (cfg : Config) (env : Env) {y : CtxId} (timedOut : Bool)
    (hc : c ∉ (s.ctx y).runningList) : (timerEnd cfg env y timedOut s).client c = s.client c := by
  have henforced : (enforceLimits cfg env y s).client c = s.client c :=
    Loop.foldl_unvisited (π := Sched.client) (throttleClient_client_ne cfg env y _ _) hc s.tick
  have hrun := (enforceLimits_tuned cfg env y s).runningList y
  unfold timerEnd
  simp only
  split
  · rw [Sched.modifyCtx_client, ← henforced]
    exact Loop.foldl_unvisited (π := Sched.client) (rotateClient_client_ne env _ _)
      (by rwa [hrun]) (enforceLimits cfg env y s).tick
  · exact henforced

theorem forcePreemption_account (env : Env) (y : CtxId) (s : Sched) (c : ClientId) :
    ((forcePreemption env y s).client c).account = (s.client c).account := by
  refine Loop.foldl_proj (π := fun u : Sched => (u.client c).account) (fun u d => ?_) _ s
  unfold preemptClient
  simp only
  split
  · apply modifyClient_account
    rfl
  · rfl

theorem applyInitialLimit_account (env : Env) (d : ClientId) (limit : Option ℕ) (s : Sched)
    (c : ClientId) :
    ((applyInitialLimit env d limit s).client c).account = (s.client c).account := by
  unfold applyInitialLimit
  split
  · split
    · rw [sendMessage_client]
      apply modifyClient_account
      rfl
    · rfl
  · rfl

theorem creditMemory_account (cfg : Config) (y : CtxId) (d : ClientId) (v : ℕ) (s : Sched)
    (c : ClientId) : ((creditMemory cfg y d v s).client c).account = (s.client c).account := by
  rw [creditMemory_client]
  exact storeMemory_field Client.account (fun _ _ _ => rfl) d c v s

/-- A move leaves the account of a client that is away alone, if it does not end the window of
its context. -/
theorem Move.account {D : ClientId → Prop} (h : Move cfg env D ok s t) (hwf : WellFormed s)
    (hc : Away x c s) (hopen : windowExpired cfg (s.ctx x) (currentTimeMs env s) = true →
      t ≠ freshWindow cfg env x s) : (t.client c).account = (s.client c).account := by
  have hregistered : (s.client c).context ≠ none := by
    rw [hc.context]
    exact Option.some_ne_none x
  cases h with
  | block y h => exact h.account hwf hc hopen
  | send d m hm => rfl
  | limit d limit => exact applyInitialLimit_account env d limit s c
  | preempt y => exact forcePreemption_account env y s c
  | setTq v => rfl
  | sleep y => rfl
  | wake y timedOut hok =>
      rw [timerEnd_client_of_notMem cfg env timedOut]
      intro hrun
      have hctx := hwf.belongs y c (mem_entries_of_running hrun)
      rw [hc.context, Option.some.injEq] at hctx
      exact hc.away (hctx ▸ hrun)
  | annotate id memory core hok =>
      obtain ⟨_, _, hclient, -⟩ := annotationUpdate_client env id memory core s c
      rw [hclient]
      rfl
  | accept garbage hok => rw [accept_client hwf garbage hregistered]
  | enrol d m e hok hmem hunreg hid => rw [enrol_client cfg hwf m e hunreg hregistered]
  | insert d y hok hmem hon hctx hreq => rfl
  | memory d y v hok hmem hctx => exact creditMemory_account cfg y d v s c
  | unlink d hctx => rfl
  | power on d hok => rfl
  | clear s₀ d hok => rfl

/-! ## Sequences of resets -/

/-- A step while `c` is away, with the quota that a reset of its window grants to it and the
number of resets, none or one. -/
inductive Waits (cfg : Config) (env : Env) (ok : Sched → Event → Prop) (x : CtxId)
    (c : ClientId) : Sched → ℤ × ℕ → Sched → Prop where
  | reset {s : Sched} (haway : Away x c s)
      (hexpired : windowExpired cfg (s.ctx x) (currentTimeMs env s) = true)
      (hquota : 1 ≤ getEffectiveQuotaMs cfg s x c) :
      Waits cfg env ok x c s (getEffectiveQuotaMs cfg s x c, 1) (freshWindow cfg env x s)
  | other {s t : Sched} (haway : Away x c s) (h : Move cfg env (fun _ => True) ok s t)
      (hopen : windowExpired cfg (s.ctx x) (currentTimeMs env s) = true →
        t ≠ freshWindow cfg env x s) : Waits cfg env ok x c s 0 t

/-- The account of a client that began with usage `usage`, after resets that granted it `n.1`
in all. -/
structure Decayed (usage : ℤ) (c : ClientId) (s : Sched) (n : ℤ × ℕ) : Prop where
  wellFormed : WellFormed s
  granted : 0 ≤ n.1
  start : n.2 = 0 → (s.client c).runTimeInWindowMs = usage ∧ n.1 = 0
  nonneg : 0 < n.2 → 0 ≤ (s.client c).runTimeInWindowMs
  le : 0 < n.2 → (s.client c).runTimeInWindowMs ≤ max 0 (usage - n.1)
  debt : 0 < n.2 → (s.client c).quotaDebtMs = (s.client c).runTimeInWindowMs
  free : 0 < n.2 → (s.client c).isThrottled = false

theorem Decayed.reset {usage : ℤ} {n : ℤ × ℕ} (h : Decayed usage c s n) (haway : Away x c s)
    (hexpired : windowExpired cfg (s.ctx x) (currentTimeMs env s) = true)
    (hquota : 1 ≤ getEffectiveQuotaMs cfg s x c) :
    Decayed usage c (freshWindow cfg env x s) (n + (getEffectiveQuotaMs cfg s x c, 1)) := by
  have hclient := freshWindow_renewed h.wellFormed haway hexpired
  obtain ⟨hlo, hhi⟩ := carryOver_bounds cfg (getEffectiveQuotaMs cfg s x c) (s.client c)
  have hgranted := h.granted
  have husage : (s.client c).runTimeInWindowMs ≤ max 0 (usage - n.1) := by
    rcases Nat.eq_zero_or_pos n.2 with hnone | hsome
    · obtain ⟨hstart, hzero⟩ := h.start hnone
      omega
    · exact h.le hsome
  have hwf : WellFormed (freshWindow cfg env x s) := by
    have hmove : Move cfg env (fun _ => True) (fun _ _ => True) s (freshWindow cfg env x s) :=
      .block x (.window s)
    exact hmove.moves.wellFormed h.wellFormed
  refine ⟨hwf, ?_, fun hnone => absurd hnone (Nat.succ_ne_zero _), fun _ => ?_, fun _ => ?_,
    fun _ => ?_, fun _ => ?_⟩
  · rw [Prod.fst_add]
    omega
  · rw [hclient]
    exact hlo
  · rw [hclient, Prod.fst_add]
    change carryOver cfg (getEffectiveQuotaMs cfg s x c) (s.client c) ≤
      max 0 (usage - (n.1 + getEffectiveQuotaMs cfg s x c))
    omega
  · rw [hclient]
    rfl
  · rw [hclient]
    rfl

theorem Decayed.of_account {usage : ℤ} {n : ℤ × ℕ} (h : Decayed usage c s n)
    (hwf : WellFormed t) (haccount : (t.client c).account = (s.client c).account) :
    Decayed usage c t n := by
  have hrun : (t.client c).runTimeInWindowMs = (s.client c).runTimeInWindowMs :=
    congrArg Account.runTimeInWindowMs haccount
  have hdebt : (t.client c).quotaDebtMs = (s.client c).quotaDebtMs :=
    congrArg Account.quotaDebtMs haccount
  have hfree : (t.client c).isThrottled = (s.client c).isThrottled :=
    congrArg Account.isThrottled haccount
  refine ⟨hwf, h.granted, ?_, ?_, ?_, ?_, ?_⟩
  · rw [hrun]
    exact h.start
  · rw [hrun]
    exact h.nonneg
  · rw [hrun]
    exact h.le
  · rw [hrun, hdebt]
    exact h.debt
  · rw [hfree]
    exact h.free

theorem Waits.decayed {usage : ℤ} {m n : ℤ × ℕ} (hstep : Waits cfg env ok x c s n t)
    (h : Decayed usage c s m) : Decayed usage c t (m + n) := by
  cases hstep with
  | reset haway hexpired hquota => exact h.reset haway hexpired hquota
  | other haway hmove hopen =>
      rw [add_zero]
      exact h.of_account (hmove.moves.wellFormed h.wellFormed)
        (hmove.account h.wellFormed haway hopen)

/-- After resets that granted a client which is away `q` in all, its usage is its debt, and both
are at most what is left of its usage before. It may run again once the quotas sum up to that
usage. -/
theorem quota_debt_decays {q : ℤ} {k : ℕ} (hwf : WellFormed s)
    (h : Accumulates (Waits cfg env ok x c) s (q, k) t) (hk : 1 ≤ k) :
    0 ≤ (t.client c).runTimeInWindowMs ∧
      (t.client c).runTimeInWindowMs = (t.client c).quotaDebtMs ∧
      (t.client c).runTimeInWindowMs ≤ max 0 ((s.client c).runTimeInWindowMs - q) ∧
      (t.client c).isThrottled = false ∧
      ((s.client c).runTimeInWindowMs ≤ q → 1 ≤ getEffectiveQuotaMs cfg t x c →
        quotaAllows cfg t x c = true) := by
  have hstart : Decayed (s.client c).runTimeInWindowMs c s 0 :=
    ⟨hwf, le_rfl, fun _ => ⟨rfl, rfl⟩, fun h => absurd h (lt_irrefl 0),
      fun h => absurd h (lt_irrefl 0), fun h => absurd h (lt_irrefl 0),
      fun h => absurd h (lt_irrefl 0)⟩
  have hend := h.invariant (fun _ _ _ _ hstep hs => hstep.decayed hs) hstart
  rw [zero_add] at hend
  have hle : (t.client c).runTimeInWindowMs ≤ max 0 ((s.client c).runTimeInWindowMs - q) :=
    hend.le hk
  have hfree : (t.client c).isThrottled = false := hend.free hk
  refine ⟨hend.nonneg hk, (hend.debt hk).symm, hle, hfree, fun hpaid hquota => ?_⟩
  simp only [quotaAllows, hfree, Bool.not_false, Bool.true_and, Bool.or_eq_true,
    decide_eq_true_eq]
  right
  omega

/-- The lock is released 1.6 s after the clock showed 1 ms, and the window ends. -/
def nextWindow : Env where
  clock n := if n < 4 then 1 else if n < 5 then 1501 else if n < 6 then 1601 else 2001
  sendOk _ _ := true

theorem quota_debt_decays_next_window :
    ∃ s, Reaches (guarded (Step {} nextWindow) fun _ _ => True) Sched.init s ∧
      (s.client 0).runTimeInWindowMs = 1570 ∧ quotaAllows {} s 0 0 = false ∧
      Accumulates (Waits {} nextWindow (fun _ _ => True) 0 0) s (1000, 1)
        (freshWindow {} nextWindow 0 s) ∧
      ((freshWindow {} nextWindow 0 s).client 0).runTimeInWindowMs ≤ 570 := by
  obtain ⟨s, hs, hc, hctx, haway, hrun, hrefused, hexpired, hquota⟩ :=
    exists_reaches {} nextWindow (fun _ _ => True) 9
      [.accept {}, enterQuota 0 1 50, .message 0 .reqLock, .timerBegin 0, .timerEnd 0 true,
        .message 0 .lockReleased]
      (fun s => 0 ∈ s.clients ∧ (s.client 0).context = some 0 ∧ 0 ∉ (s.ctx 0).runningList ∧
        (s.client 0).runTimeInWindowMs = 1570 ∧ quotaAllows {} s 0 0 = false ∧
        windowExpired {} (s.ctx 0) (currentTimeMs nextWindow s) = true ∧
        getEffectiveQuotaMs {} s 0 0 = 1000) (by decide +kernel)
  have hreset : Waits {} nextWindow (fun _ _ => True) 0 0 s
      (getEffectiveQuotaMs {} s 0 0, 1) (freshWindow {} nextWindow 0 s) :=
    .reset ⟨hc, hctx, haway⟩ hexpired (by omega)
  rw [hquota] at hreset
  have hwf : WellFormed s := wellFormed_of_reaches (hs.mono fun _ _ _ hstep => hstep.2)
  obtain ⟨-, -, hle, -⟩ := quota_debt_decays hwf (.single hreset) le_rfl
  rw [hrun] at hle
  exact ⟨s, hs, hrun, hrefused, .single hreset, by omega⟩

end XpuShare
