import XpuShare.Verification.Window.Invariant
import XpuShare.Verification.Timer.Standstill

/-! # Shares of the running time

A limited client that runs is billed at a rate: its share of the time, or what is left of
the share it had when it was told to drop the lock. What the present run has not been billed
for yet, at that rate, is outstanding. Every charge moves at least as much from what is
outstanding to the bills. -/

namespace XpuShare

variable {cfg : Config} {env : Env} {K : CtxId → Sched → Prop} {ok : Sched → Event → Prop}
  {s t : Sched} {m n : Meter} {c d : ClientId} {x y : CtxId} {b : ℤ}

/-- A quota-limited client of a context. -/
def LimitedOn (x : CtxId) (s : Sched) (c : ClientId) : Prop :=
  (s.client c).context = some x ∧ (s.client c).coreLimit < 100

instance (x : CtxId) (s : Sched) : DecidablePred (LimitedOn x s) :=
  fun c => inferInstanceAs (Decidable ((s.client c).context = some x ∧ _))

/-- The number by which `remove_req` divides the tail of a client that drops the lock. -/
def tailShare (r : Client) : ℤ := if 0 < r.dropConcurrency then r.dropConcurrency else 1

/-- The rate at which a limited client that runs is billed. -/
def billingRate (cfg : Config) (x : CtxId) (s : Sched) (c : ClientId) : ℚ :=
  if (s.client c).pendingDrop then
    cfg.dropTailBillingPercent / (100 * tailShare (s.client c))
  else 1 / countRunningClients s x

/-- What the present run of a client will be billed for at most, up to time `b`. -/
def outstanding (cfg : Config) (x : CtxId) (b : ℤ) (s : Sched) (c : ClientId) : ℚ :=
  if c ∈ (s.ctx x).runningList ∧ (s.client c).coreLimit < 100 then
    (b - (s.client c).currentRunStartMs) * billingRate cfg x s c
  else 0

theorem tailShare_pos (r : Client) : 0 < tailShare r := by
  unfold tailShare
  split
  · assumption
  · norm_num

theorem billingRate_nonneg (cfg : Config) (x : CtxId) (s : Sched) (c : ClientId) :
    0 ≤ billingRate cfg x s c := by
  have hshare : (0 : ℚ) < tailShare (s.client c) := by exact_mod_cast tailShare_pos _
  have hpercent : (0 : ℚ) ≤ cfg.dropTailBillingPercent := by exact_mod_cast cfg.tail_bounds.1
  have hcount : (0 : ℚ) < countRunningClients s x := by exact_mod_cast countRunningClients_pos s x
  unfold billingRate
  split <;> positivity

/-- The runs of the clients of a context began at positive times, before `b`. -/
def Began (x : CtxId) (b : ℤ) (s : Sched) : Prop :=
  ∀ c ∈ (s.ctx x).runningList, 0 < (s.client c).currentRunStartMs ∧
    (s.client c).currentRunStartMs ≤ b

theorem outstanding_nonneg (h : Began x b s) (c : ClientId) : 0 ≤ outstanding cfg x b s c := by
  unfold outstanding
  split
  · rename_i hc
    have hstart : ((s.client c).currentRunStartMs : ℚ) ≤ b := by exact_mod_cast (h c hc.1).2
    exact mul_nonneg (by linarith) (billingRate_nonneg cfg x s c)
  · exact le_rfl

/-- Division of C rounds down on nonnegative numbers. -/
theorem tdiv_le_div {a k : ℤ} (ha : 0 ≤ a) (hk : 0 < k) : ((a.tdiv k : ℤ) : ℚ) ≤ a / k := by
  have hk' : (0 : ℚ) < k := by exact_mod_cast hk
  rw [le_div_iff₀ hk', Int.tdiv_eq_ediv_of_nonneg ha]
  exact_mod_cast Int.ediv_mul_le a hk.ne'

theorem outstanding_of_notMem (h : c ∉ (s.ctx x).runningList) :
    outstanding cfg x b s c = 0 := by
  rw [outstanding, if_neg fun hc => h hc.1]

theorem outstanding_of_start (h : (s.client c).currentRunStartMs = b) :
    outstanding cfg x b s c = 0 := by
  unfold outstanding
  split
  · rw [h, sub_self, zero_mul]
  · rfl

theorem outstanding_sharing (hruns : c ∈ (s.ctx x).runningList)
    (hlimit : (s.client c).coreLimit < 100) (hdrop : (s.client c).pendingDrop = false) :
    outstanding cfg x b s c =
      ((b - (s.client c).currentRunStartMs : ℤ) : ℚ) / countRunningClients s x := by
  rw [outstanding, if_pos ⟨hruns, hlimit⟩, billingRate, if_neg (by simp [hdrop])]
  push_cast
  rw [mul_one_div]

theorem outstanding_dropping (hruns : c ∈ (s.ctx x).runningList)
    (hlimit : (s.client c).coreLimit < 100) (hdrop : (s.client c).pendingDrop = true) :
    outstanding cfg x b s c =
      ((b - (s.client c).currentRunStartMs : ℤ) : ℚ) / tailShare (s.client c) *
        cfg.dropTailBillingPercent / 100 := by
  have hshare : (tailShare (s.client c) : ℚ) ≠ 0 := by
    exact_mod_cast (tailShare_pos (s.client c)).ne'
  rw [outstanding, if_pos ⟨hruns, hlimit⟩, billingRate, if_pos hdrop]
  push_cast
  field_simp

/-! ## Bills -/

/-- A record that keeps its start and its drop marks owes what it owed. -/
theorem outstanding_congr (hrun : c ∈ (t.ctx x).runningList → c ∈ (s.ctx x).runningList)
    (hbegan : Began x b s) (hlimit : (t.client c).coreLimit = (s.client c).coreLimit)
    (hstart : (t.client c).currentRunStartMs = (s.client c).currentRunStartMs)
    (hdrop : (t.client c).pendingDrop = (s.client c).pendingDrop)
    (hshare : (t.client c).dropConcurrency = (s.client c).dropConcurrency)
    (hcount : (s.client c).pendingDrop = false →
      countRunningClients t x = countRunningClients s x) :
    outstanding cfg x b t c ≤ outstanding cfg x b s c := by
  by_cases hc : c ∈ (t.ctx x).runningList ∧ (t.client c).coreLimit < 100
  · have hruns := hrun hc.1
    have hlimited : (s.client c).coreLimit < 100 := hlimit ▸ hc.2
    cases hpending : (s.client c).pendingDrop with
    | false =>
        rw [outstanding_sharing hc.1 hc.2 (hdrop.trans hpending),
          outstanding_sharing hruns hlimited hpending, hstart, hcount hpending]
    | true =>
        rw [outstanding_dropping hc.1 hc.2 (hdrop.trans hpending),
          outstanding_dropping hruns hlimited hpending, hstart, tailShare, hshare, tailShare]
  · rw [outstanding, if_neg hc]
    exact outstanding_nonneg hbegan c

/-- Settling the clients that run on some context bills `c` at most what is outstanding. -/
theorem pays_of_settled (hwf : WellFormed s) (hlim : LimitedOn x s c) (hbegan : Began x b s)
    (y : CtxId) (hrun : c ∈ (t.ctx x).runningList → c ∈ (s.ctx x).runningList)
    (hcount : y ≠ x → countRunningClients t x = countRunningClients s x)
    (hlimit : (t.client c).coreLimit = (s.client c).coreLimit)
    (hstart : (t.client c).currentRunStartMs = (settledRecord y b s c).currentRunStartMs)
    (hdrop : (t.client c).pendingDrop = (s.client c).pendingDrop)
    (hshare : (t.client c).dropConcurrency = (s.client c).dropConcurrency) :
    (((settledRecord y b s c).runTimeInWindowMs - (s.client c).runTimeInWindowMs : ℤ) : ℚ) +
      outstanding cfg x b t c ≤ outstanding cfg x b s c := by
  obtain ⟨hctx, hlimited⟩ := hlim
  by_cases hy : c ∈ (s.ctx y).runningList
  · have hyx : y = x := by
      have hcy := hwf.belongs y c (mem_entries_of_running hy)
      rw [hctx] at hcy
      exact (Option.some.inj hcy).symm
    subst hyx
    obtain ⟨hpos, hle⟩ := hbegan c hy
    cases hpending : (s.client c).pendingDrop with
    | false =>
        -- After the bill the run begins at `b`, whatever the number of clients is then.
        have hnow := settledRecord_start hy hlimited hpending hpos hle
        have hduration : 0 ≤ b - (s.client c).currentRunStartMs := by omega
        have hbill : (settledRecord y b s c).runTimeInWindowMs -
            (s.client c).runTimeInWindowMs ≤
              (b - (s.client c).currentRunStartMs).tdiv (countRunningClients s y) := by
          have hshare0 := Int.tdiv_nonneg hduration (countRunningClients_pos s y).le
          rw [settledRecord, if_pos hy, Client.accrued]
          split
          · simp
          · rw [sub_self]
            exact hshare0
        rw [outstanding_of_start (hstart.trans hnow), add_zero,
          outstanding_sharing hy hlimited hpending]
        refine le_trans ?_ (tdiv_le_div hduration (countRunningClients_pos s y))
        exact_mod_cast hbill
    | true =>
        have hsame : settledRecord y b s c = s.client c := by
          rw [settledRecord, if_pos hy, Client.accrued, if_neg (by simp [hpending])]
        rw [hsame] at hstart ⊢
        rw [sub_self, Int.cast_zero, zero_add]
        exact outstanding_congr hrun hbegan hlimit hstart hdrop hshare
          fun hfalse => absurd (hpending.symm.trans hfalse) (by decide)
  · have hsame : settledRecord y b s c = s.client c := settledRecord_of_notMem hy
    rw [hsame] at hstart ⊢
    rw [sub_self, Int.cast_zero, zero_add]
    by_cases hyx : y = x
    · subst hyx
      rw [outstanding_of_notMem fun hc => hy (hrun hc)]
      exact outstanding_nonneg hbegan c
    · exact outstanding_congr hrun hbegan hlimit hstart hdrop hshare fun _ => hcount hyx

theorem finalBill_le_outstanding (hruns : c ∈ (s.ctx x).runningList)
    (hlimit : (s.client c).coreLimit < 100) (hbegan : Began x b s) :
    ((finalBill cfg s x c b : ℤ) : ℚ) ≤ outstanding cfg x b s c := by
  have hle := (hbegan c hruns).2
  have hduration : 0 ≤ b - (s.client c).currentRunStartMs := by omega
  by_cases hpositive : 0 < b - (s.client c).currentRunStartMs
  · cases hpending : (s.client c).pendingDrop with
    | false =>
        have hbill : finalBill cfg s x c b =
            (b - (s.client c).currentRunStartMs).tdiv (countRunningClients s x) := by
          simp only [finalBill, if_pos hpositive, hpending, Bool.false_eq_true, if_false]
        rw [hbill, outstanding_sharing hruns hlimit hpending]
        exact tdiv_le_div hduration (countRunningClients_pos s x)
    | true =>
        have hbill : finalBill cfg s x c b =
            ((b - (s.client c).currentRunStartMs).tdiv (tailShare (s.client c)) *
              cfg.dropTailBillingPercent).tdiv 100 := by
          simp only [finalBill, if_pos hpositive, hpending, if_true, tailShare]
        have hpercent : (0 : ℚ) ≤ cfg.dropTailBillingPercent := by
          exact_mod_cast cfg.tail_bounds.1
        have hraw0 := Int.tdiv_nonneg hduration (tailShare_pos (s.client c)).le
        have hraw := tdiv_le_div hduration (tailShare_pos (s.client c))
        rw [hbill, outstanding_dropping hruns hlimit hpending]
        calc ((((b - (s.client c).currentRunStartMs).tdiv (tailShare (s.client c)) *
                cfg.dropTailBillingPercent).tdiv 100 : ℤ) : ℚ)
            ≤ (((b - (s.client c).currentRunStartMs).tdiv (tailShare (s.client c)) *
                cfg.dropTailBillingPercent : ℤ) : ℚ) / (100 : ℤ) :=
              tdiv_le_div (mul_nonneg hraw0 cfg.tail_bounds.1) (by norm_num)
          _ = ((b - (s.client c).currentRunStartMs).tdiv (tailShare (s.client c)) : ℤ) *
                (cfg.dropTailBillingPercent : ℚ) / 100 := by push_cast; rfl
          _ ≤ _ := by gcongr
  · have hzero : finalBill cfg s x c b = 0 := by
      simp only [finalBill, if_neg hpositive]
    rw [hzero, Int.cast_zero]
    exact outstanding_nonneg hbegan c

/-! ## Charges at one time -/

/-- An annotation found for a client leaves its compute limit as it is. -/
def KeepsLimits (s : Sched) : Event → Prop
  | .annotated id _ core => ∀ c ∈ s.clients.find? fun c => (s.client c).id = id,
      annotatedCoreLimit core = (s.client c).coreLimit
  | _ => True

instance (s : Sched) : DecidablePred (KeepsLimits s)
  | .annotated id _ _ =>
      inferInstanceAs (Decidable (∀ c ∈ s.clients.find? fun c => (s.client c).id = id, _))
  | .accept _ | .message _ _ | .disconnect _ | .timerBegin _ | .timerEnd _ _ =>
      inferInstanceAs (Decidable True)

/-- A client that has been told to drop the lock bears the time at which it was told. -/
def Noted (x : CtxId) (s : Sched) : Prop :=
  ∀ c ∈ (s.ctx x).runningList, (s.client c).pendingDrop = true →
    (s.client c).lastDropSentMs ≠ 0

/-- A charge at time `b` bills each limited client of `x` at most what it has outstanding. -/
structure Pays (cfg : Config) (x : CtxId) (b : ℤ) (s : Sched) (n : Meter) (t : Sched) :
    Prop where
  nalloc : t.nalloc = s.nalloc
  context : ∀ c, (t.client c).context = (s.client c).context
  limit : ∀ c, (t.client c).coreLimit = (s.client c).coreLimit
  unknown : ∀ c, (s.client c).context = none → (n c).1 = 0
  began : Began x b t
  noted : Noted x t
  pays : ∀ c, LimitedOn x s c →
    (((n c).1 : ℤ) : ℚ) + outstanding cfg x b t c ≤ outstanding cfg x b s c

/-- A charge that changes no record, no running list and no bill. -/
theorem Pays.of_costless (h : Costless (env.frozen b) s t) (hb : b ≠ 0) (hbegan : Began x b s)
    (hnoted : Noted x s) (hn : ∀ c, (n c).1 = 0) : Pays cfg x b s n t where
  nalloc := h.nalloc
  context c := context_of_billing (h.client c)
  limit c := coreLimit_of_billing (h.client c)
  unknown c _ := hn c
  began c hc := by
    rw [h.running] at hc
    rw [runStart_of_billing (h.client c)]
    exact hbegan c hc
  noted c hc hdrop := by
    rw [h.running] at hc
    rw [pendingDrop_of_billing (h.client c)] at hdrop
    rcases h.noted c with hsame | ⟨k, hread⟩
    · rw [hsame]
      exact hnoted c hc hdrop
    · rw [hread]
      exact hb
  pays c _ := by
    rw [hn, Int.cast_zero, zero_add]
    refine outstanding_congr (by rw [h.running]; exact id) hbegan
      (coreLimit_of_billing (h.client c)) (runStart_of_billing (h.client c))
      (pendingDrop_of_billing (h.client c)) (dropConcurrency_of_billing (h.client c)) fun _ => ?_
    exact countRunningClients_congr (h.running x) fun d _ => coreLimit_of_billing (h.client d)

section Charges

variable (hwf : WellFormed s) (hsingle : SingleEntries s) (hb : 0 < b) (hbegan : Began x b s)
  (hnoted : Noted x s)

/-- Settling moves the start of a run to `b` at most. -/
theorem settledRecord_began (hb : 0 < b) (y : CtxId)
    (h : 0 < (s.client c).currentRunStartMs ∧ (s.client c).currentRunStartMs ≤ b) :
    0 < (settledRecord y b s c).currentRunStartMs ∧
      (settledRecord y b s c).currentRunStartMs ≤ b := by
  obtain ⟨start, _, heq, -, -, hwhich⟩ := settledRecord_spec y b s c
  rw [heq]
  rcases hwhich with hsame | hnew
  · rw [hsame]
    exact h
  · rw [hnew]
    exact ⟨hb, le_rfl⟩

include hwf hsingle hb hbegan hnoted

theorem freshWindow_pays (y : CtxId) :
    Pays cfg x b s (freshWindowMeter cfg (env.frozen b) y s)
      (freshWindow cfg (env.frozen b) y s) := by
  have hrunning := fun z => freshWindow_running cfg (env.frozen b) y z s
  cases hexpired : windowExpired cfg (s.ctx y) (currentTimeMs (env.frozen b) s) with
  | false =>
      have hclient := freshWindow_client_open hexpired
      have hcount : countRunningClients (freshWindow cfg (env.frozen b) y s) x =
          countRunningClients s x :=
        countRunningClients_congr (hrunning x) fun d _ => by rw [hclient]
      refine ⟨freshWindow_nalloc cfg _ y s, fun c => by rw [hclient], fun c => by rw [hclient],
        fun c _ => by rw [freshWindowMeter_open hexpired]; rfl, fun c hc => ?_, fun c hc => ?_,
        fun c _ => ?_⟩
      · rw [hrunning] at hc
        rw [hclient]
        exact hbegan c hc
      · rw [hrunning] at hc
        rw [hclient]
        exact hnoted c hc
      · rw [freshWindowMeter_open hexpired, Pi.zero_apply, Prod.fst_zero, Int.cast_zero, zero_add]
        exact outstanding_congr (by rw [hrunning]; exact id) hbegan (by rw [hclient])
          (by rw [hclient]) (by rw [hclient]) (by rw [hclient]) fun _ => hcount
  | true =>
      have hmeter := freshWindowMeter_expired (hsingle.running y) hexpired
      -- The reset itself touches neither the start of a run nor its drop marks.
      have hclient : ∀ c, ∃ run debt throttled,
          (freshWindow cfg (env.frozen b) y s).client c =
            { settledRecord y b s c with
              runTimeInWindowMs := run, quotaDebtMs := debt, isThrottled := throttled } := by
        intro c
        obtain ⟨carry, hcarry⟩ :=
          freshWindow_client_expired (hsingle.running y) hwf.nodup hexpired c
        rw [hcarry]
        split
        · exact ⟨carry, carry, false, rfl⟩
        · exact ⟨_, _, _, rfl⟩
      have hlimit : ∀ c, ((freshWindow cfg (env.frozen b) y s).client c).coreLimit =
          (s.client c).coreLimit := by
        intro c
        obtain ⟨_, _, _, heq⟩ := hclient c
        rw [heq]
        exact settledRecord_coreLimit y b s c
      refine ⟨freshWindow_nalloc cfg _ y s, fun c => ?_, hlimit, fun c hc => ?_, fun c hc => ?_,
        fun c hc hdrop => ?_, fun c hlim => ?_⟩
      · obtain ⟨_, _, _, heq⟩ := hclient c
        rw [heq]
        exact settledRecord_context y b s c
      · have haway : c ∉ (s.ctx y).runningList :=
          fun h => hwf.notMem_entries hc y (mem_entries_of_running h)
        rw [hmeter, settledRecord_of_notMem haway, sub_self]
      · obtain ⟨_, _, _, heq⟩ := hclient c
        rw [hrunning] at hc
        rw [heq]
        exact settledRecord_began hb y (hbegan c hc)
      · obtain ⟨_, _, _, heq⟩ := hclient c
        obtain ⟨_, _, hrec, -⟩ := settledRecord_spec y b s c
        rw [hrunning] at hc
        rw [heq, hrec] at hdrop ⊢
        exact hnoted c hc hdrop
      · obtain ⟨_, _, _, heq⟩ := hclient c
        obtain ⟨_, _, hrec, -⟩ := settledRecord_spec y b s c
        rw [hmeter]
        exact pays_of_settled hwf hlim hbegan y (by rw [hrunning]; exact id)
          (fun _ => countRunningClients_congr (hrunning x) fun d _ => hlimit d) (hlimit c)
          (by rw [heq])
          (by rw [heq]; exact settledRecord_pendingDrop y b s c) (by rw [heq, hrec])

theorem grant_pays {rest : List ClientId} (hreq : (s.ctx y).requests = d :: rest) :
    Pays cfg x b s (grantMeter (env.frozen b) y d (sendMessage (env.frozen b) d .lockOk s))
      (grant (env.frozen b) y d (sendMessage (env.frozen b) d .lockOk s)) := by
  have hrun := hsingle.running y
  have hd : d ∈ (s.ctx y).requests := by simp [hreq]
  have hdy := hwf.belongs y d (mem_entries_of_requests hd)
  have hnot : d ∉ (s.ctx y).runningList :=
    notMem_running_of_pending (hsingle y) (List.mem_append_left _ hd)
  have hmeter : ∀ c, grantMeter (env.frozen b) y d (sendMessage (env.frozen b) d .lockOk s) c
      = _ := grantMeter_apply hrun d
  have hself : (grant (env.frozen b) y d (sendMessage (env.frozen b) d .lockOk s)).client d =
      { s.client d with
        isRunning := true, pendingDrop := false, dropConcurrency := 1
        currentRunStartMs := b } := by
    rw [grant_client hrun, if_pos rfl, settledRecord_of_notMem hnot]
    rfl
  have hother : ∀ c, c ≠ d →
      (grant (env.frozen b) y d (sendMessage (env.frozen b) d .lockOk s)).client c =
        settledRecord y b s c := by
    intro c hc
    rw [grant_client hrun, if_neg hc]
    rfl
  have hrunning := fun z => grant_running (env.frozen b) y z d s
  have hnalloc := (grantSent_effect (env.frozen b) (mem_entries_of_requests hd)).nalloc
  generalize grant (env.frozen b) y d (sendMessage (env.frozen b) d .lockOk s) = t at *
  have hlimit : ∀ c, (t.client c).coreLimit = (s.client c).coreLimit := by
    intro c
    by_cases hc : c = d
    · rw [hc, hself]
    · rw [hother c hc, settledRecord_coreLimit]
  have hold : ∀ c, c ≠ d → c ∈ (t.ctx x).runningList → c ∈ (s.ctx x).runningList := by
    intro c hcd hc
    rw [hrunning] at hc
    split at hc
    · rename_i hx
      rw [hx]
      simpa [hcd] using hc
    · exact hc
  refine ⟨hnalloc, fun c => ?_, hlimit, fun c hc => ?_, fun c hc => ?_, fun c hc hdrop => ?_,
    fun c hlim => ?_⟩
  · by_cases hc : c = d
    · rw [hc, hself]
    · rw [hother c hc, settledRecord_context]
  · have haway : c ∉ (s.ctx y).runningList :=
      fun h => hwf.notMem_entries hc y (mem_entries_of_running h)
    rw [hmeter, settledRecord_of_notMem haway, sub_self]
  · by_cases hcd : c = d
    · rw [hcd, hself]
      exact ⟨hb, le_rfl⟩
    · rw [hother c hcd]
      exact settledRecord_began hb y (hbegan c (hold c hcd hc))
  · by_cases hcd : c = d
    · rw [hcd, hself] at hdrop
      cases hdrop
    · obtain ⟨_, _, hrec, -⟩ := settledRecord_spec y b s c
      rw [hother c hcd, hrec] at hdrop ⊢
      exact hnoted c (hold c hcd hc) hdrop
  · rw [hmeter]
    by_cases hcd : c = d
    · subst hcd
      have hstart : (t.client c).currentRunStartMs = b := by rw [hself]
      rw [outstanding_of_start hstart, settledRecord_of_notMem hnot, sub_self, Int.cast_zero,
        zero_add]
      exact outstanding_nonneg hbegan c
    · obtain ⟨_, _, hrec, -⟩ := settledRecord_spec y b s c
      refine pays_of_settled hwf hlim hbegan y (hold c hcd) (fun hyx => ?_) (hlimit c)
        (by rw [hother c hcd]) (by rw [hother c hcd, settledRecord_pendingDrop])
        (by rw [hother c hcd, hrec])
      exact countRunningClients_congr (by rw [hrunning, if_neg hyx.symm]) fun d _ => hlimit d

theorem leaveRunning_pays (hd : d ∈ (s.ctx y).runningList) :
    Pays cfg x b s (leaveRunningMeter cfg (env.frozen b) y d s)
      (leaveRunning cfg (env.frozen b) y d s) := by
  have hrun := hsingle.running y
  have hdy := hwf.belongs y d (mem_entries_of_running hd)
  have hmeter := leaveRunningMeter_apply cfg (env.frozen b) hrun hd
  have hclient : ∀ c, (leaveRunning cfg (env.frozen b) y d s).client c = _ := fun c => by
    rw [leaveRunning_client cfg (env.frozen b) hd, releaseRunning_client cfg hrun]
  have hother : ∀ c, c ≠ d → (leaveRunning cfg (env.frozen b) y d s).client c =
      settledRecord y b s c := by
    intro c hc
    rw [hclient, if_neg hc]
    rfl
  have hself := hclient d
  rw [if_pos rfl] at hself
  have hrunning := fun z => leaveRunning_running cfg (env.frozen b) y z d s
  have hnalloc := (leaveRunning_effect cfg (env.frozen b) hd).nalloc
  generalize leaveRunning cfg (env.frozen b) y d s = t at *
  have hlimit : ∀ c, (t.client c).coreLimit = (s.client c).coreLimit := by
    intro c
    by_cases hc : c = d
    · rw [hc, hself]
    · rw [hother c hc, settledRecord_coreLimit]
  have hold : ∀ c, c ∈ (t.ctx x).runningList → c ≠ d ∧ c ∈ (s.ctx x).runningList := by
    intro c hc
    rw [hrunning] at hc
    split at hc
    · rename_i hx
      rw [hx]
      exact ⟨fun he => hrun.not_mem_erase (he ▸ hc), List.mem_of_mem_erase hc⟩
    · rename_i hx
      exact ⟨fun he => hx (hwf.running_unique (he ▸ hc) hd), hc⟩
  refine ⟨hnalloc, fun c => ?_, hlimit, fun c hc => ?_, fun c hc => ?_, fun c hc hdrop => ?_,
    fun c hlim => ?_⟩
  · by_cases hc : c = d
    · rw [hc, hself]
    · rw [hother c hc, settledRecord_context]
  · have haway : c ∉ (s.ctx y).runningList :=
      fun h => hwf.notMem_entries hc y (mem_entries_of_running h)
    have hcd : c ≠ d := fun he => haway (he ▸ hd)
    rw [hmeter, if_neg hcd, settledRecord_of_notMem haway, sub_self]
  · obtain ⟨hcd, hc⟩ := hold c hc
    rw [hother c hcd]
    exact settledRecord_began hb y (hbegan c hc)
  · obtain ⟨hcd, hc⟩ := hold c hc
    obtain ⟨_, _, hrec, -⟩ := settledRecord_spec y b s c
    rw [hother c hcd, hrec] at hdrop ⊢
    exact hnoted c hc hdrop
  · rw [hmeter]
    by_cases hcd : c = d
    · subst hcd
      have hyx : y = x := Option.some.inj (hdy.symm.trans hlim.1)
      subst hyx
      rw [if_pos rfl, outstanding_of_notMem fun hc => (hold c hc).1 rfl, add_zero]
      exact finalBill_le_outstanding hd hlim.2 hbegan
    · obtain ⟨_, _, hrec, -⟩ := settledRecord_spec y b s c
      rw [if_neg hcd]
      refine pays_of_settled hwf hlim hbegan y (fun hc => (hold c hc).2) (fun hyx => ?_)
        (hlimit c) (by rw [hother c hcd]) (by rw [hother c hcd, settledRecord_pendingDrop])
        (by rw [hother c hcd, hrec])
      exact countRunningClients_congr (by rw [hrunning, if_neg hyx.symm]) fun d _ => hlimit d

theorem enforceLimits_pays (y : CtxId) :
    Pays cfg x b s (added s (enforceLimits cfg (env.frozen b) y s))
      (enforceLimits cfg (env.frozen b) y s) := by
  have hrun := hsingle.running y
  have hclient : ∀ c, (enforceLimits cfg (env.frozen b) y s).client c = s.client c ∨
      c ∈ (s.ctx y).runningList ∧ (s.client c).coreLimit < 100 ∧
        (s.client c).pendingDrop = false ∧ (enforceLimits cfg (env.frozen b) y s).client c =
        { s.client c with
          isThrottled := true, pendingDrop := true, dropConcurrency := countRunningClients s y
          runTimeInWindowMs := (s.client c).runTimeInWindowMs +
            (b - (s.client c).currentRunStartMs).tdiv (countRunningClients s y)
          currentRunStartMs := b, lastDropSentMs := b } := by
    intro c
    obtain ⟨hvisited, hother⟩ := enforceLimits_client cfg (env.frozen b) hrun c
    by_cases hc : c ∈ (s.ctx y).runningList
    · rcases hvisited hc with heq | ⟨hlimit, hdrop, heq⟩
      · exact Or.inl heq
      · exact Or.inr ⟨hc, hlimit, hdrop, heq⟩
    · exact Or.inl (hother hc)
  have hrunning := enforceLimits_running cfg (env.frozen b) y x s
  have htuned := enforceLimits_tuned cfg (env.frozen b) y s
  generalize enforceLimits cfg (env.frozen b) y s = t at *
  have hlimit : ∀ c, (t.client c).coreLimit = (s.client c).coreLimit := by
    intro c
    rcases hclient c with heq | ⟨-, -, -, heq⟩ <;> rw [heq]
  have hcount : countRunningClients t x = countRunningClients s x :=
    countRunningClients_congr hrunning fun d _ => hlimit d
  refine ⟨htuned.nalloc, fun c => context_of_core (htuned.client c), hlimit, fun c hc => ?_,
    fun c hc => ?_, fun c hc hdrop => ?_, fun c hlim => ?_⟩
  · rcases hclient c with heq | ⟨hruns, -⟩
    · simp [added, heq]
    · exact absurd (mem_entries_of_running hruns) (hwf.notMem_entries hc y)
  · rw [hrunning] at hc
    rcases hclient c with heq | ⟨-, -, -, heq⟩
    · rw [heq]
      exact hbegan c hc
    · rw [heq]
      exact ⟨hb, le_rfl⟩
  · rw [hrunning] at hc
    rcases hclient c with heq | ⟨-, -, -, heq⟩
    · rw [heq] at hdrop ⊢
      exact hnoted c hc hdrop
    · rw [heq]
      exact hb.ne'
  · rcases hclient c with heq | ⟨hruns, hlimited, hdrop, heq⟩
    · have hzero : (added s t c).1 = 0 := by simp [added, heq]
      rw [hzero, Int.cast_zero, zero_add]
      exact outstanding_congr (by rw [hrunning]; exact id) hbegan (hlimit c) (by rw [heq])
        (by rw [heq]) (by rw [heq]) fun _ => hcount
    · have hyx : y = x := by
        have hcy := hwf.belongs y c (mem_entries_of_running hruns)
        exact Option.some.inj (hcy.symm.trans hlim.1)
      subst hyx
      have hduration : 0 ≤ b - (s.client c).currentRunStartMs := by
        have := (hbegan c hruns).2
        omega
      have hbill : (added s t c).1 =
          (b - (s.client c).currentRunStartMs).tdiv (countRunningClients s y) := by
        simp [added, heq]
      rw [hbill, outstanding_of_start (s := t) (by rw [heq]), add_zero,
        outstanding_sharing hruns hlimited hdrop]
      exact tdiv_le_div hduration (countRunningClients_pos s y)

theorem rotateRunning_pays (y : CtxId) : Pays cfg x b s 0 (rotateRunning (env.frozen b) y s) := by
  have hrun := hsingle.running y
  have hclient : ∀ c, (rotateRunning (env.frozen b) y s).client c = s.client c ∨
      c ∈ (s.ctx y).runningList ∧ (s.client c).lastDropSentMs = 0 ∧
        (rotateRunning (env.frozen b) y s).client c =
        { s.client c with
          pendingDrop := true, dropConcurrency := countRunningClients s y
          lastDropSentMs := b } := by
    intro c
    obtain ⟨hvisited, hother⟩ := rotateRunning_client (env.frozen b) hrun c
    by_cases hc : c ∈ (s.ctx y).runningList
    · rcases hvisited hc with heq | ⟨hlast, heq⟩
      · exact Or.inl heq
      · exact Or.inr ⟨hc, hlast, heq⟩
    · exact Or.inl (hother hc)
  have hrunning := rotateRunning_running (env.frozen b) y x s
  have htuned := rotateRunning_tuned (env.frozen b) y s
  generalize rotateRunning (env.frozen b) y s = t at *
  have hlimit : ∀ c, (t.client c).coreLimit = (s.client c).coreLimit := by
    intro c
    rcases hclient c with heq | ⟨-, -, heq⟩ <;> rw [heq]
  have hcount : countRunningClients t x = countRunningClients s x :=
    countRunningClients_congr hrunning fun d _ => hlimit d
  refine ⟨htuned.nalloc, fun c => context_of_core (htuned.client c), hlimit, fun _ _ => rfl,
    fun c hc => ?_, fun c hc hdrop => ?_, fun c hlim => ?_⟩
  · rw [hrunning] at hc
    rcases hclient c with heq | ⟨-, -, heq⟩ <;> rw [heq] <;> exact hbegan c hc
  · rw [hrunning] at hc
    rcases hclient c with heq | ⟨-, -, heq⟩
    · rw [heq] at hdrop ⊢
      exact hnoted c hc hdrop
    · rw [heq]
      exact hb.ne'
  · rw [Pi.zero_apply, Prod.fst_zero, Int.cast_zero, zero_add]
    rcases hclient c with heq | ⟨hruns, hlast, heq⟩
    · exact outstanding_congr (by rw [hrunning]; exact id) hbegan (hlimit c) (by rw [heq])
        (by rw [heq]) (by rw [heq]) fun _ => hcount
    · by_cases hx : c ∈ (t.ctx x).runningList
      · -- Whoever has no drop noted was sharing; the tail is billed at no higher a rate.
        have hxs : c ∈ (s.ctx x).runningList := hrunning ▸ hx
        have hyx : y = x := hwf.running_unique hruns hxs
        subst hyx
        have hdrop : (s.client c).pendingDrop = false := by
          by_contra hpending
          exact hnoted c hxs (by simpa using hpending) hlast
        have hshare : tailShare (t.client c) = countRunningClients s y := by
          rw [heq, tailShare, if_pos (countRunningClients_pos s y)]
        have hduration : (0 : ℚ) ≤ ((b - (s.client c).currentRunStartMs : ℤ) : ℚ) := by
          have := (hbegan c hxs).2
          exact_mod_cast (by omega : 0 ≤ b - (s.client c).currentRunStartMs)
        have hcount0 : (0 : ℚ) < countRunningClients s y := by
          exact_mod_cast countRunningClients_pos s y
        have hpercent : (cfg.dropTailBillingPercent : ℚ) ≤ 100 := by
          exact_mod_cast cfg.tail_bounds.2
        rw [outstanding_dropping hx (hlimit c ▸ hlim.2) (by rw [heq]),
          outstanding_sharing hxs hlim.2 hdrop, hshare, mul_div_assoc]
        have hstart : (t.client c).currentRunStartMs = (s.client c).currentRunStartMs := by
          rw [heq]
        rw [hstart]
        refine mul_le_of_le_one_right (div_nonneg hduration hcount0.le) ?_
        rw [div_le_one (by norm_num)]
        exact hpercent
      · rw [outstanding_of_notMem hx]
        exact outstanding_nonneg hbegan c

omit hwf hsingle in
theorem annotationUpdate_pays {id : ℕ} {memory : Option ℕ} {core : Option ℤ}
    (h : KeepsLimits s (.annotated id memory core)) :
    Pays cfg x b s 0 (annotationUpdate (env.frozen b) id memory core s) := by
  obtain ⟨hctx, hclients, hnalloc, hticks⟩ := annotationUpdate_rest (env.frozen b) id memory core s
  have hclient : ∀ c, ∃ memoryLimit, (annotationUpdate (env.frozen b) id memory core s).client c =
      { s.client c with memoryLimit := memoryLimit } := by
    intro c
    obtain ⟨memoryLimit, coreLimit, heq, hcore⟩ :=
      annotationUpdate_client (env.frozen b) id memory core s c
    have hsame : coreLimit = (s.client c).coreLimit := by
      rcases hcore with hsame | ⟨hfind, hnew⟩
      · exact hsame
      · exact hnew.trans (h c hfind)
    exact ⟨memoryLimit, by rw [heq, hsame]⟩
  have hcost : Costless (env.frozen b) s (annotationUpdate (env.frozen b) id memory core s) := by
    refine ⟨?_, hnalloc, hticks.ge, fun c => ?_, fun c => ?_, fun y => by rw [hctx],
      fun y => by rw [hctx]⟩
    · rw [hclients]
      exact List.Subset.refl _
    · obtain ⟨_, heq⟩ := hclient c
      rw [heq]
      rfl
    · obtain ⟨_, heq⟩ := hclient c
      exact Or.inl (by rw [heq])
  exact Pays.of_costless hcost hb.ne' hbegan hnoted fun _ => rfl

end Charges

/-! ## Balance -/

/-- What a limited client of a context has been billed and what it has outstanding. -/
def owed (cfg : Config) (x : CtxId) (b : ℤ) (s : Sched) (m : Meter) (c : ClientId) : ℚ :=
  if LimitedOn x s c then (m c).1 + outstanding cfg x b s c else 0

/-- What the limited clients of `x` have been billed and have outstanding is at most `T`. -/
structure Conserved (cfg : Config) (x : CtxId) (b T : ℤ) (s : Sched) (m : Meter) : Prop where
  began : Began x b s
  noted : Noted x s
  unknown : ∀ c, (s.client c).context = none → (m c).1 = 0
  balance : ∑ c ∈ Finset.range s.nalloc, owed cfg x b s m c ≤ T

theorem Conserved.init (cfg : Config) (x : CtxId) (b : ℤ) :
    Conserved cfg x b 0 Sched.init 0 where
  began c hc := by simp [Sched.init] at hc
  noted c hc := by simp [Sched.init] at hc
  unknown _ _ := rfl
  balance := by simp [Sched.init]

variable {T : ℤ}

theorem Pays.conserved (h : Pays cfg x b s n t) (hs : Conserved cfg x b T s m) :
    Conserved cfg x b T t (m + n) where
  began := h.began
  noted := h.noted
  unknown c hc := by
    rw [h.context] at hc
    rw [Pi.add_apply, Prod.fst_add, hs.unknown c hc, h.unknown c hc, add_zero]
  balance := by
    rw [h.nalloc]
    refine le_trans (Finset.sum_le_sum fun c _ => ?_) hs.balance
    have hiff : LimitedOn x t c ↔ LimitedOn x s c := by
      rw [LimitedOn, LimitedOn, h.context, h.limit]
    unfold owed
    by_cases hlim : LimitedOn x s c
    · have hpays := h.pays c hlim
      rw [if_pos (hiff.mpr hlim), if_pos hlim, Pi.add_apply, Prod.fst_add]
      push_cast
      linarith
    · rw [if_neg (fun ht => hlim (hiff.mp ht)), if_neg hlim]

/-- A client that belonged to no context, and was never billed, arrives. -/
theorem Conserved.newcomer (hs : Conserved cfg x b T s m) (hwf : WellFormed s)
    (hd : (s.client d).context = none) (hnalloc : s.nalloc ≤ t.nalloc)
    (hclient : ∀ c, c ≠ d → t.client c = s.client c)
    (hrunning : (t.ctx x).runningList = (s.ctx x).runningList) :
    Conserved cfg x b T t m := by
  have hne : ∀ c ∈ (s.ctx x).runningList, c ≠ d := by
    rintro c hc rfl
    exact hwf.notMem_entries hd x (mem_entries_of_running hc)
  have hcount : countRunningClients t x = countRunningClients s x :=
    countRunningClients_congr hrunning fun c hc => by rw [hclient c (hne c hc)]
  have howed : ∀ c, owed cfg x b t m c ≤ owed cfg x b s m c := by
    intro c
    by_cases hcd : c = d
    · subst hcd
      have haway : c ∉ (t.ctx x).runningList := by
        rw [hrunning]
        exact fun hc => hne c hc rfl
      have hnot : ¬ LimitedOn x s c := by simp [LimitedOn, hd]
      rw [owed, owed, if_neg hnot, hs.unknown c hd, outstanding_of_notMem haway]
      simp
    · have hle : outstanding cfg x b t c ≤ outstanding cfg x b s c := by
        have hrec := hclient c hcd
        exact outstanding_congr (by rw [hrunning]; exact id) hs.began (by rw [hrec])
          (by rw [hrec]) (by rw [hrec]) (by rw [hrec]) fun _ => hcount
      have hiff : LimitedOn x t c ↔ LimitedOn x s c := by
        rw [LimitedOn, LimitedOn, hclient c hcd]
      unfold owed
      split
      · rename_i hlim
        rw [if_pos (hiff.mp hlim)]
        linarith
      · rename_i hlim
        rw [if_neg fun h => hlim (hiff.mpr h)]
  refine ⟨fun c hc => ?_, fun c hc => ?_, fun c hc => ?_, ?_⟩
  · rw [hrunning] at hc
    rw [hclient c (hne c hc)]
    exact hs.began c hc
  · rw [hrunning] at hc
    rw [hclient c (hne c hc)]
    exact hs.noted c hc
  · by_cases hcd : c = d
    · rw [hcd]
      exact hs.unknown d hd
    · rw [hclient c hcd] at hc
      exact hs.unknown c hc
  · have hrange : Finset.range s.nalloc ⊆ Finset.range t.nalloc :=
      Finset.range_subset_range.mpr hnalloc
    have hfresh : ∀ c ∈ Finset.range t.nalloc, c ∉ Finset.range s.nalloc →
        owed cfg x b s m c = 0 := by
      intro c _ hc
      have hnone := hwf.fresh c (by simpa using hc)
      rw [owed, if_neg (by simp [LimitedOn, hnone])]
    calc ∑ c ∈ Finset.range t.nalloc, owed cfg x b t m c
        ≤ ∑ c ∈ Finset.range t.nalloc, owed cfg x b s m c :=
          Finset.sum_le_sum fun c _ => howed c
      _ = ∑ c ∈ Finset.range s.nalloc, owed cfg x b s m c :=
          (Finset.sum_subset hrange hfresh).symm
      _ ≤ T := hs.balance

theorem Charge.conserved (hok : ∀ s e, ok s e → KeepsLimits s e) (hb : 0 < b)
    (hwf : WellFormed s) (hsingle : SingleEntries s) (h : Charge cfg (env.frozen b) K ok s n t)
    (hs : Conserved cfg x b T s m) : Conserved cfg x b T t (m + n) := by
  have hbegan := hs.began
  have hnoted := hs.noted
  cases h with
  | window y hK => exact (freshWindow_pays hwf hsingle hb hbegan hnoted y).conserved hs
  | grant y d rest hfresh hreq _ hsend =>
      exact (grant_pays hwf hsingle hb hbegan hnoted hreq).conserved hs
  | leave y d hd => exact (leaveRunning_pays hwf hsingle hb hbegan hnoted hd).conserved hs
  | enforce y => exact (enforceLimits_pays hwf hsingle hb hbegan hnoted y).conserved hs
  | rotate y => exact (rotateRunning_pays hwf hsingle hb hbegan hnoted y).conserved hs
  | annotate id memory core hadmitted =>
      exact (annotationUpdate_pays hb hbegan hnoted (hok _ _ hadmitted)).conserved hs
  | accept garbage hadmitted =>
      rw [add_zero]
      refine hs.newcomer hwf (hwf.fresh s.nalloc le_rfl) (Nat.le_succ _) (fun c hc => ?_) rfl
      simp [XpuShare.accept, hc]
  | enrol d r e hadmitted hmem hunreg hid =>
      obtain ⟨y, hclient, -, -, -, hnalloc, -⟩ := enrol_spec cfg d r e s
      rw [add_zero]
      refine hs.newcomer hwf (hwf.context_eq_none hunreg) hnalloc.ge (fun c hc => ?_)
        (enrol_running hwf d r e x)
      rw [hclient, Function.update_of_ne hc]
  | costless hact hcost =>
      exact (Pays.of_costless hcost hb.ne' hbegan hnoted fun _ => rfl).conserved hs

end XpuShare
