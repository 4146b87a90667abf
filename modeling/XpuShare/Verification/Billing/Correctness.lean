import XpuShare.Verification.Billing.Handlers
import XpuShare.Verification.Billing.Records
import XpuShare.Verification.Scheduler.Runs

/-! # No millisecond is billed twice

While a client runs, what it has been billed for lies before `current_run_start_ms` of its
record. Every charge moves the start forward by at least what it bills. -/

namespace XpuShare

variable {cfg : Config} {env : Env} {K : CtxId → Sched → Prop} {ok : Sched → Event → Prop}
  {s t : Sched} {m n : Meter} {c : ClientId} {x : CtxId}

/-- Whether a client is in the running list of its context. -/
def Sched.runs (s : Sched) (c : ClientId) : Bool :=
  (s.client c).context.any fun x => c ∈ (s.ctx x).runningList

/-- The time that a client has spent in running lists up to the last clock reading. -/
def timeInRunningList (env : Env) (m : Meter) (s : Sched) (c : ClientId) : ℤ :=
  (m c).2 + if s.runs c then lastReading env s else 0

/-- What a charge does to the stay of a client: nothing while it is away, a bill within the
stay, its beginning or its end. -/
inductive Stay (env : Env) (c : ClientId) (s t : Sched) : ℤ × ℤ → Prop where
  | away (hs : ∀ x, c ∉ (s.ctx x).runningList) (ht : ∀ x, c ∉ (t.ctx x).runningList) :
      Stay env c s t (0, 0)
  | bill (x : CtxId) (amount : ℤ) (hs : c ∈ (s.ctx x).runningList)
      (ht : c ∈ (t.ctx x).runningList) (hnonneg : 0 ≤ amount)
      (hle : amount ≤ (t.client c).currentRunStartMs - (s.client c).currentRunStartMs)
      (hlast : (t.client c).currentRunStartMs ≤ lastReading env t) : Stay env c s t (amount, 0)
  | enter (x : CtxId) (hs : ∀ y, c ∉ (s.ctx y).runningList) (ht : c ∈ (t.ctx x).runningList)
      (hlast : (t.client c).currentRunStartMs ≤ lastReading env t) :
      Stay env c s t (0, -(t.client c).currentRunStartMs)
  | leave (x : CtxId) (amount now : ℤ) (hs : c ∈ (s.ctx x).runningList)
      (ht : ∀ y, c ∉ (t.ctx y).runningList) (hnonneg : 0 ≤ amount)
      (hle : amount ≤ now - (s.client c).currentRunStartMs) : Stay env c s t (amount, now)

/-- The bills of a client are not negative, and are covered by its stays: by those that have
ended, and by the present one up to the start in its record. -/
structure Covered (env : Env) (c : ClientId) (s : Sched) (m : Meter) : Prop where
  nonneg : 0 ≤ (m c).1
  away : (∀ x, c ∉ (s.ctx x).runningList) → (m c).1 ≤ (m c).2
  here : ∀ x, c ∈ (s.ctx x).runningList →
    (m c).1 ≤ (m c).2 + (s.client c).currentRunStartMs ∧
      (s.client c).currentRunStartMs ≤ lastReading env s

theorem Covered.init (env : Env) (c : ClientId) : Covered env c Sched.init 0 := by
  refine ⟨le_rfl, fun _ => le_rfl, fun x hx => ?_⟩
  simp [Sched.init] at hx

/-- A client runs on one context only. -/
theorem WellFormed.running_unique (hwf : WellFormed s) {y : CtxId}
    (hx : c ∈ (s.ctx x).runningList) (hy : c ∈ (s.ctx y).runningList) : x = y := by
  have hctx := hwf.belongs x c (mem_entries_of_running hx)
  rw [hwf.belongs y c (mem_entries_of_running hy)] at hctx
  exact (Option.some.inj hctx).symm

theorem WellFormed.running_of_context (hwf : WellFormed s) {y : CtxId}
    (hctx : (s.client c).context = some y) (hx : c ∈ (s.ctx x).runningList) :
    c ∈ (s.ctx y).runningList := by
  have hcx := hwf.belongs x c (mem_entries_of_running hx)
  rw [hctx] at hcx
  rwa [Option.some.inj hcx]

theorem Stay.covered (h : Stay env c s t (n c)) (hs : Covered env c s m) :
    Covered env c t (m + n) := by
  have hsum : (m + n) c = m c + n c := rfl
  generalize n c = a at h hsum
  cases h with
  | away hsa hta =>
      have hle := hs.away hsa
      refine ⟨?_, fun _ => ?_, fun x hx => absurd hx (hta x)⟩
      · rw [hsum]
        simpa using hs.nonneg
      · rw [hsum]
        simpa using hle
  | bill x amount hsr htr hnonneg hle hlast =>
      obtain ⟨hpaid, -⟩ := hs.here x hsr
      have h0 := hs.nonneg
      refine ⟨?_, fun hta => absurd htr (hta x), fun y _ => ⟨?_, hlast⟩⟩
      · rw [hsum, Prod.fst_add]
        omega
      · rw [hsum, Prod.fst_add, Prod.snd_add]
        omega
  | enter x hsa htr hlast =>
      have hle := hs.away hsa
      have h0 := hs.nonneg
      refine ⟨?_, fun hta => absurd htr (hta x), fun y _ => ⟨?_, hlast⟩⟩
      · rw [hsum, Prod.fst_add]
        omega
      · rw [hsum, Prod.fst_add, Prod.snd_add]
        omega
  | leave x amount now hsr hta hnonneg hle =>
      obtain ⟨hpaid, -⟩ := hs.here x hsr
      have h0 := hs.nonneg
      refine ⟨?_, fun _ => ?_, fun y hy => absurd hy (hta y)⟩
      · rw [hsum, Prod.fst_add]
        omega
      · rw [hsum, Prod.fst_add, Prod.snd_add]
        omega

/-- A charge that leaves a client in its running list, if it runs. -/
theorem Stay.of_running {amount : ℤ}
    (hrun : ∀ x, c ∈ (t.ctx x).runningList ↔ c ∈ (s.ctx x).runningList)
    (haway : (∀ x, c ∉ (s.ctx x).runningList) → amount = 0)
    (hhere : ∀ x, c ∈ (s.ctx x).runningList → 0 ≤ amount ∧
      amount ≤ (t.client c).currentRunStartMs - (s.client c).currentRunStartMs ∧
      (t.client c).currentRunStartMs ≤ lastReading env t) : Stay env c s t (amount, 0) := by
  by_cases h : ∃ x, c ∈ (s.ctx x).runningList
  · obtain ⟨x, hx⟩ := h
    obtain ⟨hnonneg, hle, hlast⟩ := hhere x hx
    exact .bill x amount hx ((hrun x).mpr hx) hnonneg hle hlast
  · have hs : ∀ x, c ∉ (s.ctx x).runningList := fun x hx => h ⟨x, hx⟩
    rw [haway hs]
    exact .away hs fun x hx => hs x ((hrun x).mp hx)

/-! ## Charges -/

theorem finalBill_le (cfg : Config) (s : Sched) (x : CtxId) (c : ClientId) {now : ℤ}
    (h : (s.client c).currentRunStartMs ≤ now) :
    finalBill cfg s x c now ≤ now - (s.client c).currentRunStartMs := by
  have htail := cfg.tail_bounds
  have hduration : 0 ≤ now - (s.client c).currentRunStartMs := by omega
  unfold finalBill
  simp only
  split
  · split
    · have hraw := Int.tdiv_le_self
        (if 0 < (s.client c).dropConcurrency then (s.client c).dropConcurrency else 1) hduration
      have hraw0 : 0 ≤ (now - (s.client c).currentRunStartMs).tdiv
          (if 0 < (s.client c).dropConcurrency then (s.client c).dropConcurrency else 1) :=
        Int.tdiv_nonneg hduration (by split <;> omega)
      generalize (now - (s.client c).currentRunStartMs).tdiv
        (if 0 < (s.client c).dropConcurrency then (s.client c).dropConcurrency else 1)
        = raw at hraw hraw0 ⊢
      have hprod : raw * cfg.dropTailBillingPercent ≤ raw * 100 :=
        mul_le_mul_of_nonneg_left htail.2 hraw0
      calc (raw * cfg.dropTailBillingPercent).tdiv 100 ≤ (raw * 100).tdiv 100 :=
            Int.tdiv_le_tdiv (by norm_num) hprod
        _ = raw := Int.mul_tdiv_cancel _ (by norm_num)
        _ ≤ _ := hraw
    · exact Int.tdiv_le_self _ hduration
  · exact hduration

section Charge

variable (hclock : Monotone env.clock) (hwf : WellFormed s) (hsingle : SingleEntries s)
  (hstart : ∀ x, c ∈ (s.ctx x).runningList → (s.client c).currentRunStartMs ≤ lastReading env s)

include hclock hstart

/-- A charge that settles the clients running on a context and lets `c` run on. -/
theorem Stay.of_settled {now : ℤ} (x : CtxId)
    (hrun : ∀ y, c ∈ (t.ctx y).runningList ↔ c ∈ (s.ctx y).runningList)
    (hfield : (t.client c).currentRunStartMs = (settledRecord x now s c).currentRunStartMs)
    (hticks : s.ticks ≤ t.ticks) (hnow : now ≤ lastReading env t) :
    Stay env c s t ((settledRecord x now s c).runTimeInWindowMs -
      (s.client c).runTimeInWindowMs, 0) := by
  refine Stay.of_running hrun (fun haway => ?_) fun y hy => ?_
  · rw [settledRecord, if_neg (haway x), sub_self]
  · obtain ⟨start, bill, heq, h0, hle, hwhich⟩ := settledRecord_spec x now s c
    have hbefore := (hstart y hy).trans (lastReading_mono hclock hticks)
    rw [hfield, heq]
    refine ⟨by simp only; omega, by simp only; omega, ?_⟩
    rcases hwhich with hsame | hnew
    · rw [hsame]
      exact hbefore
    · rw [hnew]
      exact hnow

/-- A charge that bills nobody and moves no start. -/
theorem Stay.of_free (hrun : ∀ y, c ∈ (t.ctx y).runningList ↔ c ∈ (s.ctx y).runningList)
    (hfield : ∀ x, c ∈ (s.ctx x).runningList →
      (t.client c).currentRunStartMs = (s.client c).currentRunStartMs)
    (hticks : s.ticks ≤ t.ticks) : Stay env c s t (0, 0) := by
  refine Stay.of_running hrun (fun _ => rfl) fun y hy => ?_
  rw [hfield y hy, sub_self]
  exact ⟨le_rfl, le_rfl, (hstart y hy).trans (lastReading_mono hclock hticks)⟩

include hsingle

theorem enforceLimits_stay (x : CtxId) :
    Stay env c s (enforceLimits cfg env x s) (added s (enforceLimits cfg env x s) c) := by
  have hticks := enforceLimits_ticks cfg env x s
  obtain ⟨hvisited, hother⟩ := enforceLimits_client cfg env (hsingle.running x) c
  have hrunning : ∀ y, c ∈ ((enforceLimits cfg env x s).ctx y).runningList ↔
      c ∈ (s.ctx y).runningList := fun y => by rw [enforceLimits_running]
  refine Stay.of_running hrunning (fun haway => ?_) fun y hy => ?_
  · rw [hother (haway x), sub_self]
  · have hlast := hstart y hy
    have hmono : lastReading env s ≤ lastReading env (enforceLimits cfg env x s) :=
      lastReading_mono hclock (by omega)
    have hsame : (enforceLimits cfg env x s).client c = s.client c →
        0 ≤ ((enforceLimits cfg env x s).client c).runTimeInWindowMs -
            (s.client c).runTimeInWindowMs ∧
          ((enforceLimits cfg env x s).client c).runTimeInWindowMs -
            (s.client c).runTimeInWindowMs ≤
          ((enforceLimits cfg env x s).client c).currentRunStartMs -
            (s.client c).currentRunStartMs ∧
          ((enforceLimits cfg env x s).client c).currentRunStartMs ≤
            lastReading env (enforceLimits cfg env x s) := by
      intro heq
      rw [heq]
      omega
    by_cases hx : c ∈ (s.ctx x).runningList
    · rcases hvisited hx with heq | ⟨-, -, heq⟩
      · exact hsame heq
      · have hnow : (s.client c).currentRunStartMs ≤ currentTimeMs env s :=
          hlast.trans (lastReading_le_clock hclock (by omega))
        have hduration : 0 ≤ currentTimeMs env s - (s.client c).currentRunStartMs := by omega
        have hshare := Int.tdiv_nonneg hduration (countRunningClients_pos s x).le
        have hself := Int.tdiv_le_self (countRunningClients s x) hduration
        have hread : currentTimeMs env s ≤ lastReading env (enforceLimits cfg env x s) :=
          clock_le_lastReading hclock (by omega)
        rw [heq]
        simp only
        omega
    · exact hsame (hother hx)

include hwf

theorem freshWindow_stay (x : CtxId) :
    Stay env c s (freshWindow cfg env x s) (freshWindowMeter cfg env x s c) := by
  have hticks := freshWindow_ticks cfg env x s
  cases hexpired : windowExpired cfg (s.ctx x) (currentTimeMs env s) with
  | false =>
      rw [freshWindowMeter_open hexpired]
      exact Stay.of_free hclock hstart (fun y => by rw [freshWindow_running])
        (fun _ _ => by rw [freshWindow_client_open hexpired]) (by omega)
  | true =>
      rw [freshWindowMeter_expired (hsingle.running x) hexpired]
      refine Stay.of_settled hclock hstart x (fun y => by rw [freshWindow_running]) ?_ (by omega) ?_
      · obtain ⟨carry, hcarry⟩ :=
          freshWindow_client_expired (hsingle.running x) hwf.nodup hexpired c
        rw [hcarry]
        split <;> rfl
      · exact clock_le_lastReading hclock (by omega)

theorem grant_stay {rest : List ClientId} {d : ClientId}
    (hreq : (s.ctx x).requests = d :: rest) :
    Stay env c s (grant env x d (sendMessage env d .lockOk s))
      (grantMeter env x d (sendMessage env d .lockOk s) c) := by
  have hrun := hsingle.running x
  have hticks := settleRunners_ticks env x (sendMessage env d .lockOk s)
  have hgrant : (grant env x d (sendMessage env d .lockOk s)).ticks
      = (settleRunners env x (sendMessage env d .lockOk s)).ticks + 1 := rfl
  have hsent : (sendMessage env d .lockOk s).ticks = s.ticks := rfl
  rw [grantMeter_apply hrun]
  by_cases hd : c = d
  · subst hd
    -- The client granted stood in `requests`, so that it runs nowhere yet.
    have haway : ∀ y, c ∉ (s.ctx y).runningList := by
      intro y hy
      have hc : c ∈ (s.ctx x).requests := by simp [hreq]
      have hctx := hwf.belongs x c (mem_entries_of_requests hc)
      rw [hwf.belongs y c (mem_entries_of_running hy)] at hctx
      have hyx : y = x := Option.some.inj hctx
      subst hyx
      exact notMem_running_of_pending (hsingle y) (List.mem_append_left _ hc) hy
    have hstarted : ((grant env x c (sendMessage env c .lockOk s)).client c).currentRunStartMs
        = currentTimeMs env (settleRunners env x (sendMessage env c .lockOk s)) := by
      rw [grant_client hrun, if_pos rfl]
    rw [settledRecord, if_neg (haway x), sub_self, if_pos rfl, ← hstarted]
    refine .enter x haway ?_ ?_
    · rw [grant_running, if_pos rfl]
      exact List.mem_append_right _ (List.mem_singleton.mpr rfl)
    · rw [hstarted]
      exact clock_le_lastReading hclock (by omega)
  · rw [if_neg hd]
    refine Stay.of_settled hclock hstart x (fun y => ?_) ?_ (by omega) ?_
    · rw [grant_running]
      split
      · rename_i hy
        simp [hy, hd]
      · exact Iff.rfl
    · rw [grant_client hrun, if_neg hd]
    · exact clock_le_lastReading hclock (by omega)

theorem leaveRunning_stay {d : ClientId} (hd : d ∈ (s.ctx x).runningList) :
    Stay env c s (leaveRunning cfg env x d s) (leaveRunningMeter cfg env x d s c) := by
  have hrun := hsingle.running x
  have hticks := leaveRunning_ticks cfg env x d s hd
  rw [leaveRunningMeter_apply cfg env hrun hd]
  by_cases hc : c = d
  · subst hc
    have hnow : (s.client c).currentRunStartMs ≤ currentTimeMs env s :=
      (hstart x hd).trans (lastReading_le_clock hclock (by omega))
    rw [if_pos rfl]
    refine .leave x _ _ hd (fun y hy => ?_) (finalBill_nonneg cfg s x c _)
      (finalBill_le cfg s x c hnow)
    rw [leaveRunning_running] at hy
    split at hy
    · exact hrun.not_mem_erase hy
    · rename_i hne
      exact hne (hwf.running_unique hy hd)
  · rw [if_neg hc]
    refine Stay.of_settled hclock hstart x (fun y => ?_) ?_ (by omega) ?_
    · rw [leaveRunning_running]
      split
      · rename_i hy
        rw [hy, List.mem_erase_of_ne hc]
      · exact Iff.rfl
    · rw [leaveRunning_client cfg env hd, releaseRunning_client cfg hrun, if_neg hc]
    · exact clock_le_lastReading hclock (by omega)

/-- What each charge does to the stay of each client. -/
theorem Charge.stay (h : Charge cfg env K ok s n t) : Stay env c s t (n c) := by
  cases h with
  | window x hK => exact freshWindow_stay hclock hwf hsingle hstart x
  | grant x d rest hfresh hreq hok hsend => exact grant_stay hclock hwf hsingle hstart hreq
  | leave x d hd => exact leaveRunning_stay hclock hwf hsingle hstart hd
  | enforce x => exact enforceLimits_stay hclock hsingle hstart x
  | rotate x =>
      have hticks := rotateRunning_ticks env x s
      obtain ⟨hvisited, hother⟩ := rotateRunning_client env (hsingle.running x) c
      refine Stay.of_free hclock hstart (fun y => by rw [rotateRunning_running])
        (fun _ _ => ?_) (by omega)
      by_cases hx : c ∈ (s.ctx x).runningList
      · rcases hvisited hx with heq | ⟨-, heq⟩ <;> rw [heq]
      · rw [hother hx]
  | annotate id memory core hok =>
      obtain ⟨hctx, -, -, hticks⟩ := annotationUpdate_rest env id memory core s
      obtain ⟨_, _, heq, -⟩ := annotationUpdate_client env id memory core s c
      exact Stay.of_free hclock hstart (fun y => by rw [hctx]) (fun _ _ => by rw [heq])
        (by omega)
  | accept garbage hok =>
      refine Stay.of_free hclock hstart (fun _ => Iff.rfl) (fun x hx => ?_) le_rfl
      have hne : c ≠ s.nalloc := by
        rintro rfl
        exact hwf.notMem_entries (hwf.fresh _ le_rfl) x (mem_entries_of_running hx)
      simp [XpuShare.accept, hne]
  | enrol d r e hok hmem hunreg hid =>
      obtain ⟨y, hclient, -⟩ := enrol_spec cfg d r e s
      refine Stay.of_free hclock hstart (fun y => by rw [enrol_running hwf]) (fun x hx => ?_)
        (enrol_ticks cfg d r e s).ge
      have hne : c ≠ d := by
        rintro rfl
        exact hwf.notMem_entries (hwf.context_eq_none hunreg) x (mem_entries_of_running hx)
      rw [hclient, Function.update_of_ne hne]
  | costless h hcost =>
      exact Stay.of_free hclock hstart (fun y => by rw [hcost.running])
        (fun _ _ => runStart_of_billing (hcost.client c)) hcost.ticks

end Charge

/-! ## Runs -/

/-- No condition on the contexts whose windows are checked. -/
theorem lasting_true (cfg : Config) (env : Env) : Lasting cfg env fun _ _ => True :=
  ⟨fun _ _ => trivial, fun _ => trivial⟩

theorem Event.ready_true (cfg : Config) (env : Env) (s : Sched) (e : Event) :
    e.Ready cfg env (fun _ _ => True) s := by
  unfold Event.Ready
  split <;> simp

theorem covered_of_run (hclock : Monotone env.clock)
    (h : Transition.Accumulates (MeteredStep cfg env FreshRequest) Sched.init m s)
    (c : ClientId) : WellFormed s ∧ SingleEntries s ∧ Covered env c s m := by
  rw [← zero_add m]
  refine h.invariant (I := fun s m => WellFormed s ∧ SingleEntries s ∧ Covered env c s m) ?_
    ⟨WellFormed.init, SingleEntries.init, Covered.init env c⟩
  rintro s m t n ⟨e, hok, henabled, fuel, hhandle, rfl⟩ hs
  refine handle_invariant (lasting_true cfg env) (fun _ _ h => h) ?_ hok henabled
    (e.ready_true cfg env s) hhandle hs
  intro u v m n hwf hsingle hcharge hu
  exact (hcharge.stay hclock hwf hsingle fun x hx => (hu.here x hx).2).covered hu

theorem Sched.runs_iff (hwf : WellFormed s) :
    s.runs c = true ↔ ∃ x, c ∈ (s.ctx x).runningList := by
  unfold Sched.runs
  refine ⟨fun h => ?_, fun ⟨x, hx⟩ => ?_⟩
  · rw [Option.any_eq_true] at h
    obtain ⟨x, -, hx⟩ := h
    exact ⟨x, of_decide_eq_true hx⟩
  · rw [hwf.belongs x c (mem_entries_of_running hx)]
    simpa using hx

/-- Whatever happens, a client is billed no less than nothing and no more than the time it
has spent in running lists. -/
theorem billed_at_most_time_running (hclock : Monotone env.clock)
    (h : Transition.Accumulates (MeteredStep cfg env FreshRequest) Sched.init m s)
    (c : ClientId) : 0 ≤ (m c).1 ∧ (m c).1 ≤ timeInRunningList env m s c := by
  obtain ⟨hwf, -, hs⟩ := covered_of_run hclock h c
  refine ⟨hs.nonneg, ?_⟩
  unfold timeInRunningList
  split
  · rename_i hruns
    obtain ⟨x, hx⟩ := (Sched.runs_iff hwf).mp hruns
    obtain ⟨hpaid, hlast⟩ := hs.here x hx
    omega
  · rename_i hruns
    have haway := hs.away fun x hx => hruns ((Sched.runs_iff hwf).mpr ⟨x, hx⟩)
    omega

/-- A clock that advances by 100 ms from each reading to the next. -/
def ticking : Env where
  clock n := 100 * n + 1
  sendOk _ _ := true

theorem billed_at_most_time_running_two_clients :
    ∃ m s, Transition.Accumulates (MeteredStep {} ticking FreshRequest) Sched.init m s ∧
      m 0 = (450, 700) ∧ m 1 = (200, -401) ∧ s.runs 1 = true ∧ lastReading ticking s = 801 ∧
      ∀ c, 0 ≤ (m c).1 ∧ (m c).1 ≤ timeInRunningList ticking m s c := by
  have hmono : Monotone ticking.clock := by
    intro i j hij
    simp only [ticking]
    omega
  obtain ⟨m, s, hrun, h⟩ := exists_metered {} ticking FreshRequest 9
    [.accept {}, .accept {}, enterQuota 0 1 50, enterQuota 1 2 50, .message 0 .reqLock,
      .message 1 .reqLock, .timerBegin 0, .timerEnd 0 true, .message 0 .lockReleased]
    (fun m s => m 0 = (450, 700) ∧ m 1 = (200, -401) ∧ s.runs 1 = true ∧
      lastReading ticking s = 801) (by decide +kernel)
  exact ⟨m, s, hrun, h.1, h.2.1, h.2.2.1, h.2.2.2, fun c =>
    billed_at_most_time_running hmono hrun c⟩

end XpuShare
