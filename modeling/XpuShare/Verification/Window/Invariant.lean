import XpuShare.Verification.Billing.Correctness

/-! # What a window is charged with

`check_and_reset_window` settles the running clients up to the boundary before it starts a
window, except those that have been told to drop the lock. As long as no window ends while
such a client runs, everything in `run_time_in_window_ms` beyond the carried debt was spent
in the current window. -/

namespace XpuShare

variable {cfg : Config} {env : Env} {K : CtxId → Sched → Prop} {ok : Sched → Event → Prop}
  {s t : Sched} {c d : ClientId} {x : CtxId}

/-- The usage of a record lies within a window that began at `start`: up to the last clock
reading, or up to the start of the present run where the run is still to be billed. -/
structure InWindow (cfg : Config) (last start : ℤ) (runs : Prop) (r : Client) : Prop where
  away : ¬ runs → r.runTimeInWindowMs ≤ r.quotaDebtMs + (last - start)
  free : runs → r.pendingDrop = true → cfg.dropTailBillingPercent = 0 →
    r.runTimeInWindowMs ≤ r.quotaDebtMs + (last - start)
  here : runs → r.pendingDrop = false ∨ cfg.dropTailBillingPercent ≠ 0 →
    start ≤ r.currentRunStartMs ∧
      r.runTimeInWindowMs ≤ r.quotaDebtMs + (r.currentRunStartMs - start)

namespace InWindow

variable {last last' start : ℤ} {runs : Prop} {r r' : Client}

theorem mono (h : InWindow cfg last start runs r) (hlast : last ≤ last') :
    InWindow cfg last' start runs r := by
  refine ⟨fun haway => ?_, fun hruns hdrop hfree => ?_, h.here⟩
  · have := h.away haway
    omega
  · have := h.free hruns hdrop hfree
    omega

/-- Whether it runs or not, a client has been billed at most the time since the window began on
top of the debt it entered the window with. -/
theorem le (h : InWindow cfg last start runs r) (hstart : runs → r.currentRunStartMs ≤ last) :
    r.runTimeInWindowMs ≤ r.quotaDebtMs + (last - start) := by
  by_cases hruns : runs
  · have hlast := hstart hruns
    by_cases hfree : r.pendingDrop = true ∧ cfg.dropTailBillingPercent = 0
    · exact h.free hruns hfree.1 hfree.2
    · have hpaid : r.pendingDrop = false ∨ cfg.dropTailBillingPercent ≠ 0 := by
        by_cases hdrop : r.pendingDrop = true
        · exact Or.inr fun hzero => hfree ⟨hdrop, hzero⟩
        · exact Or.inl (by simpa using hdrop)
      obtain ⟨-, hle⟩ := h.here hruns hpaid
      omega
  · exact h.away hruns

theorem congr (h : InWindow cfg last start runs r)
    (hrun : r'.runTimeInWindowMs = r.runTimeInWindowMs) (hdebt : r'.quotaDebtMs = r.quotaDebtMs)
    (hbegin : r'.currentRunStartMs = r.currentRunStartMs)
    (hdrop : r'.pendingDrop = r.pendingDrop) : InWindow cfg last start runs r' := by
  refine ⟨fun haway => ?_, fun hruns hpending hfree => ?_, fun hruns hpaid => ?_⟩
  · rw [hrun, hdebt]
    exact h.away haway
  · rw [hrun, hdebt]
    exact h.free hruns (hdrop ▸ hpending) hfree
  · rw [hrun, hdebt, hbegin]
    exact h.here hruns (hdrop ▸ hpaid)

/-- A bill that moves the start of the run forward. -/
theorem bill (h : InWindow cfg last start runs r) (hruns : runs) (hdrop : r.pendingDrop = false)
    (hforward : r.currentRunStartMs ≤ r'.currentRunStartMs)
    (hrun : r'.runTimeInWindowMs ≤
      r.runTimeInWindowMs + (r'.currentRunStartMs - r.currentRunStartMs))
    (hdebt : r'.quotaDebtMs = r.quotaDebtMs) (hlast : r'.currentRunStartMs ≤ last') :
    InWindow cfg last' start runs r' := by
  obtain ⟨hbegin, hle⟩ := h.here hruns (Or.inl hdrop)
  refine ⟨fun haway => absurd hruns haway, fun _ _ _ => ?_, fun _ _ => ⟨?_, ?_⟩⟩ <;> omega

/-- The beginning of a run. -/
theorem enter (h : InWindow cfg last start False r) (hstart : start ≤ last)
    (hafter : last ≤ r'.currentRunStartMs)
    (hrun : r'.runTimeInWindowMs = r.runTimeInWindowMs)
    (hdebt : r'.quotaDebtMs = r.quotaDebtMs) (hdrop : r'.pendingDrop = false) :
    InWindow cfg last' start True r' := by
  have hle := h.away id
  refine ⟨fun haway => absurd trivial haway, fun _ hpending _ => ?_, fun _ _ => ⟨?_, ?_⟩⟩
  · rw [hdrop] at hpending
    cases hpending
  · omega
  · omega

/-- The end of a run. -/
theorem leave {amount now : ℤ} (h : InWindow cfg last start True r) (hlast : last ≤ now)
    (hnow : now ≤ last') (hle : amount ≤ now - r.currentRunStartMs)
    (hfree : r.pendingDrop = true → cfg.dropTailBillingPercent = 0 → amount ≤ 0)
    (hrun : r'.runTimeInWindowMs = r.runTimeInWindowMs + amount)
    (hdebt : r'.quotaDebtMs = r.quotaDebtMs) : InWindow cfg last' start False r' := by
  refine ⟨fun _ => ?_, fun hruns => hruns.elim, fun hruns => hruns.elim⟩
  by_cases hzero : r.pendingDrop = true ∧ cfg.dropTailBillingPercent = 0
  · have hbefore := h.free trivial hzero.1 hzero.2
    have hnone := hfree hzero.1 hzero.2
    omega
  · have hpaid : r.pendingDrop = false ∨ cfg.dropTailBillingPercent ≠ 0 := by
      by_cases hdrop : r.pendingDrop = true
      · exact Or.inr fun hz => hzero ⟨hdrop, hz⟩
      · exact Or.inl (by simpa using hdrop)
    obtain ⟨-, hbefore⟩ := h.here trivial hpaid
    omega

end InWindow

/-- Windows start at clock readings, nobody runs on a context without a window, and the usage
of every limited client lies within the window of its context. -/
structure Windowed (cfg : Config) (env : Env) (s : Sched) : Prop where
  nonneg : ∀ x, 0 ≤ (s.ctx x).windowStartMs
  started : ∀ x, (s.ctx x).windowStartMs ≤ lastReading env s
  unstarted : ∀ x, (s.ctx x).windowStartMs = 0 → (s.ctx x).runningList = []
  unused : ∀ c ∈ s.clients, ∀ x, (s.client c).context = some x →
    (s.ctx x).windowStartMs = 0 → (s.client c).runTimeInWindowMs ≤ (s.client c).quotaDebtMs
  began : ∀ x, ∀ c ∈ (s.ctx x).runningList, (s.client c).currentRunStartMs ≤ lastReading env s
  within : ∀ c ∈ s.clients, ∀ x, (s.client c).context = some x → (s.client c).coreLimit < 100 →
    (s.ctx x).windowStartMs ≠ 0 →
    InWindow cfg (lastReading env s) (s.ctx x).windowStartMs (c ∈ (s.ctx x).runningList)
      (s.client c)

theorem Windowed.init (hpos : ∀ n, 0 < env.clock n) : Windowed cfg env Sched.init where
  nonneg _ := le_rfl
  started _ := (hpos _).le
  unstarted _ _ := rfl
  unused c hc := by simp [Sched.init] at hc
  began x c hc := by simp [Sched.init] at hc
  within c hc := by simp [Sched.init] at hc

/-- What a client has used lies within the window of its context, if one has started, and
its present run began in it. -/
def UsedWithin (env : Env) (s : Sched) (c : ClientId) : Prop :=
  ∀ x, (s.client c).context = some x → (s.ctx x).windowStartMs ≠ 0 →
    (c ∈ (s.ctx x).runningList →
      (s.ctx x).windowStartMs ≤ (s.client c).currentRunStartMs ∧
      (s.client c).runTimeInWindowMs ≤ (s.client c).quotaDebtMs +
        ((s.client c).currentRunStartMs - (s.ctx x).windowStartMs)) ∧
    (c ∉ (s.ctx x).runningList →
      (s.client c).runTimeInWindowMs ≤ (s.client c).quotaDebtMs +
        (lastReading env s - (s.ctx x).windowStartMs))

theorem UsedWithin.inWindow (h : UsedWithin env s c) (hctx : (s.client c).context = some x)
    (hwindow : (s.ctx x).windowStartMs ≠ 0)
    (hstart : c ∈ (s.ctx x).runningList →
      (s.client c).currentRunStartMs ≤ lastReading env s) :
    InWindow cfg (lastReading env s) (s.ctx x).windowStartMs (c ∈ (s.ctx x).runningList)
      (s.client c) := by
  obtain ⟨hruns, haway⟩ := h x hctx hwindow
  refine ⟨haway, fun hc _ _ => ?_, fun hc _ => hruns hc⟩
  have hlast := hstart hc
  have hle := (hruns hc).2
  omega

/-! ## Charges within a window -/

/-- Settling keeps usage within the window. -/
theorem InWindow.settled {last last' start now : ℤ} {runs : Prop} (x : CtxId)
    (h : InWindow cfg last start runs (s.client c)) (hruns : c ∈ (s.ctx x).runningList → runs)
    (hlast : last ≤ last') (hnow : now ≤ last') :
    InWindow cfg last' start runs (settledRecord x now s c) := by
  unfold settledRecord
  split
  · rename_i hc
    unfold Client.accrued
    split
    · rename_i hbill
      have hduration : 0 ≤ now - (s.client c).currentRunStartMs := by omega
      have hle := Int.tdiv_le_self (countRunningClients s x) hduration
      refine h.bill (hruns hc) hbill.2.1 (by simp only; omega) ?_ rfl hnow
      simp only
      omega
    · exact h.mono hlast
  · exact h.mono hlast

theorem settledRecord_coreLimit (x : CtxId) (now : ℤ) (s : Sched) (c : ClientId) :
    (settledRecord x now s c).coreLimit = (s.client c).coreLimit := by
  obtain ⟨_, _, heq, -⟩ := settledRecord_spec x now s c
  rw [heq]

theorem settledRecord_of_notMem {now : ℤ} (h : c ∉ (s.ctx x).runningList) :
    settledRecord x now s c = s.client c := by
  rw [settledRecord, if_neg h]

theorem settledRecord_start_le {now bound : ℤ} (x : CtxId)
    (h : (s.client c).currentRunStartMs ≤ bound) (hnow : now ≤ bound) :
    (settledRecord x now s c).currentRunStartMs ≤ bound := by
  obtain ⟨start, _, heq, -, -, hwhich⟩ := settledRecord_spec x now s c
  rw [heq]
  rcases hwhich with hsame | hnew
  · rw [hsame]
    exact h
  · rw [hnew]
    exact hnow

theorem settledRecord_pendingDrop (x : CtxId) (now : ℤ) (s : Sched) (c : ClientId) :
    (settledRecord x now s c).pendingDrop = (s.client c).pendingDrop := by
  obtain ⟨_, _, heq, -⟩ := settledRecord_spec x now s c
  rw [heq]

/-- A limited client that runs and need not drop the lock is settled up to `now`. -/
theorem settledRecord_start {now : ℤ} (hruns : c ∈ (s.ctx x).runningList)
    (hlimit : (s.client c).coreLimit < 100) (hdrop : (s.client c).pendingDrop = false)
    (hstart : 0 < (s.client c).currentRunStartMs)
    (hnow : (s.client c).currentRunStartMs ≤ now) :
    (settledRecord x now s c).currentRunStartMs = now := by
  rw [settledRecord, if_pos hruns, Client.accrued]
  split
  · rfl
  · rename_i hskip
    have hnot : ¬ (s.client c).currentRunStartMs < now :=
      fun hlt => hskip ⟨hlimit, hdrop, hstart, hlt⟩
    omega

/-- A charge that starts no window and registers nobody. -/
theorem Windowed.next (hs : Windowed cfg env s) (hwf : WellFormed s)
    (hclients : t.clients ⊆ s.clients)
    (hctx : ∀ c, (t.client c).context = (s.client c).context)
    (hstart : ∀ x, (t.ctx x).windowStartMs = (s.ctx x).windowStartMs)
    (hlast : lastReading env s ≤ lastReading env t)
    (hunstarted : ∀ x, (s.ctx x).windowStartMs = 0 → (t.ctx x).runningList = [])
    (hidle : ∀ c, (∀ x, c ∉ (s.ctx x).runningList) →
      (∀ x, (s.client c).context = some x → c ∉ (t.ctx x).runningList) →
      (t.client c).runTimeInWindowMs = (s.client c).runTimeInWindowMs ∧
        (t.client c).quotaDebtMs = (s.client c).quotaDebtMs)
    (hbegan : ∀ x, ∀ c ∈ (t.ctx x).runningList,
      (t.client c).currentRunStartMs ≤ lastReading env t)
    (hwithin : ∀ c ∈ s.clients, ∀ x, (s.client c).context = some x →
      (t.client c).coreLimit < 100 → (s.ctx x).windowStartMs ≠ 0 →
      InWindow cfg (lastReading env t) (s.ctx x).windowStartMs (c ∈ (t.ctx x).runningList)
        (t.client c)) : Windowed cfg env t where
  nonneg x := by rw [hstart]; exact hs.nonneg x
  started x := by rw [hstart]; exact (hs.started x).trans hlast
  unstarted x h := hunstarted x (by rwa [hstart] at h)
  unused c hc x hcx h := by
    rw [hctx] at hcx
    rw [hstart] at h
    have hnil := hs.unstarted x h
    have hidle' := hidle c (fun y hy => ?_) fun y hy => ?_
    · rw [hidle'.1, hidle'.2]
      exact hs.unused c (hclients hc) x hcx h
    · have hcy := hwf.belongs y c (mem_entries_of_running hy)
      rw [hcx] at hcy
      rw [← Option.some.inj hcy, hnil] at hy
      cases hy
    · rw [hcx] at hy
      rw [← Option.some.inj hy, hunstarted x h]
      simp
  began := hbegan
  within c hc x hcx hlimit h := by
    rw [hctx] at hcx
    rw [hstart] at h ⊢
    exact hwithin c (hclients hc) x hcx hlimit h

section Charges

variable (hclock : Monotone env.clock) (hwf : WellFormed s) (hsingle : SingleEntries s)
  (hs : Windowed cfg env s)

include hclock hwf hsingle hs

theorem Windowed.grant {rest : List ClientId} (hwindow : (s.ctx x).windowStartMs ≠ 0)
    (hreq : (s.ctx x).requests = d :: rest) :
    Windowed cfg env (grant env x d (sendMessage env d .lockOk s)) := by
  have hrun := hsingle.running x
  have hd : d ∈ (s.ctx x).requests := by simp [hreq]
  have hdx := hwf.belongs x d (mem_entries_of_requests hd)
  have hticks := settleRunners_ticks env x (sendMessage env d .lockOk s)
  have hgrant := grant_ticks env x d (sendMessage env d .lockOk s)
  have hsent : (sendMessage env d .lockOk s).ticks = s.ticks := rfl
  have hafter : lastReading env s ≤
      currentTimeMs env (settleRunners env x (sendMessage env d .lockOk s)) :=
    lastReading_le_clock hclock (by omega)
  have hclient : ∀ c, (XpuShare.grant env x d (sendMessage env d .lockOk s)).client c = _ :=
    grant_client hrun d
  have hrunning := fun y => grant_running env x y d s
  have hstart := fun y => grant_windowStart env x y d s
  have hclients := (grantSent_effect env (mem_entries_of_requests hd)).clients_eq
  have hlast : lastReading env s ≤
      lastReading env (XpuShare.grant env x d (sendMessage env d .lockOk s)) :=
    lastReading_mono hclock (by omega)
  have hnow : currentTimeMs env s ≤
      lastReading env (XpuShare.grant env x d (sendMessage env d .lockOk s)) :=
    clock_le_lastReading hclock (by omega)
  have hread : currentTimeMs env (settleRunners env x (sendMessage env d .lockOk s)) ≤
      lastReading env (XpuShare.grant env x d (sendMessage env d .lockOk s)) :=
    clock_le_lastReading hclock (by omega)
  generalize XpuShare.grant env x d (sendMessage env d .lockOk s) = t at *
  generalize currentTimeMs env (settleRunners env x (sendMessage env d .lockOk s)) = begun at *
  refine hs.next hwf (by rw [hclients]; exact List.Subset.refl _) (fun c => ?_) hstart hlast
    (fun y hy => ?_) (fun c haway hstill => ?_) (fun y c hc => ?_) fun c hc y hcy hlimit hy => ?_
  · rw [hclient]
    split
    · rename_i hcd
      rw [hcd, settledRecord_context]
    · rw [settledRecord_context]
  · have hne : y ≠ x := fun he => hwindow (he ▸ hy)
    rw [hrunning, if_neg hne]
    exact hs.unstarted y hy
  · have hcd : c ≠ d := by
      rintro rfl
      refine hstill x hdx ?_
      rw [hrunning, if_pos rfl]
      simp
    rw [hclient, if_neg hcd, settledRecord_of_notMem (haway x)]
    exact ⟨rfl, rfl⟩
  · rw [hclient]
    split
    · exact hread
    · rename_i hcd
      have hold : c ∈ (s.ctx y).runningList := by
        rw [hrunning] at hc
        split at hc
        · rename_i hy
          simpa [hy, hcd] using hc
        · exact hc
      exact settledRecord_start_le x ((hs.began y c hold).trans hlast) hnow
  · rw [hclient] at hlimit ⊢
    by_cases hcd : c = d
    · subst hcd
      have hyx : y = x := Option.some.inj (hcy.symm.trans hdx)
      subst hyx
      have hnot : c ∉ (s.ctx y).runningList :=
        notMem_running_of_pending (hsingle y) (List.mem_append_left _ hd)
      rw [if_pos rfl] at hlimit ⊢
      rw [settledRecord_of_notMem hnot] at hlimit ⊢
      have hbefore := hs.within c hc y hcy hlimit hy
      have hnow : (c ∈ (t.ctx y).runningList) = True := by
        rw [hrunning, if_pos rfl]
        simp
      rw [eq_false hnot] at hbefore
      rw [hnow]
      exact hbefore.enter (hs.started y) hafter rfl rfl rfl
    · rw [if_neg hcd] at hlimit ⊢
      rw [settledRecord_coreLimit] at hlimit
      have hsame : c ∈ (t.ctx y).runningList ↔ c ∈ (s.ctx y).runningList := by
        rw [hrunning]
        split
        · rename_i hyx
          simp [hyx, hcd]
        · exact Iff.rfl
      rw [hsame]
      exact (hs.within c hc y hcy hlimit hy).settled x (hwf.running_of_context hcy) hlast hnow

theorem Windowed.leave (hd : d ∈ (s.ctx x).runningList) :
    Windowed cfg env (leaveRunning cfg env x d s) := by
  have hrun := hsingle.running x
  have hdx := hwf.belongs x d (mem_entries_of_running hd)
  have hticks := leaveRunning_ticks cfg env x d s hd
  have hrunning := fun y => leaveRunning_running cfg env x y d s
  have hstart := fun y => leaveRunning_windowStart cfg env x y d s
  have hclients := (leaveRunning_spec cfg env x d s).2.1
  have hclient : ∀ c, (leaveRunning cfg env x d s).client c = _ := fun c => by
    rw [leaveRunning_client cfg env hd, releaseRunning_client cfg hrun]
  have hlast : lastReading env s ≤ lastReading env (leaveRunning cfg env x d s) :=
    lastReading_mono hclock (by omega)
  have hafter : lastReading env s ≤ currentTimeMs env s := lastReading_le_clock hclock (by omega)
  have hnow : currentTimeMs env s ≤ lastReading env (leaveRunning cfg env x d s) :=
    clock_le_lastReading hclock (by omega)
  generalize leaveRunning cfg env x d s = t at *
  refine hs.next hwf (by rw [hclients]; exact List.Subset.refl _) (fun c => ?_) hstart hlast
    (fun y hy => ?_) (fun c haway _ => ?_) (fun y c hc => ?_) fun c hc y hcy hlimit hy => ?_
  · rw [hclient]
    split
    · rename_i hcd
      rw [hcd]
    · rw [settledRecord_context]
  · have hnil := hs.unstarted y hy
    rw [hrunning]
    split
    · rename_i hyx
      rw [← hyx, hnil]
      rfl
    · exact hnil
  · have hcd : c ≠ d := by
      rintro rfl
      exact haway x hd
    rw [hclient, if_neg hcd, settledRecord_of_notMem (haway x)]
    exact ⟨rfl, rfl⟩
  · have hold : c ∈ (s.ctx y).runningList := by
      rw [hrunning] at hc
      split at hc
      · rename_i hyx
        rw [hyx]
        exact List.mem_of_mem_erase hc
      · exact hc
    have hbegan := (hs.began y c hold).trans hlast
    rw [hclient]
    split
    · rename_i hcd
      exact hcd ▸ hbegan
    · exact settledRecord_start_le x hbegan hnow
  · rw [hclient] at hlimit ⊢
    by_cases hcd : c = d
    · subst hcd
      have hyx : y = x := Option.some.inj (hcy.symm.trans hdx)
      subst hyx
      rw [if_pos rfl] at hlimit ⊢
      have hbefore := hs.within c hc y hcy hlimit hy
      have hgone : (c ∈ (t.ctx y).runningList) = False := by
        rw [hrunning, if_pos rfl]
        exact eq_false hrun.not_mem_erase
      rw [eq_true hd] at hbefore
      rw [hgone]
      refine hbefore.leave hafter hnow
        (finalBill_le cfg s y c ((hs.began y c hd).trans hafter)) (fun hdrop hzero => ?_) rfl rfl
      simp [finalBill, hdrop, hzero]
    · rw [if_neg hcd] at hlimit ⊢
      rw [settledRecord_coreLimit] at hlimit
      have hsame : c ∈ (t.ctx y).runningList ↔ c ∈ (s.ctx y).runningList := by
        rw [hrunning]
        split
        · rename_i hyx
          rw [hyx, List.mem_erase_of_ne hcd]
        · exact Iff.rfl
      rw [hsame]
      exact (hs.within c hc y hcy hlimit hy).settled x (hwf.running_of_context hcy) hlast hnow

theorem Windowed.enforce (x : CtxId) : Windowed cfg env (enforceLimits cfg env x s) := by
  have hticks := enforceLimits_ticks cfg env x s
  have hrunning := fun y => enforceLimits_running cfg env x y s
  have hstart := fun y => enforceLimits_windowStart cfg env x y s
  have htuned := enforceLimits_tuned cfg env x s
  have hclient := fun c => enforceLimits_client cfg env (hsingle.running x) c
  have hlast : lastReading env s ≤ lastReading env (enforceLimits cfg env x s) :=
    lastReading_mono hclock (by omega)
  have hafter : lastReading env s ≤ currentTimeMs env s := lastReading_le_clock hclock (by omega)
  have hnow : currentTimeMs env s ≤ lastReading env (enforceLimits cfg env x s) :=
    clock_le_lastReading hclock (by omega)
  generalize enforceLimits cfg env x s = t at *
  refine hs.next hwf (by rw [htuned.clients]; exact List.Subset.refl _)
    (fun c => context_of_core (htuned.client c)) hstart hlast
    (fun y hy => by rw [hrunning]; exact hs.unstarted y hy) (fun c haway _ => ?_)
    (fun y c hc => ?_) fun c hc y hcy hlimit hy => ?_
  · rw [(hclient c).2 (haway x)]
    exact ⟨rfl, rfl⟩
  · rw [hrunning] at hc
    have hbegan := (hs.began y c hc).trans hlast
    by_cases hx : c ∈ (s.ctx x).runningList
    · rcases (hclient c).1 hx with heq | ⟨-, -, heq⟩
      · rwa [heq]
      · rw [heq]
        exact hnow
    · rwa [(hclient c).2 hx]
  · rw [hrunning]
    by_cases hx : c ∈ (s.ctx x).runningList
    · rcases (hclient c).1 hx with heq | ⟨-, hdrop, heq⟩
      · rw [heq] at hlimit ⊢
        exact (hs.within c hc y hcy hlimit hy).mono hlast
      · have hcy' := hwf.running_of_context hcy hx
        have hforward := (hs.began y c hcy').trans hafter
        have hle := Int.tdiv_le_self (countRunningClients s x)
          (show 0 ≤ currentTimeMs env s - (s.client c).currentRunStartMs by omega)
        rw [heq] at hlimit ⊢
        refine (hs.within c hc y hcy hlimit hy).bill hcy' hdrop hforward ?_ rfl hnow
        simp only
        omega
    · rw [(hclient c).2 hx] at hlimit ⊢
      exact (hs.within c hc y hcy hlimit hy).mono hlast

theorem Windowed.rotate (x : CtxId) : Windowed cfg env (rotateRunning env x s) := by
  have hticks := rotateRunning_ticks env x s
  have hrunning := fun y => rotateRunning_running env x y s
  have hstart := fun y => rotateRunning_windowStart env x y s
  have htuned := rotateRunning_tuned env x s
  have hlast : lastReading env s ≤ lastReading env (rotateRunning env x s) :=
    lastReading_mono hclock (by omega)
  have hclient : ∀ c, (rotateRunning env x s).client c = s.client c ∨
      ∃ count now, (rotateRunning env x s).client c =
        { s.client c with
          pendingDrop := true, dropConcurrency := count, lastDropSentMs := now } := by
    intro c
    obtain ⟨hvisited, hother⟩ := rotateRunning_client env (hsingle.running x) c
    by_cases hx : c ∈ (s.ctx x).runningList
    · rcases hvisited hx with heq | ⟨-, heq⟩
      · exact Or.inl heq
      · exact Or.inr ⟨_, _, heq⟩
    · exact Or.inl (hother hx)
  generalize rotateRunning env x s = t at *
  refine hs.next hwf (by rw [htuned.clients]; exact List.Subset.refl _)
    (fun c => context_of_core (htuned.client c)) hstart hlast
    (fun y hy => by rw [hrunning]; exact hs.unstarted y hy) (fun c _ _ => ?_)
    (fun y c hc => ?_) fun c hc y hcy hlimit hy => ?_
  · rcases hclient c with heq | ⟨_, _, heq⟩ <;> rw [heq] <;> exact ⟨rfl, rfl⟩
  · rw [hrunning] at hc
    have hbegan := (hs.began y c hc).trans hlast
    rcases hclient c with heq | ⟨_, _, heq⟩ <;> rwa [heq]
  · rw [hrunning]
    rcases hclient c with heq | ⟨_, _, heq⟩
    · rw [heq] at hlimit ⊢
      exact (hs.within c hc y hcy hlimit hy).mono hlast
    · rw [heq] at hlimit ⊢
      have hbefore := hs.within c hc y hcy hlimit hy
      by_cases hruns : c ∈ (s.ctx y).runningList
      · by_cases hdrop : (s.client c).pendingDrop = true
        · exact (hbefore.mono hlast).congr rfl rfl rfl hdrop.symm
        · refine hbefore.bill hruns (by simpa using hdrop) le_rfl (by simp) rfl ?_
          exact (hs.began y c hruns).trans hlast
      · exact ⟨fun haway => (hbefore.mono hlast).away haway, fun h => absurd h hruns,
          fun h => absurd h hruns⟩

omit hsingle in
theorem Windowed.costless (h : Costless env s t) : Windowed cfg env t := by
  have hlast : lastReading env s ≤ lastReading env t := lastReading_mono hclock h.ticks
  refine hs.next hwf h.clients (fun c => context_of_billing (h.client c)) h.window hlast
    (fun y hy => by rw [h.running]; exact hs.unstarted y hy) (fun c _ _ => ?_)
    (fun y c hc => ?_) fun c hc y hcy hlimit hy => ?_
  · exact ⟨runTime_of_billing (h.client c), quotaDebt_of_billing (h.client c)⟩
  · rw [h.running] at hc
    rw [runStart_of_billing (h.client c)]
    exact (hs.began y c hc).trans hlast
  · rw [coreLimit_of_billing (h.client c)] at hlimit
    rw [h.running]
    exact ((hs.within c hc y hcy hlimit hy).mono hlast).congr (runTime_of_billing (h.client c))
      (quotaDebt_of_billing (h.client c)) (runStart_of_billing (h.client c))
      (pendingDrop_of_billing (h.client c))

omit hclock hsingle in
theorem Windowed.annotate {id : ℕ} {memory : Option ℕ} {core : Option ℤ}
    (hlimited : ∀ c, (s.clients.find? fun c => (s.client c).id = id) = some c →
      100 ≤ (s.client c).coreLimit → annotatedCoreLimit core < 100 → UsedWithin env s c) :
    Windowed cfg env (annotationUpdate env id memory core s) := by
  obtain ⟨hctx, hclients, -, hticks⟩ := annotationUpdate_rest env id memory core s
  have hclient := annotationUpdate_client env id memory core s
  have hlast : lastReading env (annotationUpdate env id memory core s) = lastReading env s := by
    rw [lastReading, hticks, lastReading]
  generalize annotationUpdate env id memory core s = t at *
  refine hs.next hwf (by rw [hclients]; exact List.Subset.refl _) (fun c => ?_)
    (fun y => by rw [hctx]) hlast.ge (fun y hy => by rw [hctx]; exact hs.unstarted y hy)
    (fun c _ _ => ?_) (fun y c hc => ?_) fun c hc y hcy hlimit hy => ?_
  · obtain ⟨_, _, heq, -⟩ := hclient c
    rw [heq]
  · obtain ⟨_, _, heq, -⟩ := hclient c
    rw [heq]
    exact ⟨rfl, rfl⟩
  · obtain ⟨_, _, heq, -⟩ := hclient c
    rw [hctx] at hc
    rw [heq, hlast]
    exact hs.began y c hc
  · obtain ⟨_, _, heq, hnew⟩ := hclient c
    have hbefore : InWindow cfg (lastReading env s) (s.ctx y).windowStartMs
        (c ∈ (s.ctx y).runningList) (s.client c) := by
      by_cases hold : (s.client c).coreLimit < 100
      · exact hs.within c hc y hcy hold hy
      · rw [heq] at hlimit
        rcases hnew with hsame | ⟨hfind, hcore⟩
        · rw [← hsame] at hold
          exact absurd hlimit hold
        · exact (hlimited c hfind (by omega) (hcore ▸ hlimit)).inWindow hcy hy (hs.began y c)
    rw [hctx, heq, hlast]
    exact hbefore.congr rfl rfl rfl rfl

omit hclock hsingle in
theorem Windowed.accept (garbage : Client) : Windowed cfg env (accept garbage s) := by
  have hother : ∀ c, c ≠ s.nalloc → (XpuShare.accept garbage s).client c = s.client c := by
    intro c hc
    simp [XpuShare.accept, hc]
  have hknown : ∀ c ∈ (XpuShare.accept garbage s).clients, ∀ x,
      ((XpuShare.accept garbage s).client c).context = some x → c ∈ s.clients ∧
        (XpuShare.accept garbage s).client c = s.client c := by
    intro c hc x hcx
    have hne : c ≠ s.nalloc := by
      rintro rfl
      simp [XpuShare.accept] at hcx
    refine ⟨?_, hother c hne⟩
    rcases List.mem_append.mp hc with hold | hnew
    · exact hold
    · exact absurd (List.mem_singleton.mp hnew) hne
  refine ⟨hs.nonneg, hs.started, hs.unstarted, fun c hc x hcx h => ?_, fun x c hc => ?_,
    fun c hc x hcx hlimit h => ?_⟩
  · obtain ⟨hold, heq⟩ := hknown c hc x hcx
    rw [heq] at hcx ⊢
    exact hs.unused c hold x hcx h
  · have hne : c ≠ s.nalloc := by
      rintro rfl
      exact hwf.notMem_entries (hwf.fresh _ le_rfl) x (mem_entries_of_running hc)
    rw [hother c hne]
    exact hs.began x c hc
  · obtain ⟨hold, heq⟩ := hknown c hc x hcx
    rw [heq] at hcx hlimit ⊢
    exact hs.within c hold x hcx hlimit h

variable (hpos : ∀ n, 0 < env.clock n)

include hpos

omit hclock hsingle in
theorem Windowed.enrol (m : RegisterMsg) (e : RegisterEnv) (hunreg : hasRegistered s d = false) :
    Windowed cfg env (enrol cfg d m e s) := by
  obtain ⟨y, hclient, -, -, hclients, -, -, -, hctx⟩ := enrol_spec cfg d m e s
  have hrunning : ∀ x, ((XpuShare.enrol cfg d m e s).ctx x).runningList = (s.ctx x).runningList :=
    enrol_running hwf d m e
  have hlast : lastReading env (XpuShare.enrol cfg d m e s) = lastReading env s := by
    rw [lastReading, enrol_ticks, lastReading]
  have hstart : ∀ x, (((XpuShare.enrol cfg d m e s).ctx x).windowStartMs =
        (s.ctx x).windowStartMs) ∨
      (x = s.nctx ∧ ((XpuShare.enrol cfg d m e s).ctx x).windowStartMs = 0 ∧
        ((XpuShare.enrol cfg d m e s).ctx x).runningList = []) := by
    intro x
    rcases hctx with ⟨-, hctx⟩ | ⟨hy, hctx⟩
    · rw [hctx]
      exact Or.inl rfl
    · by_cases hx : x = y
      · subst hx
        refine Or.inr ⟨hy, ?_, ?_⟩ <;> simp [hctx]
      · left
        rw [hctx, Function.update_of_ne hx]
  have hnone : (s.client d).context = none := hwf.context_eq_none hunreg
  generalize XpuShare.enrol cfg d m e s = t at *
  have hself : t.client d = registeredRecord m e y (s.client d) := by simp [hclient]
  have hother : ∀ c, c ≠ d → t.client c = s.client c := by
    intro c hc
    simp [hclient, hc]
  have hsame : ∀ c x, (s.client c).context = some x →
      (t.ctx x).windowStartMs = (s.ctx x).windowStartMs := by
    intro c x hcx
    rcases hstart x with heq | ⟨hx, -, -⟩
    · exact heq
    · have hlt := hwf.context_lt c x hcx
      rw [hx] at hlt
      exact absurd hlt (Nat.lt_irrefl _)
  have hidle : ∀ x, d ∉ (s.ctx x).runningList :=
    fun x hd => hwf.notMem_entries hnone x (mem_entries_of_running hd)
  refine ⟨fun x => ?_, fun x => ?_, fun x hx => ?_, fun c hc x hcx hx => ?_, fun x c hc => ?_,
    fun c hc x hcx hlimit hx => ?_⟩
  · rcases hstart x with heq | ⟨-, heq, -⟩ <;> rw [heq]
    exact hs.nonneg x
  · rw [hlast]
    rcases hstart x with heq | ⟨-, heq, -⟩ <;> rw [heq]
    · exact hs.started x
    · exact (hpos _).le
  · rcases hstart x with heq | ⟨-, -, hnil⟩
    · rw [hrunning]
      exact hs.unstarted x (heq ▸ hx)
    · exact hnil
  · by_cases hcd : c = d
    · rw [hcd, hself]
      exact le_rfl
    · rw [hother c hcd] at hcx ⊢
      rw [hsame c x hcx] at hx
      exact hs.unused c (hclients ▸ hc) x hcx hx
  · rw [hrunning] at hc
    have hcd : c ≠ d := by
      rintro rfl
      exact hidle x hc
    rw [hother c hcd, hlast]
    exact hs.began x c hc
  · rw [hlast, hrunning]
    by_cases hcd : c = d
    · have hbound : (t.ctx x).windowStartMs ≤ lastReading env s := by
        rcases hstart x with heq | ⟨-, heq, -⟩
        · rw [heq]
          exact hs.started x
        · exact absurd heq hx
      subst hcd
      refine ⟨fun _ => ?_, fun hc => absurd hc (hidle x), fun hc => absurd hc (hidle x)⟩
      rw [hself]
      simp only [registeredRecord]
      omega
    · rw [hother c hcd] at hcx hlimit ⊢
      rw [hsame c x hcx] at hx ⊢
      exact hs.within c (hclients ▸ hc) x hcx hlimit hx

omit hsingle in
/-- A check that finds the window unfinished starts one at most. -/
theorem Windowed.unexpired
    (hopen : windowExpired cfg (s.ctx x) (currentTimeMs env s) = false) :
    Windowed cfg env (freshWindow cfg env x s) := by
  have hticks := freshWindow_ticks cfg env x s
  have hrunning := fun y => freshWindow_running cfg env x y s
  have hclient := freshWindow_client_open hopen
  have hclients := freshWindow_clients cfg env x s
  have hstartx := freshWindow_start_open hopen
  have hstart := fun y hy => congrArg GpuContext.windowStartMs
    (freshWindow_ctx_ne cfg env x s (y := y) hy)
  have hlast : lastReading env s ≤ lastReading env (freshWindow cfg env x s) :=
    lastReading_mono hclock (by omega)
  have hnow : currentTimeMs env s = lastReading env (freshWindow cfg env x s) := by
    rw [lastReading, hticks]
    rfl
  have hclock0 : 0 < currentTimeMs env s := hpos _
  generalize freshWindow cfg env x s = t at *
  by_cases hzero : (s.ctx x).windowStartMs = 0
  · -- The first window of the context: nobody has run on it yet.
    have hnew : (t.ctx x).windowStartMs = currentTimeMs env s := by
      rw [hstartx, windowStartAt, if_pos hzero]
    have hne : ∀ y, (t.ctx y).windowStartMs = 0 → y ≠ x := by
      rintro y hy rfl
      omega
    refine ⟨fun y => ?_, fun y => ?_, fun y hy => ?_, fun c hc y hcy hy => ?_, fun y c hc => ?_,
      fun c hc y hcy hlimit hy => ?_⟩
    · by_cases hyx : y = x
      · rw [hyx, hnew]
        exact hclock0.le
      · rw [hstart y hyx]
        exact hs.nonneg y
    · by_cases hyx : y = x
      · rw [hyx, hnew, hnow]
      · rw [hstart y hyx]
        exact (hs.started y).trans hlast
    · rw [hrunning]
      exact hs.unstarted y (by rwa [← hstart y (hne y hy)])
    · rw [hclient] at hcy ⊢
      exact hs.unused c (hclients ▸ hc) y hcy (by rwa [← hstart y (hne y hy)])
    · rw [hrunning] at hc
      rw [hclient]
      exact (hs.began y c hc).trans hlast
    · rw [hclient] at hcy hlimit ⊢
      rw [hrunning]
      by_cases hyx : y = x
      · subst hyx
        have hnil := hs.unstarted y hzero
        have hle := hs.unused c (hclients ▸ hc) y hcy hzero
        refine ⟨fun _ => ?_, fun h => ?_, fun h => ?_⟩
        · omega
        · rw [hnil] at h
          cases h
        · rw [hnil] at h
          cases h
      · rw [hstart y hyx] at hy ⊢
        exact (hs.within c (hclients ▸ hc) y hcy hlimit hy).mono hlast
  · have hkept : ∀ y, (t.ctx y).windowStartMs = (s.ctx y).windowStartMs := by
      intro y
      by_cases hyx : y = x
      · rw [hyx, hstartx, windowStartAt, if_neg hzero]
      · exact hstart y hyx
    refine hs.next hwf (by rw [hclients]; exact List.Subset.refl _) (fun c => by rw [hclient])
      hkept hlast (fun y hy => by rw [hrunning]; exact hs.unstarted y hy)
      (fun c _ _ => by rw [hclient]; exact ⟨rfl, rfl⟩) (fun y c hc => ?_)
      fun c hc y hcy hlimit hy => ?_
    · rw [hrunning] at hc
      rw [hclient]
      exact (hs.began y c hc).trans hlast
    · rw [hclient] at hlimit ⊢
      rw [hrunning]
      exact (hs.within c hc y hcy hlimit hy).mono hlast

/-- A reset while no limited client that runs has been told to drop the lock. -/
theorem Windowed.expired
    (hexpired : windowExpired cfg (s.ctx x) (currentTimeMs env s) = true)
    (hsettled : ∀ c ∈ s.clients, c ∈ (s.ctx x).runningList → (s.client c).coreLimit < 100 →
      (s.client c).pendingDrop = true → cfg.dropTailBillingPercent = 0) :
    Windowed cfg env (freshWindow cfg env x s) := by
  have hticks := freshWindow_ticks cfg env x s
  have hrunning := fun y => freshWindow_running cfg env x y s
  have hclient := freshWindow_client_expired (hsingle.running x) hwf.nodup hexpired
  have hclients := freshWindow_clients cfg env x s
  have hnew := freshWindow_start_expired hexpired
  have hstart := fun y hy => congrArg GpuContext.windowStartMs
    (freshWindow_ctx_ne cfg env x s (y := y) hy)
  have hlast : lastReading env s ≤ lastReading env (freshWindow cfg env x s) :=
    lastReading_mono hclock (by omega)
  have hafter : lastReading env s ≤ currentTimeMs env s := lastReading_le_clock hclock (by omega)
  have hnow : currentTimeMs env s = lastReading env (freshWindow cfg env x s) := by
    rw [lastReading, hticks]
    rfl
  have hclock0 : 0 < currentTimeMs env s := hpos _
  generalize freshWindow cfg env x s = t at *
  have hne : ∀ y, (t.ctx y).windowStartMs = 0 → y ≠ x := by
    rintro y hy rfl
    omega
  -- A client of another context is not touched.
  have hother : ∀ c y, (s.client c).context = some y → y ≠ x → t.client c = s.client c := by
    intro c y hcy hyx
    obtain ⟨carry, hcarry⟩ := hclient c
    have hctx : (s.client c).context ≠ some x := by
      rw [hcy]
      exact fun h => hyx (Option.some.inj h)
    have hrun : c ∉ (s.ctx x).runningList :=
      fun h => hctx (hwf.belongs x c (mem_entries_of_running h))
    rw [hcarry, if_neg fun h => hctx h.2, settledRecord_of_notMem hrun]
  have hcontext : ∀ c, (t.client c).context = (s.client c).context := by
    intro c
    obtain ⟨carry, hcarry⟩ := hclient c
    rw [hcarry]
    split
    · exact settledRecord_context x _ s c
    · exact settledRecord_context x _ s c
  refine ⟨fun y => ?_, fun y => ?_, fun y hy => ?_, fun c hc y hcy hy => ?_, fun y c hc => ?_,
    fun c hc y hcy hlimit hy => ?_⟩
  · by_cases hyx : y = x
    · rw [hyx, hnew]
      exact hclock0.le
    · rw [hstart y hyx]
      exact hs.nonneg y
  · by_cases hyx : y = x
    · rw [hyx, hnew, hnow]
    · rw [hstart y hyx]
      exact (hs.started y).trans hlast
  · rw [hrunning]
    exact hs.unstarted y (by rwa [← hstart y (hne y hy)])
  · rw [hcontext] at hcy
    rw [hother c y hcy (hne y hy)]
    exact hs.unused c (hclients ▸ hc) y hcy (by rwa [← hstart y (hne y hy)])
  · rw [hrunning] at hc
    obtain ⟨carry, hcarry⟩ := hclient c
    have hle : (settledRecord x (currentTimeMs env s) s c).currentRunStartMs ≤
        lastReading env t :=
      settledRecord_start_le x ((hs.began y c hc).trans hlast) hnow.le
    rw [hcarry]
    split
    · exact hle
    · exact hle
  · rw [hcontext] at hcy
    rw [hrunning]
    rw [hclients] at hc
    by_cases hyx : y = x
    · subst hyx
      obtain ⟨carry, hcarry⟩ := hclient c
      rw [if_pos ⟨hc, hcy⟩] at hcarry
      rw [hcarry] at hlimit ⊢
      have hlimited : (s.client c).coreLimit < 100 := by
        rw [← settledRecord_coreLimit y (currentTimeMs env s) s c]
        exact hlimit
      rw [hnew, ← hnow]
      refine ⟨fun _ => by simp [Client.renewed], fun _ _ _ => by simp [Client.renewed],
        fun hruns hpaid => ?_⟩
      have hdrop : (s.client c).pendingDrop = false := by
        by_contra hpending
        have hpending' : (s.client c).pendingDrop = true := by simpa using hpending
        rcases hpaid with hfalse | hcharged
        · exact hpending ((settledRecord_pendingDrop y _ s c).symm.trans hfalse)
        · exact hcharged (hsettled c hc hruns hlimited hpending')
      have hstarted : (settledRecord y (currentTimeMs env s) s c).currentRunStartMs =
          currentTimeMs env s := by
        have hwindow : (s.ctx y).windowStartMs ≠ 0 := by
          intro hzero
          rw [hs.unstarted y hzero] at hruns
          cases hruns
        have hbefore := (hs.within c hc y hcy hlimited hwindow).here hruns (Or.inl hdrop)
        have hbegan := hs.began y c hruns
        have hnonneg := hs.nonneg y
        exact settledRecord_start hruns hlimited hdrop (by omega) (by omega)
      simp only [Client.renewed, hstarted]
      exact ⟨le_rfl, by omega⟩
    · rw [hother c y hcy hyx] at hlimit ⊢
      rw [hstart y hyx] at hy ⊢
      exact (hs.within c hc y hcy hlimit hy).mono hlast

end Charges

end XpuShare
