import XpuShare.Verification.Sharing.Invariant
import XpuShare.Verification.Serial.Handlers

/-! # Bills of the clients of a GPU

While every client that drops the lock is billed at no more than the share that the others
have, the shares sum to at most one: together the limited clients of a context are billed at
most the time during which one of them ran. -/

namespace XpuShare

variable {cfg : Config} {env : Env} {s t : Sched} {m n : Meter} {x : CtxId} {b b' T : ℤ}

/-- Some quota-limited client is in the running list of a context. -/
def LimitedRuns (x : CtxId) (s : Sched) : Prop :=
  ∃ d ∈ (s.ctx x).runningList, (s.client d).coreLimit < 100

instance (x : CtxId) (s : Sched) : Decidable (LimitedRuns x s) :=
  inferInstanceAs (Decidable (∃ d ∈ (s.ctx x).runningList, _))

/-- A step whose handler reads one time, not before the last one. It yields what the meter
records, and the time since the last reading if a limited client has been running on `x`. -/
def TimedStep (cfg : Config) (env : Env) (ok : Sched → Event → Prop) (x : CtxId)
    (p : Sched × ℤ) (a : Meter × ℤ) (q : Sched × ℤ) : Prop :=
  p.2 ≤ q.2 ∧ MeteredStep cfg (env.frozen q.2) ok p.1 a.1 q.1 ∧
    a.2 = if LimitedRuns x p.1 then q.2 - p.2 else 0

/-- A limited client that drops the lock is billed at no more than the present share: the
percentage of one over the number noted when it was told is at most one over the number of
limited clients that run. -/
def TailsWithinShare (cfg : Config) (x : CtxId) (s : Sched) : Prop :=
  ∀ d ∈ (s.ctx x).runningList, (s.client d).coreLimit < 100 → (s.client d).pendingDrop = true →
    cfg.dropTailBillingPercent * countRunningClients s x ≤ 100 * tailShare (s.client d)

instance (cfg : Config) (x : CtxId) (s : Sched) : Decidable (TailsWithinShare cfg x s) :=
  inferInstanceAs (Decidable (∀ d ∈ (s.ctx x).runningList, _))

/-! ## Passing time -/

/-- The limited clients that run on a context. -/
def sharers (x : CtxId) (s : Sched) : Finset ClientId :=
  ((s.ctx x).runningList.filter fun c => (s.client c).coreLimit < 100).toFinset

theorem mem_sharers {c : ClientId} :
    c ∈ sharers x s ↔ c ∈ (s.ctx x).runningList ∧ (s.client c).coreLimit < 100 := by
  simp [sharers]

theorem card_sharers_le (x : CtxId) (s : Sched) :
    ((sharers x s).card : ℤ) ≤ countRunningClients s x := by
  have hle : (sharers x s).card ≤
      (s.ctx x).runningList.countP fun c => (s.client c).coreLimit < 100 := by
    rw [List.countP_eq_length_filter]
    exact List.toFinset_card_le _
  unfold countRunningClients
  simp only
  split <;> omega

/-- No limited client is billed at more than the present share. -/
theorem billingRate_le (h : TailsWithinShare cfg x s) {c : ClientId} (hc : c ∈ sharers x s) :
    billingRate cfg x s c ≤ 1 / countRunningClients s x := by
  obtain ⟨hruns, hlimit⟩ := mem_sharers.mp hc
  unfold billingRate
  split
  · rename_i hdrop
    have hle : (cfg.dropTailBillingPercent : ℚ) * countRunningClients s x ≤
        1 * (100 * tailShare (s.client c)) := by
      rw [one_mul]
      exact_mod_cast h c hruns hlimit hdrop
    have hshare : (0 : ℚ) < tailShare (s.client c) := by exact_mod_cast tailShare_pos _
    have hcount : (0 : ℚ) < countRunningClients s x := by
      exact_mod_cast countRunningClients_pos s x
    rwa [div_le_div_iff₀ (by positivity) hcount]
  · exact le_rfl

/-- In the meantime at most that much becomes outstanding for each client that runs. -/
theorem owed_later (h : TailsWithinShare cfg x s) (hle : b ≤ b') (m : Meter) (c : ClientId) :
    owed cfg x b' s m c ≤ owed cfg x b s m c +
      if c ∈ sharers x s then ((b' : ℚ) - b) * (1 / countRunningClients s x) else 0 := by
  have hpassed : (0 : ℚ) ≤ b' - b := by
    have : (b : ℚ) ≤ b' := by exact_mod_cast hle
    linarith
  have hcount : (0 : ℚ) < countRunningClients s x := by exact_mod_cast countRunningClients_pos s x
  have hnonneg : (0 : ℚ) ≤ (b' - b) * (1 / countRunningClients s x) := by positivity
  unfold owed
  by_cases hlim : LimitedOn x s c
  · rw [if_pos hlim, if_pos hlim]
    unfold outstanding
    by_cases hc : c ∈ sharers x s
    · have hrate := mul_le_mul_of_nonneg_left (billingRate_le h hc) hpassed
      rw [if_pos (mem_sharers.mp hc), if_pos (mem_sharers.mp hc), if_pos hc]
      linarith
    · rw [if_neg (fun hr => hc (mem_sharers.mpr hr)), if_neg fun hr => hc (mem_sharers.mpr hr),
        if_neg hc]
      linarith
  · rw [if_neg hlim, if_neg hlim, zero_add]
    split
    · exact hnonneg
    · exact le_rfl

/-- The shares of the clients that run sum to at most one. -/
theorem sum_shares_le (hle : b ≤ b') (x : CtxId) (s : Sched) (I : Finset ClientId) :
    ∑ c ∈ I, (if c ∈ sharers x s then ((b' : ℚ) - b) * (1 / countRunningClients s x) else 0) ≤
      ((if LimitedRuns x s then b' - b else 0 : ℤ) : ℚ) := by
  have hpassed : (0 : ℚ) ≤ b' - b := by
    have : (b : ℚ) ≤ b' := by exact_mod_cast hle
    linarith
  have hcount : (0 : ℚ) < countRunningClients s x := by exact_mod_cast countRunningClients_pos s x
  have hshare : (0 : ℚ) ≤ (b' - b) * (1 / countRunningClients s x) := by positivity
  rw [Finset.sum_ite_mem, Finset.sum_const, nsmul_eq_mul]
  by_cases hruns : LimitedRuns x s
  · have hcard : (((I ∩ sharers x s).card : ℤ) : ℚ) ≤ countRunningClients s x := by
      have hinter : (I ∩ sharers x s).card ≤ (sharers x s).card :=
        Finset.card_le_card Finset.inter_subset_right
      have hall := card_sharers_le x s
      exact_mod_cast (by omega : ((I ∩ sharers x s).card : ℤ) ≤ countRunningClients s x)
    rw [if_pos hruns]
    calc ((I ∩ sharers x s).card : ℚ) * ((b' - b) * (1 / countRunningClients s x))
        ≤ countRunningClients s x * ((b' - b) * (1 / countRunningClients s x)) :=
          mul_le_mul_of_nonneg_right (by exact_mod_cast hcard) hshare
      _ = ((b' - b : ℤ) : ℚ) := by
          push_cast
          field_simp
  · have hempty : I ∩ sharers x s = ∅ := by
      apply Finset.eq_empty_of_forall_notMem
      intro c hc
      exact hruns ⟨c, mem_sharers.mp (Finset.mem_of_mem_inter_right hc)⟩
    rw [if_neg hruns, hempty]
    simp

theorem Conserved.later (hs : Conserved cfg x b T s m) (hle : b ≤ b')
    (hshare : b < b' → TailsWithinShare cfg x s) :
    Conserved cfg x b' (T + if LimitedRuns x s then b' - b else 0) s m := by
  rcases hle.lt_or_eq with hlt | rfl
  · refine ⟨fun c hc => ?_, hs.noted, hs.unknown, ?_⟩
    · obtain ⟨hpos, hstart⟩ := hs.began c hc
      exact ⟨hpos, hstart.trans hle⟩
    · have hsum := Finset.sum_le_sum fun c (_ : c ∈ Finset.range s.nalloc) =>
        owed_later (hshare hlt) hle m c
      rw [Finset.sum_add_distrib] at hsum
      have hshares := sum_shares_le hle x s (Finset.range s.nalloc)
      have hbalance := hs.balance
      rw [Int.cast_add]
      linarith
  · rw [sub_self, ite_self, add_zero]
    exact hs

/-! ## Runs -/

/-- The events of runs with constant compute limits in which nobody asks for the lock while
waiting or running. -/
def Regular (s : Sched) (e : Event) : Prop := FreshRequest s e ∧ KeepsLimits s e

instance (s : Sched) : DecidablePred (Regular s) :=
  fun e => inferInstanceAs (Decidable (FreshRequest s e ∧ KeepsLimits s e))

theorem conserved_of_run {b₀ : ℤ} (hpos : 0 < b₀)
    (h : Transition.Accumulates (fun p a q => TimedStep cfg env Regular x p a q ∧
      (p.2 < q.2 → TailsWithinShare cfg x p.1)) (Sched.init, b₀) (m, T) (s, b)) :
    Conserved cfg x b T s m := by
  have hinv := h.invariant (m := 0) (I := fun p a => 0 < p.2 ∧ WellFormed p.1 ∧
    SingleEntries p.1 ∧ Conserved cfg x p.2 a.2 p.1 a.1) ?_
    ⟨hpos, WellFormed.init, SingleEntries.init, Conserved.init cfg x b₀⟩
  · rw [zero_add] at hinv
    exact hinv.2.2.2
  · rintro p a q ⟨n, T'⟩ ⟨⟨hle, hstep, rfl⟩, hshare⟩ ⟨hp, hwf, hsingle, hs⟩
    obtain ⟨e, hok, henabled, fuel, hhandle, rfl⟩ := hstep
    have hq : 0 < q.2 := by omega
    have hresult := handle_invariant
      (I := fun u m => Conserved cfg x q.2 (a.2 + if LimitedRuns x p.1 then q.2 - p.2 else 0) u m)
      (lasting_true cfg (env.frozen q.2)) (fun _ _ h => h.1)
      (fun u v m n hwf hsingle hcharge hu =>
        hcharge.conserved (fun _ _ h => h.2) hq hwf hsingle hu)
      hok henabled (e.ready_true cfg (env.frozen q.2) p.1) hhandle
      ⟨hwf, hsingle, hs.later hle hshare⟩
    exact ⟨hq, hresult⟩

/-- In such runs the limited clients of a GPU are billed, all together, at most the time
during which one of them was in its running list. -/
theorem billed_time_conserved {b₀ : ℤ} (hpos : 0 < b₀)
    (h : Transition.Accumulates (fun p a q => TimedStep cfg env Regular x p a q ∧
      (p.2 < q.2 → TailsWithinShare cfg x p.1)) (Sched.init, b₀) (m, T) (s, b)) :
    ∑ c ∈ (Finset.range s.nalloc).filter (LimitedOn x s), (m c).1 ≤ T := by
  have hs := conserved_of_run hpos h
  have hbilled : ((∑ c ∈ (Finset.range s.nalloc).filter (LimitedOn x s), (m c).1 : ℤ) : ℚ) ≤
      ∑ c ∈ Finset.range s.nalloc, owed cfg x b s m c := by
    rw [Finset.sum_filter]
    push_cast
    refine Finset.sum_le_sum fun c _ => ?_
    have hopen : 0 ≤ outstanding cfg x b s c := outstanding_nonneg hs.began c
    unfold owed
    split
    · linarith
    · exact le_rfl
  exact_mod_cast hbilled.trans hs.balance

/-! ## Exhibiting timed runs -/

/-- Handling one event at a given time, if the event is possible and admitted and the state
before it is one in which time may pass. -/
def tryTimed (cfg : Config) (env : Env) (ok : Sched → Event → Prop) [∀ s, DecidablePred (ok s)]
    (P : Sched → Prop) [DecidablePred P] (x : CtxId) (fuel : ℕ)
    (p : (Meter × ℤ) × (Sched × ℤ)) (e : ℤ × Event) : Option ((Meter × ℤ) × (Sched × ℤ)) :=
  if p.2.2 ≤ e.1 ∧ (p.2.2 < e.1 → P p.2.1) then
    (tryMetered cfg (env.frozen e.1) ok fuel (p.1.1, p.2.1) e.2).map fun q =>
      ((q.1, p.1.2 + if LimitedRuns x p.2.1 then e.1 - p.2.2 else 0), (q.2, e.1))
  else none

/-- A list of events and times leads to a state and amounts with a property that can be
evaluated. -/
theorem exists_timed (cfg : Config) (env : Env) (ok : Sched → Event → Prop)
    [∀ s, DecidablePred (ok s)] (P : Sched → Prop) [DecidablePred P] (x : CtxId) (fuel : ℕ)
    (b₀ : ℤ) (events : List (ℤ × Event)) (Q : Meter → ℤ → Sched → Prop)
    [∀ m T, DecidablePred (Q m T)]
    (h : (Transition.execute (tryTimed cfg env ok P x fuel) events (0, (Sched.init, b₀))).any
      (fun p => Q p.1.1 p.1.2 p.2.1) = true) :
    ∃ m T s b, Transition.Accumulates (fun p a q => TimedStep cfg env ok x p a q ∧
      (p.2 < q.2 → P p.1)) (Sched.init, b₀) (m, T) (s, b) ∧ Q m T s := by
  rw [Option.any_eq_true] at h
  obtain ⟨⟨⟨m, T⟩, ⟨s, b⟩⟩, hs, hQ⟩ := h
  refine ⟨m, T, s, b, ?_, of_decide_eq_true hQ⟩
  have hnext : ∀ p e q, tryTimed cfg env ok P x fuel p e = some q →
      ∃ a, (TimedStep cfg env ok x p.2 a q.2 ∧ (p.2.2 < q.2.2 → P p.2.1)) ∧ q.1 = p.1 + a := by
    intro p e q hq
    unfold tryTimed at hq
    split at hq
    · rename_i htime
      rw [Option.map_eq_some_iff] at hq
      obtain ⟨r, hr, rfl⟩ := hq
      obtain ⟨n, hstep, hsum⟩ := tryMetered_step hr
      exact ⟨(n, _), ⟨⟨htime.1, hstep, rfl⟩, htime.2⟩, Prod.ext hsum rfl⟩
    · cases hq
  refine (Transition.Reaches.of_execute hnext hs).invariant
    (I := fun p => Transition.Accumulates _ (Sched.init, b₀) p.1 p.2) ?_ (.refl _)
  rintro p e q ⟨a, hstep, hsum⟩ hp
  rw [hsum]
  exact hp.tail hstep

/-- Two clients share the GPU, are throttled together and drop the lock one after the other. -/
theorem billed_time_conserved_two_tails :
    ∃ m T s b, Transition.Accumulates (fun p a q => TimedStep {} steady Regular 0 p a q ∧
        (p.2 < q.2 → TailsWithinShare {} 0 p.1)) (Sched.init, 1) (m, T) (s, b) ∧
      s.nalloc = 2 ∧ (m 0).1 = 670 ∧ (m 1).1 = 605 ∧ T = 1400 ∧
      ∑ c ∈ (Finset.range s.nalloc).filter (LimitedOn 0 s), (m c).1 ≤ T := by
  obtain ⟨m, T, s, b, hrun, hnalloc, hfirst, hsecond, htime⟩ :=
    exists_timed {} steady Regular (TailsWithinShare {} 0) 0 9 1
    [(1, .accept {}), (1, .accept {}), (1, enterQuota 0 1 25), (1, enterQuota 1 2 25),
      (1, .message 0 .reqLock), (101, .message 1 .reqLock), (201, .timerBegin 0),
      (1101, .timerEnd 0 true), (1301, .message 0 .lockReleased), (1401, .message 1 .lockReleased)]
    (fun m T s => s.nalloc = 2 ∧ (m 0).1 = 670 ∧ (m 1).1 = 605 ∧ T = 1400) (by decide +kernel)
  exact ⟨m, T, s, b, hrun, hnalloc, hfirst, hsecond, htime,
    billed_time_conserved (by norm_num) hrun⟩

/-- A client that is throttled while it runs alone is billed for seven tenths of the time it
takes to drop the lock, and another one that joins it in the meantime for half of that time. -/
theorem billed_time_exceeds_time_running :
    ¬ ∀ (cfg : Config) (env : Env) (x : CtxId) (m : Meter) (s : Sched) (b₀ b T : ℤ),
      env.AllSent → 0 < b₀ →
      Transition.Accumulates (TimedStep cfg env (fun s e => Polite s e ∧ KeepsLimits s e) x)
        (Sched.init, b₀) (m, T) (s, b) →
      ∑ c ∈ (Finset.range s.nalloc).filter (LimitedOn x s), (m c).1 ≤ T := by
  intro h
  obtain ⟨m, T, s, b, hrun, hnalloc, hfirst, hsecond, hlimited, htime⟩ :=
    exists_timed {} steady (fun s e => Polite s e ∧ KeepsLimits s e) (fun _ => True) 0 9 1
    [(1, .accept {}), (1, .accept {}), (1, enterQuota 0 1 50), (1, enterQuota 1 2 50),
      (1, .message 0 .reqLock), (1, .timerBegin 0), (1001, .timerEnd 0 true),
      (1001, .message 1 .reqLock), (1901, .message 0 .lockReleased)]
    (fun m T s => s.nalloc = 2 ∧ (m 0).1 = 1630 ∧ (m 1).1 = 450 ∧
      (LimitedOn 0 s 0 ∧ LimitedOn 0 s 1) ∧ T = 1900) (by decide +kernel)
  have hle := h {} steady 0 m s 1 b T steady_allSent (by norm_num)
    (hrun.mono fun _ _ _ hstep => hstep.1)
  rw [hnalloc, Finset.sum_filter, Finset.sum_range_succ, Finset.sum_range_one,
    if_pos hlimited.1, if_pos hlimited.2, hfirst, hsecond, htime] at hle
  omega

end XpuShare
