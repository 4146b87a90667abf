import XpuShare.Verification.Billing.Records
import XpuShare.Verification.Scheduler.Runs

/-! # The bill for a dropped lock

A client that is told to drop the lock goes on running until it releases it. Three paths send
DROP_LOCK. Throttling settles the run up to the drop and bills the rest at
`drop_tail_billing_percent`; rotation bills the whole run at that percentage, and preemption
bills all of it in full. -/

namespace XpuShare

/-- The senders of DROP_LOCK. -/
inductive DropPath where
  | throttling
  | rotation
  | preemption
  deriving DecidableEq

/-- What each path does to the running clients of a context. -/
def DropPath.send (path : DropPath) (cfg : Config) (env : Env) (x : CtxId) (s : Sched) : Sched :=
  match path with
  | .throttling => enforceLimits cfg env x s
  | .rotation => rotateRunning env x s
  | .preemption => forcePreemption env x s

def sendsTo (c : ClientId) (out : List Sent) : List Sent := out.filter (·.dest = c)

/-- Client `c`, limited and settled at `start`, runs on `x` among `n` limited clients in `s`. It
is sent DROP_LOCK at `drop` by the given path, is neither settled nor reset after that, and is
about to be released at `release` in `t`, where it still runs among as many clients. -/
structure DroppedRun (cfg : Config) (env : Env) (path : DropPath) (x : CtxId) (c : ClientId)
    (n start drop release : ℤ) (s t : Sched) : Prop where
  nodup : (s.ctx x).runningList.Nodup
  runs : c ∈ (s.ctx x).runningList
  limited : (s.client c).coreLimit < 100
  settled : (s.client c).currentRunStartMs = start
  count : countRunningClients s x = n
  noted : (s.client c).pendingDrop = true → (s.client c).dropConcurrency = n
  sent : sendsTo c (path.send cfg env x s).out =
    sendsTo c s.out ++ [⟨c, .dropLock, true⟩]
  dropped : ((path.send cfg env x s).client c).lastDropSentMs = drop
  start_le : start ≤ drop
  nodup' : (t.ctx x).runningList.Nodup
  runs' : c ∈ (t.ctx x).runningList
  record : t.client c = (path.send cfg env x s).client c
  count' : countRunningClients t x = n
  released : currentTimeMs env t = release
  drop_le : drop ≤ release

/-- What the run of a client adds to its usage from `s` until it has left in `t`. -/
def billedRun (cfg : Config) (env : Env) (x : CtxId) (c : ClientId) (s t : Sched) : ℤ :=
  ((leaveRunning cfg env x c t).client c).runTimeInWindowMs - (s.client c).runTimeInWindowMs

/-- The share of the run up to the drop, and a percentage of the share after it. -/
def exactShare (percent n start drop release : ℤ) : ℚ :=
  (drop - start : ℚ) / n + (release - drop : ℚ) / n * percent / 100

/-- The amount is the exact one, up to three times rounding down. -/
def BilledExactly (share : ℚ) (amount : ℤ) : Prop := amount ≤ share ∧ share < amount + 3

/-! ## What the paths do to a record -/

section Paths

variable (cfg : Config) (env : Env) (x : CtxId)

/-- The record of a client and the messages sent to it. -/
def Sched.view (s : Sched) (c : ClientId) : Client × List Sent := (s.client c, sendsTo c s.out)

theorem sendsTo_sendMessage_ne {c d : ClientId} (h : d ≠ c) (m : ToClient) (s : Sched) :
    sendsTo d (sendMessage env c m s).out = sendsTo d s.out := by
  simp [sendsTo, sendMessage, Ne.symm h]

theorem sendsTo_sendMessage_self (c : ClientId) (m : ToClient) (s : Sched) :
    sendsTo c (sendMessage env c m s).out =
      sendsTo c s.out ++ [⟨c, m, sendSucceeds env c s⟩] := by
  simp [sendsTo, sendMessage]

/-- A visit to `c` sends it nothing and leaves its record, or changes its record. -/
def Visited (change : Client → Client → Prop) (p p' : Client × List Sent) : Prop :=
  p' = p ∨ change p.1 p'.1

/-- The record of a client that is throttled at `now`. -/
def throttledAt (count now : ℤ) (r r' : Client) : Prop :=
  r.pendingDrop = false ∧ r' = { r with
    isThrottled := true, pendingDrop := true, dropConcurrency := count
    runTimeInWindowMs := r.runTimeInWindowMs + (now - r.currentRunStartMs).tdiv count
    currentRunStartMs := now, lastDropSentMs := now }

/-- The record of a client that has to rotate at `now`. -/
def rotatedAt (count now : ℤ) (r r' : Client) : Prop :=
  r' = { r with pendingDrop := true, dropConcurrency := count, lastDropSentMs := now }

/-- The record of a client that is preempted. -/
def preemptedAt (r r' : Client) : Prop := ∃ now, r' = { r with lastDropSentMs := now }

theorem throttleClient_view_ne (count now : ℤ) (s : Sched) (c d : ClientId) (h : d ≠ c) :
    (throttleClient cfg env x count now s c).view d = s.view d := by
  unfold throttleClient
  simp only
  split
  · simp [Sched.view, sendsTo_sendMessage_ne env h, h]
  · rfl

theorem throttleClient_view {count : ℤ} (hcount : 0 < count) (now : ℤ) (s : Sched)
    (c : ClientId) : Visited (throttledAt count now) (s.view c)
      ((throttleClient cfg env x count now s c).view c) := by
  unfold throttleClient
  simp only
  split
  · next hover =>
      have hpending : (s.client c).pendingDrop = false := by simpa using hover.2.2.1
      exact .inr ⟨hpending, by simp [Sched.view, currentUsage]⟩
  · exact .inl rfl

theorem rotateClient_view_ne (count now : ℤ) (s : Sched) (c d : ClientId) (h : d ≠ c) :
    (rotateClient env count now s c).view d = s.view d := by
  unfold rotateClient
  simp only
  split
  · simp [Sched.view, sendsTo_sendMessage_ne env h, h]
  · rfl

theorem rotateClient_view {count : ℤ} (hcount : 0 < count) (now : ℤ) (s : Sched)
    (c : ClientId) : Visited (rotatedAt count now) (s.view c)
      ((rotateClient env count now s c).view c) := by
  unfold rotateClient
  simp only
  split
  · exact .inr (by simp [rotatedAt, Sched.view])
  · exact .inl rfl

theorem preemptClient_client_ne (s : Sched) (c d : ClientId) (h : d ≠ c) :
    (preemptClient env s c).client d = s.client d := by
  unfold preemptClient
  simp only
  split
  · rw [Sched.modifyClient_client_ne _ _ _ _ h]
    rfl
  · rfl

theorem preemptClient_client (s : Sched) (c : ClientId) :
    preemptedAt (s.client c) ((preemptClient env s c).client c) := by
  unfold preemptClient
  simp only
  split
  · exact ⟨currentTimeMs env (sendMessage env c .dropLock s), by simp⟩
  · exact ⟨(s.client c).lastDropSentMs, rfl⟩

end Paths

/-! ## The bill -/

section Bill

variable {cfg : Config} {env : Env} {path : DropPath} {x : CtxId} {c : ClientId}
  {n start drop release : ℤ} {s t : Sched}

theorem visited_of_sent {change : Client → Client → Prop} {u : Sched}
    (h : Visited change (s.view c) (u.view c))
    (hsent : sendsTo c u.out = sendsTo c s.out ++ [⟨c, .dropLock, true⟩]) :
    change (s.client c) (u.client c) := by
  rcases h with hsame | hchange
  · have hout : sendsTo c u.out = sendsTo c s.out := congrArg Prod.snd hsame
    rw [hout] at hsent
    exact absurd hsent (by simp)
  · exact hchange

namespace DroppedRun

/-- A path that notes the time of the drop has changed the record at that time. -/
theorem changed {change : ℤ → ℤ → Client → Client → Prop}
    (h : DroppedRun cfg env path x c n start drop release s t)
    (hlast : ∀ count now r r', change count now r r' → r'.lastDropSentMs = now)
    (hvisit : Visited (change (countRunningClients s x) (currentTimeMs env s)) (s.view c)
      ((path.send cfg env x s).view c)) : change n drop (s.client c) (t.client c) := by
  have hchange := visited_of_sent hvisit h.sent
  have hdrop : currentTimeMs env s = drop := by
    rw [← h.dropped, hlast _ _ _ _ hchange]
  rw [h.record, ← h.count, ← hdrop]
  exact hchange

theorem throttledAt (h : DroppedRun cfg env .throttling x c n start drop release s t) :
    throttledAt n drop (s.client c) (t.client c) := by
  have hvisit := Loop.foldl_visit (π := Sched.view)
    (R := fun _ => Visited (XpuShare.throttledAt (countRunningClients s x) (currentTimeMs env s)))
    (throttleClient_view_ne cfg env x _ _)
    (throttleClient_view cfg env x (countRunningClients_pos s x) _) h.nodup h.runs s.tick
  refine h.changed (fun count now r r' hchange => ?_) hvisit
  rw [hchange.2]

theorem rotatedAt (h : DroppedRun cfg env .rotation x c n start drop release s t) :
    rotatedAt n drop (s.client c) (t.client c) := by
  have hvisit := Loop.foldl_visit (π := Sched.view)
    (R := fun _ => Visited (XpuShare.rotatedAt (countRunningClients s x) (currentTimeMs env s)))
    (rotateClient_view_ne env _ _)
    (rotateClient_view env (countRunningClients_pos s x) _) h.nodup h.runs s.tick
  refine h.changed (fun count now r r' hchange => ?_) hvisit
  rw [show r' = _ from hchange]

theorem preemptedAt (h : DroppedRun cfg env .preemption x c n start drop release s t) :
    preemptedAt (s.client c) (t.client c) := by
  rw [h.record]
  exact Loop.foldl_visit (π := Sched.client) (R := fun _ => XpuShare.preemptedAt)
    (preemptClient_client_ne env) (preemptClient_client env) h.nodup h.runs s

theorem billedRun_eq (h : DroppedRun cfg env path x c n start drop release s t) :
    billedRun cfg env x c s t =
      (t.client c).runTimeInWindowMs + finalBill cfg t x c release -
        (s.client c).runTimeInWindowMs := by
  rw [billedRun, leaveRunning_client cfg env h.runs', releaseRunning_client cfg h.nodup',
    if_pos rfl, h.released]

theorem n_pos (h : DroppedRun cfg env path x c n start drop release s t) : 0 < n := by
  rw [← h.count]
  exact countRunningClients_pos s x

end DroppedRun

/-! ### Rounding -/

theorem tdiv_bounds {a n : ℤ} (ha : 0 ≤ a) (hn : 0 < n) :
    ((a.tdiv n : ℤ) : ℚ) ≤ (a : ℚ) / n ∧ (a : ℚ) / n < (a.tdiv n : ℤ) + 1 := by
  have hpos : (0 : ℚ) < n := by exact_mod_cast hn
  rw [Int.tdiv_eq_ediv_of_nonneg ha, le_div_iff₀ hpos, div_lt_iff₀ hpos]
  constructor
  · exact_mod_cast Int.ediv_mul_le a hn.ne'
  · exact_mod_cast Int.lt_ediv_add_one_mul_self a hn

/-- A percentage of a share is rounded down twice. -/
theorem tail_bounds {a n percent : ℤ} (ha : 0 ≤ a) (hn : 0 < n) (hpercent : 0 ≤ percent)
    (hle : percent ≤ 100) :
    (((a.tdiv n * percent).tdiv 100 : ℤ) : ℚ) ≤ (a : ℚ) / n * percent / 100 ∧
      (a : ℚ) / n * percent / 100 < ((a.tdiv n * percent).tdiv 100 : ℤ) + 2 := by
  have hquotient : 0 ≤ a.tdiv n := Int.tdiv_nonneg ha hn.le
  obtain ⟨hlow, hhigh⟩ := tdiv_bounds ha hn
  have hhundred : (0 : ℤ) < 100 := by norm_num
  obtain ⟨hlow', hhigh'⟩ := tdiv_bounds (mul_nonneg hquotient hpercent) hhundred
  have hpercent' : (0 : ℚ) ≤ percent := by exact_mod_cast hpercent
  have hle' : (percent : ℚ) ≤ 100 := by exact_mod_cast hle
  push_cast at hlow' hhigh'
  have hmul : ((a.tdiv n : ℤ) : ℚ) * percent ≤ (a : ℚ) / n * percent :=
    mul_le_mul_of_nonneg_right hlow hpercent'
  have hmul' : (a : ℚ) / n * percent ≤ ((a.tdiv n : ℤ) + 1) * percent :=
    mul_le_mul_of_nonneg_right hhigh.le hpercent'
  constructor
  · linarith
  · linarith

/-! ### Each path -/

theorem finalBill_of_pendingDrop (cfg : Config) (x : CtxId) {now : ℤ}
    (h : (t.client c).pendingDrop = true) (hn : 0 < (t.client c).dropConcurrency)
    (hle : (t.client c).currentRunStartMs ≤ now) :
    finalBill cfg t x c now = ((now - (t.client c).currentRunStartMs).tdiv
      (t.client c).dropConcurrency * cfg.dropTailBillingPercent).tdiv 100 := by
  simp only [finalBill, h, if_true, hn]
  split
  · rfl
  · have hzero : now - (t.client c).currentRunStartMs = 0 := by omega
    simp [hzero]

theorem finalBill_of_not_pendingDrop (cfg : Config) (x : CtxId) {now : ℤ}
    (h : (t.client c).pendingDrop = false) (hle : (t.client c).currentRunStartMs ≤ now) :
    finalBill cfg t x c now =
      (now - (t.client c).currentRunStartMs).tdiv (countRunningClients t x) := by
  simp only [finalBill, h, Bool.false_eq_true, if_false]
  split
  · rfl
  · have hzero : now - (t.client c).currentRunStartMs = 0 := by omega
    simp [hzero]

/-- Throttling bills the part before the drop in full and a percentage of the tail. -/
theorem billedRun_throttling (h : DroppedRun cfg env .throttling x c n start drop release s t) :
    billedRun cfg env x c s t = (drop - start).tdiv n +
      ((release - drop).tdiv n * cfg.dropTailBillingPercent).tdiv 100 := by
  have hrecord := h.throttledAt.2
  have hpending : (t.client c).pendingDrop = true := by rw [hrecord]
  have hshare : (t.client c).dropConcurrency = n := by rw [hrecord]
  have hstart : (t.client c).currentRunStartMs = drop := by rw [hrecord]
  have husage : (t.client c).runTimeInWindowMs =
      (s.client c).runTimeInWindowMs + (drop - start).tdiv n := by rw [hrecord, ← h.settled]
  rw [h.billedRun_eq, finalBill_of_pendingDrop cfg x hpending (by rw [hshare]; exact h.n_pos)
    (by rw [hstart]; exact h.drop_le), hshare, hstart, husage]
  ring

/-- A run with a noted drop that has not been settled is billed at the percentage. -/
theorem billedRun_of_pendingDrop (h : DroppedRun cfg env path x c n start drop release s t)
    (hpending : (t.client c).pendingDrop = true) (hshare : (t.client c).dropConcurrency = n)
    (hstart : (t.client c).currentRunStartMs = start)
    (husage : (t.client c).runTimeInWindowMs = (s.client c).runTimeInWindowMs) :
    billedRun cfg env x c s t =
      ((release - start).tdiv n * cfg.dropTailBillingPercent).tdiv 100 := by
  have hle : start ≤ release := h.start_le.trans h.drop_le
  rw [h.billedRun_eq, finalBill_of_pendingDrop cfg x hpending (by rw [hshare]; exact h.n_pos)
    (by rw [hstart]; exact hle), hshare, hstart, husage]
  ring

/-- Rotation bills a percentage of the whole run. -/
theorem billedRun_rotation (h : DroppedRun cfg env .rotation x c n start drop release s t) :
    billedRun cfg env x c s t =
      ((release - start).tdiv n * cfg.dropTailBillingPercent).tdiv 100 := by
  have hrecord : t.client c = _ := h.rotatedAt
  apply billedRun_of_pendingDrop h
  · rw [hrecord]
  · rw [hrecord]
  · rw [hrecord, ← h.settled]
  · rw [hrecord]

/-- Preemption bills the whole run in full, unless another drop has been noted before. -/
theorem billedRun_preemption (h : DroppedRun cfg env .preemption x c n start drop release s t) :
    billedRun cfg env x c s t = if (s.client c).pendingDrop then
      ((release - start).tdiv n * cfg.dropTailBillingPercent).tdiv 100
      else (release - start).tdiv n := by
  obtain ⟨now, hrecord⟩ := h.preemptedAt
  have hstart : (t.client c).currentRunStartMs = start := by rw [hrecord, ← h.settled]
  have husage : (t.client c).runTimeInWindowMs = (s.client c).runTimeInWindowMs := by rw [hrecord]
  have hpending : (t.client c).pendingDrop = (s.client c).pendingDrop := by rw [hrecord]
  cases hdrop : (s.client c).pendingDrop with
  | true =>
      rw [hdrop] at hpending
      rw [if_pos rfl]
      exact billedRun_of_pendingDrop h hpending (by rw [hrecord]; exact h.noted hdrop) hstart husage
  | false =>
      have hle : start ≤ release := h.start_le.trans h.drop_le
      rw [hdrop] at hpending
      rw [h.billedRun_eq, finalBill_of_not_pendingDrop cfg x hpending (by rw [hstart]; exact hle),
        h.count', hstart, husage, if_neg Bool.false_ne_true]
      ring

end Bill

/-! ## Which paths bill alike -/

/-- A run that is billed as one piece in full is billed exactly if tails are. -/
theorem billedExactly_full {n start drop release : ℤ} (hn : 0 < n) (hle : start ≤ release) :
    BilledExactly (exactShare 100 n start drop release) ((release - start).tdiv n) := by
  obtain ⟨hlow, hhigh⟩ := tdiv_bounds (sub_nonneg.mpr hle) hn
  have hshare : exactShare 100 n start drop release = ((release - start : ℤ) : ℚ) / n := by
    rw [exactShare]
    push_cast
    ring
  rw [BilledExactly, hshare]
  exact ⟨hlow, by linarith⟩

/-- A client with half of the GPU runs alone from the start of the clock. -/
def lonelyRun : Sched where
  clients := [0]
  client _ := { id := 1, context := some 0, coreLimit := 50, isRunning := true }
  nctx := 1
  ctx _ := { runningList := [0], lockHeld := true }
  nalloc := 1

/-- Readings of the clock for a run that starts at zero. -/
def stopwatch (first later : ℤ) : Env where
  clock n := if n = 0 then first else later
  sendOk _ _ := true

theorem lonelyRun_rotated (cfg : Config) : DroppedRun cfg (stopwatch 300 300) .rotation 0 0 1 0 300
    300 lonelyRun (rotateRunning (stopwatch 300 300) 0 lonelyRun) where
  nodup := by decide
  runs := by decide
  limited := by decide
  settled := rfl
  count := by decide
  noted := by decide
  sent := rfl
  dropped := rfl
  start_le := by decide
  nodup' := by decide
  runs' := by decide
  record := rfl
  count' := by decide
  released := by decide
  drop_le := by decide

theorem lonelyRun_preempted (cfg : Config) : DroppedRun cfg (stopwatch 0 300) .preemption 0 0 1 0 0
    300 lonelyRun (forcePreemption (stopwatch 0 300) 0 lonelyRun) where
  nodup := by decide
  runs := by decide
  limited := by decide
  settled := rfl
  count := by decide
  noted := by decide
  sent := rfl
  dropped := rfl
  start_le := by decide
  nodup' := by decide
  runs' := by decide
  record := rfl
  count' := by decide
  released := by decide
  drop_le := by decide

/-- A path bills every dropped run exactly if it is the throttling path, or if tails are billed
in full; and only then. -/
theorem drop_paths_bill_alike_iff (cfg : Config) (path : DropPath) :
    (∀ env x c n start drop release s t,
      DroppedRun cfg env path x c n start drop release s t →
      BilledExactly (exactShare cfg.dropTailBillingPercent n start drop release)
        (billedRun cfg env x c s t)) ↔
      path = .throttling ∨ cfg.dropTailBillingPercent = 100 := by
  have hpercent := cfg.tail_bounds
  constructor
  · intro h
    cases path with
    | throttling => exact .inl rfl
    | rotation =>
        have hrun := lonelyRun_rotated cfg
        have hexact := (h _ _ _ _ _ _ _ _ _ hrun).2
        have hbill : ((300 - 0 : ℤ).tdiv 1 * cfg.dropTailBillingPercent).tdiv 100 =
            3 * cfg.dropTailBillingPercent := by
          rw [sub_zero, Int.tdiv_one, show (300 : ℤ) = 3 * 100 by rfl, mul_right_comm,
            Int.mul_tdiv_cancel _ (by decide)]
        have hshare : exactShare cfg.dropTailBillingPercent 1 0 300 300 = 300 := by
          norm_num [exactShare]
        rw [billedRun_rotation hrun, hbill, hshare] at hexact
        have hlt : 300 < 3 * cfg.dropTailBillingPercent + 3 := by exact_mod_cast hexact
        exact .inr (by omega)
    | preemption =>
        have hrun := lonelyRun_preempted cfg
        have hexact := (h _ _ _ _ _ _ _ _ _ hrun).1
        have hbill : billedRun cfg (stopwatch 0 300) 0 0 lonelyRun
            (forcePreemption (stopwatch 0 300) 0 lonelyRun) = 300 := billedRun_preemption hrun
        have hshare : exactShare cfg.dropTailBillingPercent 1 0 0 300 =
            3 * cfg.dropTailBillingPercent := by
          rw [exactShare]
          push_cast
          ring
        rw [hbill, hshare] at hexact
        have hle : 300 ≤ 3 * cfg.dropTailBillingPercent := by exact_mod_cast hexact
        exact .inr (by omega)
  · intro h env x c n start drop release s t hrun
    have hle : start ≤ release := hrun.start_le.trans hrun.drop_le
    cases path with
    | throttling =>
        obtain ⟨hlow, hhigh⟩ := tdiv_bounds (sub_nonneg.mpr hrun.start_le) hrun.n_pos
        obtain ⟨hlow', hhigh'⟩ :=
          tail_bounds (sub_nonneg.mpr hrun.drop_le) hrun.n_pos hpercent.1 hpercent.2
        rw [billedRun_throttling hrun, BilledExactly, exactShare]
        push_cast at *
        constructor
        · linarith
        · linarith
    | rotation =>
        have hfull := h.resolve_left (by decide)
        rw [billedRun_rotation hrun, hfull, Int.mul_tdiv_cancel _ (by decide)]
        exact billedExactly_full hrun.n_pos hle
    | preemption =>
        have hfull := h.resolve_left (by decide)
        rw [billedRun_preemption hrun, hfull, Int.mul_tdiv_cancel _ (by decide), ite_self]
        exact billedExactly_full hrun.n_pos hle

/-! ## A throttled client -/

/-- A client is granted the lock at 1 ms, throttled at 1501 ms, and released at 1701 ms. -/
def shortTail : Env where
  clock n := if n < 2 then 1 else if n = 2 then 1501 else 1701
  sendOk _ _ := true

/-- With the default configuration a throttled client pays 1500 ms and seven tenths of 200 ms,
as is due. -/
theorem throttled_tail_billed :
    ∃ t, Transition.Reaches (Step {} shortTail) Sched.init t ∧
      DroppedRun {} shortTail .throttling 0 0 1 1 1501 1701 t (enforceLimits {} shortTail 0 t) ∧
      billedRun {} shortTail 0 0 t (enforceLimits {} shortTail 0 t) = 1640 ∧
      exactShare 70 1 1 1501 1701 = 1640 := by
  obtain ⟨t, hreach, ⟨hnodup, hruns, hlimited, hsettled, hcount, hfree⟩, hsent, hdropped,
      hnodup', hruns', hcount', hreleased⟩ :=
    exists_reaches {} shortTail (fun _ _ => True) 9
    [.accept {}, enterQuota 0 1 50, .message 0 .reqLock]
    (fun t => let u := enforceLimits {} shortTail 0 t
      ((t.ctx 0).runningList.Nodup ∧ 0 ∈ (t.ctx 0).runningList ∧ (t.client 0).coreLimit < 100 ∧
        (t.client 0).currentRunStartMs = 1 ∧ countRunningClients t 0 = 1 ∧
        (t.client 0).pendingDrop = false) ∧
      sendsTo 0 u.out = sendsTo 0 t.out ++ [⟨0, .dropLock, true⟩] ∧
        (u.client 0).lastDropSentMs = 1501 ∧
      (u.ctx 0).runningList.Nodup ∧ 0 ∈ (u.ctx 0).runningList ∧
        countRunningClients u 0 = 1 ∧ currentTimeMs shortTail u = 1701) (by decide +kernel)
  have hdrop : DroppedRun {} shortTail .throttling 0 0 1 1 1501 1701 t
      (enforceLimits {} shortTail 0 t) :=
    { nodup := hnodup, runs := hruns, limited := hlimited, settled := hsettled, count := hcount
      noted := by simp [hfree]
      sent := hsent, dropped := hdropped, start_le := by decide, nodup' := hnodup'
      runs' := hruns', record := rfl, count' := hcount', released := hreleased
      drop_le := by decide }
  refine ⟨t, hreach.mono fun _ _ _ h => h.2, hdrop, ?_, by norm_num [exactShare]⟩
  rw [billedRun_throttling hdrop]
  decide

/-! ## A preempted client -/

/-- A client is granted the lock at 1 ms, preempted at 101 ms, and released at 1101 ms. -/
def lateTail : Env where
  clock n := if n < 2 then 1 else if n = 2 then 101 else 1101
  sendOk _ _ := true

/-- The state in which `force_preemption` is called when client 0 reports 20 GiB. -/
def overloadedBy (t : Sched) : Sched :=
  accountMemory .static 0 (t.client 0).memoryAllocated (20 * 2 ^ 30) (storeMemory 0 (20 * 2 ^ 30) t)

/-- With the default configuration the tail of a preempted client is billed in full, 1100 ms in
all, where 100 ms and seven tenths of 1000 ms were due. -/
theorem preemption_bills_tail_in_full :
    ∃ t, Transition.Reaches (Step {} lateTail) Sched.init t ∧
      memUpdate {} lateTail 0 (20 * 2 ^ 30) t = forcePreemption lateTail 0 (overloadedBy t) ∧
      DroppedRun {} lateTail .preemption 0 0 1 1 101 1101 (overloadedBy t)
        (forcePreemption lateTail 0 (overloadedBy t)) ∧
      billedRun {} lateTail 0 0 (overloadedBy t)
        (forcePreemption lateTail 0 (overloadedBy t)) = 1100 ∧
      exactShare 70 1 1 101 1101 = 800 := by
  obtain ⟨t, hreach, ⟨hctx, hreg, hrun, hbefore, hafter⟩, ⟨hnodup, hruns, hlimited, hsettled,
      hcount, hnoted⟩, ⟨hsent, hdropped⟩, hnodup', hruns', hcount', hreleased⟩ :=
    exists_reaches {} lateTail (fun _ _ => True) 9
    [.accept {}, enterQuota 0 1 50, .message 0 .reqLock]
    (fun t => let s := overloadedBy t
      let u := forcePreemption lateTail 0 s
      ((t.client 0).context = some 0 ∧ hasRegistered t 0 = true ∧ (t.client 0).isRunning = true ∧
        (t.ctx 0).memoryOverloaded = false ∧ (s.ctx 0).memoryOverloaded = true) ∧
      ((s.ctx 0).runningList.Nodup ∧ 0 ∈ (s.ctx 0).runningList ∧ (s.client 0).coreLimit < 100 ∧
        (s.client 0).currentRunStartMs = 1 ∧ countRunningClients s 0 = 1 ∧
        (s.client 0).pendingDrop = false) ∧
      (sendsTo 0 u.out = sendsTo 0 s.out ++ [⟨0, .dropLock, true⟩] ∧
        (u.client 0).lastDropSentMs = 101) ∧
      (u.ctx 0).runningList.Nodup ∧ 0 ∈ (u.ctx 0).runningList ∧
        countRunningClients u 0 = 1 ∧ currentTimeMs lateTail u = 1101) (by decide +kernel)
  have hdrop : DroppedRun {} lateTail .preemption 0 0 1 1 101 1101 (overloadedBy t)
      (forcePreemption lateTail 0 (overloadedBy t)) :=
    { nodup := hnodup, runs := hruns, limited := hlimited, settled := hsettled, count := hcount
      noted := by simp [hnoted]
      sent := hsent, dropped := hdropped, start_le := by decide, nodup' := hnodup'
      runs' := hruns', record := rfl, count' := hcount', released := hreleased
      drop_le := by decide }
  refine ⟨t, hreach.mono fun _ _ _ h => h.2, ?_, hdrop, ?_, by norm_num [exactShare]⟩
  · have hmust : (!(t.ctx 0).memoryOverloaded && ((overloadedBy t).ctx 0).memoryOverloaded) =
        true := by simp [hbefore, hafter]
    simp only [memUpdate, hctx, hreg, hrun, Bool.not_true, Bool.false_eq_true, if_false, if_true]
    exact if_pos hmust
  · rw [billedRun_preemption hdrop, hnoted]
    decide

end XpuShare
