import XpuShare.Verification.Agreement.Ledger

/-! # The client's side of the lock protocol

What a client believes about the lock, the messages under way in both directions and the
account the scheduler keeps for it always agree. The agreement speaks of one client, so that
each side is checked alone: the library against its own threads, the scheduler against its
account. -/

namespace XpuShare

/-- A client with library state `r`, which has `run` entries in the running list and `pend`
in the queues, `inbox` on the way to it and `outbox` on the way from it. -/
structure Agrees (run pend : ℕ) (r : LibState) (inbox : List ToClient)
    (outbox : List ToScheduler) : Prop where
  run_eq : run = r.ownLock.toNat + inbox.count .lockOk + outbox.count .lockReleased
  need_eq : r.needLock.toNat = outbox.count .reqLock + pend + inbox.count .lockOk
  apart : r.ownLock = true → r.needLock = false
  /-- A release that is under way precedes every request that is. -/
  released : .lockReleased ∈ outbox → pend = 0
  ordered : outbox.Pairwise fun m n => m = .reqLock → n ≠ .lockReleased
  idle : r.gotInitialSchedStatus = false → r.ownLock = false ∧ r.needLock = false
  on : r.gotInitialSchedStatus = true → r.schedulerOn = true
  registered : ∀ m, .register m ∉ outbox

variable {run pend : ℕ} {r r' : LibState} {inbox : List ToClient} {outbox out : List ToScheduler}

/-- A client that has just registered. -/
theorem Agrees.fresh (h : .lockOk ∉ inbox) : Agrees 0 0 {} inbox [] := by
  have hnone : inbox.count .lockOk = 0 := List.count_eq_zero.mpr h
  exact ⟨by simp [hnone], by simp [hnone], by simp, by simp, by simp, by simp, by simp, by simp⟩

/-- Only the flags of the lock and the messages about it matter. -/
theorem Agrees.congr (h : Agrees run pend r inbox outbox) (hown : r'.ownLock = r.ownLock)
    (hneed : r'.needLock = r.needLock) (hgot : r'.gotInitialSchedStatus = r.gotInitialSchedStatus)
    (hon : r'.schedulerOn = r.schedulerOn) : Agrees run pend r' inbox outbox :=
  ⟨hown ▸ h.run_eq, hneed ▸ h.need_eq, by rw [hown, hneed]; exact h.apart, h.released, h.ordered,
    by rw [hgot, hown, hneed]; exact h.idle, by rw [hgot, hon]; exact h.on, h.registered⟩

/-! ## Messages that leave the client -/

/-- A client that asks for the lock. -/
theorem Agrees.request (h : Agrees run pend r inbox outbox)
    (hgot : r.gotInitialSchedStatus = true) (hown : r.ownLock = false)
    (hneed : r.needLock = false) :
    Agrees run pend { r with needLock := true } inbox (outbox ++ [.reqLock]) := by
  have hrun := h.run_eq
  have hzero := h.need_eq
  rw [hneed] at hzero
  refine ⟨?_, ?_, fun ho => ?_, fun hm => ?_, ?_, fun hg => ?_, h.on, fun m => ?_⟩
  · simpa using hrun
  · simp only [List.count_append, List.count_singleton_self, Bool.toNat_true, Bool.toNat_false]
      at hzero ⊢
    omega
  · exact absurd (hown.symm.trans ho) Bool.false_ne_true
  · exact h.released (by simpa using hm)
  · rw [List.pairwise_append]
    exact ⟨h.ordered, List.pairwise_singleton _ _, by simp⟩
  · exact absurd (hg.symm.trans hgot) Bool.false_ne_true
  · simpa using h.registered m

/-- A client that gives the lock back. It has nothing queued and no request under way. -/
theorem Agrees.release (h : Agrees run pend r inbox outbox) (hown : r.ownLock = true) :
    Agrees run pend { r with ownLock := false } inbox (outbox ++ [.lockReleased]) := by
  have hgot : r.gotInitialSchedStatus = true := by
    by_contra hno
    have hidle := (h.idle (by simpa using hno)).1
    exact Bool.false_ne_true (hidle.symm.trans hown)
  have hrun := h.run_eq
  have hneed := h.need_eq
  rw [h.apart hown] at hneed
  rw [hown] at hrun
  simp only [Bool.toNat_true, Bool.toNat_false] at hrun hneed
  have hnone : .reqLock ∉ outbox := List.count_eq_zero.mp (by omega)
  refine ⟨?_, h.need_eq.trans ?_, by simp, fun _ => by omega, ?_, fun hg => ?_, h.on, fun m => ?_⟩
  · simp only [List.count_append, List.count_singleton_self, Bool.toNat_false]
    omega
  · simp
  · rw [List.pairwise_append]
    refine ⟨h.ordered, List.pairwise_singleton _ _, fun m hm n _ he => ?_⟩
    exact absurd (he ▸ hm) hnone
  · exact absurd (hg.symm.trans hgot) Bool.false_ne_true
  · simpa using h.registered m

/-- Memory reports do not count. -/
theorem Agrees.report (h : Agrees run pend r inbox outbox) (allocated : ℕ) (sent : Bool) :
    Agrees run pend r inbox (outbox ++ reportMemoryUsageToScheduler allocated sent) := by
  cases sent with
  | false => simpa [reportMemoryUsageToScheduler] using h
  | true =>
      refine ⟨?_, ?_, h.apart, fun hm => ?_, ?_, h.idle, h.on, fun m => ?_⟩
      · simpa [reportMemoryUsageToScheduler] using h.run_eq
      · simpa [reportMemoryUsageToScheduler] using h.need_eq
      · exact h.released (by simpa [reportMemoryUsageToScheduler] using hm)
      · simp only [reportMemoryUsageToScheduler, if_true, List.pairwise_append]
        exact ⟨h.ordered, List.pairwise_singleton _ _, by simp⟩
      · simpa [reportMemoryUsageToScheduler] using h.registered m

/-! ## Threads of the client -/

theorem Agrees.continueWithLock (h : Agrees run pend r inbox outbox)
    (hgot : r.gotInitialSchedStatus = true) :
    Agrees run pend (continueWithLock r).1 inbox (outbox ++ (continueWithLock r).2) := by
  unfold XpuShare.continueWithLock
  split
  · rw [List.append_nil]
    exact h.congr rfl rfl rfl rfl
  · rename_i hown
    split
    · rw [List.append_nil]
      exact h
    · rename_i hneed
      exact h.request hgot (by simpa using hown) (by simpa using hneed)

theorem Agrees.releaseEarlyFn (h : Agrees run pend r inbox outbox) (timedOut idle : Bool) :
    Agrees run pend (releaseEarlyFn timedOut idle r).1 inbox
      (outbox ++ (releaseEarlyFn timedOut idle r).2) := by
  unfold XpuShare.releaseEarlyFn
  split
  · split
    · rw [List.append_nil]
      exact h.congr rfl rfl rfl rfl
    · rename_i hkeep
      have hown : r.ownLock = true := by
        simp only [Bool.or_eq_true, not_or, Bool.not_eq_true', Bool.not_eq_false] at hkeep
        exact hkeep.1.1.2
      exact (h.release hown).congr rfl rfl rfl rfl
  · rw [List.append_nil]
    split
    · exact h.congr rfl rfl rfl rfl
    · exact h

/-- The next message is not LOCK_OK. -/
theorem Agrees.skip {m : ToClient} (h : Agrees run pend r (m :: inbox) outbox)
    (hm : m ≠ .lockOk) : Agrees run pend r inbox outbox := by
  have hcount : (m :: inbox).count .lockOk = inbox.count .lockOk :=
    List.count_cons_of_ne hm
  exact ⟨hcount ▸ h.run_eq, hcount ▸ h.need_eq, h.apart, h.released, h.ordered, h.idle, h.on,
    h.registered⟩

/-- LOCK_OK answers a request that is pending no longer. -/
theorem Agrees.acquire (h : Agrees run pend r (.lockOk :: inbox) outbox) :
    Agrees run pend { r with needLock := false, ownLock := true, didWork := true } inbox
      outbox := by
  have hrun := h.run_eq
  have hneed := h.need_eq
  have hapart := h.apart
  have hidle := h.idle
  rw [List.count_cons_self] at hrun hneed
  have hneed' : r.needLock = true := by
    cases hr : r.needLock with
    | true => rfl
    | false => simp [hr] at hneed
  have hown : r.ownLock = false := by
    cases hr : r.ownLock with
    | false => rfl
    | true => simp [hapart hr] at hneed'
  rw [hown] at hrun
  rw [hneed'] at hneed
  simp only [Bool.toNat_true, Bool.toNat_false] at hrun hneed
  refine ⟨?_, ?_, fun _ => rfl, fun _ => by omega, h.ordered, fun hg => ?_, h.on, h.registered⟩
  · simp only [Bool.toNat_true]
    omega
  · simp only [Bool.toNat_false]
    omega
  · have hno := (hidle hg).2
    rw [hneed'] at hno
    cases hno

/-- `client_fn` on the next message, if the scheduler is on. -/
theorem Agrees.clientFn {m : ToClient} (h : Agrees run pend r (m :: inbox) outbox)
    (hm : m.turnsOff = false) (hr : clientFn m r = some (r', out)) :
    Agrees run pend r' inbox (outbox ++ out) := by
  unfold XpuShare.clientFn at hr
  split at hr
  · rename_i hgot
    have hon := h.on hgot
    cases m with
    | lockOk =>
        cases hr
        rw [List.append_nil]
        exact h.acquire
    | dropLock =>
        have hskip := h.skip (by simp)
        simp only [handleMessage, Option.some.injEq] at hr
        split at hr
        · rename_i hown
          cases hr
          exact hskip.release hown
        · cases hr
          rw [List.append_nil]
          exact hskip
    | schedOn =>
        simp only [handleMessage, onSchedOn, hon, if_true] at hr
        cases hr
        rw [List.append_nil]
        exact h.skip (by simp)
    | schedOff => simp at hm
    | status on id limit =>
        have hyes : on = true := by simpa using hm
        simp only [handleMessage, onSchedOn, hyes, hon, if_true] at hr
        cases hr
        rw [List.append_nil]
        exact h.skip (by simp)
    | waitForMem | memAvailable | updateLimit limit =>
        cases hr
        rw [List.append_nil]
        exact h.skip (by simp)
    | updateCoreLimit limit =>
        cases hr
        rw [List.append_nil]
        refine (h.skip (by simp)).congr ?_ ?_ ?_ ?_ <;> split <;> rfl
  · rename_i hgot
    obtain ⟨hown, hneed⟩ := h.idle (by simpa using hgot)
    cases m with
    | status on id limit =>
        have hyes : on = true := by simpa using hm
        subst hyes
        cases hr
        rw [List.append_nil]
        have hskip := h.skip (by simp)
        exact ⟨by simpa [hown] using hskip.run_eq, by simpa [hneed] using hskip.need_eq, by simp,
          hskip.released, hskip.ordered, by simp, by simp, hskip.registered⟩
    | _ => simp [initialStatus] at hr

/-! ## Messages that reach the scheduler, and its answers -/

/-- The scheduler has read the first `read` messages of the outbox, of which `arrived` were
requests and `left` releases, and has sent `new`. -/
theorem Agrees.scheduled {run' pend' arrived left : ℕ} {read : List ToScheduler}
    {new : List ToClient} (h : Agrees run pend r inbox (read ++ outbox))
    (harrived : read.count .reqLock = arrived) (hleft : read.count .lockReleased = left)
    (hentries : pend' + run' + left = pend + run + arrived)
    (hrun : run' + left = run + new.count .lockOk) :
    Agrees run' pend' r (inbox ++ new) outbox := by
  have hrunEq := h.run_eq
  have hneedEq := h.need_eq
  have hordered := List.pairwise_append.mp h.ordered
  rw [List.count_append] at hrunEq hneedEq
  refine ⟨?_, ?_, h.apart, fun hm => ?_, hordered.2.1, h.idle, h.on, fun m hm => ?_⟩
  · rw [List.count_append]
    omega
  · rw [List.count_append]
    omega
  · -- No request is read while a release is still under way.
    have hzero := h.released (List.mem_append_right read hm)
    have hnone : read.count .reqLock = 0 :=
      List.count_eq_zero.mpr fun hreq => hordered.2.2 _ hreq _ hm rfl rfl
    omega
  · exact h.registered m (List.mem_append_right read hm)

end XpuShare
