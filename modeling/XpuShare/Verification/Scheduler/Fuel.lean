import XpuShare.Verification.Scheduler.Blocks

/-! # The scheduling loop, pass by pass

Equations for one pass of `try_schedule`, and the independence of its result from the
amount of fuel. -/

namespace XpuShare

variable {cfg : Config} {env : Env} {x : CtxId} {s r f t : Sched} {n m : ℕ}

section Passes

variable {c : ClientId} {rest : List ClientId}

theorem trySchedule_of_nil (hrefill : refill cfg env x s = r) (hreq : (r.ctx x).requests = []) :
    trySchedule cfg env (n + 1) x s = some r := by
  simp only [trySchedule, hrefill, hreq]

theorem trySchedule_of_grant (hrefill : refill cfg env x s = r)
    (hreq : (r.ctx x).requests = c :: rest) (hfresh : freshWindow cfg env x r = f)
    (hok : canRunTest cfg f x c = true) (hsend : sendSucceeds env c f = true) :
    trySchedule cfg env (n + 1) x s =
      if cfg.schedulingMode = .serial then some (grant env x c (sendMessage env c .lockOk f))
      else trySchedule cfg env n x (grant env x c (sendMessage env c .lockOk f)) := by
  simp only [trySchedule, hrefill, hreq, hfresh, hok, hsend, if_true]

theorem trySchedule_of_refuse (hrefill : refill cfg env x s = r)
    (hreq : (r.ctx x).requests = c :: rest) (hfresh : freshWindow cfg env x r = f)
    (hok : canRunTest cfg f x c = true) (hsend : sendSucceeds env c f = false) :
    trySchedule cfg env (n + 1) x s =
      (deleteClient cfg env (trySchedule cfg env n) c (sendMessage env c .lockOk f)).bind
        (trySchedule cfg env n x) := by
  simp only [trySchedule, hrefill, hreq, hfresh, hok, hsend, if_true, Bool.false_eq_true, if_false]

theorem trySchedule_of_defer (hrefill : refill cfg env x s = r)
    (hreq : (r.ctx x).requests = c :: rest) (hfresh : freshWindow cfg env x r = f)
    (hno : canRunTest cfg f x c = false) :
    trySchedule cfg env (n + 1) x s = trySchedule cfg env n x (moveToWaitQueue env x c f) := by
  simp only [trySchedule, hrefill, hreq, hfresh, hno, Bool.false_eq_true, if_false]

end Passes

/-! ## More fuel gives the same result -/

theorem removeReq_mono {schedule schedule' : CtxId → Sched → Option Sched} {c : ClientId}
    (hle : ∀ y u v, schedule y u = some v → schedule' y u = some v)
    (h : removeReq cfg env schedule c s = some t) :
    removeReq cfg env schedule' c s = some t := by
  unfold removeReq at h ⊢
  split at h
  · exact h
  · simp only at h ⊢
    split at h
    · rename_i hempty
      rw [if_pos hempty]
      rw [Option.map_eq_some_iff] at h ⊢
      obtain ⟨u, hu, hut⟩ := h
      exact ⟨u, hle _ _ _ hu, hut⟩
    · rename_i hbusy
      rw [if_neg hbusy]
      exact h

theorem deleteClient_mono {schedule schedule' : CtxId → Sched → Option Sched} {c : ClientId}
    (hle : ∀ y u v, schedule y u = some v → schedule' y u = some v)
    (h : deleteClient cfg env schedule c s = some t) :
    deleteClient cfg env schedule' c s = some t := by
  rw [deleteClient, Option.bind_eq_some_iff] at h ⊢
  obtain ⟨u, hu, hut⟩ := h
  exact ⟨u, removeReq_mono hle hu, hut⟩

theorem trySchedule_succ (h : trySchedule cfg env n x s = some t) :
    trySchedule cfg env (n + 1) x s = some t := by
  induction n generalizing x s t with
  | zero => cases h
  | succ n ih =>
      generalize hrefill : refill cfg env x s = r
      cases hreq : (r.ctx x).requests with
      | nil =>
          rw [trySchedule_of_nil hrefill hreq] at h ⊢
          exact h
      | cons c rest =>
          generalize hfresh : freshWindow cfg env x r = f
          cases hok : canRunTest cfg f x c with
          | false =>
              rw [trySchedule_of_defer hrefill hreq hfresh hok] at h ⊢
              exact ih h
          | true =>
              cases hsend : sendSucceeds env c f with
              | true =>
                  rw [trySchedule_of_grant hrefill hreq hfresh hok hsend] at h ⊢
                  split at h
                  · rename_i hserial
                    rwa [if_pos hserial]
                  · rename_i hserial
                    rw [if_neg hserial]
                    exact ih h
              | false =>
                  rw [trySchedule_of_refuse hrefill hreq hfresh hok hsend] at h ⊢
                  rw [Option.bind_eq_some_iff] at h ⊢
                  obtain ⟨u, hu, hut⟩ := h
                  exact ⟨u, deleteClient_mono (fun _ _ _ => ih) hu, ih hut⟩

theorem trySchedule_mono (hle : n ≤ m) (h : trySchedule cfg env n x s = some t) :
    trySchedule cfg env m x s = some t := by
  induction hle with
  | refl => exact h
  | step _ ih => exact trySchedule_succ ih

/-! ## Handlers -/

theorem scheduleIfFree_mono (hle : n ≤ m) (h : scheduleIfFree cfg env n x s = some t) :
    scheduleIfFree cfg env m x s = some t := by
  unfold scheduleIfFree at h ⊢
  split at h
  · rename_i hheld
    rwa [if_pos hheld]
  · rename_i hheld
    rw [if_neg hheld]
    exact trySchedule_mono hle h

theorem bcastClient_mono {c : ClientId} (hle : n ≤ m) (h : bcastClient cfg env n s c = some t) :
    bcastClient cfg env m s c = some t := by
  unfold bcastClient at h ⊢
  split at h
  · cases h
  · rename_i hmem
    rw [if_neg hmem]
    split at h
    · rename_i hnot
      rwa [if_pos hnot]
    · rename_i hreg
      rw [if_neg hreg]
      simp only at h ⊢
      split at h
      · rename_i hsend
        rwa [if_pos hsend]
      · rename_i hfail
        rw [if_neg hfail]
        exact deleteClient_mono (fun _ _ _ => trySchedule_mono hle) h

theorem bcastFrom_mono {linked l : List ClientId} (hle : n ≤ m)
    (h : bcastFrom cfg env n linked l s = some t) : bcastFrom cfg env m linked l s = some t := by
  induction l generalizing linked s with
  | nil => exact h
  | cons c l ih =>
      rw [bcastFrom] at h ⊢
      split at h
      · rename_i hunlinked
        rw [if_pos hunlinked]
        exact ih h
      · rename_i hlinked
        rw [if_neg hlinked]
        rw [Option.bind_eq_some_iff] at h ⊢
        obtain ⟨u, hu, hut⟩ := h
        exact ⟨u, bcastClient_mono hle hu, ih hut⟩

theorem bcastStatus_mono (hle : n ≤ m) (h : bcastStatus cfg env n s = some t) :
    bcastStatus cfg env m s = some t :=
  bcastFrom_mono hle h

theorem processMsg_mono {c : ClientId} {r : FromClient} (hle : n ≤ m)
    (h : processMsg cfg env n c r s = some t) : processMsg cfg env m c r s = some t := by
  have hdelete : ∀ {u : Sched}, deleteClient cfg env (trySchedule cfg env n) c u = some t →
      deleteClient cfg env (trySchedule cfg env m) c u = some t :=
    fun hu => deleteClient_mono (fun _ _ _ => trySchedule_mono hle) hu
  cases r with
  | register r e =>
      simp only [processMsg] at h ⊢
      split at h
      · rename_i hok
        rwa [if_pos hok]
      · rename_i hfail
        rw [if_neg hfail]
        exact hdelete h
  | schedOn =>
      simp only [processMsg] at h ⊢
      split at h
      · rename_i hon
        rwa [if_pos hon]
      · rename_i hoff
        rw [if_neg hoff]
        exact bcastStatus_mono hle h
  | schedOff =>
      simp only [processMsg] at h ⊢
      split at h
      · rename_i hon
        rw [Option.map_eq_some_iff] at h
        obtain ⟨u, hu, rfl⟩ := h
        rw [if_pos hon, bcastStatus_mono hle hu, Option.map_some]
      · rename_i hoff
        rwa [if_neg hoff]
  | setTq v => cases v <;> exact h
  | reqLock =>
      simp only [processMsg] at h ⊢
      split at h
      · rename_i hnot
        rw [if_pos hnot]
        exact hdelete h
      · rename_i hreg
        rw [if_neg hreg]
        split at h
        · rename_i hon
          rw [if_pos hon]
          unfold reqLock at h ⊢
          split at h
          · exact hdelete h
          · simp only at h ⊢
            split at h
            · rename_i hheld
              rwa [if_pos hheld]
            · rename_i hfree
              rw [if_neg hfree]
              exact trySchedule_mono hle h
        · rename_i hoff
          rwa [if_neg hoff]
  | lockReleased =>
      simp only [processMsg] at h ⊢
      split at h
      · rename_i hnot
        rw [if_pos hnot]
        exact hdelete h
      · rename_i hreg
        rw [if_neg hreg]
        split at h
        · rename_i hon
          rw [if_pos hon]
          unfold lockReleased at h ⊢
          split at h
          · exact hdelete h
          · rw [Option.bind_eq_some_iff] at h ⊢
            obtain ⟨u, hu, hut⟩ := h
            exact ⟨u, removeReq_mono (fun _ _ _ => trySchedule_mono hle) hu,
              scheduleIfFree_mono hle hut⟩
        · rename_i hoff
          rwa [if_neg hoff]
  | memUpdate v => exact h
  | unknown => exact h

theorem handle_mono {e : Event} (hle : n ≤ m) (h : handle cfg env n e s = some t) :
    handle cfg env m e s = some t := by
  cases e with
  | accept garbage => exact h
  | message c r => exact processMsg_mono hle h
  | disconnect c =>
      simp only [handle, disconnect, Option.bind_eq_some_iff] at h ⊢
      obtain ⟨u, hu, hut⟩ := h
      refine ⟨u, deleteClient_mono (fun _ _ _ => trySchedule_mono hle) hu, ?_⟩
      split at hut
      · exact hut
      · split at hut
        · rename_i hon
          rw [if_pos hon]
          exact scheduleIfFree_mono hle hut
        · rename_i hoff
          rwa [if_neg hoff]
  | timerBegin y =>
      simp only [handle, timerBegin, Option.map_eq_some_iff] at h ⊢
      obtain ⟨u, hu, hut⟩ := h
      refine ⟨u, ?_, hut⟩
      split at hu
      · rename_i hreset
        rw [if_pos hreset]
        exact trySchedule_mono hle hu
      · rename_i hkept
        rwa [if_neg hkept]
  | timerEnd y timedOut => exact h
  | annotated id memory core => exact h

/-- The state after a handler does not depend on the fuel with which it returned. -/
theorem handle_unique {e : Event} {t' : Sched} (h : handle cfg env n e s = some t)
    (h' : handle cfg env m e s = some t') : t = t' := by
  have hmax := handle_mono (le_max_left n m) h
  rw [handle_mono (le_max_right n m) h'] at hmax
  exact (Option.some.inj hmax).symm

end XpuShare
