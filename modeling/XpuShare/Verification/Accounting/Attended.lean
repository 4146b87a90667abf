import XpuShare.Verification.Accounting.Blocks
import XpuShare.Verification.Isolation.Correctness
import XpuShare.Verification.Serial.Handlers

/-! # The lock flag and the run flags

While the scheduler stays on and nobody asks twice, `lock_held` says whether anybody runs
and `is_running` is set in the record of every client that does, whatever memory the clients
report and whatever their records held before they registered. -/

namespace XpuShare

variable {cfg : Config} {env : Env} {x : CtxId} {s t : Sched} {c : ClientId}

/-- The flags of every context agree with its running list. -/
structure Attended (s : Sched) : Prop where
  on : s.schedulerOn = true
  single : SingleEntries s
  lock : ∀ x, (s.ctx x).lockHeld = true ↔ (s.ctx x).runningList ≠ []
  flags : ∀ x, ∀ c ∈ (s.ctx x).runningList, (s.client c).isRunning = true

theorem Attended.init : Attended Sched.init where
  on := rfl
  single := SingleEntries.init
  lock x := by simp [Sched.init]
  flags x c hc := by simp [Sched.init] at hc

theorem Polite.fresh {e : Event} (h : Polite s e) : FreshRequest s e := by
  unfold FreshRequest
  split
  · rename_i c
    intro _ x hx
    have hnew := h x hx
    exact ⟨fun hw => hnew (mem_entries_of_waitQueue hw),
      fun hr => hnew (mem_entries_of_running hr)⟩
  · trivial

/-! ## Blocks -/

theorem Block.attended {D : Exits} (h : Block cfg env D x s t) (hwf : WellFormed s)
    (hs : Attended s) : Attended t := by
  have hlocal := h.local (hwf.belongs x)
  have hblock := h
  have hset : ∀ {table : LockTable ClientId} {lock : Bool} {memory : ℕ} {run : ClientId → Bool}
      {clients : List ClientId} {sent : List Sent},
      Effect x s t table lock memory run clients sent → (lock = true ↔ table.running ≠ []) →
      (∀ c ∈ table.running, run c = true) → Attended t := by
    intro table lock memory run clients sent heff hlock hflags
    have hrunning : (t.ctx x).runningList = table.running :=
      congrArg LockTable.running heff.table_eq
    refine ⟨hlocal.schedulerOn.trans hs.on, hblock.singleEntries hs.single, fun y => ?_,
      fun y c hc => ?_⟩
    · by_cases hy : y = x
      · rw [hy, heff.lock_eq, hrunning]
        exact hlock
      · rw [hlocal.ctx_ne y hy]
        exact hs.lock y
    · by_cases hy : y = x
      · rw [hy, hrunning] at hc
        rw [heff.run_eq]
        exact hflags c hc
      · rw [hlocal.ctx_ne y hy] at hc
        have hctx := hwf.belongs y c (mem_entries_of_running hc)
        rw [hlocal.client c (by rw [hctx]; exact fun he => hy (Option.some.inj he))]
        exact hs.flags y c hc
  have hnodup : (s.ctx x).runningList.Nodup :=
    (hs.single x).sublist (List.sublist_append_right _ _)
  cases h with
  | window => exact hset (freshWindow_effect cfg env x s) (hs.lock x) (hs.flags x)
  | defer c rest hreq hno hwait =>
      exact hset (moveToWaitQueue_effect env hwait) (hs.lock x) (hs.flags x)
  | promote front c back hwait hok =>
      exact hset (promote_effect env x front c back s) (hs.lock x) (hs.flags x)
  | grant c rest hreq hok hsend =>
      have hc : c ∈ (s.ctx x).entries := mem_entries_of_requests (by simp [hreq])
      refine hset (grantSent_effect env hc) (by simp [LockTable.enter]) fun d hd => ?_
      rw [Function.update_apply]
      split
      · rfl
      · rename_i hdc
        have hd' : d ∈ (s.ctx x).runningList := by
          simpa [LockTable.enter, GpuContext.table, hdc] using hd
        exact hs.flags x d hd'
  | refuse c rest hreq hok hsend hD =>
      exact hset (sendMessage_effect env x c _ s) (hs.lock x) (hs.flags x)
  | leave c hD =>
      by_cases hc : c ∈ (s.ctx x).runningList
      · have hheld : (s.ctx x).lockHeld = true := (hs.lock x).mpr (List.ne_nil_of_mem hc)
        refine hset (leaveRunning_effect cfg env hc) ?_ fun d hd => ?_
        · simp [lockAfter, hheld, LockTable.release, GpuContext.table]
        · have hd' : d ∈ (s.ctx x).runningList.erase c := hd
          have hdc : d ≠ c := by
            rintro rfl
            exact hnodup.not_mem_erase hd'
          rw [Function.update_of_ne hdc]
          exact hs.flags x d (List.mem_of_mem_erase hd')
      · have hlock := hs.lock x
        rw [leaveRunning_of_notMem cfg env hc] at hset ⊢
        refine hset (clearLock_effect x s) ?_ (hs.flags x)
        simp only [clearedLock, Bool.and_eq_true, Bool.not_eq_true', List.isEmpty_eq_false_iff,
          GpuContext.table]
        tauto
  | withdraw c hD => exact hset (dropPending_effect x c s) (hs.lock x) (hs.flags x)
  | unlink c hD hctx hgone => exact ⟨hs.on, hs.single, hs.lock, hs.flags⟩

/-! ## Actions and runs -/

theorem Attended.enrol {m : RegisterMsg} {e : RegisterEnv} (hs : Attended s)
    (hwf : WellFormed s) (hnone : (s.client c).context = none)
    (hsingle : SingleEntries (enrol cfg c m e s)) : Attended (enrol cfg c m e s) := by
  obtain ⟨x, hclient, -, -, -, -, hon, -, hctx⟩ := enrol_spec cfg c m e s
  generalize XpuShare.enrol cfg c m e s = t at hclient hon hctx hsingle ⊢
  have hflags : ∀ y, ∀ d ∈ (s.ctx y).runningList, (t.client d).isRunning = true := by
    intro y d hd
    have hdc : d ≠ c := by
      rintro rfl
      exact hwf.notMem_entries hnone y (mem_entries_of_running hd)
    rw [hclient, Function.update_of_ne hdc]
    exact hs.flags y d hd
  refine ⟨hon.trans hs.on, hsingle, fun y => ?_, fun y d hd => ?_⟩
  · rcases hctx with ⟨-, hctx⟩ | ⟨-, hctx⟩
    · rw [hctx]
      exact hs.lock y
    · rw [hctx, Function.update_apply]
      split
      · simp
      · exact hs.lock y
  · rcases hctx with ⟨-, hctx⟩ | ⟨-, hctx⟩
    · rw [hctx] at hd
      exact hflags y d hd
    · rw [hctx, Function.update_apply] at hd
      split at hd
      · cases hd
      · exact hflags y d hd

theorem Action.attended {D : ClientId → Prop} (h : Action cfg env D Polite s t)
    (hwf : WellFormed s) (hs : Attended s) : Attended t := by
  have hsingle : SingleEntries t := (h.mono fun _ _ hok => hok.fresh).singleEntries hs.single
  cases h with
  | block x h => exact h.attended hwf hs
  | tune h =>
      refine ⟨h.schedulerOn.trans hs.on, hsingle, fun y => ?_, fun y c hc => ?_⟩
      · rw [lockHeld_of_core (h.ctx y), h.runningList]
        exact hs.lock y
      · rw [h.runningList] at hc
        rw [isRunning_of_core (h.client c)]
        exact hs.flags y c hc
  | accept garbage hok =>
      refine ⟨hs.on, hsingle, hs.lock, fun y c hc => ?_⟩
      have hne : c ≠ s.nalloc := by
        rintro rfl
        exact hwf.notMem_entries (hwf.fresh _ le_rfl) y (mem_entries_of_running hc)
      rw [accept_client_of_ne garbage hne]
      exact hs.flags y c hc
  | enrol c m e hok hmem hunreg hid => exact hs.enrol hwf (hwf.context_eq_none hunreg) hsingle
  | insert c x hok hmem hon hctx hreq =>
      refine ⟨hs.on, hsingle, fun y => ?_, fun y d hd => ?_⟩
      · rw [Sched.modifyCtx_ctx]
        split
        · exact hs.lock x
        · exact hs.lock y
      · rw [Sched.modifyCtx_ctx] at hd
        split at hd
        · exact hs.flags x d hd
        · exact hs.flags y d hd
  | memory c x v hok hmem hctx =>
      have htable := creditMemory_table cfg x c v s
      have hlock : ∀ y, ((creditMemory cfg x c v s).ctx y).lockHeld = (s.ctx y).lockHeld := by
        intro y
        obtain ⟨usage, peak, overloaded, h⟩ := creditMemory_spec cfg x c v s
        rw [h, Sched.modifyCtx_ctx]
        split
        · rename_i hy
          rw [hy]
          rfl
        · rfl
      refine ⟨?_, hsingle, fun y => ?_, fun y d hd => ?_⟩
      · obtain ⟨usage, peak, overloaded, h⟩ := creditMemory_spec cfg x c v s
        rw [h]
        exact hs.on
      · rw [hlock y, show ((creditMemory cfg x c v s).ctx y).runningList = _ from
          congrArg LockTable.running (htable y)]
        exact hs.lock y
      · rw [show ((creditMemory cfg x c v s).ctx y).runningList = _ from
          congrArg LockTable.running (htable y)] at hd
        rw [creditMemory_client, storeMemory_field Client.isRunning fun _ _ _ => rfl]
        exact hs.flags y d hd
  | unlink c hctx => exact ⟨hs.on, hsingle, hs.lock, hs.flags⟩
  | power on c hok =>
      cases on with
      | true => exact ⟨rfl, hsingle, hs.lock, hs.flags⟩
      | false => exact False.elim hok
  | clear s₀ c hok => exact False.elim hok

theorem attended_of_reaches
    (h : Transition.Reaches (Transition.guarded (Step cfg env) Polite) Sched.init s) :
    Attended s :=
  invariant_of_any_actions (I := Attended) (fun _ _ ha hwf hs => ha.attended hwf hs)
    Attended.init h

end XpuShare
