import XpuShare.Verification.Scheduler.Moves
import XpuShare.Verification.Scheduler.Runs

/-! # One entry per client

`insert_req` looks for an earlier request of the client in `requests` only. A client that
asks again while it waits or runs is entered a second time; a client that does not is never
entered twice, whatever else happens. -/

namespace XpuShare

variable {cfg : Config} {env : Env}

/-- Nobody asks for the lock while standing in the wait queue or the running list. -/
def FreshRequest (s : Sched) : Event → Prop
  | .message c .reqLock => s.schedulerOn = true → ∀ x ∈ (s.client c).context,
      c ∉ (s.ctx x).waitQueue ∧ c ∉ (s.ctx x).runningList
  | _ => True

instance (s : Sched) : DecidablePred (FreshRequest s)
  | .message _ .reqLock => inferInstanceAs (Decidable (_ → _))
  | .message _ (.register _ _) | .message _ .schedOn | .message _ .schedOff
  | .message _ (.setTq _) | .message _ .lockReleased | .message _ (.memUpdate _)
  | .message _ .unknown | .accept _ | .disconnect _ | .timerBegin _ | .timerEnd _ _
  | .annotated _ _ _ => inferInstanceAs (Decidable True)

/-- No client stands twice in the queues of a context. -/
def SingleEntries (s : Sched) : Prop := ∀ x, (s.ctx x).entries.Nodup

/-- A pending client does not run. -/
theorem notMem_running_of_pending {c : ClientId} {g : GpuContext} (hnodup : g.entries.Nodup)
    (hc : c ∈ g.pending) : c ∉ g.runningList :=
  fun hrun => List.disjoint_of_nodup_append hnodup hc hrun

theorem SingleEntries.running {s : Sched} (h : SingleEntries s) (x : CtxId) :
    (s.ctx x).runningList.Nodup :=
  (h x).sublist (List.sublist_append_right _ _)

theorem SingleEntries.init : SingleEntries Sched.init := by
  intro x
  exact List.nodup_nil

/-! ## Blocks -/

section Block

variable {D : Exits} {x : CtxId} {s t : Sched}

theorem entries_eq_of_table {g : GpuContext} {table : LockTable ClientId}
    (h : g.table = table) : g.entries = table.entries :=
  congrArg LockTable.entries h

/-- Every block permutes the entries of its context or drops some. -/
theorem Block.entries_subperm (h : Block cfg env D x s t) :
    (t.ctx x).entries.Subperm (s.ctx x).entries := by
  cases h with
  | window =>
      rw [entries_of_table (freshWindow_effect cfg env x s).table_eq]
  | defer c rest hreq hno hwait =>
      have hc : c ∈ (s.ctx x).table.requests := by simp [GpuContext.table, hreq]
      rw [entries_eq_of_table (moveToWaitQueue_effect env hwait).table_eq]
      exact (LockTable.defer_entries_perm hc).subperm
  | promote front c back hwait hok =>
      rw [entries_eq_of_table (promote_effect env x front c back s).table_eq]
      exact (LockTable.promote_entries_perm (t := (s.ctx x).table) hwait).subperm
  | grant c rest hreq hok hsend =>
      have hc : c ∈ (s.ctx x).table.requests := by simp [GpuContext.table, hreq]
      rw [entries_eq_of_table (grantSent_effect env (mem_entries_of_requests hc)).table_eq]
      exact (LockTable.enter_entries_perm hc).subperm
  | refuse c rest hreq hok hsend hD => exact List.Subperm.refl _
  | leave c hD =>
      by_cases hc : c ∈ (s.ctx x).runningList
      · rw [entries_eq_of_table (leaveRunning_effect cfg env hc).table_eq]
        exact LockTable.release_entries_sublist.subperm
      · rw [leaveRunning_of_notMem cfg env hc,
          entries_of_table (clearLock_effect x s).table_eq]
  | withdraw c hD =>
      rw [entries_eq_of_table (dropPending_effect x c s).table_eq]
      exact LockTable.withdraw_entries_sublist.subperm
  | unlink c hD hctx => exact List.Subperm.refl _

theorem Block.singleEntries (h : Block cfg env D x s t) (hs : SingleEntries s) :
    SingleEntries t := by
  intro y
  by_cases hy : y = x
  · subst hy
    obtain ⟨l, hperm, hsub⟩ := h.entries_subperm
    exact hperm.nodup_iff.mp ((hs y).sublist hsub)
  · rw [h.frame.ctx_ne y hy]
    exact hs y

end Block

/-! ## Actions and runs -/

theorem Action.singleEntries {D : ClientId → Prop} {s t : Sched}
    (h : Action cfg env D FreshRequest s t) (hs : SingleEntries s) : SingleEntries t := by
  cases h with
  | block x h => exact h.singleEntries hs
  | tune h =>
      intro x
      rw [entries_of_table (table_of_core (h.ctx x))]
      exact hs x
  | accept garbage hok => exact hs
  | enrol c m e hok hmem hunreg hid =>
      intro y
      obtain ⟨x, -, -, -, -, -, -, -, hctx⟩ := enrol_spec cfg c m e s
      rcases hctx with ⟨-, hctx⟩ | ⟨-, hctx⟩
      · rw [hctx]
        exact hs y
      · rw [hctx, Function.update_apply]
        split
        · exact List.nodup_nil
        · exact hs y
  | insert c x hok hmem hon hctx hreq =>
      intro y
      by_cases hy : y = x
      · subst hy
        obtain ⟨hwait, hrun⟩ := hok hon y hctx
        have hperm := LockTable.arrive_entries_perm (t := (s.ctx y).table) (a := c)
        have hnew : c ∉ (s.ctx y).table.entries := by
          rw [LockTable.mem_entries]
          rintro (hc | hc | hc)
          · exact hreq hc
          · exact hwait hc
          · exact hrun hc
        have hnodup : ((s.ctx y).table.arrive c).entries.Nodup :=
          hperm.nodup_iff.mpr (List.nodup_cons.mpr ⟨hnew, hs y⟩)
        rw [Sched.modifyCtx_ctx_self]
        exact hnodup
      · rw [Sched.modifyCtx_ctx_ne _ _ _ _ hy]
        exact hs y
  | memory c x v hok hmem hctx =>
      intro y
      rw [entries_of_table (creditMemory_table cfg x c v s y)]
      exact hs y
  | unlink c hctx => exact hs
  | power on c hok => exact hs
  | clear s₀ c hok =>
      intro y
      simp only [clearRequests]
      split
      · refine (hs y).sublist ?_
        exact (List.nil_sublist _ |>.append (List.Sublist.refl _)).append (List.Sublist.refl _)
      · exact hs y

theorem singleEntries_of_reaches {s : Sched}
    (h : Transition.Reaches (Transition.guarded (Step cfg env) FreshRequest) Sched.init s) :
    SingleEntries s :=
  invariant_of_any_actions (I := SingleEntries) (fun _ _ ha _ hs => ha.singleEntries hs)
    SingleEntries.init h

/-- In a run in which nobody asks for the lock while waiting or running, every client has
at most one entry over the three queues of its context. -/
theorem one_entry_per_client {s : Sched}
    (h : Transition.Reaches (Transition.guarded (Step cfg env) FreshRequest) Sched.init s)
    (c : ClientId) (x : CtxId) : (s.ctx x).entries.count c ≤ 1 :=
  List.nodup_iff_count_le_one.mp (singleEntries_of_reaches h x) c

theorem one_entry_per_client_two_requests :
    ∃ s, Transition.Reaches (Transition.guarded (Step {} steady) FreshRequest) Sched.init s ∧
      (s.ctx 0).runningList = [0, 1] ∧ ∀ c, (s.ctx 0).entries.count c ≤ 1 := by
  obtain ⟨s, hs, hrun⟩ := exists_reaches {} steady FreshRequest 9
    [.accept {}, .accept {}, enter 0 1, enter 1 2, .message 0 .reqLock, .message 1 .reqLock]
    (fun s => (s.ctx 0).runningList = [0, 1]) (by decide +kernel)
  exact ⟨s, hs, hrun, fun c => one_entry_per_client hs c 0⟩

/-- A client that asks again while it runs is entered in the running list twice. -/
theorem repeated_request_entered_twice :
    ¬ ∀ (cfg : Config) (env : Env) (s : Sched), env.AllSent →
      Transition.Reaches (Step cfg env) Sched.init s →
      ∀ c x, (s.client c).context = some x → (s.ctx x).entries.count c ≤ 1 := by
  intro h
  obtain ⟨s, hs, hctx, hcount⟩ := exists_reaches {} steady (fun _ _ => True) 9
    [.accept {}, enter 0 1, .message 0 .reqLock, .message 0 .reqLock]
    (fun s => (s.client 0).context = some 0 ∧ (s.ctx 0).entries.count 0 = 2) (by decide +kernel)
  have hle := h {} steady s steady_allSent (hs.mono fun _ _ _ hstep => hstep.2) 0 0 hctx
  omega

end XpuShare
