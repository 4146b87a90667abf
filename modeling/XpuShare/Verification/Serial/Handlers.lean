import XpuShare.Verification.Isolation.Correctness
import XpuShare.Verification.Serial.Scheduling

/-! # The line in serial mode

Every event moves the line of a context in one of two ways: the lock goes to the first
client in line, or clients leave the line and nobody is granted anything. -/

namespace XpuShare

variable {cfg : Config} {env : Env} {x y : CtxId} {s t u : Sched} {c : ClientId}

/-- What serial mode guarantees about a context between two events. -/
structure SerialOk (x : CtxId) (s : Sched) : Prop where
  on : s.schedulerOn = true
  nodup : (s.ctx x).entries.Nodup
  lock : (s.ctx x).lockHeld = true ↔ (s.ctx x).runningList ≠ []
  busy : (s.ctx x).pending ≠ [] → (s.ctx x).runningList ≠ []

/-- A step that finds the clients `l` in line, in this order. Those in `granted` are sent
LOCK_OK, and only the clients that `leaving` describes give up their place. -/
structure Service (x : CtxId) (s t : Sched) (l : List ClientId) (leaving : ClientId → Prop)
    (granted : List ClientId) : Prop where
  serial : SerialOk x t
  sent : ∃ new, t.out = s.out ++ new ∧
    ∀ d, (s.client d).context = some x → (d ∈ grants new ↔ d ∈ granted)
  order : (granted = [] ∧ (t.ctx x).line.Sublist l) ∨
    ∃ d, granted = [d] ∧ l = d :: (t.ctx x).line
  stays : ∀ d ∈ l, leaving d ∨ d ∈ granted ∨ d ∈ (t.ctx x).line

theorem mem_line_iff {g : GpuContext} : c ∈ g.line ↔ c ∈ g.pending := by
  simp [GpuContext.line, GpuContext.pending, or_comm]

theorem line_of_table {g : GpuContext} {table : LockTable ClientId} (h : g.table = table) :
    g.line = table.waiting ++ table.requests := by
  subst h
  rfl

theorem pending_eq_nil_iff {g : GpuContext} : g.pending = [] ↔ g.line = [] := by
  simp [GpuContext.line, GpuContext.pending, and_comm]

theorem mem_grants {sent : List Sent} :
    c ∈ grants sent ↔ ∃ m ∈ sent, m.msg = .lockOk ∧ m.dest = c := by
  simp [grants]

theorem grants_eq_nil {sent : List Sent} (h : ∀ m ∈ sent, m.msg ≠ .lockOk) :
    grants sent = [] := by
  refine List.eq_nil_iff_forall_not_mem.mpr fun c hc => ?_
  obtain ⟨m, hm, hmsg, -⟩ := mem_grants.mp hc
  exact h m hm hmsg

/-! ## Changes outside the lock tables -/

theorem SerialOk.tuned (hs : SerialOk x s) (h : Tuned s t) : SerialOk x t := by
  have htable := table_of_core (h.ctx x)
  have hlock := lockHeld_of_core (h.ctx x)
  have hrun : (t.ctx x).runningList = (s.ctx x).runningList := congrArg LockTable.running htable
  have hpending : (t.ctx x).pending = (s.ctx x).pending :=
    congrArg (fun table : LockTable ClientId => table.requests ++ table.waiting) htable
  refine ⟨h.schedulerOn.trans hs.on, ?_, ?_, ?_⟩
  · rw [entries_of_table htable]
    exact hs.nodup
  · rw [hlock, hrun]
    exact hs.lock
  · rw [hpending, hrun]
    exact hs.busy

theorem Service.tuned {l granted : List ClientId} {leaving : ClientId → Prop}
    (h : Service x s t l leaving granted) (h' : Tuned t u) :
    Service x s u l leaving granted := by
  have hline : (u.ctx x).line = (t.ctx x).line :=
    congrArg (fun table : LockTable ClientId => table.waiting ++ table.requests)
      (table_of_core (h'.ctx x))
  obtain ⟨new, hnew, hgrants⟩ := h.sent
  obtain ⟨new', hnew', hmsg⟩ := h'.sent
  refine ⟨h.serial.tuned h', ⟨new ++ new', ?_, ?_⟩, ?_, ?_⟩
  · rw [hnew', hnew, List.append_assoc]
  · intro d hd
    rw [grants_append, grants_eq_nil fun m hm => (hmsg m hm).1, List.append_nil]
    exact hgrants d hd
  · rw [hline]
    exact h.order
  · rw [hline]
    exact h.stays

/-- A step that leaves the context alone and grants nothing on it. -/
theorem Service.idle {leaving : ClientId → Prop} {new : List Sent} (hs : SerialOk x s)
    (hon : t.schedulerOn = s.schedulerOn) (hctx : t.ctx x = s.ctx x)
    (hout : t.out = s.out ++ new)
    (hnew : ∀ d, (s.client d).context = some x → d ∉ grants new) :
    Service x s t (s.ctx x).line leaving [] where
  serial := by
    refine ⟨hon.trans hs.on, ?_, ?_, ?_⟩ <;> rw [hctx]
    exacts [hs.nodup, hs.lock, hs.busy]
  sent := ⟨new, hout, fun d hd => by simp [hnew d hd]⟩
  order := Or.inl ⟨rfl, by rw [hctx]⟩
  stays d hd := Or.inr (Or.inr (hctx ▸ hd))

theorem Service.refl {leaving : ClientId → Prop} (hs : SerialOk x s) :
    Service x s s (s.ctx x).line leaving [] :=
  Service.idle hs rfl rfl (List.append_nil _).symm fun _ _ => by simp [grants]

theorem Service.line_subset {l granted : List ClientId} {leaving : ClientId → Prop}
    (h : Service x s t l leaving granted) : (t.ctx x).line ⊆ l := by
  rcases h.order with ⟨-, hsub⟩ | ⟨d, -, rfl⟩
  · exact hsub.subset
  · exact List.subset_cons_self d _

/-- Part of a scheduling call that grants nothing, before the rest of it. -/
theorem Service.of_turn {l granted : List ClientId} {leaving : ClientId → Prop}
    {table : LockTable ClientId} {lock : Bool} (h : Service x t u l leaving granted)
    (hturn : Turn x s t table lock []) : Service x s u l leaving granted := by
  obtain ⟨new, hnew, hnone⟩ := hturn.sent
  obtain ⟨new', hnew', hgrants⟩ := h.sent
  refine ⟨h.serial, ⟨new ++ new', ?_, ?_⟩, h.order, h.stays⟩
  · rw [hnew', hnew, List.append_assoc]
  · intro d hd
    rw [grants_append, hnone, List.nil_append]
    refine hgrants d ?_
    rw [context_of_static (hturn.static d), hd]

/-! ## Scheduling calls -/

theorem inLine_of_serialOk (hwf : WellFormed s) (hlinked : Linked s) (hs : SerialOk x s)
    (hunlimited : Unlimited x s) : InLine x s where
  belongs := hwf.belongs x
  nodup := hs.nodup
  unlimited c hc := hunlimited c (hlinked x c hc)
    (hwf.belongs x c (mem_entries_iff.mpr (Or.inl hc)))

/-- A table with a runner and the lock held. -/
theorem SerialOk.of_turn {table : LockTable ClientId} {granted : List ClientId}
    (hon : s.schedulerOn = true) (h : Turn x s t table true granted)
    (hnodup : table.entries.Nodup) (hrun : table.running ≠ []) : SerialOk x t := by
  have hrunning : (t.ctx x).runningList ≠ [] := by
    rw [show (t.ctx x).runningList = table.running from congrArg LockTable.running h.table_eq]
    exact hrun
  refine ⟨h.schedulerOn.trans hon, ?_, ?_, fun _ => hrunning⟩
  · rw [entries_eq_of_table h.table_eq]
    exact hnodup
  · simp [h.lock_eq, hrunning]

theorem scheduleIfFree_serial {n : ℕ} (hs : SerialOk x s)
    (h : scheduleIfFree cfg env n x s = some t) : t = s := by
  unfold scheduleIfFree at h
  split at h
  · exact (Option.some.inj h).symm
  · rename_i hfree
    have hrun : (s.ctx x).runningList = [] := by
      by_contra hne
      exact hfree (hs.lock.mpr hne)
    have hpending : (s.ctx x).pending = [] := by
      by_contra hne
      exact hs.busy hne hrun
    exact trySchedule_idle hpending h

/-- Leaving the running list frees the lock when nobody else runs. -/
theorem leaveRunning_turn (cfg : Config) (env : Env) (hs : SerialOk x s) (c : ClientId) :
    ∃ lock, Turn x s (leaveRunning cfg env x c s) ((s.ctx x).table.release c) lock [] ∧
      (lock = true ↔ (s.ctx x).runningList.erase c ≠ []) := by
  by_cases hc : c ∈ (s.ctx x).runningList
  · refine ⟨_, (leaveRunning_effect cfg env hc).turn, ?_⟩
    have hheld : (s.ctx x).lockHeld = true := hs.lock.mpr (List.ne_nil_of_mem hc)
    simp [lockAfter, hheld]
  · have herase : (s.ctx x).runningList.erase c = (s.ctx x).runningList :=
      List.erase_of_not_mem hc
    have htable : (s.ctx x).table.release c = (s.ctx x).table := by
      rw [LockTable.release, show (s.ctx x).table.running.erase c = _ from herase]
      rfl
    rw [leaveRunning_of_notMem cfg env hc, htable, herase]
    refine ⟨_, (clearLock_effect x s).turn, ?_⟩
    rw [clearedLock, Bool.and_eq_true, hs.lock]
    simp

theorem InLine.release {lock : Bool} (hs : InLine x s)
    (h : Turn x s t ((s.ctx x).table.release c) lock []) : InLine x t :=
  hs.turn h LockTable.release_entries_sublist.subperm
    fun _ hd => (mem_pending_of_table rfl).mpr hd

theorem dropPending_of_notMem (h : c ∉ (s.ctx x).pending) : dropPending x c s = s := by
  have hfilter : ∀ l : List ClientId, c ∉ l → l.filter (· ≠ c) = l := by
    intro l hl
    refine List.filter_eq_self.mpr fun d hd => ?_
    simpa using fun he : d = c => hl (he ▸ hd)
  have hreq := hfilter _ fun hc => h (List.mem_append_left _ hc)
  have hwait := hfilter _ fun hc => h (List.mem_append_right _ hc)
  have hctx : (s.ctx x).requests.filter (· ≠ c) = (s.ctx x).requests := hreq
  rw [dropPending, Sched.modifyCtx, hreq, hwait, Function.update_eq_self]

section Serial

variable (hserial : cfg.schedulingMode = .serial) (hsent : env.AllSent)

include hserial

/-- `try_schedule` on a context between two events leaves its line as it is. -/
theorem trySchedule_service {n : ℕ} {leaving : ClientId → Prop} (hs : SerialOk x s)
    (hline : InLine x s) (h : trySchedule cfg env n x s = some t) :
    Service x s t (s.ctx x).line leaving [] := by
  by_cases hrun : (s.ctx x).runningList = []
  · have hpending : (s.ctx x).pending = [] := by
      by_contra hne
      exact hs.busy hne hrun
    rw [trySchedule_idle hpending h]
    exact Service.refl hs
  · have hturn := trySchedule_held hserial hline (hs.lock.mpr hrun) h
    have hnodup : (LockTable.mk [] (s.ctx x).line (s.ctx x).runningList).entries.Nodup := by
      refine List.Perm.nodup ?_ hs.nodup
      exact (List.perm_append_comm).append_right _
    have htline : (t.ctx x).line = (s.ctx x).line := by
      rw [line_of_table hturn.table_eq, List.append_nil]
    obtain ⟨new, hnew, hgrants⟩ := hturn.sent
    refine ⟨SerialOk.of_turn hs.on hturn hnodup hrun, ⟨new, hnew, ?_⟩, ?_, ?_⟩
    · intro d _
      rw [hgrants]
    · exact Or.inl ⟨rfl, by rw [htline]⟩
    · intro d hd
      exact Or.inr (Or.inr (htline ▸ hd))

include hsent

/-- Handing on a lock that has become free. -/
theorem reschedule_service {n : ℕ} {leaving : ClientId → Prop} (hon : s.schedulerOn = true)
    (hline : InLine x s) (hfree : (s.ctx x).lockHeld = false)
    (hrun : (s.ctx x).runningList = [])
    (h : trySchedule cfg env n x (checkWaitQueue cfg env x s) = some t) :
    ∃ granted, Service x s t (s.ctx x).line leaving granted := by
  rcases reschedule_free hserial hsent hline hfree h with ⟨hnil, rfl⟩ | hgrant
  · have hok : SerialOk x t := by
      refine ⟨hon, hline.nodup, by simp [hfree, hrun], fun hne => ?_⟩
      exact absurd (pending_eq_nil_iff.mpr hnil) hne
    exact ⟨[], Service.refl hok⟩
  · obtain ⟨c, requests, waiting, hcons, hturn⟩ := hgrant
    have hnodup : (LockTable.mk requests waiting ((s.ctx x).runningList ++ [c])).entries.Nodup := by
      have hperm : (s.ctx x).line.Perm (s.ctx x).pending := List.perm_append_comm
      have hpending : (s.ctx x).pending.Nodup := (List.nodup_append.mp hline.nodup).1
      rw [← hperm.nodup_iff, hcons] at hpending
      refine List.Perm.nodup ?_ hpending
      rw [hrun, List.nil_append]
      refine (List.Perm.cons c List.perm_append_comm).trans ?_
      exact (List.perm_append_singleton c _).symm
    have htline : (t.ctx x).line = waiting ++ requests := line_of_table hturn.table_eq
    obtain ⟨new, hnew, hgrants⟩ := hturn.sent
    refine ⟨[c], SerialOk.of_turn hon hturn hnodup (by simp), ⟨new, hnew, ?_⟩, ?_, ?_⟩
    · intro d _
      rw [hgrants]
    · exact Or.inr ⟨c, rfl, by rw [hcons, htline]⟩
    · intro d hd
      rw [hcons] at hd
      rcases List.mem_cons.mp hd with rfl | hd
      · exact Or.inr (Or.inl (List.mem_singleton.mpr rfl))
      · exact Or.inr (Or.inr (htline ▸ hd))

/-- `remove_req` hands the lock on if nobody else runs, and lets go of the requests of the
client otherwise. -/
theorem removeReq_service {n : ℕ} (hs : SerialOk x s) (hline : InLine x s)
    (hctx : (s.client c).context = some x)
    (h : removeReq cfg env (trySchedule cfg env n) c s = some t) :
    ∃ granted, Service x s t (s.ctx x).line (· = c) granted := by
  obtain ⟨lock, hleave, hlock⟩ := leaveRunning_turn cfg env hs c
  generalize hleft : leaveRunning cfg env x c s = left at hleave
  have hrun : (left.ctx x).runningList = (s.ctx x).runningList.erase c :=
    congrArg LockTable.running hleave.table_eq
  have hleftLine : (left.ctx x).line = (s.ctx x).line := line_of_table hleave.table_eq
  simp only [removeReq, hctx, hleft] at h
  by_cases hempty : (left.ctx x).runningList = []
  · rw [if_pos hempty, Option.map_eq_some_iff] at h
    obtain ⟨mid, hmid, rfl⟩ := h
    have hfree : (left.ctx x).lockHeld = false := by
      rw [hleave.lock_eq, ← Bool.not_eq_true, hlock, ← hrun]
      simpa using hempty
    have hgone : c ∉ (s.ctx x).pending := by
      by_cases hc : c ∈ (s.ctx x).runningList
      · exact fun hp => List.disjoint_of_nodup_append hs.nodup hp hc
      · rw [hrun, List.erase_of_not_mem hc] at hempty
        intro hp
        exact hs.busy (List.ne_nil_of_mem hp) hempty
    have hmore : ∃ granted, Service x left mid (left.ctx x).line (· = c) granted :=
      reschedule_service hserial hsent (hleave.schedulerOn.trans hs.on) (hline.release hleave)
        hfree hempty hmid
    obtain ⟨granted, hserv⟩ := hmore
    rw [hleftLine] at hserv
    have hmidGone : c ∉ (mid.ctx x).pending := by
      rw [← mem_line_iff] at hgone ⊢
      exact fun hc => hgone (hserv.line_subset hc)
    rw [dropPending_of_notMem hmidGone]
    exact ⟨granted, hserv.of_turn hleave⟩
  · rw [if_neg hempty, Option.some.injEq] at h
    subst h
    have hheld : lock = true := by
      rw [hlock, ← hrun]
      exact hempty
    subst hheld
    have hsub : ((s.ctx x).table.release c).entries ⊆ (s.ctx x).entries :=
      LockTable.release_entries_sublist.subset
    have hturn := hleave.trans (dropPending_effect x c left).turn hsub
    rw [hleave.table_eq, hleave.lock_eq] at hturn
    have htline : ((dropPending x c left).ctx x).line = (s.ctx x).line.filter (· ≠ c) := by
      rw [line_of_table hturn.table_eq, GpuContext.line, List.filter_append]
      rfl
    obtain ⟨sent, hout, hgrants⟩ := hturn.sent
    have htable : (s.ctx x).table.entries.Nodup := hs.nodup
    have hnodup : (((s.ctx x).table.release c).withdraw c).entries.Nodup :=
      (htable.sublist LockTable.release_entries_sublist).sublist
        LockTable.withdraw_entries_sublist
    have hbusy : (((s.ctx x).table.release c).withdraw c).running ≠ [] := by
      rw [hrun] at hempty
      exact hempty
    refine ⟨[], SerialOk.of_turn hs.on hturn hnodup hbusy, ⟨sent, hout, ?_⟩, ?_, ?_⟩
    · intro d _
      rw [hgrants]
      rfl
    · exact Or.inl ⟨rfl, htline ▸ List.filter_sublist⟩
    · intro d hd
      by_cases hdc : d = c
      · exact Or.inl hdc
      · refine Or.inr (Or.inr ?_)
        rw [htline]
        exact List.mem_filter.mpr ⟨hd, by simpa using hdc⟩

/-! ## Events of the context -/

theorem reqLock_service {n : ℕ} (hwf : WellFormed s) (hlinked : Linked s) (hs : SerialOk x s)
    (hunlimited : Unlimited x s) (hmem : c ∈ s.clients) (hctx : (s.client c).context = some x)
    (hnew : c ∉ (s.ctx x).entries) (h : reqLock cfg env n c s = some t) :
    ∃ granted, Service x s t ((s.ctx x).line ++ [c]) (fun _ => False) granted := by
  have hreq : c ∉ (s.ctx x).requests := fun hc => hnew (mem_entries_of_requests hc)
  have hturn : Turn x s (insertReq c s) ((s.ctx x).table.arrive c) (s.ctx x).lockHeld [] := by
    rw [insertReq_of_notMem hctx hreq]
    refine ⟨⟨rfl, rfl, rfl, rfl, ?_, ?_, fun _ => rfl, fun _ _ _ => rfl⟩, rfl, ?_, ?_, ?_⟩
    · intro y hy
      exact Sched.modifyCtx_ctx_ne _ _ _ _ hy
    · simp [GpuContext.fixed]
    · simp [GpuContext.table, LockTable.arrive]
    · simp
    · exact ⟨[], by simp, rfl⟩
  have hnodup : ((s.ctx x).table.arrive c).entries.Nodup := by
    rw [LockTable.arrive_entries_perm.nodup_iff]
    exact List.nodup_cons.mpr ⟨hnew, hs.nodup⟩
  have hline : ((insertReq c s).ctx x).line = (s.ctx x).line ++ [c] := by
    rw [line_of_table hturn.table_eq, GpuContext.line, List.append_assoc]
    rfl
  have hrun : ((insertReq c s).ctx x).runningList = (s.ctx x).runningList :=
    congrArg LockTable.running hturn.table_eq
  have hinline : InLine x (insertReq c s) := by
    refine ⟨?_, ?_, ?_⟩
    · exact (hwf.belongs x).insertReq hctx
    · rw [entries_eq_of_table hturn.table_eq]
      exact hnodup
    · intro d hd
      rw [coreLimit_of_static (hturn.static d)]
      rw [← mem_line_iff, hline] at hd
      rcases List.mem_append.mp hd with hd | hd
      · exact (inLine_of_serialOk hwf hlinked hs hunlimited).unlimited d (mem_line_iff.mp hd)
      · rw [List.mem_singleton.mp hd]
        exact hunlimited c hmem hctx
  simp only [reqLock, hctx] at h
  generalize insertReq c s = queued at *
  cases hheld : (s.ctx x).lockHeld with
  | true =>
      rw [hheld] at hturn
      rw [if_pos ⟨hserial, hturn.lock_eq⟩, Option.some.injEq] at h
      subst h
      have hok := SerialOk.of_turn hs.on hturn hnodup (hs.lock.mp hheld)
      have hserv : Service x queued queued (queued.ctx x).line (fun _ => False) [] :=
        Service.refl hok
      rw [hline] at hserv
      exact ⟨[], hserv.of_turn hturn⟩
  | false =>
      have hfree : (queued.ctx x).lockHeld = false := by rw [hturn.lock_eq, hheld]
      have hidle : (s.ctx x).runningList = [] := by
        by_contra hne
        simp [hs.lock.mpr hne] at hheld
      have hnil : (s.ctx x).pending = [] := by
        by_contra hne
        exact hs.busy hne hidle
      have hwait : (queued.ctx x).waitQueue = [] :=
        (congrArg LockTable.waiting hturn.table_eq).trans (List.append_eq_nil_iff.mp hnil).2
      rw [if_neg (by simp [hfree]), ← checkWaitQueue_nil env hwait] at h
      have hmore : ∃ granted, Service x queued t (queued.ctx x).line (fun _ => False) granted :=
        reschedule_service hserial hsent (hturn.schedulerOn.trans hs.on) hinline hfree
          (hrun.trans hidle) h
      obtain ⟨granted, hserv⟩ := hmore
      rw [hline] at hserv
      exact ⟨granted, hserv.of_turn hturn⟩

theorem lockReleased_service {n : ℕ} (hs : SerialOk x s) (hline : InLine x s)
    (hctx : (s.client c).context = some x) (h : lockReleased cfg env n c s = some t) :
    ∃ granted, Service x s t (s.ctx x).line (· = c) granted := by
  simp only [lockReleased, hctx, Option.bind_eq_some_iff] at h
  obtain ⟨u, hu, hut⟩ := h
  obtain ⟨granted, hserv⟩ := removeReq_service hserial hsent hs hline hctx hu
  rw [scheduleIfFree_serial hserv.serial hut]
  exact ⟨granted, hserv⟩

theorem disconnect_service {n : ℕ} (hs : SerialOk x s) (hline : InLine x s)
    (hctx : (s.client c).context = some x) (h : disconnect cfg env n c s = some t) :
    (∃ granted, Service x s t (s.ctx x).line (· = c) granted) ∧ c ∉ t.clients := by
  simp only [disconnect, deleteClient, hctx, Option.bind_eq_some_iff] at h
  obtain ⟨u, ⟨mid, hmid, hunlink⟩, hut⟩ := h
  obtain ⟨granted, hserv⟩ := removeReq_service hserial hsent hs hline hctx hmid
  rw [unlinkClient_eq hunlink] at hut
  have hok : SerialOk x { mid with clients := mid.clients.filter (· ≠ c) } :=
    ⟨hserv.serial.on, hserv.serial.nodup, hserv.serial.lock, hserv.serial.busy⟩
  rw [if_pos hok.on] at hut
  rw [scheduleIfFree_serial hok hut]
  exact ⟨⟨granted, hok, hserv.sent, hserv.order, hserv.stays⟩, by simp⟩

omit hsent in
theorem timerBegin_service {n : ℕ} {leaving : ClientId → Prop} (hs : SerialOk x s)
    (hline : InLine x s) (h : timerBegin cfg env n x s = some t) :
    Service x s t (s.ctx x).line leaving [] := by
  have hfresh := (freshWindow_effect cfg env x s).turn
  have hfreshLine : ((freshWindow cfg env x s).ctx x).line = (s.ctx x).line :=
    line_of_table hfresh.table_eq
  have hok : SerialOk x (freshWindow cfg env x s) := by
    refine ⟨hfresh.schedulerOn.trans hs.on, (hline.fresh cfg env).nodup, ?_, ?_⟩
    · rw [freshWindow_lockHeld, freshWindow_runningList]
      exact hs.lock
    · rw [GpuContext.pending, freshWindow_requests, freshWindow_waitQueue,
        freshWindow_runningList]
      exact hs.busy
  simp only [timerBegin, checkAndResetWindow_snd, Option.map_eq_some_iff] at h
  obtain ⟨u, hu, rfl⟩ := h
  refine Service.tuned ?_ (timerSleep_tuned cfg env x u)
  rw [← hfreshLine]
  refine Service.of_turn ?_ hfresh
  split at hu
  · exact trySchedule_service hserial hok (hline.fresh cfg env) hu
  · rw [← Option.some.inj hu]
    exact Service.refl hok

end Serial

/-! ## Other events -/

/-- Storing a memory report and what follows from it leaves every lock table alone. -/
theorem memUpdate_service {v : ℕ} {leaving : ClientId → Prop} (hs : SerialOk x s) :
    Service x s (memUpdate cfg env c v s) (s.ctx x).line leaving [] := by
  have hcredit : ∀ y, Service x s (creditMemory cfg y c v s) (s.ctx x).line leaving [] := by
    intro y
    have htable := creditMemory_table cfg y c v s x
    have hline : ((creditMemory cfg y c v s).ctx x).line = (s.ctx x).line := line_of_table htable
    have hrun : ((creditMemory cfg y c v s).ctx x).runningList = (s.ctx x).runningList :=
      congrArg LockTable.running htable
    obtain ⟨usage, peak, overloaded, hspec⟩ := creditMemory_spec cfg y c v s
    have hlock : ((creditMemory cfg y c v s).ctx x).lockHeld = (s.ctx x).lockHeld := by
      rw [hspec, Sched.modifyCtx_ctx]
      split
      · rename_i hy
        rw [hy]
        rfl
      · rfl
    refine ⟨⟨by rw [hspec]; exact hs.on, ?_, ?_, ?_⟩, ⟨[], by rw [hspec]; simp [storeMemory], ?_⟩,
      ?_, ?_⟩
    · rw [entries_of_table htable]
      exact hs.nodup
    · rw [hlock, hrun]
      exact hs.lock
    · rw [Ne, pending_eq_nil_iff, hline, ← pending_eq_nil_iff, hrun]
      exact hs.busy
    · intro d _
      simp [grants]
    · exact Or.inl ⟨rfl, by rw [hline]⟩
    · intro d hd
      exact Or.inr (Or.inr (hline ▸ hd))
  unfold memUpdate
  split
  · exact Service.refl hs
  · rename_i y hctx
    have hthis := hcredit y
    unfold creditMemory at hthis
    split
    · exact Service.refl hs
    · simp only
      split
      · rename_i hrun
        rw [if_pos hrun] at hthis
        split
        · exact hthis.tuned (forcePreemption_tuned env y _)
        · exact hthis
      · rename_i hrun
        rw [if_neg hrun] at hthis
        exact hthis

/-- An event of another context. -/
theorem Local.service {leaving : ClientId → Prop} (h : Local y s t) (hne : x ≠ y)
    (hs : SerialOk x s) : Service x s t (s.ctx x).line leaving [] := by
  obtain ⟨new, hnew, hdest⟩ := h.sent
  refine Service.idle hs h.schedulerOn (h.ctx_ne x hne) hnew fun d hd hgrant => ?_
  obtain ⟨m, hm, -, rfl⟩ := mem_grants.mp hgrant
  rw [hdest m hm] at hd
  exact hne (Option.some.inj hd).symm

/-- A change outside the lock tables. -/
theorem Tuned.service {leaving : ClientId → Prop} (h : Tuned s t) (hs : SerialOk x s) :
    Service x s t (s.ctx x).line leaving [] :=
  (Service.refl hs).tuned h

/-- A context that has just been created has nobody in line, as before. -/
theorem Service.created {leaving : ClientId → Prop} (hwf : WellFormed s)
    (hs : SerialOk s.nctx s) (hon : t.schedulerOn = s.schedulerOn)
    (htable : (t.ctx s.nctx).table = ⟨[], [], []⟩) (hlock : (t.ctx s.nctx).lockHeld = false)
    (hout : t.out = s.out ++ []) :
    Service s.nctx s t (s.ctx s.nctx).line leaving [] := by
  have hempty : (s.ctx s.nctx).line = [] := by
    refine List.eq_nil_iff_forall_not_mem.mpr fun d hd => ?_
    have hctx := hwf.belongs s.nctx d (mem_entries_iff.mpr (Or.inl (mem_line_iff.mp hd)))
    exact absurd (hwf.context_lt d _ hctx) (lt_irrefl _)
  have hline : (t.ctx s.nctx).line = [] := line_of_table htable
  have hrun : (t.ctx s.nctx).runningList = [] := congrArg LockTable.running htable
  refine ⟨⟨hon.trans hs.on, ?_, by simp [hlock, hrun], ?_⟩, ⟨[], hout, ?_⟩, ?_, ?_⟩
  · rw [entries_eq_of_table htable]
    exact List.nodup_nil
  · intro hne
    exact absurd (pending_eq_nil_iff.mpr hline) hne
  · intro d _
    simp [grants]
  · exact Or.inl ⟨rfl, by rw [hline, hempty]⟩
  · intro d hd
    rw [hempty] at hd
    cases hd

theorem register_service {m : RegisterMsg} {e : RegisterEnv} {leaving : ClientId → Prop}
    {n : ℕ} (hsent : env.AllSent) (hwf : WellFormed s) (hs : SerialOk x s)
    (hunreg : hasRegistered s c = false)
    (h : processMsg cfg env n c (.register m e) s = some t) :
    Service x s t (s.ctx x).line leaving [] := by
  have henrol : Service x s (enrol cfg c m e s) (s.ctx x).line leaving [] := by
    obtain ⟨z, -, -, -, -, -, hon, hout, hctx⟩ := enrol_spec cfg c m e s
    have hout' : (enrol cfg c m e s).out = s.out ++ [] := by rw [hout, List.append_nil]
    rcases hctx with ⟨-, hctx⟩ | ⟨rfl, hctx⟩
    · exact Service.idle hs hon (by rw [hctx]) hout' fun _ _ => by simp [grants]
    · by_cases hx : x = s.nctx
      · subst hx
        exact Service.created hwf hs hon (by rw [hctx, Function.update_self]; rfl)
          (by rw [hctx, Function.update_self]) hout'
      · refine Service.idle hs hon ?_ hout' fun _ _ => by simp [grants]
        rw [hctx, Function.update_of_ne hx]
  have hok : ∀ u, sendSucceeds env c u = true := fun u => hsent _ c
  simp only [processMsg, registerClient, hunreg, Bool.false_eq_true, if_false, hok, if_true,
    Option.some.injEq] at h
  subst h
  refine Service.tuned (Service.tuned henrol ?_) (applyInitialLimit_tuned env c _ _)
  exact Tuned.sendMessage env c (by simp)

theorem Service.mono {l granted : List ClientId} {leaving leaving' : ClientId → Prop}
    (h : Service x s t l leaving granted) (hle : ∀ d ∈ l, leaving d → leaving' d) :
    Service x s t l leaving' granted where
  serial := h.serial
  sent := h.sent
  order := h.order
  stays d hd := by
    rcases h.stays d hd with hd' | hd'
    · exact Or.inl (hle d hd hd')
    · exact Or.inr hd'

/-! ## Steps -/

/-- The events of runs that follow the protocol and never switch the scheduler off: one
registration for each connection, requests of clients without an entry and releases of
clients that run. -/
def Polite (s : Sched) : Event → Prop
  | .message c (.register _ _) => hasRegistered s c = false
  | .message c .reqLock => ∀ x ∈ (s.client c).context, c ∉ (s.ctx x).entries
  | .message c .lockReleased => ∃ x ∈ (s.client c).context, c ∈ (s.ctx x).runningList
  | .message _ .schedOff => False
  | _ => True

instance (s : Sched) : DecidablePred (Polite s)
  | .message _ (.register _ _) => inferInstanceAs (Decidable (_ = _))
  | .message c .reqLock => inferInstanceAs (Decidable (∀ x ∈ (s.client c).context, _))
  | .message c .lockReleased => inferInstanceAs (Decidable (∃ x ∈ (s.client c).context, _))
  | .message _ .schedOff => inferInstanceAs (Decidable False)
  | .accept _ | .message _ .schedOn | .message _ (.setTq _) | .message _ (.memUpdate _)
  | .message _ .unknown | .disconnect _ | .timerBegin _ | .timerEnd _ _ | .annotated _ _ _ =>
      inferInstanceAs (Decidable True)

/-- Who joins the line of a context. -/
def arrivals (x : CtxId) (s : Sched) : Event → List ClientId
  | .message c .reqLock => if (s.client c).context = some x then [c] else []
  | _ => []

/-- Deleting a client that belongs to no context leaves all contexts alone. -/
theorem deleteClient_unregistered {schedule : CtxId → Sched → Option Sched}
    (hctx : (s.client c).context = none) (h : deleteClient cfg env schedule c s = some t) :
    t = { s with clients := s.clients.filter (· ≠ c) } := by
  simp only [deleteClient, removeReq, hctx, Option.bind_some] at h
  exact unlinkClient_eq h

theorem Service.unlinked {leaving : ClientId → Prop} (hs : SerialOk x s) (c : ClientId) :
    Service x s { s with clients := s.clients.filter (· ≠ c) } (s.ctx x).line leaving [] :=
  Service.idle hs rfl rfl (List.append_nil _).symm fun _ _ => by simp [grants]

section Steps

variable (hserial : cfg.schedulingMode = .serial) (hsent : env.AllSent)

include hserial hsent

theorem processMsg_service {m : FromClient} {n : ℕ} (hwf : WellFormed s) (hlinked : Linked s)
    (hs : SerialOk x s) (hunlimited : Unlimited x s) (hmem : c ∈ s.clients)
    (hpolite : Polite s (.message c m)) (h : processMsg cfg env n c m s = some t) :
    ∃ granted, Service x s t ((s.ctx x).line ++ arrivals x s (.message c m))
      (· ∉ t.clients) granted := by
  have hquiet : arrivals x s (.message c m) = [] →
      (∃ granted, Service x s t (s.ctx x).line (· ∉ t.clients) granted) →
      ∃ granted, Service x s t ((s.ctx x).line ++ arrivals x s (.message c m))
        (· ∉ t.clients) granted := by
    intro hnone hserv
    rwa [hnone, List.append_nil]
  cases m with
  | register m e => exact hquiet rfl ⟨[], register_service hsent hwf hs hpolite h⟩
  | schedOn =>
      simp only [processMsg, hs.on, if_true, Option.some.injEq] at h
      exact hquiet rfl ⟨[], h ▸ Service.refl hs⟩
  | schedOff => exact hpolite.elim
  | setTq v =>
      cases v with
      | none => exact hquiet rfl ⟨[], (Option.some.inj h) ▸ Service.refl hs⟩
      | some v => exact hquiet rfl ⟨[], (Option.some.inj h) ▸ (setTq_tuned v s).service hs⟩
  | reqLock =>
      cases hctx : (s.client c).context with
      | none =>
          have hdelete : deleteClient cfg env (trySchedule cfg env n) c s = some t := by
            simp only [processMsg, reqLock, hctx, hs.on, if_true, ite_self] at h
            exact h
          rw [deleteClient_unregistered hctx hdelete] at hquiet ⊢
          exact hquiet (by simp [arrivals, hctx]) ⟨[], Service.unlinked hs c⟩
      | some y =>
          have hreg := hwf.registered (c := c) (by simp [hctx])
          simp only [processMsg, hreg, Bool.not_true, Bool.false_eq_true, if_false, hs.on,
            if_true] at h
          by_cases hy : x = y
          · subst hy
            obtain ⟨granted, hserv⟩ := reqLock_service hserial hsent hwf hlinked hs hunlimited
              hmem hctx (hpolite x hctx) h
            have harrive : arrivals x s (.message c .reqLock) = [c] := by simp [arrivals, hctx]
            rw [harrive]
            exact ⟨granted, hserv.mono fun _ _ hno => hno.elim⟩
          · have hnone : arrivals x s (.message c .reqLock) = [] := by
              simp [arrivals, hctx, Ne.symm hy]
            exact hquiet hnone ⟨[], (reqLock_local (hwf.belongs y) hctx h).service hy hs⟩
  | lockReleased =>
      obtain ⟨y, hctx, hrun⟩ := hpolite
      have hctx' : (s.client c).context = some y := hctx
      have hreg := hwf.registered (c := c) (by simp [hctx'])
      simp only [processMsg, hreg, Bool.not_true, Bool.false_eq_true, if_false, hs.on,
        if_true] at h
      by_cases hy : x = y
      · subst hy
        have hline := inLine_of_serialOk hwf hlinked hs hunlimited
        obtain ⟨granted, hserv⟩ := lockReleased_service hserial hsent hs hline hctx' h
        refine hquiet rfl ⟨granted, hserv.mono fun d hd he => ?_⟩
        exact absurd hrun (List.disjoint_of_nodup_append hs.nodup (mem_line_iff.mp (he ▸ hd)))
      · exact hquiet rfl ⟨[], (lockReleased_local (hwf.belongs y) hctx' h).service hy hs⟩
  | memUpdate v => exact hquiet rfl ⟨[], (Option.some.inj h) ▸ memUpdate_service hs⟩
  | unknown => exact hquiet rfl ⟨[], (Option.some.inj h) ▸ Service.refl hs⟩

/-- Every step hands the lock to the first client in line or grants nothing, and only
clients that are no longer connected leave the line otherwise. -/
theorem Step.service {e : Event} (hwf : WellFormed s) (hlinked : Linked s) (hs : SerialOk x s)
    (hunlimited : Unlimited x s) (hpolite : Polite s e) (h : Step cfg env s e t) :
    ∃ granted, Service x s t ((s.ctx x).line ++ arrivals x s e) (· ∉ t.clients) granted := by
  obtain ⟨henabled, n, h⟩ := h
  have hline := inLine_of_serialOk hwf hlinked hs hunlimited
  have hquiet : arrivals x s e = [] →
      (∃ granted, Service x s t (s.ctx x).line (· ∉ t.clients) granted) →
      ∃ granted, Service x s t ((s.ctx x).line ++ arrivals x s e) (· ∉ t.clients) granted := by
    intro hnone hserv
    rwa [hnone, List.append_nil]
  cases e with
  | accept garbage =>
      rw [← Option.some.inj h] at hquiet ⊢
      refine hquiet rfl ⟨[], Service.idle hs rfl rfl (List.append_nil _).symm fun _ _ => ?_⟩
      simp [grants]
  | message c m =>
      have hmem : c ∈ s.clients := Event.connected_of_enabled henabled rfl
      exact processMsg_service hserial hsent hwf hlinked hs hunlimited hmem hpolite h
  | disconnect c =>
      cases hctx : (s.client c).context with
      | none =>
          have hdelete : deleteClient cfg env (trySchedule cfg env n) c s = some t := by
            simp only [handle, disconnect, hctx, Option.bind_eq_some_iff, Option.some.injEq] at h
            obtain ⟨u, hu, rfl⟩ := h
            exact hu
          rw [deleteClient_unregistered hctx hdelete] at hquiet ⊢
          exact hquiet rfl ⟨[], Service.unlinked hs c⟩
      | some y =>
          by_cases hy : x = y
          · subst hy
            obtain ⟨⟨granted, hserv⟩, hgone⟩ := disconnect_service hserial hsent hs hline hctx h
            exact hquiet rfl ⟨granted, hserv.mono fun d _ hd => hd ▸ hgone⟩
          · exact hquiet rfl ⟨[], (disconnect_local (hwf.belongs y) hctx h).service hy hs⟩
  | timerBegin y =>
      by_cases hy : x = y
      · subst hy
        exact hquiet rfl ⟨[], timerBegin_service hserial hs hline h⟩
      · exact hquiet rfl ⟨[], (timerBegin_local (hwf.belongs y) h).service hy hs⟩
  | timerEnd y timedOut =>
      exact hquiet rfl ⟨[], (Option.some.inj h) ▸ (timerEnd_tuned cfg env y timedOut s).service hs⟩
  | annotated id memory core =>
      exact hquiet rfl
        ⟨[], (Option.some.inj h) ▸ (annotationUpdate_tuned env id memory core s).service hs⟩

end Steps

end XpuShare
