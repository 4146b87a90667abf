import XpuShare.Verification.Scheduler.Marks
import XpuShare.Verification.Scheduler.Runs

/-! # Who is marked as dropped has been told

A timer marks a running client and sends it DROP_LOCK, without looking whether the send
succeeds; and a grant clears one of the two marks only. The marks of running clients are
backed by a message exactly as long as the timer's sends arrive and nobody who is still
marked as throttled waits for the lock with its limit lifted. -/

namespace XpuShare

variable {cfg : Config} {env : Env} {x : CtxId} {s t u : Sched} {c : ClientId}

/-- `c` has been sent DROP_LOCK, and no LOCK_OK after it. -/
def Notified (out : List Sent) (c : ClientId) : Prop :=
  ∃ before after, out = before ++ ⟨c, .dropLock, true⟩ :: after ∧ ⟨c, .lockOk, true⟩ ∉ after

/-- Every running client that is marked as dropped has been told. -/
def MarksNotified (s : Sched) : Prop :=
  ∀ x, ∀ c ∈ (s.ctx x).runningList,
    (s.client c).pendingDrop = true ∨ (s.client c).isThrottled = true → Notified s.out c

theorem Notified.append {out new : List Sent} (h : Notified out c)
    (hnew : ⟨c, .lockOk, true⟩ ∉ new) : Notified (out ++ new) c := by
  obtain ⟨before, after, rfl, hafter⟩ := h
  refine ⟨before, after ++ new, by simp, ?_⟩
  rw [List.mem_append, not_or]
  exact ⟨hafter, hnew⟩

theorem Notified.of_send (out : List Sent) (c : ClientId) :
    Notified (out ++ [⟨c, .dropLock, true⟩]) c :=
  ⟨out, [], rfl, List.not_mem_nil⟩

theorem Notified.mem {out : List Sent} (h : Notified out c) : ⟨c, .dropLock, true⟩ ∈ out := by
  obtain ⟨before, after, rfl, -⟩ := h
  simp

/-- Who was sent LOCK_OK last has not been told to drop it since. -/
theorem Notified.getLast?_ne {out : List Sent} (h : Notified out c) :
    out.getLast? ≠ some ⟨c, .lockOk, true⟩ := by
  obtain ⟨before, after, rfl, hafter⟩ := h
  intro hlast
  rw [List.getLast?_append_cons, List.getLast?_cons] at hlast
  cases hend : after.getLast? with
  | none => simp [hend] at hlast
  | some m =>
      simp only [hend, Option.getD_some, Option.some.injEq] at hlast
      exact hafter (hlast ▸ List.mem_of_getLast? hend)

/-- A client marked as throttled that the quota test would let pass. -/
def Lifted (s : Sched) (c : ClientId) : Prop :=
  (s.client c).isThrottled = true ∧ 100 ≤ (s.client c).coreLimit

instance (s : Sched) (c : ClientId) : Decidable (Lifted s c) :=
  inferInstanceAs (Decidable (_ ∧ _))

theorem Lifted.of_eased (h : Lifted t c) (heased : Eased (s.client c).marks (t.client c).marks) :
    Lifted s c := by
  have hlimit : (t.client c).coreLimit = (s.client c).coreLimit := heased.coreLimit
  exact ⟨heased.isThrottled h.1, hlimit ▸ h.2⟩

/-- The marks of running clients are backed by messages, and no lifted client is pending. -/
structure Backed (s : Sched) : Prop where
  notified : MarksNotified s
  pending : ∀ x, ∀ c ∈ (s.ctx x).pending, ¬ Lifted s c

theorem mem_entries_of_pending {g : GpuContext} (h : c ∈ g.pending) : c ∈ g.entries :=
  List.mem_append_left _ h

/-- Nobody begins to run or to wait, no flag is raised and no LOCK_OK arrives. -/
theorem Backed.of_eased (hs : Backed s)
    (hrun : ∀ x, (t.ctx x).runningList ⊆ (s.ctx x).runningList)
    (hpending : ∀ x, (t.ctx x).pending ⊆ (s.ctx x).pending)
    (hmarks : ∀ x, ∀ c ∈ (s.ctx x).entries, Eased (s.client c).marks (t.client c).marks)
    (hsent : ∃ new, t.out = s.out ++ new ∧ ∀ m ∈ new, m.msg = .lockOk → m.ok = false) :
    Backed t := by
  obtain ⟨new, hout, hnew⟩ := hsent
  constructor
  · intro x c hc hflag
    have heased := hmarks x c (mem_entries_of_running (hrun x hc))
    rw [hout]
    apply Notified.append
    · apply hs.notified x c (hrun x hc)
      exact hflag.imp heased.pendingDrop heased.isThrottled
    · intro hlock
      exact absurd (hnew _ hlock rfl) (by simp)
  · intro x c hc hlifted
    have heased := hmarks x c (mem_entries_of_pending (hpending x hc))
    exact hs.pending x c (hpending x hc) (hlifted.of_eased heased)

/-- A change outside the lock tables that leaves the marks alone. -/
theorem Backed.tuned (hs : Backed s) (h : Tuned s t)
    (hmarks : ∀ c, (t.client c).marks = (s.client c).marks) : Backed t := by
  have htable : ∀ x, (t.ctx x).table = (s.ctx x).table := fun x => table_of_core (h.ctx x)
  apply hs.of_eased
  · intro x
    have hrun : (t.ctx x).runningList = (s.ctx x).runningList :=
      congrArg LockTable.running (htable x)
    rw [hrun]
    exact List.Subset.refl _
  · intro x c hc
    rw [mem_pending_of_table (htable x)] at hc
    exact (mem_pending_of_table rfl).mpr hc
  · exact fun _ c _ => Eased.of_eq (hmarks c)
  · obtain ⟨new, hout, hnew⟩ := h.sent
    exact ⟨new, hout, fun m hm hlock => absurd hlock (hnew m hm).1⟩

/-! ## Blocks -/

theorem Block.pending_anywhere {D : Exits} (h : Block cfg env D x s t) (y : CtxId) :
    (t.ctx y).pending ⊆ (s.ctx y).pending := by
  by_cases hy : y = x
  · subst hy
    exact h.pending_subset
  · rw [h.frame.ctx_ne y hy]
    exact List.Subset.refl _

/-- Whom the quota test lets pass is not marked as throttled, unless its limit is lifted. -/
theorem isThrottled_of_canRun (h : canRunTest cfg s x c = true) (hlifted : ¬ Lifted s c) :
    (s.client c).isThrottled = false := by
  rcases unlimited_or_free_of_canRun h with hlimit | hfree
  · by_contra hthrottled
    exact hlifted ⟨by simpa using hthrottled, hlimit⟩
  · exact hfree

theorem Backed.grant {D : Exits} {rest : List ClientId} (hs : Backed s)
    (hreq : (s.ctx x).requests = c :: rest) (hok : canRunTest cfg s x c = true)
    (hblock : Block cfg env D x s (grant env x c (sendMessage env c .lockOk s))) :
    Backed (grant env x c (sendMessage env c .lockOk s)) := by
  have hc : c ∈ (s.ctx x).pending := by simp [GpuContext.pending, hreq]
  have hfree : (s.client c).isThrottled = false :=
    isThrottled_of_canRun hok (hs.pending x c hc)
  constructor
  · intro y d hd hflag
    rcases grantSent_running hreq hd with ⟨rfl, hmarks⟩ | ⟨hne, hrun, hmarks⟩
    · exfalso
      have hpending := congrArg Marks.pendingDrop hmarks
      have hthrottled := congrArg Marks.isThrottled hmarks
      simp only [Client.marks, Marks.undropped] at hpending hthrottled
      rw [hpending, hthrottled, hfree] at hflag
      simp at hflag
    · have hpending := congrArg Marks.pendingDrop hmarks
      have hthrottled := congrArg Marks.isThrottled hmarks
      simp only [Client.marks] at hpending hthrottled
      rw [(grantSent_effect env (mem_entries_of_pending hc)).out_eq]
      apply Notified.append
      · apply hs.notified y d hrun
        rwa [hpending, hthrottled] at hflag
      · intro hlock
        exact hne (congrArg Sent.dest (List.mem_singleton.mp hlock))
  · intro y d hd hlifted
    exact hs.pending y d (hblock.pending_anywhere y hd) (hlifted.of_eased (hblock.eased d))

theorem Backed.block {D : Exits} (hs : Backed s) (h : Block cfg env D x s t) : Backed t := by
  rcases h.grant_or with ⟨c, rest, hreq, hok, -, rfl⟩ | ⟨hrun, hsent⟩
  · exact hs.grant hreq hok h
  · apply hs.of_eased ?_ h.pending_anywhere (fun _ d _ => h.eased d) hsent
    intro y
    by_cases hy : y = x
    · subst hy
      exact hrun
    · rw [h.frame.ctx_ne y hy]
      exact List.Subset.refl _

/-! ## Timers -/

/-- A pass of a timer's loop leaves the state alone, or marks one client and tells it. -/
def DropPass (env : Env) (s : Sched) (c : ClientId) (t : Sched) : Prop :=
  t = s ∨ ∃ f : Client → Client, t = sendMessage env c .dropLock (s.modifyClient c f) ∧
    (f (s.client c)).coreLimit = (s.client c).coreLimit ∧
    ((f (s.client c)).isThrottled = true →
      (s.client c).isThrottled = true ∨ (s.client c).coreLimit < 100)

theorem throttleClient_pass (cfg : Config) (env : Env) (x : CtxId) (count now : ℤ) (s : Sched)
    (c : ClientId) : DropPass env s c (throttleClient cfg env x count now s c) := by
  unfold throttleClient
  simp only
  split
  · rename_i hover
    exact Or.inr ⟨_, rfl, rfl, fun _ => Or.inr hover.1⟩
  · exact Or.inl rfl

theorem rotateClient_pass (env : Env) (count now : ℤ) (s : Sched) (c : ClientId) :
    DropPass env s c (rotateClient env count now s c) := by
  unfold rotateClient
  simp only
  split
  · exact Or.inr ⟨_, rfl, rfl, fun h => Or.inl h⟩
  · exact Or.inl rfl

theorem DropPass.length_le (h : DropPass env s c t) :
    s.out.length ≤ t.out.length ∧ t.out.length ≤ s.out.length + 1 := by
  rcases h with rfl | ⟨f, rfl, -⟩
  · omega
  · simp [sendMessage_out]

theorem Backed.pass (hs : Backed s) (h : DropPass env s c t)
    (hsend : env.sendOk s.out.length c = true) : Backed t := by
  rcases h with rfl | ⟨f, rfl, hlimit, hthrottled⟩
  · exact hs
  · have hout : (sendMessage env c .dropLock (s.modifyClient c f)).out
        = s.out ++ [⟨c, .dropLock, true⟩] := by
      rw [sendMessage_out, sendSucceeds, Sched.modifyClient_out, hsend]
    constructor
    · intro x d hd hflag
      rw [hout]
      by_cases hdc : d = c
      · rw [hdc]
        exact Notified.of_send s.out c
      · rw [sendMessage_client, Sched.modifyClient_client_ne _ _ _ _ hdc] at hflag
        exact (hs.notified x d hd hflag).append (by simp)
    · intro x d hd hlifted
      unfold Lifted at hlifted
      rw [sendMessage_client] at hlifted
      by_cases hdc : d = c
      · rw [hdc, Sched.modifyClient_client_self, hlimit] at hlifted
        rcases hthrottled hlifted.1 with hold | hlow
        · exact hs.pending x d hd (hdc ▸ ⟨hold, hlifted.2⟩)
        · omega
      · rw [Sched.modifyClient_client_ne _ _ _ _ hdc] at hlifted
        exact hs.pending x d hd hlifted

/-- A loop of such passes whose sends all arrive. -/
theorem Backed.passes {f : Sched → ClientId → Sched} (hf : ∀ s c, DropPass env s c (f s c))
    {l : List ClientId} (hs : Backed s)
    (hsend : ∀ c ∈ l, ∀ n, s.out.length ≤ n → n < s.out.length + l.length →
      env.sendOk n c = true) :
    Backed (l.foldl f s) ∧ s.out.length ≤ (l.foldl f s).out.length ∧
      (l.foldl f s).out.length ≤ s.out.length + l.length := by
  induction l generalizing s with
  | nil => exact ⟨hs, le_rfl, le_rfl⟩
  | cons c l ih =>
      rw [List.length_cons] at hsend ⊢
      obtain ⟨hlow, hhigh⟩ := (hf s c).length_le
      have hfirst : Backed (f s c) :=
        hs.pass (hf s c) (hsend c List.mem_cons_self _ le_rfl (by omega))
      obtain ⟨hrest, hlow', hhigh'⟩ := ih hfirst fun d hd n hn hlt =>
        hsend d (List.mem_cons_of_mem c hd) n (by omega) (by omega)
      rw [List.foldl_cons]
      exact ⟨hrest, by omega, by omega⟩

/-- The DROP_LOCK messages that the timer of `x` may send when it wakes all arrive. -/
def Delivers (env : Env) (x : CtxId) (s : Sched) : Prop :=
  ∀ c ∈ (s.ctx x).runningList, ∀ k < 2 * (s.ctx x).runningList.length,
    env.sendOk (s.out.length + k) c = true

instance (env : Env) (x : CtxId) (s : Sched) : Decidable (Delivers env x s) :=
  inferInstanceAs (Decidable (∀ c ∈ (s.ctx x).runningList, _))

theorem Backed.timerEnd (hs : Backed s) (hsend : Delivers env x s) (timedOut : Bool) :
    Backed (timerEnd cfg env x timedOut s) := by
  have hrange : ∀ c ∈ (s.ctx x).runningList, ∀ n, s.out.length ≤ n →
      n < s.out.length + 2 * (s.ctx x).runningList.length → env.sendOk n c = true := by
    intro c hc n hlow hhigh
    have hn := hsend c hc (n - s.out.length) (by omega)
    rwa [show s.out.length + (n - s.out.length) = n by omega] at hn
  have htick : Backed s.tick := ⟨hs.notified, hs.pending⟩
  obtain ⟨henforced, hlow, hhigh⟩ := htick.passes
    (throttleClient_pass cfg env x (countRunningClients s x) (currentTimeMs env s))
    (l := (s.ctx x).runningList)
    fun c hc n hn hlt => hrange c hc n hn (by rw [Sched.tick_out] at hlt; omega)
  have hlist := (enforceLimits_tuned cfg env x s).runningList x
  have hdone : ∀ u : Sched, Backed u → Backed (u.modifyCtx x fun g =>
      { g with mustResetTimer := false, timer := { g.timer with waiting := false } }) := by
    intro u hu
    refine hu.tuned (Tuned.modifyCtx x ?_ u) fun _ => rfl
    intro g
    rfl
  change Backed (enforceLimits cfg env x s) at henforced
  change s.out.length ≤ (enforceLimits cfg env x s).out.length at hlow
  change (enforceLimits cfg env x s).out.length ≤ s.out.length + _ at hhigh
  unfold XpuShare.timerEnd
  simp only
  apply hdone
  split
  · have htick' : Backed (enforceLimits cfg env x s).tick :=
      ⟨henforced.notified, henforced.pending⟩
    have hrotated := htick'.passes (rotateClient_pass env
      (countRunningClients (enforceLimits cfg env x s) x)
      (currentTimeMs env (enforceLimits cfg env x s)))
      (l := ((enforceLimits cfg env x s).ctx x).runningList)
      fun c hc n hn hlt => hrange c (hlist ▸ hc) n (hlow.trans hn)
        (by rw [Sched.tick_out, hlist] at hlt; omega)
    exact hrotated.1
  · exact henforced

/-! ## Annotations -/

/-- A new limit is stored for a client that is not throttled, or not pending, or it is below
100. -/
theorem Backed.updateCoreLimit (hs : Backed s) (env : Env) (value : Option ℤ)
    (h : 100 ≤ annotatedCoreLimit value → (s.client c).isThrottled = true →
      ∀ x, c ∉ (s.ctx x).pending) : Backed (updateCoreLimit env c value s) := by
  unfold XpuShare.updateCoreLimit
  simp only
  split
  · constructor
    · intro x d hd hflag
      rw [sendMessage_client, Sched.modifyClient_client] at hflag
      have hmarked : (s.client d).pendingDrop = true ∨ (s.client d).isThrottled = true := by
        split at hflag
        · rename_i hdc
          rw [hdc]
          exact hflag
        · exact hflag
      exact (hs.notified x d hd hmarked).append (by simp)
    · intro x d hd hlifted
      unfold Lifted at hlifted
      rw [sendMessage_client, Sched.modifyClient_client] at hlifted
      split at hlifted
      · rename_i hdc
        exact h hlifted.2 hlifted.1 x (hdc ▸ hd)
      · exact hs.pending x d hd hlifted
  · exact hs

/-- The annotation `core` of the pod `id` lifts the limit of nobody who is marked as throttled
and pending. -/
def LiftsNobody (id : ℕ) (core : Option ℤ) (s : Sched) : Prop :=
  ∀ c ∈ s.clients, (s.client c).id = id → 100 ≤ annotatedCoreLimit core →
    (s.client c).isThrottled = true → ∀ x ∈ (s.client c).context, c ∉ (s.ctx x).pending

instance (id : ℕ) (core : Option ℤ) (s : Sched) : Decidable (LiftsNobody id core s) :=
  inferInstanceAs (Decidable (∀ c ∈ s.clients, _))

theorem Backed.annotationUpdate (hs : Backed s) (hwf : WellFormed s) {id : ℕ}
    {core : Option ℤ} (h : LiftsNobody id core s) (env : Env) (memory : Option ℕ) :
    Backed (annotationUpdate env id memory core s) := by
  unfold XpuShare.annotationUpdate
  split
  · rename_i c hfind
    have hmem : c ∈ s.clients := List.mem_of_find?_eq_some hfind
    have hid : (s.client c).id = id := by simpa using List.find?_some hfind
    have htuned := updateMemoryLimit_tuned env c memory s
    have hmarks := updateMemoryLimit_marks env c memory s
    apply (hs.tuned htuned hmarks).updateCoreLimit env core
    intro hlimit hthrottled x hc
    have hthrottled' : (s.client c).isThrottled = true := by
      rw [← hthrottled]
      exact (congrArg Marks.isThrottled (hmarks c).symm :)
    have hc' : c ∈ (s.ctx x).pending := by
      rw [mem_pending_of_table (table_of_core (htuned.ctx x))] at hc
      exact (mem_pending_of_table rfl).mpr hc
    exact h c hmem hid hlimit hthrottled' x (hwf.belongs x c (mem_entries_of_pending hc')) hc'
  · exact hs

/-! ## Requests -/

theorem Backed.insert (hs : Backed s) (hlifted : ¬ Lifted s c) :
    Backed (s.modifyCtx x fun g => { g with requests := g.requests ++ [c] }) := by
  constructor
  · intro y d hd hflag
    rw [Sched.modifyCtx_ctx] at hd
    split at hd
    · rename_i hy
      exact hs.notified x d hd hflag
    · exact hs.notified y d hd hflag
  · intro y d hd hnew
    rw [Sched.modifyCtx_ctx] at hd
    split at hd
    · simp only [GpuContext.pending, List.mem_append, List.mem_singleton] at hd
      rcases hd with (hd | rfl) | hd
      · exact hs.pending x d (List.mem_append_left _ hd) hnew
      · exact hlifted hnew
      · exact hs.pending x d (List.mem_append_right _ hd) hnew
    · exact hs.pending y d hd hnew

/-! ## Runs -/

/-- The timer's messages arrive, and the event makes no client wait for the lock that is
marked as throttled and has no limit below 100. -/
def Backing (env : Env) (s : Sched) : Event → Prop
  | .timerEnd x _ => Delivers env x s
  | .message c .reqLock => ¬ Lifted s c
  | .annotated id _ core => LiftsNobody id core s
  | _ => True

instance (env : Env) (s : Sched) : DecidablePred (Backing env s)
  | .timerEnd x _ => inferInstanceAs (Decidable (Delivers env x s))
  | .message c .reqLock => inferInstanceAs (Decidable (¬ Lifted s c))
  | .annotated id _ core => inferInstanceAs (Decidable (LiftsNobody id core s))
  | .message _ (.register _ _) | .message _ .schedOn | .message _ .schedOff
  | .message _ (.setTq _) | .message _ .lockReleased | .message _ (.memUpdate _)
  | .message _ .unknown | .accept _ | .disconnect _ | .timerBegin _ => isTrue trivial

theorem Backed.move {D : ClientId → Prop} (hs : Backed s) (hwf : WellFormed s)
    (h : Move cfg env D (Backing env) s t) : Backed t := by
  have hknown : ∀ y, ∀ d ∈ (s.ctx y).entries, (s.client d).context ≠ none :=
    fun y d hd hnone => hwf.notMem_entries hnone y hd
  cases h with
  | block x h => exact hs.block h
  | send c m hm => exact hs.tuned (Tuned.sendMessage env c hm) fun _ => rfl
  | limit c limit =>
      exact hs.tuned (applyInitialLimit_tuned env c limit s) (applyInitialLimit_marks env c limit s)
  | preempt x => exact hs.tuned (forcePreemption_tuned env x s) (forcePreemption_marks env x s)
  | setTq v => exact hs.tuned (setTq_tuned v s) fun _ => rfl
  | sleep x => exact hs.tuned (timerSleep_tuned cfg env x s) fun _ => rfl
  | wake x timedOut hok => exact hs.timerEnd hok timedOut
  | annotate id memory core hok => exact hs.annotationUpdate hwf hok env memory
  | accept garbage hok =>
      exact hs.of_eased (fun _ => List.Subset.refl _) (fun _ => List.Subset.refl _)
        (fun y c hc => Eased.of_eq (by rw [accept_client hwf garbage (hknown y c hc)]))
        ⟨[], by simp [accept], by simp⟩
  | enrol c m e hok hmem hunreg hid =>
      obtain ⟨x, -, -, -, -, -, -, hout, -⟩ := enrol_spec cfg c m e s
      exact hs.of_eased (fun y => (enrol_lists cfg c m e s y).1)
        (fun y => (enrol_lists cfg c m e s y).2)
        (fun y d hd => Eased.of_eq (by rw [enrol_client cfg hwf m e hunreg (hknown y d hd)]))
        ⟨[], by simp [hout], by simp⟩
  | insert c x hok hmem hon hctx hreq => exact hs.insert hok
  | memory c x v hok hmem hctx =>
      have htable := creditMemory_table cfg x c v s
      obtain ⟨usage, peak, overloaded, hcredit⟩ := creditMemory_spec cfg x c v s
      apply hs.of_eased
      · intro y
        have hrun : ((creditMemory cfg x c v s).ctx y).runningList = (s.ctx y).runningList :=
          congrArg LockTable.running (htable y)
        rw [hrun]
        exact List.Subset.refl _
      · intro y d hd
        rw [mem_pending_of_table (htable y)] at hd
        exact (mem_pending_of_table rfl).mpr hd
      · exact fun _ d _ => Eased.of_eq (creditMemory_marks cfg x c v s d)
      · exact ⟨[], by rw [hcredit]; simp [storeMemory], by simp⟩
  | unlink c hctx => exact ⟨hs.notified, hs.pending⟩
  | power on c hok => exact ⟨hs.notified, hs.pending⟩
  | clear s₀ c hok =>
      apply hs.of_eased
      · intro y
        simp only [clearRequests]
        split <;> exact List.Subset.refl _
      · intro y
        simp only [clearRequests]
        split
        · exact List.subset_append_right _ _
        · exact List.Subset.refl _
      · exact fun _ _ _ => Eased.of_eq rfl
      · exact ⟨[], by simp [clearRequests], by simp⟩

/-- In a run whose timers' messages arrive and in which nobody waits for the lock with a
limit lifted while it is throttled, every running client that is marked as dropped has been
sent DROP_LOCK since its last LOCK_OK. -/
theorem marks_notified
    (h : Transition.Reaches (Transition.guarded (Step cfg env) (Backing env)) Sched.init s) :
    MarksNotified s := by
  have hbacked : Backed s := by
    refine invariant_of_moves (I := Backed)
      (fun _ _ (hmove : Move cfg env _ (Backing env) _ _) hwf hs => hs.move hwf hmove) ?_ h
    · constructor
      · intro x c hc
        simp [Sched.init] at hc
      · intro x c hc
        simp [Sched.init, GpuContext.pending] at hc
  exact hbacked.notified

/-- A clock that gains 300 ms at every reading, and sockets that fail as `sent` says. -/
def paced (sent : ℕ → Bool) : Env where
  clock k := 1 + 300 * k
  sendOk n _ := sent n

/-- A client limited to 30 percent runs until the timer finds its quota used up. -/
def overrun : List Event :=
  [.accept {},
   .message 0 (.register { podName := "pod", podNamespace := "default" }
     { generatedId := 1, coreAnnotated := some 30 }),
   .message 0 .reqLock, .timerBegin 0, .timerEnd 0 true]

theorem marks_notified_overrun :
    ∃ s : Sched, (s.ctx 0).runningList = [0] ∧ (s.client 0).pendingDrop = true ∧
      (s.client 0).isThrottled = true ∧ Notified s.out 0 := by
  obtain ⟨s, hs, hrun, hpending, hthrottled⟩ := exists_reaches {} (paced fun _ => true)
    (Backing (paced fun _ => true)) 9 overrun
    (fun s => (s.ctx 0).runningList = [0] ∧ (s.client 0).pendingDrop = true ∧
      (s.client 0).isThrottled = true) (by decide +kernel)
  have hnotified := marks_notified hs 0 0 (by rw [hrun]; exact List.mem_singleton_self 0)
    (Or.inl hpending)
  exact ⟨s, hrun, hpending, hthrottled, hnotified⟩

/-- A client whose DROP_LOCK fails is marked all the same; and when every send succeeds, a
client whose limit is lifted after it was throttled runs again with the old mark. -/
theorem marks_without_notice :
    (¬ ∀ (cfg : Config) (env : Env) (s : Sched),
      Transition.Reaches (Step cfg env) Sched.init s → MarksNotified s) ∧
    ¬ ∀ (cfg : Config) (env : Env) (s : Sched), env.AllSent →
      Transition.Reaches (Step cfg env) Sched.init s → MarksNotified s := by
  constructor
  · intro h
    obtain ⟨s, hs, hrun, hpending, hsilent⟩ := exists_reaches {} (paced (· < 2))
      (fun _ _ => True) 9 overrun
      (fun s => 0 ∈ (s.ctx 0).runningList ∧ (s.client 0).pendingDrop = true ∧
        ⟨0, .dropLock, true⟩ ∉ s.out) (by decide +kernel)
    have hreach := hs.mono fun _ _ _ hstep => hstep.2
    exact hsilent (h {} _ s hreach 0 0 hrun (Or.inl hpending)).mem
  · intro h
    obtain ⟨s, hs, hrun, hthrottled, hlast⟩ := exists_reaches {} (paced fun _ => true)
      (fun _ _ => True) 9
      (overrun ++ [.message 0 .lockReleased, .annotated 1 none none, .message 0 .reqLock])
      (fun s => 0 ∈ (s.ctx 0).runningList ∧ (s.client 0).isThrottled = true ∧
        s.out.getLast? = some ⟨0, .lockOk, true⟩) (by decide +kernel)
    have hreach := hs.mono fun _ _ _ hstep => hstep.2
    exact (h {} _ s (fun _ _ => rfl) hreach 0 0 hrun (Or.inr hthrottled)).getLast?_ne hlast

end XpuShare
