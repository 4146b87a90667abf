import XpuShare.Verification.Accounting.Blocks
import XpuShare.Verification.Isolation.Correctness

/-! # Accounting along runs

In runs of disciplined clients the memory total, the run flags and the lock flag of every
context agree with its running list at all times. -/

namespace XpuShare

variable {cfg : Config} {env : Env} {x y : CtxId} {s t : Sched} {c d : ClientId}

/-- What a client adds to the memory of a context. -/
def share (x : CtxId) (s : Sched) (c : ClientId) : ℕ :=
  if (s.client c).context = some x then (s.client c).memoryAllocated else 0

/-- The memory that the connected clients of a context have reported. -/
def gpuTotal (x : CtxId) (s : Sched) : ℕ := (s.clients.map (share x s)).sum

/-- The events of a run without switching off: zeroed records, one registration for each
connection, requests of clients without an entry, releases of clients that run, and memory
reports that keep the total of each context below `2 ^ 64`. -/
def Disciplined (s : Sched) : Event → Prop
  | .accept garbage => garbage = {}
  | .message c (.register _ _) => hasRegistered s c = false
  | .message c .reqLock => ∀ x ∈ (s.client c).context, c ∉ (s.ctx x).entries
  | .message c .lockReleased => ∃ x ∈ (s.client c).context, c ∈ (s.ctx x).runningList
  | .message c (.memUpdate v) =>
      ∀ x ∈ (s.client c).context, gpuTotal x (storeMemory c v s) < sizeMod
  | .message _ (.setTq _) | .timerBegin _ | .timerEnd _ _ | .annotated _ _ _ => True
  | .message _ .schedOn | .message _ .schedOff | .message _ .unknown | .disconnect _ => False

instance (s : Sched) : DecidablePred (Disciplined s)
  | .accept _ => inferInstanceAs (Decidable (_ = _))
  | .message _ (.register _ _) => inferInstanceAs (Decidable (_ = _))
  | .message c .reqLock => inferInstanceAs (Decidable (∀ x ∈ (s.client c).context, _))
  | .message c .lockReleased => inferInstanceAs (Decidable (∃ x ∈ (s.client c).context, _))
  | .message c (.memUpdate _) => inferInstanceAs (Decidable (∀ x ∈ (s.client c).context, _))
  | .message _ (.setTq _) | .timerBegin _ | .timerEnd _ _ | .annotated _ _ _ =>
      inferInstanceAs (Decidable True)
  | .message _ .schedOn | .message _ .schedOff | .message _ .unknown | .disconnect _ =>
      inferInstanceAs (Decidable False)

/-- What holds in runs of disciplined clients. -/
structure Balanced (s : Sched) : Prop where
  accounted : ∀ x, Accounted x s
  connected : ∀ c, (s.client c).context ≠ none → c ∈ s.clients
  total : ∀ x, gpuTotal x s < sizeMod
  blank : ∀ c, (s.client c).context = none →
    (s.client c).memoryAllocated = 0 ∧ (s.client c).isRunning = false

theorem Balanced.init : Balanced Sched.init where
  accounted x := ⟨List.nodup_nil, rfl, fun c h => by simp [Sched.init] at h,
    by simp [Sched.init]⟩
  connected c h := absurd rfl h
  total x := by simp [gpuTotal, Sched.init]
  blank c _ := ⟨rfl, rfl⟩

/-! ## Totals -/

theorem share_congr (hctx : (t.client c).context = (s.client c).context)
    (hmem : (t.client c).memoryAllocated = (s.client c).memoryAllocated) :
    share x t c = share x s c := by
  simp only [share, hctx, hmem]

theorem gpuTotal_congr (hclients : t.clients = s.clients)
    (hshare : ∀ c ∈ s.clients, share x t c = share x s c) : gpuTotal x t = gpuTotal x s := by
  rw [gpuTotal, gpuTotal, hclients]
  exact congrArg List.sum (List.map_congr_left hshare)

/-- Distinct connected clients of a context hold no more memory than all of them. -/
theorem sum_le_gpuTotal {l : List ClientId} (hnodup : l.Nodup)
    (hl : ∀ c ∈ l, c ∈ s.clients ∧ (s.client c).context = some x) :
    (l.map (memories s)).sum ≤ gpuTotal x s := by
  have hshare : l.map (memories s) = l.map (share x s) := by
    refine List.map_congr_left fun c hc => ?_
    simp [share, memories, (hl c hc).2]
  rw [hshare]
  exact List.sum_map_le_of_nodup_subset hnodup (fun c hc => (hl c hc).1) (share x s)

theorem Balanced.mem_clients (hs : Balanced s) (hwf : WellFormed s) (hc : c ∈ (s.ctx x).entries) :
    c ∈ s.clients ∧ (s.client c).context = some x := by
  have hctx := hwf.belongs x c hc
  exact ⟨hs.connected c (by simp [hctx]), hctx⟩

theorem Balanced.fits (hs : Balanced s) (hwf : WellFormed s) (x : CtxId) : Fits x s :=
  (sum_le_gpuTotal (hs.accounted x).nodup fun _ hc => hs.mem_clients hwf hc).trans_lt (hs.total x)

/-! ## Actions -/

theorem Balanced.block {D : Exits} (hs : Balanced s) (hwf : WellFormed s)
    (h : Block cfg env D x s t) (hD : ∀ c, ¬D.deleted c) : Balanced t := by
  have hlocal := h.local (hwf.belongs x)
  have hclients : t.clients = s.clients := by
    rcases h.clients_cases with heq | ⟨c, hc, -⟩
    · exact heq
    · exact absurd hc (hD c)
  have hmem : ∀ c, (t.client c).memoryAllocated = (s.client c).memoryAllocated :=
    fun c => memory_of_static (h.frame.static c)
  refine ⟨fun y => ?_, fun c hc => ?_, fun y => ?_, fun c hc => ?_⟩
  · by_cases hy : y = x
    · subst hy
      exact h.accounted (hs.accounted y) (hs.fits hwf y)
    · refine (hs.accounted y).congr (hlocal.ctx_ne y hy) (fun c hc => ?_) (fun c hc => ?_)
        (hwf.belongs y)
      · rwa [hlocal.context] at hc
      · refine hlocal.client c ?_
        rw [hc]
        exact fun he => hy (Option.some.inj he)
  · rw [hlocal.context] at hc
    rw [hclients]
    exact hs.connected c hc
  · rw [gpuTotal_congr hclients fun c _ => share_congr (hlocal.context c) (hmem c)]
    exact hs.total y
  · rw [hlocal.context] at hc
    rw [hlocal.client c (by simp [hc])]
    exact hs.blank c hc

theorem Balanced.tuned (hs : Balanced s) (h : Tuned s t) : Balanced t := by
  have hcontext : ∀ c, (t.client c).context = (s.client c).context :=
    fun c => context_of_core (h.client c)
  have hmem : ∀ c, (t.client c).memoryAllocated = (s.client c).memoryAllocated :=
    fun c => memory_of_core (h.client c)
  refine ⟨fun y => (hs.accounted y).tuned h, fun c hc => ?_, fun y => ?_, fun c hc => ?_⟩
  · rw [hcontext] at hc
    rw [h.clients]
    exact hs.connected c hc
  · rw [gpuTotal_congr h.clients fun c _ => share_congr (hcontext c) (hmem c)]
    exact hs.total y
  · rw [hcontext] at hc
    rw [hmem, isRunning_of_core (h.client c)]
    exact hs.blank c hc

theorem gpuTotal_accept (hwf : WellFormed s) (garbage : Client) :
    gpuTotal x (accept garbage s) = gpuTotal x s := by
  have hshare : s.clients.map (share x (accept garbage s)) = s.clients.map (share x s) := by
    refine List.map_congr_left fun c hc => ?_
    have hold := accept_client_of_ne garbage (hwf.allocated c hc).ne
    exact share_congr (by rw [hold]) (by rw [hold])
  have hzero : share x (accept garbage s) s.nalloc = 0 := by simp [share, accept_context]
  change ((s.clients ++ [s.nalloc]).map (share x (accept garbage s))).sum = _
  rw [List.map_append, hshare]
  simp [hzero, gpuTotal]

theorem Balanced.accept (hs : Balanced s) (hwf : WellFormed s) : Balanced (accept {} s) := by
  refine ⟨fun y => (hs.accounted y).accept hwf {}, fun c hc => ?_, fun y => ?_, fun c hc => ?_⟩
  · have hne : c ≠ s.nalloc := by
      rintro rfl
      exact hc (accept_context {})
    rw [accept_client_of_ne {} hne] at hc
    exact List.mem_append_left _ (hs.connected c hc)
  · rw [gpuTotal_accept hwf]
    exact hs.total y
  · by_cases hnew : c = s.nalloc
    · subst hnew
      simp [XpuShare.accept]
    · rw [accept_client_of_ne {} hnew] at hc ⊢
      exact hs.blank c hc

theorem Balanced.enrol {m : RegisterMsg} {e : RegisterEnv} (hs : Balanced s)
    (hwf : WellFormed s) (hmem : c ∈ s.clients) (hunreg : hasRegistered s c = false) :
    Balanced (enrol cfg c m e s) := by
  have hnone : (s.client c).context = none := hwf.context_eq_none hunreg
  obtain ⟨hzero, hidle⟩ := hs.blank c hnone
  have hacc : ∀ y, Accounted y (XpuShare.enrol cfg c m e s) :=
    Accounted.enrol hs.accounted hwf hnone hidle
  obtain ⟨x, hclient, -, -, hclients, -, -, -, -⟩ := enrol_spec cfg c m e s
  generalize XpuShare.enrol cfg c m e s = t at hacc hclient hclients
  have hself : t.client c = registeredRecord m e x (s.client c) := by simp [hclient]
  have hother : ∀ d, d ≠ c → t.client d = s.client d := by
    intro d hd
    simp [hclient, hd]
  have hmemory : ∀ d, (t.client d).memoryAllocated = (s.client d).memoryAllocated := by
    intro d
    by_cases hd : d = c
    · rw [hd, hself]
      rfl
    · rw [hother d hd]
  refine ⟨hacc, fun d hd => ?_, fun y => ?_, fun d hd => ?_⟩
  · rw [hclients]
    by_cases hdc : d = c
    · rw [hdc]
      exact hmem
    · rw [hother d hdc] at hd
      exact hs.connected d hd
  · have hshare : ∀ d ∈ s.clients, share y t d = share y s d := by
      intro d _
      by_cases hdc : d = c
      · subst hdc
        simp [share, hmemory, hzero]
      · rw [share, share, hother d hdc]
    rw [gpuTotal_congr hclients hshare]
    exact hs.total y
  · by_cases hdc : d = c
    · rw [hdc, hself] at hd
      cases hd
    · rw [hother d hdc] at hd ⊢
      exact hs.blank d hd

theorem Balanced.memory {v : ℕ} (hs : Balanced s) (hwf : WellFormed s)
    (hctx : (s.client c).context = some x)
    (htotal : gpuTotal x (storeMemory c v s) < sizeMod) :
    Balanced (creditMemory cfg x c v s) := by
  have hclient := creditMemory_client cfg x c v s
  have hclients : (creditMemory cfg x c v s).clients = s.clients := by
    obtain ⟨usage, peak, overloaded, h⟩ := creditMemory_spec cfg x c v s
    rw [h]
    rfl
  have hcontext : ∀ d, ((creditMemory cfg x c v s).client d).context = (s.client d).context := by
    intro d
    rw [hclient]
    exact storeMemory_field Client.context (fun _ _ _ => rfl) c d v s
  have htotal' : gpuTotal x (creditMemory cfg x c v s) = gpuTotal x (storeMemory c v s) :=
    gpuTotal_congr hclients fun d _ => share_congr (by rw [hclient]) (by rw [hclient])
  have hshare : ∀ d y, y ≠ x ∨ d ≠ c →
      share y (creditMemory cfg x c v s) d = share y s d := by
    intro d y hne
    by_cases hdc : d = c
    · subst hdc
      have hy : y ≠ x := hne.resolve_right fun h => h rfl
      simp [share, hcontext, hctx, Ne.symm hy]
    · have hsame : (creditMemory cfg x c v s).client d = s.client d := by
        rw [hclient]
        exact Sched.modifyClient_client_ne _ _ _ _ hdc
      rw [share, share, hsame]
  refine ⟨fun y => ?_, fun d hd => ?_, fun y => ?_, fun d hd => ?_⟩
  · by_cases hy : y = x
    · subst hy
      refine (hs.accounted y).memory hctx ?_
      have hrunning : ((creditMemory cfg y c v s).ctx y).runningList = (s.ctx y).runningList :=
        congrArg LockTable.running (creditMemory_table cfg y c v s y)
      rw [← htotal'] at htotal
      refine (sum_le_gpuTotal ?_ fun d hd => ?_).trans_lt htotal
      · rw [hrunning]
        exact (hs.accounted y).nodup.sublist (List.sublist_append_right _ _)
      · rw [hrunning] at hd
        rw [hcontext, hclients]
        exact hs.mem_clients hwf (mem_entries_of_running hd)
    · exact (hs.accounted y).memory_ne hwf hctx hy
  · rw [hcontext] at hd
    rw [hclients]
    exact hs.connected d hd
  · by_cases hy : y = x
    · rw [hy, htotal']
      exact htotal
    · rw [gpuTotal_congr hclients fun d _ => hshare d y (Or.inl hy)]
      exact hs.total y
  · rw [hcontext] at hd
    have hdc : d ≠ c := by
      rintro rfl
      rw [hctx] at hd
      cases hd
    rw [hclient, storeMemory, Sched.modifyClient_client_ne _ _ _ _ hdc]
    exact hs.blank d hd

theorem Action.balanced (h : Action cfg env (fun _ => False) Disciplined s t)
    (hwf : WellFormed s) (hs : Balanced s) : Balanced t := by
  cases h with
  | block x h => exact hs.block hwf h fun _ hD => hD
  | tune h => exact hs.tuned h
  | accept garbage hok =>
      have hzero : garbage = {} := hok
      rw [hzero]
      exact hs.accept hwf
  | enrol c m e hok hmem hunreg hid => exact hs.enrol hwf hmem hunreg
  | insert c x hok hmem hon hctx hreq =>
      exact ⟨fun y => (hs.accounted y).insert (hok x hctx), hs.connected, hs.total, hs.blank⟩
  | memory c x v hok hmem hctx => exact hs.memory hwf hctx (hok x hctx)
  | unlink c hctx =>
      refine ⟨fun y => ⟨(hs.accounted y).nodup, (hs.accounted y).usage, (hs.accounted y).flags,
        (hs.accounted y).lock⟩, fun d hd => ?_, fun y => ?_, hs.blank⟩
      · have hne : d ≠ c := by
          rintro rfl
          exact hd hctx
        exact List.mem_filter.mpr ⟨hs.connected d hd, by simpa using hne⟩
      · refine lt_of_le_of_lt ?_ (hs.total y)
        exact (List.filter_sublist.map _).sum_le_sum fun _ _ => Nat.zero_le _
  | power on c hok =>
      exact ⟨fun y => ⟨(hs.accounted y).nodup, (hs.accounted y).usage, (hs.accounted y).flags,
        (hs.accounted y).lock⟩, hs.connected, hs.total, hs.blank⟩
  | clear s₀ c hok => exact False.elim hok

/-! ## Runs -/

theorem balanced_of_reaches (hsent : env.AllSent)
    (h : Transition.Reaches (Transition.guarded (Step cfg env) Disciplined) Sched.init s) :
    Balanced s := by
  have hdel : ∀ s e c, Disciplined s e → e.deletes s c → False := by
    intro s e c hok hdel
    cases e with
    | disconnect d => exact hok
    | message d m =>
        cases m with
        | register m e =>
            obtain ⟨rfl, hreg⟩ := hdel
            have hunreg : hasRegistered s d = false := hok
            rw [hunreg] at hreg
            cases hreg
        | _ => exact hdel
    | _ => exact hdel
  exact invariant_of_actions hsent.never hdel (fun _ _ ha hwf hs => ha.balanced hwf hs)
    Balanced.init h

/-- In every state of a run of disciplined clients with successful sends, the memory total of
a context is the memory of the clients in its running list, exactly these clients are
flagged as running, and the lock is held exactly when there are any. -/
theorem running_set_accounted (hsent : env.AllSent)
    (h : Transition.Reaches (Transition.guarded (Step cfg env) Disciplined) Sched.init s) :
    (∀ x, (s.ctx x).runningMemoryUsage =
        ((s.ctx x).runningList.map fun c => (s.client c).memoryAllocated).sum) ∧
      (∀ c, (s.client c).isRunning = true ↔ ∃ x, c ∈ (s.ctx x).runningList) ∧
      ∀ x, (s.ctx x).lockHeld = true ↔ (s.ctx x).runningList ≠ [] := by
  have hs := balanced_of_reaches hsent h
  have hwf := wellFormed_of_reaches (h.mono fun _ _ _ hstep => hstep.2)
  refine ⟨fun x => (hs.accounted x).usage, fun c => ?_, fun x => (hs.accounted x).lock⟩
  cases hctx : (s.client c).context with
  | none =>
      rw [(hs.blank c hctx).2]
      refine ⟨fun hfalse => absurd hfalse (by decide), ?_⟩
      rintro ⟨x, hx⟩
      exact absurd (mem_entries_of_running hx) (hwf.notMem_entries hctx x)
  | some x =>
      rw [(hs.accounted x).flags c hctx]
      refine ⟨fun hc => ⟨x, hc⟩, ?_⟩
      rintro ⟨y, hy⟩
      have hctx' := hwf.belongs y c (mem_entries_of_running hy)
      rw [hctx] at hctx'
      rw [Option.some.inj hctx']
      exact hy

/-- Two clients run side by side, and one of them reports more memory meanwhile. -/
theorem running_set_accounted_two_clients :
    ∃ s, Transition.Reaches (Transition.guarded (Step {} steady) Disciplined) Sched.init s ∧
      (s.ctx 0).runningList = [0, 1] ∧ (s.ctx 0).runningMemoryUsage = 12 ∧
      (s.ctx 0).runningMemoryUsage =
        ((s.ctx 0).runningList.map fun c => (s.client c).memoryAllocated).sum := by
  obtain ⟨s, hs, hrun, husage⟩ := exists_reaches {} steady Disciplined 9
    [.accept {}, .accept {}, enter 0 1, enter 1 2, .message 0 (.memUpdate 5),
      .message 0 .reqLock, .message 1 .reqLock, .message 1 (.memUpdate 7)]
    (fun s => (s.ctx 0).runningList = [0, 1] ∧ (s.ctx 0).runningMemoryUsage = 12)
    (by decide +kernel)
  exact ⟨s, hs, hrun, husage, (running_set_accounted steady_allSent hs).1 0⟩

end XpuShare
