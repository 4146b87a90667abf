import XpuShare.Verification.Accounting.Tallied

/-! # Oversubscription

`can_run_with_memory` takes a running total of zero for an idle GPU. A client above the safe
limit is therefore admitted beside clients that have not reported any memory. Unless such
clients meet in the queues of a context, several clients run together only within the safe
limit, or the context is marked as overloaded. -/

namespace XpuShare

variable {cfg : Config} {env : Env} {x y : CtxId} {s t : Sched} {c d : ClientId}

/-- The safe limit `total_memory * (100 - memory_reserve_percent) / 100` in exact
arithmetic. -/
def exactLimit (cfg : Config) (g : GpuContext) : ℕ :=
  g.totalMemory * (100 - cfg.memoryReservePercent).toNat / 100

theorem safeLimit_le (hreserve : 0 ≤ cfg.memoryReservePercent ∧ cfg.memoryReservePercent ≤ 100)
    (g : GpuContext) : safeLimit cfg g ≤ exactLimit cfg g := by
  rw [safeLimit, safeLimitOf, exactLimit, toSizeT_toInt32 (by omega) (by omega)]
  exact Nat.div_le_div_right (Nat.mod_le _ _)

/-- The events of runs that follow the protocol and never switch the scheduler off: zeroed
records, one registration for each connection, requests of clients without an entry, and
memory totals below `2 ^ 64`. -/
def Protocol (s : Sched) : Event → Prop
  | .accept garbage => garbage = {}
  | .message c (.register _ _) => hasRegistered s c = false
  | .message c .reqLock => ∀ x ∈ (s.client c).context, c ∉ (s.ctx x).entries ∧
      claimed x s + (s.client c).memoryAllocated < sizeMod
  | .message c (.memUpdate v) =>
      ∀ x ∈ (s.client c).context, claimed x (storeMemory c v s) < sizeMod
  | .message _ .schedOff => False
  | _ => True

/-- No client of the list has reported nothing while another is above the limit. -/
def Unmixed (limit : ℕ) (l : List ClientId) (memory : ClientId → ℕ) : Prop :=
  ∀ c ∈ l, ∀ d ∈ l, memory c = 0 → memory d ≤ limit

/-- No request and no memory report brings together, on a context that is not overloaded, a
client that has reported no memory and one above the safe limit. A running client may report
any positive amount. -/
def KeepsApart (cfg : Config) (s : Sched) : Event → Prop
  | .message c .reqLock => ∀ x ∈ (s.client c).context,
      (s.ctx x).memoryOverloaded = true ∨
        Unmixed (exactLimit cfg (s.ctx x)) (c :: (s.ctx x).entries) (memories s)
  | .message c (.memUpdate v) => ∀ x ∈ (s.client c).context,
      (s.ctx x).memoryOverloaded = true ∨ (c ∈ (s.ctx x).runningList ∧ v ≠ 0) ∨
        Unmixed (exactLimit cfg (s.ctx x)) (s.ctx x).entries
          (memories (storeMemory c v s))
  | _ => True

instance (s : Sched) : DecidablePred (Protocol s)
  | .accept _ => inferInstanceAs (Decidable (_ = _))
  | .message _ (.register _ _) => inferInstanceAs (Decidable (_ = _))
  | .message c .reqLock => inferInstanceAs (Decidable (∀ x ∈ (s.client c).context, _))
  | .message c (.memUpdate _) => inferInstanceAs (Decidable (∀ x ∈ (s.client c).context, _))
  | .message _ .schedOff => inferInstanceAs (Decidable False)
  | .message _ .schedOn | .message _ (.setTq _) | .message _ .lockReleased
  | .message _ .unknown | .disconnect _ | .timerBegin _ | .timerEnd _ _ | .annotated _ _ _ =>
      inferInstanceAs (Decidable True)

instance (limit : ℕ) (l : List ClientId) (memory : ClientId → ℕ) :
    Decidable (Unmixed limit l memory) :=
  inferInstanceAs (Decidable (∀ c ∈ l, ∀ d ∈ l, _ → _))

instance (s : Sched) : DecidablePred (KeepsApart cfg s)
  | .message c .reqLock => inferInstanceAs (Decidable (∀ x ∈ (s.client c).context, _))
  | .message c (.memUpdate _) => inferInstanceAs (Decidable (∀ x ∈ (s.client c).context, _))
  | .accept _ | .message _ (.register _ _) | .message _ .schedOff | .message _ .schedOn
  | .message _ (.setTq _) | .message _ .lockReleased | .message _ .unknown | .disconnect _
  | .timerBegin _ | .timerEnd _ _ | .annotated _ _ _ => inferInstanceAs (Decidable True)

/-- The context is marked as overloaded, or its queues are unmixed and clients that run
together stay within the safe limit. -/
def Contained (cfg : Config) (x : CtxId) (s : Sched) : Prop :=
  (s.ctx x).memoryOverloaded = true ∨
    Unmixed (exactLimit cfg (s.ctx x)) (s.ctx x).entries (memories s) ∧
      (2 ≤ (s.ctx x).runningList.length →
        (s.ctx x).runningMemoryUsage ≤ exactLimit cfg (s.ctx x))

/-! ## Blocks -/

theorem Unmixed.mono {limit : ℕ} {l m : List ClientId} {memory : ClientId → ℕ}
    (h : Unmixed limit m memory) (hsub : l ⊆ m) : Unmixed limit l memory :=
  fun c hc d hd => h c (hsub hc) d (hsub hd)

/-- A client admitted beside others keeps the total within the limit. -/
theorem usage_le_of_grant {rest : List ClientId}
    (hreserve : 0 ≤ cfg.memoryReservePercent ∧ cfg.memoryReservePercent ≤ 100)
    (hs : Accounted x s) (hfresh : (s.ctx x).memoryOverloaded = false)
    (hunmixed : Unmixed (exactLimit cfg (s.ctx x)) (s.ctx x).entries (memories s))
    (hreq : (s.ctx x).requests = c :: rest) (hok : canRunTest cfg s x c = true)
    (hbusy : (s.ctx x).runningList ≠ []) :
    ((s.ctx x).runningMemoryUsage + (s.client c).memoryAllocated) % sizeMod
      ≤ exactLimit cfg (s.ctx x) := by
  have hheld : (s.ctx x).lockHeld = true := hs.lock.mpr hbusy
  have hlimit := safeLimit_le hreserve (s.ctx x)
  have hmemory : canRunWithMemory cfg s x c = true := by
    rw [canRunTest, Bool.and_eq_true] at hok
    exact hok.2
  have hcases : (s.ctx x).runningMemoryUsage = 0 ∨
      ((s.ctx x).runningMemoryUsage + (s.client c).memoryAllocated) % sizeMod
        ≤ safeLimit cfg (s.ctx x) := by
    simp only [canRunWithMemory, hfresh, hheld] at hmemory
    cases hmode : cfg.schedulingMode <;> simp [hmode] at hmemory <;> exact hmemory
  rcases hcases with hzero | hle
  · obtain ⟨r, hr⟩ := List.exists_mem_of_ne_nil _ hbusy
    have hrzero : memories s r = 0 := by
      have hsplit := List.sum_map_erase (memories s) hr
      have husage := hs.usage
      rw [hzero, held] at husage
      omega
    have hc : memories s c ≤ exactLimit cfg (s.ctx x) :=
      hunmixed r (mem_entries_of_running hr) c
        (mem_entries_of_requests (by rw [hreq]; exact List.mem_cons_self)) hrzero
    rw [hzero, Nat.zero_add]
    exact (Nat.mod_le _ _).trans hc
  · exact hle.trans hlimit

theorem exactLimit_of_fixed {g g' : GpuContext} (h : g'.fixed = g.fixed) :
    exactLimit cfg g' = exactLimit cfg g := by
  have htotal : g'.totalMemory = g.totalMemory := (congrArg GpuContext.totalMemory h :)
  simp only [exactLimit, htotal]

/-- What a block does to the running list and the memory total. -/
theorem Block.running_cases {D : Exits} (h : Block cfg env D x s t) :
    ((t.ctx x).runningList = (s.ctx x).runningList ∧
        (t.ctx x).runningMemoryUsage = (s.ctx x).runningMemoryUsage) ∨
      (∃ c rest, (s.ctx x).requests = c :: rest ∧ canRunTest cfg s x c = true ∧
        (t.ctx x).runningList = (s.ctx x).runningList ++ [c] ∧
        (t.ctx x).runningMemoryUsage =
          ((s.ctx x).runningMemoryUsage + (s.client c).memoryAllocated) % sizeMod) ∨
      ∃ c ∈ (s.ctx x).runningList,
        (t.ctx x).runningList = (s.ctx x).runningList.erase c ∧
        (t.ctx x).runningMemoryUsage =
          memoryAfter (s.ctx x) (s.client c).memoryAllocated := by
  cases h with
  | window => exact Or.inl ⟨by simp, by simp⟩
  | defer c rest hreq hno hwait =>
      have heff := moveToWaitQueue_effect env hwait
      exact Or.inl ⟨congrArg LockTable.running heff.table_eq, heff.memory_eq⟩
  | promote front c back hwait hok =>
      have heff := promote_effect env x front c back s
      exact Or.inl ⟨congrArg LockTable.running heff.table_eq, heff.memory_eq⟩
  | grant c rest hreq hok hsend =>
      have hc : c ∈ (s.ctx x).entries := mem_entries_of_requests (by simp [hreq])
      have heff := grantSent_effect env hc
      exact Or.inr (Or.inl ⟨c, rest, hreq, hok, congrArg LockTable.running heff.table_eq,
        heff.memory_eq⟩)
  | refuse c rest hreq hok hsend hD => exact Or.inl ⟨rfl, rfl⟩
  | leave c hD =>
      by_cases hc : c ∈ (s.ctx x).runningList
      · have heff := leaveRunning_effect cfg env hc
        exact Or.inr (Or.inr ⟨c, hc, congrArg LockTable.running heff.table_eq, heff.memory_eq⟩)
      · rw [leaveRunning_of_notMem cfg env hc]
        have heff := clearLock_effect x s
        exact Or.inl ⟨congrArg LockTable.running heff.table_eq, heff.memory_eq⟩
  | withdraw c hD =>
      have heff := dropPending_effect x c s
      exact Or.inl ⟨congrArg LockTable.running heff.table_eq, heff.memory_eq⟩
  | unlink c hD hctx hgone => exact Or.inl ⟨rfl, rfl⟩

theorem Block.contained {D : Exits}
    (hreserve : 0 ≤ cfg.memoryReservePercent ∧ cfg.memoryReservePercent ≤ 100)
    (h : Block cfg env D x s t) (hacc : Accounted x s) (hs : Contained cfg x s) :
    Contained cfg x t := by
  have hover : (t.ctx x).memoryOverloaded = (s.ctx x).memoryOverloaded :=
    (congrArg GpuContext.memoryOverloaded h.frame.fixed :)
  have hlimit : exactLimit cfg (t.ctx x) = exactLimit cfg (s.ctx x) :=
    exactLimit_of_fixed h.frame.fixed
  by_cases hmarked : (s.ctx x).memoryOverloaded = true
  · exact Or.inl (hover.trans hmarked)
  · obtain ⟨hunmixed, htogether⟩ := hs.resolve_left hmarked
    refine Or.inr ⟨?_, fun htwo => ?_⟩
    · rw [hlimit, h.frame.memories]
      exact hunmixed.mono h.entries_subset
    · rw [hlimit]
      rcases h.running_cases with ⟨hrun, husage⟩ | ⟨c, rest, hreq, hok, hrun, husage⟩ |
        ⟨c, hc, hrun, husage⟩
      · rw [husage]
        exact htogether (hrun ▸ htwo)
      · have hbusy : (s.ctx x).runningList ≠ [] := by
          intro hnil
          rw [hrun, hnil] at htwo
          simp at htwo
        rw [husage]
        exact usage_le_of_grant hreserve hacc (by simpa using hmarked) hunmixed hreq hok hbusy
      · rw [hrun] at htwo
        have hbound := htogether (htwo.trans List.length_erase_le)
        rw [husage, memoryAfter]
        split <;> omega

/-! ## Actions -/

/-- What holds in runs that follow the protocol and keep the two kinds of clients apart. -/
structure Guarded (cfg : Config) (s : Sched) : Prop where
  accounted : ∀ x, Accounted x s
  fits : ∀ x, Fits x s
  contained : ∀ x, Contained cfg x s
  idle : ∀ c, (s.client c).context = none → (s.client c).isRunning = false

theorem Guarded.init : Guarded cfg Sched.init where
  accounted x := ⟨List.nodup_nil, rfl, fun c h => by simp [Sched.init] at h,
    by simp [Sched.init]⟩
  fits x := by simp [Fits, claimed, Sched.init, GpuContext.entries]
  contained x := Or.inr ⟨fun c hc => by simp [Sched.init, GpuContext.entries] at hc,
    fun htwo => by simp [Sched.init] at htwo⟩
  idle c _ := rfl

theorem Contained.congr (hs : Contained cfg y s) (htable : (t.ctx y).table = (s.ctx y).table)
    (hmem : ∀ c ∈ (s.ctx y).entries, memories t c = memories s c)
    (husage : (t.ctx y).runningMemoryUsage = (s.ctx y).runningMemoryUsage)
    (hover : (t.ctx y).memoryOverloaded = (s.ctx y).memoryOverloaded)
    (htotal : (t.ctx y).totalMemory = (s.ctx y).totalMemory) : Contained cfg y t := by
  have hlimit : exactLimit cfg (t.ctx y) = exactLimit cfg (s.ctx y) := by
    simp only [exactLimit, htotal]
  have hrun : (t.ctx y).runningList = (s.ctx y).runningList := congrArg LockTable.running htable
  rcases hs with hs | ⟨hunmixed, htogether⟩
  · exact Or.inl (hover.trans hs)
  · refine Or.inr ⟨?_, ?_⟩
    · intro c hc d hd hzero
      rw [entries_of_table htable] at hc hd
      rw [hmem c hc] at hzero
      rw [hmem d hd, hlimit]
      exact hunmixed c hc d hd hzero
    · rw [hrun, husage, hlimit]
      exact htogether

theorem Guarded.tallied (hs : Guarded cfg s) : Tallied s := ⟨hs.accounted, hs.fits, hs.idle⟩

/-- Contexts that a change leaves alone stay as they are. -/
theorem Contained.untouched (hs : Contained cfg y s) (hwf : WellFormed s)
    (hctx : t.ctx y = s.ctx y) (hclient : ∀ c, (s.client c).context = some y →
      (t.client c).memoryAllocated = (s.client c).memoryAllocated) : Contained cfg y t := by
  have hmem : ∀ c ∈ (s.ctx y).entries, memories t c = memories s c :=
    fun c hc => hclient c (hwf.belongs y c hc)
  exact hs.congr (by rw [hctx]) hmem (by rw [hctx]) (by rw [hctx]) (by rw [hctx])

theorem Guarded.contained_block {D : Exits}
    (hreserve : 0 ≤ cfg.memoryReservePercent ∧ cfg.memoryReservePercent ≤ 100)
    (hs : Guarded cfg s) (hwf : WellFormed s) (h : Block cfg env D x s t) (y : CtxId) :
    Contained cfg y t := by
  by_cases hy : y = x
  · subst hy
    exact h.contained hreserve (hs.accounted y) (hs.contained y)
  · have hlocal := h.local (hwf.belongs x)
    refine (hs.contained y).untouched hwf (hlocal.ctx_ne y hy) fun c hc => ?_
    rw [hlocal.client c (by rw [hc]; exact fun he => hy (Option.some.inj he))]

theorem Contained.tuned (hs : Contained cfg y s) (h : Tuned s t) : Contained cfg y t :=
  hs.congr (table_of_core (h.ctx y)) (fun c _ => by rw [h.memories])
    (usage_of_core (h.ctx y)) (overloaded_of_core (h.ctx y)) (totalMemory_of_core (h.ctx y))

theorem Contained.accept (hs : Contained cfg y s) (hwf : WellFormed s) (garbage : Client) :
    Contained cfg y (accept garbage s) := by
  refine hs.untouched hwf rfl fun c hc => ?_
  rw [accept_client_of_ne garbage ?_]
  rintro rfl
  rw [hwf.fresh s.nalloc le_rfl] at hc
  cases hc

theorem Contained.enrol {m : RegisterMsg} {e : RegisterEnv} (hs : Contained cfg y s)
    (hwf : WellFormed s) : Contained cfg y (enrol cfg c m e s) := by
  have hmem : ∀ d, _ := fun d => enrol_memory cfg c d m e s
  obtain ⟨x, -, -, -, -, -, -, -, hctx⟩ := enrol_spec cfg c m e s
  generalize XpuShare.enrol cfg c m e s = t at hctx hmem ⊢
  rcases hctx with ⟨-, hctx⟩ | ⟨-, hctx⟩
  · exact hs.untouched hwf (by rw [hctx]) fun d _ => hmem d
  · by_cases hy : y = x
    · subst hy
      refine Or.inr ⟨fun d hd => ?_, fun htwo => ?_⟩
      · simp [hctx, GpuContext.entries] at hd
      · simp [hctx] at htwo
    · exact hs.untouched hwf (by rw [hctx, Function.update_of_ne hy]) fun d _ => hmem d

theorem Contained.insert (hs : Contained cfg y s)
    (hapart : (s.ctx x).memoryOverloaded = true ∨
      Unmixed (exactLimit cfg (s.ctx x)) (c :: (s.ctx x).entries) (memories s)) :
    Contained cfg y (s.modifyCtx x fun g => { g with requests := g.requests ++ [c] }) := by
  have hperm := LockTable.arrive_entries_perm (t := (s.ctx x).table) (a := c)
  by_cases hy : y = x
  · subst hy
    rw [Contained, Sched.modifyCtx_ctx_self]
    rcases hapart with hover | hunmixed
    · exact Or.inl hover
    · rcases hs with hover | ⟨-, htogether⟩
      · exact Or.inl hover
      · exact Or.inr ⟨hunmixed.mono hperm.subset, htogether⟩
  · rwa [Contained, ← Sched.modifyCtx_ctx_ne s x y
      (fun g => { g with requests := g.requests ++ [c] }) hy] at hs

/-- Whether a report leaves its context marked as overloaded. -/
theorem creditMemory_overloaded (cfg : Config) (x : CtxId) (c : ClientId) (v : ℕ) (s : Sched) :
    ((creditMemory cfg x c v s).ctx x).memoryOverloaded =
      ((s.ctx x).memoryOverloaded || ((s.client c).isRunning &&
        decide (safeLimit cfg (s.ctx x) <
          ((creditMemory cfg x c v s).ctx x).runningMemoryUsage))) := by
  by_cases hrun : (s.client c).isRunning = true
  · rw [creditMemory, if_pos hrun, accountMemory, Sched.modifyCtx_ctx_self, hrun]
    rfl
  · rw [creditMemory, if_neg hrun]
    simp [hrun, storeMemory]

theorem Contained.memory {v : ℕ}
    (hreserve : 0 ≤ cfg.memoryReservePercent ∧ cfg.memoryReservePercent ≤ 100)
    (hs : Contained cfg x s) (hacc : Accounted x s)
    (hacc' : Accounted x (creditMemory cfg x c v s)) (hctx : (s.client c).context = some x)
    (hapart : (s.ctx x).memoryOverloaded = true ∨ (c ∈ (s.ctx x).runningList ∧ v ≠ 0) ∨
      Unmixed (exactLimit cfg (s.ctx x)) (s.ctx x).entries (memories (storeMemory c v s))) :
    Contained cfg x (creditMemory cfg x c v s) := by
  have hover := creditMemory_overloaded cfg x c v s
  have htable := creditMemory_table cfg x c v s x
  have hrunning : ((creditMemory cfg x c v s).ctx x).runningList = (s.ctx x).runningList :=
    congrArg LockTable.running htable
  have hmem := memories_creditMemory cfg x c v s
  have hlimit : exactLimit cfg ((creditMemory cfg x c v s).ctx x) = exactLimit cfg (s.ctx x) := by
    obtain ⟨usage, peak, overloaded, h⟩ := creditMemory_spec cfg x c v s
    rw [h, Sched.modifyCtx_ctx_self]
    rfl
  have hsafe := safeLimit_le hreserve (s.ctx x)
  have husage := hacc'.usage
  rw [memories_storeMemory] at hapart
  by_cases hmarked : (s.ctx x).memoryOverloaded = true
  · exact Or.inl (by rw [hover, hmarked, Bool.true_or])
  · obtain ⟨hunmixed, htogether⟩ := hs.resolve_left hmarked
    have hapart' := hapart.resolve_left hmarked
    by_cases hrun : (s.client c).isRunning = true
    · have hc := (hacc.flags c hctx).mp hrun
      by_cases hlarge : safeLimit cfg (s.ctx x) <
          ((creditMemory cfg x c v s).ctx x).runningMemoryUsage
      · exact Or.inl (by rw [hover]; simp [hrun, hlarge])
      · refine Or.inr ⟨?_, fun _ => by rw [hlimit]; omega⟩
        rw [entries_of_table htable, hmem, hlimit]
        rcases hapart' with ⟨-, hv⟩ | hgiven
        · have hvle : v ≤ held x (creditMemory cfg x c v s) := by
            rw [held, hrunning, hmem, ← List.sum_map_erase _ hc, Function.update_self]
            exact Nat.le_add_right _ _
          intro a ha b hb hzero
          have hac : a ≠ c := by
            rintro rfl
            rw [Function.update_self] at hzero
            exact hv hzero
          rw [Function.update_of_ne hac] at hzero
          by_cases hbc : b = c
          · subst hbc
            rw [Function.update_self]
            omega
          · rw [Function.update_of_ne hbc]
            exact hunmixed a ha b hb hzero
        · exact hgiven
    · have hc : c ∉ (s.ctx x).runningList := fun hc => hrun ((hacc.flags c hctx).mpr hc)
      have hsame : ((creditMemory cfg x c v s).ctx x).runningMemoryUsage
          = (s.ctx x).runningMemoryUsage := by
        rw [creditMemory, if_neg hrun]
        rfl
      refine Or.inr ⟨?_, ?_⟩
      · rw [entries_of_table htable, hmem, hlimit]
        exact hapart'.resolve_left fun h => hc h.1
      · rw [hrunning, hsame, hlimit]
        exact htogether

theorem Protocol.tallies {e : Event} (h : Protocol s e) : Tallies s e := by
  cases e with
  | accept garbage =>
      have hzero : garbage = {} := h
      rw [hzero]
      rfl
  | message c m =>
      cases m with
      | reqLock => exact h
      | memUpdate v => exact h
      | schedOff => exact h
      | _ => trivial
  | _ => trivial

theorem Action.guarded {D : ClientId → Prop}
    (hreserve : 0 ≤ cfg.memoryReservePercent ∧ cfg.memoryReservePercent ≤ 100)
    (h : Action cfg env D (fun s e => Protocol s e ∧ KeepsApart cfg s e) s t)
    (hwf : WellFormed s) (hs : Guarded cfg s) : Guarded cfg t := by
  have htallied := (h.mono fun _ _ hok => hok.1.tallies).tallied hwf hs.tallied
  refine ⟨htallied.accounted, htallied.fits, fun y => ?_, htallied.idle⟩
  have hy := hs.contained y
  cases h with
  | block x h => exact hs.contained_block hreserve hwf h y
  | tune h => exact hy.tuned h
  | accept garbage hok => exact hy.accept hwf garbage
  | enrol c m e hok hmem hunreg hid => exact hy.enrol hwf
  | insert c x hok hmem hon hctx hreq => exact hy.insert (hok.2 x hctx)
  | memory c x v hok hmem hctx =>
      by_cases hyx : y = x
      · subst hyx
        exact hy.memory hreserve (hs.accounted y) (htallied.accounted y) hctx (hok.2 y hctx)
      · obtain ⟨hsame, hother⟩ := creditMemory_untouched cfg v hctx hyx
        exact hy.untouched hwf hsame hother
  | unlink c hctx => exact hy
  | power on c hok => exact hy
  | clear s₀ c hok => exact False.elim hok.1

/-! ## Runs -/

/-- In runs that follow the protocol and keep clients without reported memory apart from
clients above the safe limit, two clients run together only within the limit, or their
context is marked as overloaded. -/
theorem no_silent_oversubscription
    (hreserve : 0 ≤ cfg.memoryReservePercent ∧ cfg.memoryReservePercent ≤ 100)
    (h : Transition.Reaches (Transition.guarded (Step cfg env)
      fun s e => Protocol s e ∧ KeepsApart cfg s e) Sched.init s)
    (x : CtxId) (htwo : 2 ≤ (s.ctx x).runningList.length) :
    (s.ctx x).runningMemoryUsage ≤
        (s.ctx x).totalMemory * (100 - cfg.memoryReservePercent).toNat / 100 ∨
      (s.ctx x).memoryOverloaded = true := by
  have hs := invariant_of_any_actions (I := Guarded cfg)
    (fun _ _ ha hwf hs => ha.guarded hreserve hwf hs) Guarded.init h
  rcases hs.contained x with hover | ⟨-, htogether⟩
  · exact Or.inr hover
  · exact Or.inl (htogether htwo)

/-- Two clients with five and six gigabytes run together on the default GPU. -/
theorem no_silent_oversubscription_two_clients :
    ∃ s, Transition.Reaches (Transition.guarded (Step {} steady)
        fun s e => Protocol s e ∧ KeepsApart {} s e) Sched.init s ∧
      (s.ctx 0).runningList = [0, 1] ∧
      ((s.ctx 0).runningMemoryUsage ≤ (s.ctx 0).totalMemory * (100 - 10 : ℤ).toNat / 100 ∨
        (s.ctx 0).memoryOverloaded = true) := by
  obtain ⟨s, hs, hrun⟩ := exists_reaches {} steady
    (fun s e => Protocol s e ∧ KeepsApart {} s e) 9
    [.accept {}, .accept {}, enter 0 1, enter 1 2, .message 0 (.memUpdate 5000000000),
      .message 1 (.memUpdate 6000000000), .message 0 .reqLock, .message 1 .reqLock]
    (fun s => (s.ctx 0).runningList = [0, 1]) (by decide +kernel)
  exact ⟨s, hs, hrun, no_silent_oversubscription (by decide) hs 0 (by rw [hrun]; decide)⟩

/-- A client with twenty gigabytes is admitted beside one that has not reported any memory,
and nothing marks the context as overloaded. -/
theorem oversubscribed_beside_unreported :
    ¬ ∀ (cfg : Config) (env : Env) (s : Sched) (x : CtxId), cfg.schedulingMode ≠ .serial →
      0 ≤ cfg.memoryReservePercent ∧ cfg.memoryReservePercent ≤ 100 →
      Transition.Reaches (Transition.guarded (Step cfg env) Protocol) Sched.init s →
      2 ≤ (s.ctx x).runningList.length →
      (s.ctx x).runningMemoryUsage ≤
          (s.ctx x).totalMemory * (100 - cfg.memoryReservePercent).toNat / 100 ∨
        (s.ctx x).memoryOverloaded = true := by
  intro h
  obtain ⟨s, hs, htwo, hlarge, hover⟩ := exists_reaches {} steady Protocol 9
    [.accept {}, .accept {}, enter 0 1, enter 1 2, .message 1 (.memUpdate 20000000000),
      .message 0 .reqLock, .message 1 .reqLock]
    (fun s => 2 ≤ (s.ctx 0).runningList.length ∧
      (s.ctx 0).totalMemory * (100 - 10 : ℤ).toNat / 100 < (s.ctx 0).runningMemoryUsage ∧
      (s.ctx 0).memoryOverloaded = false) (by decide +kernel)
  rcases h {} steady s 0 (by decide) (by decide) hs htwo with hle | hmarked
  · exact absurd hlarge (Nat.not_lt.mpr hle)
  · rw [hover] at hmarked
    cases hmarked

end XpuShare
