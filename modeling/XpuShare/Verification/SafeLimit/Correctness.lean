import XpuShare.Model.Snapshot
import XpuShare.Verification.Scheduler.Moves
import XpuShare.Verification.Scheduler.Runs

/-! # The safe limit

The limit on the memory of the running clients is computed at three places from the
configured memory and the configured reserve, neither of which `init_config` clamps. It is
the intended share of the memory exactly when the reserve is a percentage and the product
fits into `size_t`. -/

namespace XpuShare

variable {cfg : Config} {env : Env} {x : CtxId} {s t : Sched}

/-- The limit of a context is the exact share of its memory, also where it is reported, and
neither admission beside a running client nor the overload test lets more through than the
memory of the GPU. -/
structure LimitSound (cfg : Config) (s : Sched) (x : CtxId) : Prop where
  exact : (safeLimit cfg (s.ctx x) : ℤ) =
    (s.ctx x).totalMemory * (100 - cfg.memoryReservePercent) / 100
  reported : ((snapshotContext cfg s x).safeLimit : ℤ) =
    (s.ctx x).totalMemory * (100 - cfg.memoryReservePercent) / 100
  within : safeLimit cfg (s.ctx x) ≤ (s.ctx x).totalMemory
  admits : ∀ c, (s.ctx x).memoryOverloaded = false → (s.ctx x).lockHeld = true →
    (s.ctx x).runningMemoryUsage ≠ 0 → canRunWithMemory cfg s x c = true →
    ((s.ctx x).runningMemoryUsage + (s.client c).memoryAllocated) % sizeMod ≤
      (s.ctx x).totalMemory
  detects : ∀ old new, ((accountMemory cfg x old new s).ctx x).memoryOverloaded = false →
    ((accountMemory cfg x old new s).ctx x).runningMemoryUsage ≤ (s.ctx x).totalMemory

/-! ## Every context has the configured memory -/

/-- The contexts have the memory of the configuration. -/
def Equipped (cfg : Config) (s : Sched) : Prop :=
  ∀ x < s.nctx, (s.ctx x).totalMemory = cfg.defaultGpuMemory

theorem Equipped.of_ctx (hs : Equipped cfg s) (hnctx : t.nctx = s.nctx)
    (hctx : ∀ x, (t.ctx x).totalMemory = (s.ctx x).totalMemory) : Equipped cfg t := by
  intro y hy
  rw [hctx]
  exact hs y (hnctx ▸ hy)

theorem totalMemory_modifyCtx {f : GpuContext → GpuContext}
    (hf : ∀ g, (f g).totalMemory = g.totalMemory) (s : Sched) (x y : CtxId) :
    ((s.modifyCtx x f).ctx y).totalMemory = (s.ctx y).totalMemory := by
  rw [Sched.modifyCtx_ctx]
  split
  · rename_i hy
    rw [hf, hy]
  · rfl

theorem Equipped.enrol (hs : Equipped cfg s) (c : ClientId) (m : RegisterMsg)
    (e : RegisterEnv) : Equipped cfg (enrol cfg c m e s) := by
  intro y hy
  unfold XpuShare.enrol getOrCreateGpuContext at hy ⊢
  split at hy
  · exact hs y hy
  · have hlt : y < s.nctx + 1 := hy
    clear hy
    simp only [Sched.modifyClient_ctx]
    rw [Function.update_apply]
    split
    · rfl
    · rename_i hne
      exact hs y (Nat.lt_succ_iff_lt_or_eq.mp hlt |>.resolve_right hne)

theorem Action.equipped {D : ClientId → Prop} {ok : Sched → Event → Prop}
    (h : Action cfg env D ok s t) (hs : Equipped cfg s) : Equipped cfg t := by
  cases h with
  | block x h =>
      have hframe := h.frame
      refine hs.of_ctx hframe.nctx fun y => ?_
      by_cases hy : y = x
      · rw [hy]
        exact (congrArg GpuContext.totalMemory hframe.fixed :)
      · rw [hframe.ctx_ne y hy]
  | tune h => exact hs.of_ctx h.nctx fun y => totalMemory_of_core (h.ctx y)
  | accept garbage hok => exact hs
  | enrol c m e hok hmem hunreg hid => exact hs.enrol c m e
  | insert c x hok hmem hon hctx hreq =>
      refine hs.of_ctx rfl fun y => ?_
      apply totalMemory_modifyCtx
      intro g
      rfl
  | memory c x v hok hmem hctx =>
      obtain ⟨usage, peak, overloaded, heq⟩ := creditMemory_spec cfg x c v s
      rw [heq]
      refine hs.of_ctx rfl fun y => ?_
      apply totalMemory_modifyCtx (s := storeMemory c v s)
      intro g
      rfl
  | unlink c hctx => exact hs
  | power on c hok => exact hs
  | clear s₀ c hok =>
      refine hs.of_ctx rfl fun y => ?_
      simp only [clearRequests]
      split <;> rfl

/-- In every run the contexts have the memory of the configuration. -/
theorem equipped_of_reaches (h : Transition.Reaches (Step cfg env) Sched.init s) :
    Equipped cfg s := by
  have hboth : WellFormed s ∧ Equipped cfg s := by
    refine h.invariant (I := fun s => WellFormed s ∧ Equipped cfg s) ?_ ?_
    · intro s e t hstep hs
      have hactions : Actions cfg env (fun _ => True) (fun _ _ => True) s t :=
        hstep.actions (fun _ _ _ => trivial) hs.1 trivial fun _ _ => trivial
      exact ⟨hstep.wellFormed hs.1, hactions.invariant (fun _ _ ha hi => ha.equipped hi) hs.2⟩
    · refine ⟨WellFormed.init, fun y hy => ?_⟩
      exact absurd hy (Nat.not_lt_zero y)
  exact hboth.2

/-! ## The arithmetic -/

theorem toSizeT_mul_dvd {n : ℕ} (hn : (n : ℤ) ∣ sizeMod) (z : ℤ) : n ∣ toSizeT (z * n) := by
  have hdvd : (n : ℤ) ∣ z * n % sizeMod :=
    (EuclideanDomain.dvd_mod_iff hn).mpr (Dvd.intro_left z rfl)
  have hnonneg : 0 ≤ z * n % (sizeMod : ℤ) := Int.emod_nonneg _ (by norm_num)
  rw [toSizeT, ← Int.natCast_dvd_natCast, Int.toNat_of_nonneg hnonneg]
  exact hdvd

/-- The configured memory is a whole number of gigabytes. -/
theorem gib_dvd_defaultGpuMemory (getenv : String → Option String) :
    2 ^ 30 ∣ (initConfig getenv).defaultGpuMemory := by
  simp only [initConfig]
  split
  · exact toSizeT_mul_dvd (by norm_num) _
  · norm_num

/-- For a percentage the computed limit is within the memory. -/
theorem safeLimitOf_le {total : ℕ} {percent : ℤ} (hpercent : 0 ≤ percent ∧ percent ≤ 100) :
    safeLimitOf total percent ≤ total := by
  have hshare : total * (100 - percent).toNat ≤ total * 100 :=
    Nat.mul_le_mul_left _ (by omega)
  rw [safeLimitOf, toSizeT_toInt32 (by omega) (by omega)]
  calc total * (100 - percent).toNat % sizeMod / 100
      ≤ total * (100 - percent).toNat / 100 := Nat.div_le_div_right (Nat.mod_le _ _)
    _ ≤ total * 100 / 100 := Nat.div_le_div_right hshare
    _ = total := Nat.mul_div_cancel _ (by norm_num)

/-- For a percentage the computed limit is exact if and only if the product fits. -/
theorem safeLimitOf_exact_iff {total : ℕ} {percent : ℤ}
    (hpercent : 0 ≤ percent ∧ percent ≤ 100) :
    (safeLimitOf total percent : ℤ) = total * (100 - percent) / 100 ↔
      total * (100 - percent) < 2 ^ 64 := by
  have hcast : (total * (100 - percent) : ℤ) = (total * (100 - percent).toNat : ℕ) := by
    rw [Nat.cast_mul, Int.toNat_of_nonneg (by omega)]
  rw [safeLimitOf, toSizeT_toInt32 (by omega) (by omega), hcast, sizeMod]
  generalize total * (100 - percent).toNat = product
  constructor
  · intro h
    by_contra hlarge
    have hwrap : product % 2 ^ 64 + 2 ^ 64 ≤ product := by omega
    omega
  · intro hfits
    rw [Nat.mod_eq_of_lt (by exact_mod_cast hfits)]
    rfl

/-- The limit of a GPU whose memory is a whole number of gigabytes is exact and within the
memory if and only if there is no memory or the reserve is a percentage and the product
fits. -/
theorem safeLimitOf_sound_iff {total : ℕ} (percent : ℤ) (hgib : 2 ^ 30 ∣ total) :
    ((safeLimitOf total percent : ℤ) = total * (100 - percent) / 100 ∧
        safeLimitOf total percent ≤ total) ↔
      total = 0 ∨
        0 ≤ percent ∧ percent ≤ 100 ∧ total * (100 - percent) < 2 ^ 64 := by
  rcases Nat.eq_zero_or_pos total with rfl | hpos
  · simp [safeLimitOf]
  · have hlarge : 2 ^ 30 ≤ total := Nat.le_of_dvd hpos hgib
    constructor
    · rintro ⟨hexact, hwithin⟩
      have hlow : 0 ≤ percent := by
        by_contra hneg
        have hmore : (total : ℤ) * 101 ≤ total * (100 - percent) :=
          mul_le_mul_of_nonneg_left (by omega) (by omega)
        omega
      have hhigh : percent ≤ 100 := by
        by_contra habove
        have hless : (total : ℤ) * (100 - percent) ≤ total * (-1) :=
          mul_le_mul_of_nonneg_left (by omega) (by omega)
        omega
      exact Or.inr ⟨hlow, hhigh, (safeLimitOf_exact_iff ⟨hlow, hhigh⟩).mp hexact⟩
    · rintro (hzero | ⟨hlow, hhigh, hfits⟩)
      · omega
      · exact ⟨(safeLimitOf_exact_iff ⟨hlow, hhigh⟩).mpr hfits, safeLimitOf_le ⟨hlow, hhigh⟩⟩

/-! ## What the limit admits -/

theorem LimitSound.of_exact
    (hexact : (safeLimit cfg (s.ctx x) : ℤ) =
      (s.ctx x).totalMemory * (100 - cfg.memoryReservePercent) / 100)
    (hwithin : safeLimit cfg (s.ctx x) ≤ (s.ctx x).totalMemory) : LimitSound cfg s x where
  exact := hexact
  reported := hexact
  within := hwithin
  admits c hover hlock husage h := by
    have hfits : ((s.ctx x).runningMemoryUsage + (s.client c).memoryAllocated) % sizeMod ≤
        safeLimit cfg (s.ctx x) := by
      simp only [canRunWithMemory, hover, hlock, husage] at h
      cases hmode : cfg.schedulingMode <;> simp [hmode] at h <;> exact h
    exact hfits.trans hwithin
  detects old new h := by
    simp only [accountMemory, Sched.modifyCtx_ctx_self, Bool.or_eq_false_iff,
      decide_eq_false_iff_not, not_lt] at h ⊢
    exact h.2.trans hwithin

/-- Some run creates a context. -/
theorem exists_context (cfg : Config) :
    ∃ s, Transition.Reaches (Step cfg steady) Sched.init s ∧ 0 < s.nctx := by
  obtain ⟨s, hs, hpos⟩ := exists_reaches cfg steady (fun _ _ => True) 1
    [.accept {}, enter 0 1] (fun s => 0 < s.nctx) rfl
  exact ⟨s, hs.mono fun _ _ _ h => h.2, hpos⟩

/-- Under a configuration that `init_config` can produce, the safe limit is sound in every
run if and only if the GPU has no memory at all or the reserve is a percentage and the
product of the memory with the remaining percentage fits into 64 bits. -/
theorem safe_limit_sound_iff (getenv : String → Option String) :
    (∀ env s, Transition.Reaches (Step (initConfig getenv) env) Sched.init s →
        ∀ x < s.nctx, LimitSound (initConfig getenv) s x) ↔
      (initConfig getenv).defaultGpuMemory = 0 ∨
        0 ≤ (initConfig getenv).memoryReservePercent ∧
        (initConfig getenv).memoryReservePercent ≤ 100 ∧
        (initConfig getenv).defaultGpuMemory *
          (100 - (initConfig getenv).memoryReservePercent) < 2 ^ 64 := by
  have harith := safeLimitOf_sound_iff (initConfig getenv).memoryReservePercent
    (gib_dvd_defaultGpuMemory getenv)
  rw [← harith]
  constructor
  · intro h
    obtain ⟨s, hs, hpos⟩ := exists_context (initConfig getenv)
    have hsound := h steady s hs 0 hpos
    have htotal := equipped_of_reaches hs 0 hpos
    refine ⟨?_, ?_⟩
    · rw [← htotal]
      exact hsound.exact
    · rw [← htotal]
      exact hsound.within
  · rintro ⟨hexact, hwithin⟩ env s hs x hx
    have htotal := equipped_of_reaches hs x hx
    apply LimitSound.of_exact
    · rw [safeLimit, htotal]
      exact hexact
    · rw [safeLimit, htotal]
      exact hwithin

/-- With a reserve of minus one percent the limit exceeds the memory of the GPU, and 17 GiB
of reported memory do not overload a GPU of 16 GiB. -/
theorem negative_reserve_unsound :
    ∃ s, Transition.Reaches
        (Step (initConfig (environment [("NVSHARE_MEMORY_RESERVE_PERCENT", "-1")])) steady)
        Sched.init s ∧
      0 < s.nctx ∧
      ¬ LimitSound (initConfig (environment [("NVSHARE_MEMORY_RESERVE_PERCENT", "-1")])) s 0 := by
  obtain ⟨s, hs, hpos⟩ := exists_context
    (initConfig (environment [("NVSHARE_MEMORY_RESERVE_PERCENT", "-1")]))
  refine ⟨s, hs, hpos, fun hsound => ?_⟩
  have hwithin := hsound.within
  rw [safeLimit, equipped_of_reaches hs 0 hpos] at hwithin
  revert hwithin
  decide

end XpuShare
