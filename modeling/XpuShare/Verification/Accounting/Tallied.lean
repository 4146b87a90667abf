import XpuShare.Verification.Accounting.Blocks
import XpuShare.Verification.Isolation.Correctness

/-! # Accounts along runs with departures

The accounts of every context stay in step through any order of grants, releases, reports
and disconnects, as long as the memory of the clients in its queues fits in `size_t`. -/

namespace XpuShare

variable {cfg : Config} {env : Env} {x y : CtxId} {s t : Sched} {c d : ClientId}

/-- The events that keep the accounts: records that do not say they run, requests of clients
without an entry, memory that fits in `size_t`, and no switching off. -/
def Tallies (s : Sched) : Event → Prop
  | .accept garbage => garbage.isRunning = false
  | .message c .reqLock => ∀ x ∈ (s.client c).context, c ∉ (s.ctx x).entries ∧
      claimed x s + (s.client c).memoryAllocated < sizeMod
  | .message c (.memUpdate v) =>
      ∀ x ∈ (s.client c).context, claimed x (storeMemory c v s) < sizeMod
  | .message _ .schedOff => False
  | _ => True

instance (s : Sched) : DecidablePred (Tallies s)
  | .accept _ => inferInstanceAs (Decidable (_ = _))
  | .message c .reqLock => inferInstanceAs (Decidable (∀ x ∈ (s.client c).context, _))
  | .message c (.memUpdate _) => inferInstanceAs (Decidable (∀ x ∈ (s.client c).context, _))
  | .message _ .schedOff => inferInstanceAs (Decidable False)
  | .message _ (.register _ _) | .message _ .schedOn | .message _ (.setTq _)
  | .message _ .lockReleased | .message _ .unknown | .disconnect _ | .timerBegin _
  | .timerEnd _ _ | .annotated _ _ _ => inferInstanceAs (Decidable True)

/-- The accounts of every context. -/
structure Tallied (s : Sched) : Prop where
  accounted : ∀ x, Accounted x s
  fits : ∀ x, Fits x s
  idle : ∀ c, (s.client c).context = none → (s.client c).isRunning = false

theorem Tallied.init : Tallied Sched.init where
  accounted x := ⟨List.nodup_nil, rfl, fun c h => by simp [Sched.init] at h,
    by simp [Sched.init]⟩
  fits x := by simp [Fits, claimed, Sched.init, GpuContext.entries]
  idle c _ := rfl

/-- The queues of a context that keeps its table and the memory of its clients. -/
theorem claimed_congr (htable : (t.ctx y).table = (s.ctx y).table)
    (hmem : ∀ c ∈ (s.ctx y).entries, memories t c = memories s c) :
    claimed y t = claimed y s := by
  rw [claimed, claimed, entries_of_table htable]
  exact congrArg List.sum (List.map_congr_left hmem)

/-- A context that a change leaves alone keeps what its clients have claimed. -/
theorem Fits.untouched (hs : Fits y s) (hwf : WellFormed s) (hctx : t.ctx y = s.ctx y)
    (hclient : ∀ c, (s.client c).context = some y →
      (t.client c).memoryAllocated = (s.client c).memoryAllocated) : Fits y t := by
  rw [Fits, claimed_congr (by rw [hctx]) fun c hc => hclient c (hwf.belongs y c hc)]
  exact hs

theorem Tallied.block {D : Exits} (hs : Tallied s) (hwf : WellFormed s)
    (h : Block cfg env D x s t) : Tallied t := by
  have hlocal := h.local (hwf.belongs x)
  have hkeep : ∀ y, y ≠ x → ∀ c, (s.client c).context = some y → t.client c = s.client c := by
    intro y hy c hc
    refine hlocal.client c ?_
    rw [hc]
    exact fun he => hy (Option.some.inj he)
  refine ⟨fun y => ?_, fun y => ?_, fun c hc => ?_⟩
  · by_cases hy : y = x
    · subst hy
      exact h.accounted (hs.accounted y) (hs.fits y)
    · exact (hs.accounted y).congr (hlocal.ctx_ne y hy) (fun c hc => by rwa [hlocal.context] at hc)
        (hkeep y hy) (hwf.belongs y)
  · by_cases hy : y = x
    · subst hy
      exact h.fits (hs.fits y)
    · exact (hs.fits y).untouched hwf (hlocal.ctx_ne y hy) fun c hc => by rw [hkeep y hy c hc]
  · rw [hlocal.context] at hc
    rw [hlocal.client c (by simp [hc])]
    exact hs.idle c hc

theorem Tallied.tuned (hs : Tallied s) (h : Tuned s t) : Tallied t := by
  refine ⟨fun y => (hs.accounted y).tuned h, fun y => ?_, fun c hc => ?_⟩
  · rw [Fits, claimed_congr (table_of_core (h.ctx y)) fun c _ => by rw [h.memories]]
    exact hs.fits y
  · rw [context_of_core (h.client c)] at hc
    rw [isRunning_of_core (h.client c)]
    exact hs.idle c hc

theorem Tallied.accept {garbage : Client} (hs : Tallied s) (hwf : WellFormed s)
    (hidle : garbage.isRunning = false) : Tallied (accept garbage s) := by
  refine ⟨fun y => (hs.accounted y).accept hwf garbage, fun y => ?_, fun c hc => ?_⟩
  · refine (hs.fits y).untouched hwf rfl fun c hc => ?_
    rw [accept_client_of_ne garbage ?_]
    rintro rfl
    rw [hwf.fresh s.nalloc le_rfl] at hc
    cases hc
  · by_cases hnew : c = s.nalloc
    · subst hnew
      simpa [XpuShare.accept] using hidle
    · rw [accept_client_of_ne garbage hnew] at hc ⊢
      exact hs.idle c hc

/-- Registration keeps the memory of every record. -/
theorem enrol_memory (cfg : Config) (c d : ClientId) (m : RegisterMsg) (e : RegisterEnv)
    (s : Sched) :
    ((enrol cfg c m e s).client d).memoryAllocated = (s.client d).memoryAllocated := by
  obtain ⟨x, hclient, -⟩ := enrol_spec cfg c m e s
  rw [hclient, Function.update_apply]
  split
  · rename_i hd
    rw [hd]
    rfl
  · rfl

theorem Tallied.enrol {m : RegisterMsg} {e : RegisterEnv} (hs : Tallied s)
    (hwf : WellFormed s) (hunreg : hasRegistered s c = false) : Tallied (enrol cfg c m e s) := by
  have hnone : (s.client c).context = none := hwf.context_eq_none hunreg
  have hacc : ∀ y, Accounted y (XpuShare.enrol cfg c m e s) :=
    Accounted.enrol hs.accounted hwf hnone (hs.idle c hnone)
  have hmem : ∀ d, _ := fun d => enrol_memory cfg c d m e s
  obtain ⟨x, hclient, -, -, -, -, -, -, hctx⟩ := enrol_spec cfg c m e s
  generalize XpuShare.enrol cfg c m e s = t at hacc hclient hctx hmem
  refine ⟨hacc, fun y => ?_, fun d hd => ?_⟩
  · rcases hctx with ⟨-, hctx⟩ | ⟨-, hctx⟩
    · exact (hs.fits y).untouched hwf (by rw [hctx]) fun d _ => hmem d
    · by_cases hy : y = x
      · simp [Fits, claimed, hctx, GpuContext.entries, hy]
      · exact (hs.fits y).untouched hwf (by rw [hctx, Function.update_of_ne hy])
          fun d _ => hmem d
  · by_cases hdc : d = c
    · subst hdc
      simp [hclient, registeredRecord] at hd
    · simp only [hclient, Function.update_of_ne hdc] at hd ⊢
      exact hs.idle d hd

theorem Tallied.insert (hs : Tallied s) (hnew : c ∉ (s.ctx x).entries)
    (htotal : claimed x s + (s.client c).memoryAllocated < sizeMod) :
    Tallied (s.modifyCtx x fun g => { g with requests := g.requests ++ [c] }) := by
  have hperm := LockTable.arrive_entries_perm (t := (s.ctx x).table) (a := c)
  refine ⟨fun y => (hs.accounted y).insert hnew, fun y => ?_, hs.idle⟩
  by_cases hy : y = x
  · subst hy
    have hsum : claimed y (s.modifyCtx y fun g => { g with requests := g.requests ++ [c] })
        = (s.client c).memoryAllocated + claimed y s := by
      rw [claimed, Sched.modifyCtx_ctx_self]
      exact (hperm.map (memories s)).sum_eq
    rw [Fits, hsum]
    omega
  · have hfits := hs.fits y
    rwa [Fits, claimed, ← Sched.modifyCtx_ctx_ne s x y
      (fun g => { g with requests := g.requests ++ [c] }) hy] at hfits

/-- A report changes nothing on the other contexts. -/
theorem creditMemory_untouched (cfg : Config) (v : ℕ) (hctx : (s.client c).context = some x)
    (hy : y ≠ x) : (creditMemory cfg x c v s).ctx y = s.ctx y ∧
      ∀ d, (s.client d).context = some y →
        ((creditMemory cfg x c v s).client d).memoryAllocated
          = (s.client d).memoryAllocated := by
  refine ⟨?_, fun d hd => ?_⟩
  · obtain ⟨usage, peak, overloaded, h⟩ := creditMemory_spec cfg x c v s
    rw [h, Sched.modifyCtx_ctx_ne _ _ _ _ hy]
    rfl
  · have hdc : d ≠ c := by
      rintro rfl
      rw [hctx] at hd
      exact hy (Option.some.inj hd).symm
    rw [creditMemory_client, storeMemory, Sched.modifyClient_client_ne _ _ _ _ hdc]

theorem Tallied.memory {v : ℕ} (hs : Tallied s) (hwf : WellFormed s)
    (hctx : (s.client c).context = some x) (htotal : claimed x (storeMemory c v s) < sizeMod) :
    Tallied (creditMemory cfg x c v s) := by
  have hclient := creditMemory_client cfg x c v s
  have hfits : Fits x (creditMemory cfg x c v s) := by
    have hsame : claimed x (creditMemory cfg x c v s) = claimed x (storeMemory c v s) :=
      claimed_congr (creditMemory_table cfg x c v s x) fun d _ => by
        rw [memories, memories, hclient]
    rw [Fits, hsame]
    exact htotal
  have hheld : held x (creditMemory cfg x c v s) ≤ claimed x (creditMemory cfg x c v s) :=
    ((List.sublist_append_right _ _).map _).sum_le_sum fun _ _ => Nat.zero_le _
  refine ⟨fun y => ?_, fun y => ?_, fun d hd => ?_⟩
  · by_cases hy : y = x
    · subst hy
      exact (hs.accounted y).memory hctx (hheld.trans_lt hfits)
    · exact (hs.accounted y).memory_ne hwf hctx hy
  · by_cases hy : y = x
    · exact hy ▸ hfits
    · obtain ⟨hsame, hother⟩ := creditMemory_untouched cfg v hctx hy
      exact (hs.fits y).untouched hwf hsame hother
  · rw [hclient] at hd ⊢
    rw [storeMemory_field Client.context fun _ _ _ => rfl] at hd
    rw [storeMemory_field Client.isRunning fun _ _ _ => rfl]
    exact hs.idle d hd

/-- Neither contexts nor records have changed. -/
theorem Tallied.same (hs : Tallied s) (hctx : t.ctx = s.ctx) (hclient : t.client = s.client) :
    Tallied t := by
  have hmem : memories t = memories s := by
    funext c
    rw [memories, memories, hclient]
  refine ⟨fun y => ?_, fun y => ?_, fun c hc => ?_⟩
  · have hy := hs.accounted y
    exact ⟨by rw [hctx]; exact hy.nodup, by rw [hctx, held, hctx, hmem]; exact hy.usage,
      by rw [hctx, hclient]; exact hy.flags, by rw [hctx]; exact hy.lock⟩
  · rw [Fits, claimed, hctx, hmem]
    exact hs.fits y
  · rw [hclient] at hc ⊢
    exact hs.idle c hc

theorem Action.tallied {D : ClientId → Prop} (h : Action cfg env D Tallies s t)
    (hwf : WellFormed s) (hs : Tallied s) : Tallied t := by
  cases h with
  | block x h => exact hs.block hwf h
  | tune h => exact hs.tuned h
  | accept garbage hok => exact hs.accept hwf hok
  | enrol c m e hok hmem hunreg hid => exact hs.enrol hwf hunreg
  | insert c x hok hmem hon hctx hreq => exact hs.insert (hok x hctx).1 (hok x hctx).2
  | memory c x v hok hmem hctx => exact hs.memory hwf hctx (hok x hctx)
  | unlink c hctx => exact hs.same rfl rfl
  | power on c hok => exact hs.same rfl rfl
  | clear s₀ c hok => exact False.elim hok

theorem tallied_of_reaches
    (h : Transition.Reaches (Transition.guarded (Step cfg env) Tallies) Sched.init s) :
    Tallied s :=
  invariant_of_any_actions (I := Tallied) (fun _ _ ha hwf hs => ha.tallied hwf hs)
    Tallied.init h

end XpuShare
