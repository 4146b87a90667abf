import XpuShare.Verification.Peaks.Handlers

/-! # Peaks dominate current values

Every operation that raises the allocation of a client raises its peak with it, and peaks are
never lowered. The running total of a context stays below its peak as long as what an event
may grant fits below it. -/

namespace XpuShare

open Transition

variable {cfg : Config} {env : Env} {s t u : Sched} {x : CtxId} {c : ClientId}

/-! ## Peaks of clients and their lives -/

/-- The part of a record that peaks are about. -/
structure Holding where
  context : Option CtxId
  allocated : ℕ
  peak : ℕ

def Client.holding (r : Client) : Holding := ⟨r.context, r.memoryAllocated, r.peakAllocated⟩

/-- A client that is not registered has no memory, and what a registered client has does not
exceed its peak. -/
def Holding.Topped (m : Holding) : Prop :=
  if m.context = none then m.allocated = 0 else m.allocated ≤ m.peak

/-- A registered client stays registered, and its peak does not become smaller. -/
structure Holding.Raises (m m' : Holding) : Prop where
  context : m.context ≠ none → m'.context ≠ none
  peak : m.context ≠ none → m.peak ≤ m'.peak

theorem Holding.Raises.of_eq {m m' : Holding} (h : m' = m) : m.Raises m' := by
  subst h
  exact ⟨fun h => h, fun _ => le_rfl⟩

/-- The peaks that `t` has in common with `s` have not become smaller. -/
structure Raises (s t : Sched) : Prop where
  nctx : s.nctx ≤ t.nctx
  peak : ∀ x < s.nctx, (s.ctx x).peakMemoryUsage ≤ (t.ctx x).peakMemoryUsage
  holding : ∀ c, (s.client c).holding.Raises (t.client c).holding

theorem Raises.refl (s : Sched) : Raises s s :=
  ⟨le_rfl, fun _ _ => le_rfl, fun _ => .of_eq rfl⟩

theorem Raises.trans (h : Raises s t) (h' : Raises t u) : Raises s u where
  nctx := h.nctx.trans h'.nctx
  peak x hx := (h.peak x hx).trans (h'.peak x (hx.trans_le h.nctx))
  holding c := by
    have hc := h.holding c
    have hc' := h'.holding c
    exact ⟨fun hreg => hc'.context (hc.context hreg),
      fun hreg => (hc.peak hreg).trans (hc'.peak (hc.context hreg))⟩

/-- Nobody's holding is beyond its peak. -/
def Topped (s : Sched) : Prop := ∀ c, (s.client c).holding.Topped

/-- A change that leaves the holdings and the contexts' peaks alone. -/
theorem Topped.of_same (hs : Topped s) (hnctx : t.nctx = s.nctx)
    (hpeak : ∀ x, (t.ctx x).peakMemoryUsage = (s.ctx x).peakMemoryUsage)
    (hclient : ∀ c, (t.client c).holding = (s.client c).holding) : Raises s t ∧ Topped t := by
  refine ⟨⟨hnctx.ge, fun x _ => (hpeak x).ge, fun c => .of_eq (hclient c)⟩, fun c => ?_⟩
  rw [hclient c]
  exact hs c

theorem holding_of_core {r r' : Client} (h : r.core = r'.core) : r.holding = r'.holding :=
  (congrArg Client.holding h :)

theorem holding_of_static {r r' : Client} (h : r.static = r'.static) : r.holding = r'.holding :=
  (congrArg Client.holding h :)

theorem Topped.block {D : Exits} (hs : Topped s) (h : Block cfg env D x s t) :
    Raises s t ∧ Topped t := by
  have hframe := h.frame
  refine hs.of_same hframe.nctx (fun y => ?_) fun c => holding_of_static (hframe.static c)
  by_cases hy : y = x
  · rw [hy]
    exact peak_of_fixed hframe.fixed
  · rw [hframe.ctx_ne y hy]

theorem Topped.tuned (hs : Topped s) (h : Tuned s t) : Raises s t ∧ Topped t :=
  hs.of_same h.nctx (fun y => peak_of_core (h.ctx y)) fun c => holding_of_core (h.client c)

theorem Topped.accept (hs : Topped s) (hwf : WellFormed s) :
    Raises s (accept {} s) ∧ Topped (accept {} s) := by
  have hnone : (s.client s.nalloc).context = none := hwf.fresh _ le_rfl
  refine ⟨⟨le_rfl, fun _ _ => le_rfl, fun c => ?_⟩, fun c => ?_⟩
  · by_cases hc : c = s.nalloc
    · rw [hc]
      exact ⟨fun hreg => absurd hnone hreg, fun hreg => absurd hnone hreg⟩
    · exact .of_eq (by simp [XpuShare.accept, hc])
  · by_cases hc : c = s.nalloc
    · simp [XpuShare.accept, hc, Client.holding, Holding.Topped]
    · have hsame : (XpuShare.accept {} s).client c = s.client c := by simp [XpuShare.accept, hc]
      rw [hsame]
      exact hs c

theorem Topped.enrol (hs : Topped s) (hwf : WellFormed s) (cfg : Config) (m : RegisterMsg)
    (e : RegisterEnv) (hunreg : hasRegistered s c = false) :
    Raises s (enrol cfg c m e s) ∧ Topped (enrol cfg c m e s) := by
  have hnone : (s.client c).context = none := hwf.context_eq_none hunreg
  have hzero : (s.client c).memoryAllocated = 0 := by
    have hc := hs c
    rwa [Holding.Topped, if_pos (show (s.client c).holding.context = none from hnone)] at hc
  obtain ⟨x, hclient, -, hnctx, -, -, -, -, hctx⟩ := enrol_spec cfg c m e s
  refine ⟨⟨hnctx, fun y hy => ?_, fun d => ?_⟩, fun d => ?_⟩
  · rcases hctx with ⟨-, hctx⟩ | ⟨rfl, hctx⟩
    · rw [hctx]
    · rw [hctx, Function.update_of_ne hy.ne]
  · by_cases hd : d = c
    · rw [hd]
      exact ⟨fun hreg => absurd hnone hreg, fun hreg => absurd hnone hreg⟩
    · exact .of_eq (by rw [hclient, Function.update_of_ne hd])
  · rw [hclient, Function.update_apply]
    split
    · simp [registeredRecord, Client.holding, Holding.Topped, hzero]
    · exact hs d

theorem creditMemory_holding (cfg : Config) (x : CtxId) (c d : ClientId) (v : ℕ) (s : Sched) :
    ((creditMemory cfg x c v s).client d).holding =
      if d = c then ⟨(s.client c).context, v, max (s.client c).peakAllocated v⟩
      else (s.client d).holding := by
  rw [creditMemory_client, storeMemory, Sched.modifyClient_client]
  split <;> rfl

theorem creditMemory_peak (cfg : Config) (x : CtxId) (c : ClientId) (v : ℕ) (s : Sched)
    (y : CtxId) :
    (s.ctx y).peakMemoryUsage ≤ ((creditMemory cfg x c v s).ctx y).peakMemoryUsage := by
  unfold creditMemory
  split
  · rw [accountMemory, Sched.modifyCtx_ctx]
    split
    · rename_i hy
      rw [hy]
      exact le_max_left _ _
    · exact le_rfl
  · exact le_rfl

theorem Topped.memory (hs : Topped s) (cfg : Config) (x : CtxId) (v : ℕ)
    (hreg : (s.client c).context ≠ none) :
    Raises s (creditMemory cfg x c v s) ∧ Topped (creditMemory cfg x c v s) := by
  have hnctx : (creditMemory cfg x c v s).nctx = s.nctx := by
    obtain ⟨_, _, _, heq⟩ := creditMemory_spec cfg x c v s
    rw [heq]
    rfl
  refine ⟨⟨hnctx.ge, fun y _ => creditMemory_peak cfg x c v s y, fun d => ?_⟩, fun d => ?_⟩
  · by_cases hd : d = c
    · rw [creditMemory_holding, if_pos hd, hd]
      exact ⟨fun h => h, fun _ => le_max_left _ _⟩
    · exact .of_eq (by rw [creditMemory_holding, if_neg hd])
  · by_cases hd : d = c
    · rw [creditMemory_holding, if_pos hd, Holding.Topped, if_neg hreg]
      exact le_max_right _ _
    · rw [creditMemory_holding, if_neg hd]
      exact hs d

/-- Every action keeps peaks and holdings in order. -/
theorem Topped.action {D : ClientId → Prop} (hs : Topped s) (hwf : WellFormed s)
    (h : Action cfg env D (fun _ e => PeakEvent e) s t) : Raises s t ∧ Topped t := by
  cases h with
  | block x h => exact hs.block h
  | tune h => exact hs.tuned h
  | accept garbage hok =>
      rw [show garbage = {} from hok]
      exact hs.accept hwf
  | enrol c m e hok hmem hunreg hid => exact hs.enrol hwf cfg m e hunreg
  | insert c x hok hmem hon hctx hreq =>
      refine hs.of_same rfl (fun y => ?_) fun _ => rfl
      rw [Sched.modifyCtx_ctx]
      split
      · rename_i hy
        rw [hy]
      · rfl
  | memory c x v hok hmem hctx =>
      exact hs.memory cfg x v (by rw [hctx]; exact Option.some_ne_none x)
  | unlink c hctx => exact hs.of_same rfl (fun _ => rfl) fun _ => rfl
  | power on c hok => exact hs.of_same rfl (fun _ => rfl) fun _ => rfl
  | clear s₀ c hok => exact False.elim hok

theorem topped_init : Topped Sched.init := by
  intro c
  rfl

/-- What holds of every run from a state whose holdings are in order. -/
theorem Topped.reaches (hs : Topped s) (hwf : WellFormed s)
    (h : Reaches (PeakStep cfg env) s t) : WellFormed t ∧ Topped t ∧ Raises s t := by
  induction h with
  | refl => exact ⟨hwf, hs, .refl s⟩
  | tail _ hlast ih =>
      obtain ⟨e, hevent, hstep⟩ := hlast
      obtain ⟨hwfu, hu, hraised⟩ := ih
      have hactions : Actions cfg env (fun _ => True) (fun _ e => PeakEvent e) _ _ :=
        hstep.actions (fun _ _ _ => trivial) hwfu hevent fun _ _ => trivial
      have hinv := hactions.invariant
        (I := fun v => WellFormed v ∧ Topped v ∧ Raises s v) ?_ ⟨hwfu, hu, hraised⟩
      · exact hinv
      · rintro v w ha ⟨hwfv, hv, hraisedv⟩
        obtain ⟨hraise, hw⟩ := hv.action hwfv ha
        exact ⟨ha.wellFormed hwfv, hw, hraisedv.trans hraise⟩

/-! ## Peaks in every run -/

theorem peaked_of_reaches (h : Reaches (guarded (Step cfg env) (FittingEvent cfg)) Sched.init s) :
    Peaked s := by
  refine h.invariant (fun u e v hstep hu => ?_)
    ⟨WellFormed.init, fun x hne => absurd rfl hne, fun _ => le_rfl⟩
  have hactions : Actions cfg env (fun _ => True) (fun _ e => PeakEvent e) u v :=
    hstep.2.actions (fun _ _ _ => trivial) hu.wf hstep.1.1 fun _ _ => trivial
  have hoccupied := hactions.invariant (fun _ _ ha ho => Action.occupied ha ho) hu.occupied
  exact ⟨hactions.wellFormed hu.wf, hoccupied, hu.dominated_step hstep⟩

/-- In every run the allocation of a registered client is at most its peak, and no peak is
lowered. If what each event of a run may grant fits below the recorded peak of its context,
the running totals are at most the peaks, too. -/
theorem peaks_dominate (cfg : Config) (env : Env) :
    (∀ s, Reaches (guarded (Step cfg env) (FittingEvent cfg)) Sched.init s →
      ∀ x, (s.ctx x).runningMemoryUsage ≤ (s.ctx x).peakMemoryUsage) ∧
    (∀ s, Reaches (PeakStep cfg env) Sched.init s →
      (∀ c, (s.client c).context ≠ none →
        (s.client c).memoryAllocated ≤ (s.client c).peakAllocated) ∧
      ∀ t, Reaches (PeakStep cfg env) s t →
        (∀ x < s.nctx, (s.ctx x).peakMemoryUsage ≤ (t.ctx x).peakMemoryUsage) ∧
        ∀ c, (s.client c).context ≠ none →
          (s.client c).peakAllocated ≤ (t.client c).peakAllocated) := by
  constructor
  · intro s hs
    exact (peaked_of_reaches hs).dominated
  · intro s hs
    obtain ⟨hwf, htopped, -⟩ := topped_init.reaches WellFormed.init hs
    refine ⟨fun c hc => ?_, fun t ht => ?_⟩
    · have hholding := htopped c
      rwa [Holding.Topped, if_neg (show (s.client c).holding.context ≠ none from hc)] at hholding
    · obtain ⟨-, -, hraises⟩ := htopped.reaches hwf ht
      exact ⟨hraises.peak, fun c => (hraises.holding c).peak⟩

/-- A client reports its memory while it runs, and is granted the lock again with it. -/
theorem peaks_dominate_report :
    ∃ s, Reaches (guarded (Step {} steady) (FittingEvent {})) Sched.init s ∧
      (s.ctx 0).runningMemoryUsage = 2 ^ 30 ∧
      (s.ctx 0).runningMemoryUsage ≤ (s.ctx 0).peakMemoryUsage := by
  obtain ⟨s, hs, husage⟩ := exists_reaches {} steady (fun s e => FittingEvent {} s e) 5
    [.accept {}, enter 0 1, .message 0 .reqLock, .message 0 (.memUpdate (2 ^ 30)),
      .message 0 .lockReleased, .timerBegin 0, .message 0 .reqLock]
    (fun s => (s.ctx 0).runningMemoryUsage = 2 ^ 30) (by decide +kernel)
  exact ⟨s, hs, husage, (peaks_dominate {} steady).1 s hs 0⟩

/-- A client that reports its memory before it asks for the lock adds it to the running total
when it is granted the lock, and the peak stays where it was. -/
theorem peak_misses_grant :
    ∃ s, Reaches (PeakStep {} steady) Sched.init s ∧
      (s.ctx 0).runningMemoryUsage = 2 ^ 30 ∧ (s.ctx 0).peakMemoryUsage = 0 := by
  obtain ⟨s, hs, husage, hpeak⟩ := exists_reaches {} steady (fun _ e => PeakEvent e) 5
    [.accept {}, enter 0 1, .message 0 (.memUpdate (2 ^ 30)), .message 0 .reqLock]
    (fun s => (s.ctx 0).runningMemoryUsage = 2 ^ 30 ∧ (s.ctx 0).peakMemoryUsage = 0)
    (by decide +kernel)
  exact ⟨s, hs.mono fun _ _ _ h => h, husage, hpeak⟩

end XpuShare
