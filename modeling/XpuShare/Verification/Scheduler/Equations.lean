import XpuShare.Lib.Transition
import XpuShare.Model.Handlers

/-! # Frame equations of the scheduling functions

What each function leaves alone, stated once as simplification lemmas, so that later
proofs never unfold a function to see that a field survives it. -/

namespace XpuShare

variable (cfg : Config) (env : Env)

namespace Sched

variable (s : Sched)

@[simp] theorem tick_clients : s.tick.clients = s.clients := rfl
@[simp] theorem tick_client : s.tick.client = s.client := rfl
@[simp] theorem tick_nctx : s.tick.nctx = s.nctx := rfl
@[simp] theorem tick_ctx : s.tick.ctx = s.ctx := rfl
@[simp] theorem tick_schedulerOn : s.tick.schedulerOn = s.schedulerOn := rfl
@[simp] theorem tick_tq : s.tick.tq = s.tq := rfl
@[simp] theorem tick_nalloc : s.tick.nalloc = s.nalloc := rfl
@[simp] theorem tick_out : s.tick.out = s.out := rfl

end Sched

section SendMessage

variable (c : ClientId) (m : ToClient) (s : Sched)

@[simp] theorem sendMessage_clients : (sendMessage env c m s).clients = s.clients := rfl
@[simp] theorem sendMessage_client : (sendMessage env c m s).client = s.client := rfl
@[simp] theorem sendMessage_nctx : (sendMessage env c m s).nctx = s.nctx := rfl
@[simp] theorem sendMessage_ctx : (sendMessage env c m s).ctx = s.ctx := rfl
@[simp] theorem sendMessage_schedulerOn :
    (sendMessage env c m s).schedulerOn = s.schedulerOn := rfl
@[simp] theorem sendMessage_tq : (sendMessage env c m s).tq = s.tq := rfl
@[simp] theorem sendMessage_nalloc : (sendMessage env c m s).nalloc = s.nalloc := rfl
theorem sendMessage_out :
    (sendMessage env c m s).out = s.out ++ [⟨c, m, sendSucceeds env c s⟩] := rfl

end SendMessage

/-- The parts of the state that no loop over client records touches. -/
structure SameShape (s t : Sched) : Prop where
  clients : t.clients = s.clients
  nctx : t.nctx = s.nctx
  ctx : t.ctx = s.ctx
  schedulerOn : t.schedulerOn = s.schedulerOn
  tq : t.tq = s.tq
  nalloc : t.nalloc = s.nalloc
  ticks : t.ticks = s.ticks
  out : t.out = s.out
  unbilled : ∀ c, (t.client c).unbilled = (s.client c).unbilled

/-! ## Fields outside the quota part of a record -/

section Unbilled

variable {r r' : Client} (h : r.unbilled = r'.unbilled)

include h

theorem static_of_unbilled : r.static = r'.static :=
  congrArg (fun q : Client => { q with isRunning := false }) h
theorem isRunning_of_unbilled : r.isRunning = r'.isRunning := (congrArg Client.isRunning h :)

end Unbilled

section Static

variable {r r' : Client} (h : r.static = r'.static)

include h

theorem id_of_static : r.id = r'.id := (congrArg Client.id h :)
theorem context_of_static : r.context = r'.context := (congrArg Client.context h :)
theorem coreLimit_of_static : r.coreLimit = r'.coreLimit := (congrArg Client.coreLimit h :)
theorem memory_of_static : r.memoryAllocated = r'.memoryAllocated :=
  (congrArg Client.memoryAllocated h :)

end Static

namespace SameShape

theorem refl (s : Sched) : SameShape s s := by
  constructor <;> first | rfl | exact fun _ => rfl

theorem trans {s t u : Sched} (h : SameShape s t) (h' : SameShape t u) : SameShape s u where
  clients := h'.clients.trans h.clients
  nctx := h'.nctx.trans h.nctx
  ctx := h'.ctx.trans h.ctx
  schedulerOn := h'.schedulerOn.trans h.schedulerOn
  tq := h'.tq.trans h.tq
  nalloc := h'.nalloc.trans h.nalloc
  ticks := h'.ticks.trans h.ticks
  out := h'.out.trans h.out
  unbilled c := (h'.unbilled c).trans (h.unbilled c)

theorem modifyClient {f : Client → Client} (hf : ∀ r, (f r).unbilled = r.unbilled) (s : Sched)
    (c : ClientId) : SameShape s (s.modifyClient c f) := by
  constructor <;> first | rfl | exact Sched.modifyClient_unbilled hf s c

theorem foldl {f : Sched → ClientId → Sched} (hf : ∀ s c, SameShape s (f s c))
    (l : List ClientId) (s : Sched) : SameShape s (l.foldl f s) :=
  List.foldlRecOn l f (refl s) fun t ht c _ => ht.trans (hf t c)

end SameShape

/-! ## Billing and window resets -/

theorem countRunningClients_congr {s t : Sched} {x : CtxId}
    (hrun : (t.ctx x).runningList = (s.ctx x).runningList)
    (hlimit : ∀ c ∈ (s.ctx x).runningList, (t.client c).coreLimit = (s.client c).coreLimit) :
    countRunningClients t x = countRunningClients s x := by
  have hcount : (s.ctx x).runningList.countP (fun c => (t.client c).coreLimit < 100) =
      (s.ctx x).runningList.countP fun c => (s.client c).coreLimit < 100 :=
    List.countP_congr fun c hc => by rw [hlimit c hc]
  simp only [countRunningClients, hrun, hcount]

theorem accrueClient_shape (count now : ℤ) (exclude : Option ClientId) (s : Sched)
    (c : ClientId) : SameShape s (accrueClient count now exclude s c) := by
  unfold accrueClient
  simp only
  split
  · exact SameShape.refl s
  · apply SameShape.modifyClient
    intro r
    rfl

theorem accrueRunningUsage_shape (x : CtxId) (now : ℤ) (exclude : Option ClientId)
    (s : Sched) : SameShape s (accrueRunningUsage x now exclude s) :=
  SameShape.foldl (accrueClient_shape _ now exclude) _ s

theorem resetClient_shape (x : CtxId) (s : Sched) (c : ClientId) :
    SameShape s (resetClient cfg x s c) := by
  unfold resetClient
  split
  · apply SameShape.modifyClient
    intro r
    rfl
  · exact SameShape.refl s

section Accrue

variable (x : CtxId) (now : ℤ) (exclude : Option ClientId) (s : Sched)

@[simp] theorem accrue_clients :
    (accrueRunningUsage x now exclude s).clients = s.clients :=
  (accrueRunningUsage_shape x now exclude s).clients
@[simp] theorem accrue_nctx : (accrueRunningUsage x now exclude s).nctx = s.nctx :=
  (accrueRunningUsage_shape x now exclude s).nctx
@[simp] theorem accrue_ctx : (accrueRunningUsage x now exclude s).ctx = s.ctx :=
  (accrueRunningUsage_shape x now exclude s).ctx
@[simp] theorem accrue_schedulerOn :
    (accrueRunningUsage x now exclude s).schedulerOn = s.schedulerOn :=
  (accrueRunningUsage_shape x now exclude s).schedulerOn
@[simp] theorem accrue_tq : (accrueRunningUsage x now exclude s).tq = s.tq :=
  (accrueRunningUsage_shape x now exclude s).tq
@[simp] theorem accrue_nalloc : (accrueRunningUsage x now exclude s).nalloc = s.nalloc :=
  (accrueRunningUsage_shape x now exclude s).nalloc
@[simp] theorem accrue_out : (accrueRunningUsage x now exclude s).out = s.out :=
  (accrueRunningUsage_shape x now exclude s).out
@[simp] theorem accrue_unbilled (c : ClientId) :
    ((accrueRunningUsage x now exclude s).client c).unbilled = (s.client c).unbilled :=
  (accrueRunningUsage_shape x now exclude s).unbilled c

end Accrue

/-- A record that is not in the running list is not billed. -/
theorem accrue_client_of_notMem {x : CtxId} {c : ClientId} (now : ℤ)
    (exclude : Option ClientId) (s : Sched) (h : c ∉ (s.ctx x).runningList) :
    (accrueRunningUsage x now exclude s).client c = s.client c := by
  unfold accrueRunningUsage
  refine List.foldlRecOn (motive := fun t : Sched => t.client c = s.client c) _ _ rfl ?_
  intro t ht d hd
  have hne : c ≠ d := fun he => h (he ▸ hd)
  unfold accrueClient
  simp only
  split
  · exact ht
  · rw [Sched.modifyClient_client_ne _ _ _ _ hne, ht]

/-! ## The window check -/

/-- The window check moves the window start of one context and rewrites quota fields. -/
theorem freshWindow_spec (x : CtxId) (s : Sched) :
    ∃ start, SameShape (s.tick.modifyCtx x fun g => { g with windowStartMs := start })
      (freshWindow cfg env x s) := by
  unfold freshWindow checkAndResetWindow
  simp only
  split
  · refine ⟨currentTimeMs env s, ?_⟩
    exact (accrueRunningUsage_shape x _ none _).trans
      (SameShape.foldl (resetClient_shape cfg x) _ _)
  · exact ⟨windowStartAt (s.ctx x) (currentTimeMs env s), SameShape.refl _⟩

section FreshWindow

variable (x : CtxId) (s : Sched)

@[simp] theorem freshWindow_clients : (freshWindow cfg env x s).clients = s.clients := by
  obtain ⟨_, h⟩ := freshWindow_spec cfg env x s
  exact h.clients
@[simp] theorem freshWindow_nctx : (freshWindow cfg env x s).nctx = s.nctx := by
  obtain ⟨_, h⟩ := freshWindow_spec cfg env x s
  exact h.nctx
@[simp] theorem freshWindow_schedulerOn :
    (freshWindow cfg env x s).schedulerOn = s.schedulerOn := by
  obtain ⟨_, h⟩ := freshWindow_spec cfg env x s
  exact h.schedulerOn
@[simp] theorem freshWindow_tq : (freshWindow cfg env x s).tq = s.tq := by
  obtain ⟨_, h⟩ := freshWindow_spec cfg env x s
  exact h.tq
@[simp] theorem freshWindow_nalloc : (freshWindow cfg env x s).nalloc = s.nalloc := by
  obtain ⟨_, h⟩ := freshWindow_spec cfg env x s
  exact h.nalloc
@[simp] theorem freshWindow_out : (freshWindow cfg env x s).out = s.out := by
  obtain ⟨_, h⟩ := freshWindow_spec cfg env x s
  exact h.out
@[simp] theorem freshWindow_unbilled (c : ClientId) :
    ((freshWindow cfg env x s).client c).unbilled = (s.client c).unbilled := by
  obtain ⟨_, h⟩ := freshWindow_spec cfg env x s
  exact h.unbilled c

theorem freshWindow_ctx : ∃ start,
    (freshWindow cfg env x s).ctx x = { s.ctx x with windowStartMs := start } := by
  obtain ⟨start, h⟩ := freshWindow_spec cfg env x s
  exact ⟨start, by rw [h.ctx]; simp⟩

@[simp] theorem freshWindow_ctx_ne {y : CtxId} (hy : y ≠ x) :
    (freshWindow cfg env x s).ctx y = s.ctx y := by
  obtain ⟨_, h⟩ := freshWindow_spec cfg env x s
  rw [h.ctx]
  simp [hy]

/-- A field other than the window start survives the window check. -/
theorem freshWindow_field {β : Type*} (π : GpuContext → β)
    (hπ : ∀ g start, π { g with windowStartMs := start } = π g) :
    π ((freshWindow cfg env x s).ctx x) = π (s.ctx x) := by
  obtain ⟨start, h⟩ := freshWindow_ctx cfg env x s
  rw [h, hπ]

@[simp] theorem freshWindow_requests :
    ((freshWindow cfg env x s).ctx x).requests = (s.ctx x).requests :=
  freshWindow_field cfg env x s GpuContext.requests fun _ _ => rfl
@[simp] theorem freshWindow_waitQueue :
    ((freshWindow cfg env x s).ctx x).waitQueue = (s.ctx x).waitQueue :=
  freshWindow_field cfg env x s GpuContext.waitQueue fun _ _ => rfl
@[simp] theorem freshWindow_runningList :
    ((freshWindow cfg env x s).ctx x).runningList = (s.ctx x).runningList :=
  freshWindow_field cfg env x s GpuContext.runningList fun _ _ => rfl
@[simp] theorem freshWindow_lockHeld :
    ((freshWindow cfg env x s).ctx x).lockHeld = (s.ctx x).lockHeld :=
  freshWindow_field cfg env x s GpuContext.lockHeld fun _ _ => rfl
@[simp] theorem freshWindow_runningMemoryUsage :
    ((freshWindow cfg env x s).ctx x).runningMemoryUsage = (s.ctx x).runningMemoryUsage :=
  freshWindow_field cfg env x s GpuContext.runningMemoryUsage fun _ _ => rfl
@[simp] theorem freshWindow_memoryOverloaded :
    ((freshWindow cfg env x s).ctx x).memoryOverloaded = (s.ctx x).memoryOverloaded :=
  freshWindow_field cfg env x s GpuContext.memoryOverloaded fun _ _ => rfl
@[simp] theorem freshWindow_totalMemory :
    ((freshWindow cfg env x s).ctx x).totalMemory = (s.ctx x).totalMemory :=
  freshWindow_field cfg env x s GpuContext.totalMemory fun _ _ => rfl

end FreshWindow

/-- A visit of `bcast_status` passes over a client that has not registered, tells one that has,
or deletes it. -/
theorem bcastClient_cases {cfg : Config} {env : Env} {fuel : ℕ} {s t : Sched} {c : ClientId}
    (h : bcastClient cfg env fuel s c = some t) : c ∈ s.clients ∧
      ((hasRegistered s c = false ∧ t = s) ∨
        hasRegistered s c = true ∧
          ((sendSucceeds env c s = true ∧
              t = sendMessage env c (if s.schedulerOn then .schedOn else .schedOff) s) ∨
            sendSucceeds env c s = false ∧
              deleteClient cfg env (trySchedule cfg env fuel) c
                (sendMessage env c (if s.schedulerOn then .schedOn else .schedOff) s) =
                some t)) := by
  unfold bcastClient at h
  split at h
  · cases h
  · rename_i hin
    refine ⟨not_not.mp hin, ?_⟩
    split at h
    · rename_i hunreg
      exact Or.inl ⟨by simpa using hunreg, (Option.some.inj h).symm⟩
    · rename_i hreg
      refine Or.inr ⟨by simpa using hreg, ?_⟩
      simp only at h
      split at h
      · rename_i hsend
        exact Or.inl ⟨hsend, (Option.some.inj h).symm⟩
      · rename_i hsend
        exact Or.inr ⟨by simpa using hsend, h⟩

/-- What every visit of `bcast_status` preserves holds when it returns. -/
theorem bcastFrom_induction {cfg : Config} {env : Env} {fuel : ℕ} {P : Sched → Prop}
    (h : ∀ s c t, P s → bcastClient cfg env fuel s c = some t → P t)
    {linked l : List ClientId} {s t : Sched} (hs : P s)
    (hl : bcastFrom cfg env fuel linked l s = some t) : P t := by
  induction l generalizing linked s with
  | nil => exact (Option.some.inj hl) ▸ hs
  | cons c l ih =>
      rw [bcastFrom] at hl
      split at hl
      · exact ih hs hl
      · rw [Option.bind_eq_some_iff] at hl
        obtain ⟨u, hu, hut⟩ := hl
        exact ih (h s c u hs hu) hut

end XpuShare
