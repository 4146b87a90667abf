import XpuShare.Model.Reuse
import XpuShare.Verification.Scheduler.Tuning

/-! # Handlers as sequences of actions

Every handler is a sequence of actions: blocks of scheduling code on some context, changes
outside the lock tables, and the few statements that create records, requests and memory
figures. An invariant of the scheduler is checked against each action once, and then holds
along every run of events. -/

namespace XpuShare

variable (cfg : Config) (env : Env)

/-- What MEM_UPDATE stores and accounts for before it preempts anybody. -/
def creditMemory (x : CtxId) (c : ClientId) (v : ℕ) (s : Sched) : Sched :=
  if (s.client c).isRunning then
    accountMemory cfg x (s.client c).memoryAllocated v (storeMemory c v s)
  else storeMemory c v s

/-- Calls in which everybody may leave and the clients in `D` may be deleted. -/
abbrev deleting (D : ClientId → Prop) : Exits := ⟨fun _ => True, D⟩

/-- One action of a handler, in a run whose events satisfy `ok` in the state before them and
that deletes no registered client outside `D`. -/
inductive Action (D : ClientId → Prop) (ok : Sched → Event → Prop) : Sched → Sched → Prop where
  | block {s t} (x) (h : Block cfg env (deleting D) x s t) : Action D ok s t
  | tune {s t} (h : Tuned s t) : Action D ok s t
  | accept {s} (garbage) (hok : ok s (.accept garbage)) : Action D ok s (accept garbage s)
  | enrol {s} (c m e) (hok : ok s (.message c (.register m e))) (hmem : c ∈ s.clients)
      (hunreg : hasRegistered s c = false) (hid : acceptableId s e.generatedId) :
      Action D ok s (enrol cfg c m e s)
  | insert {s} (c x) (hok : ok s (.message c .reqLock)) (hmem : c ∈ s.clients)
      (hon : s.schedulerOn = true) (hctx : (s.client c).context = some x)
      (hreq : c ∉ (s.ctx x).requests) :
      Action D ok s (s.modifyCtx x fun g => { g with requests := g.requests ++ [c] })
  | memory {s} (c x v) (hok : ok s (.message c (.memUpdate v))) (hmem : c ∈ s.clients)
      (hctx : (s.client c).context = some x) : Action D ok s (creditMemory cfg x c v s)
  | unlink {s} (c) (hctx : (s.client c).context = none) :
      Action D ok s { s with clients := s.clients.filter (· ≠ c) }
  | power {s} (on c) (hok : ok s (.message c (if on then .schedOn else .schedOff))) :
      Action D ok s { s with schedulerOn := on }
  | clear {s} (s₀ c) (hok : ok s₀ (.message c .schedOff)) : Action D ok s (clearRequests s)

/-- A sequence of actions. -/
def Actions (D : ClientId → Prop) (ok : Sched → Event → Prop) : Sched → Sched → Prop :=
  Relation.ReflTransGen (Action cfg env D ok)

/-- What holds of the client list and the records in every run. -/
structure WellFormed (s : Sched) : Prop where
  belongs : ∀ x, Belongs x s
  unregistered : ∀ c, (s.client c).id = unregisteredId → (s.client c).context = none
  allocated : ∀ c ∈ s.clients, c < s.nalloc
  fresh : ∀ c, s.nalloc ≤ c → (s.client c).context = none
  context_lt : ∀ c x, (s.client c).context = some x → x < s.nctx
  nodup : s.clients.Nodup
  ids : ∀ c ∈ s.clients, ∀ d ∈ s.clients, hasRegistered s c = true →
    (s.client c).id = (s.client d).id → c = d

theorem WellFormed.init : WellFormed Sched.init where
  belongs x c hc := by simp [Sched.init, GpuContext.entries] at hc
  unregistered c _ := rfl
  allocated c hc := by simp [Sched.init] at hc
  fresh c _ := rfl
  context_lt c x h := by simp [Sched.init] at h
  nodup := List.nodup_nil
  ids c hc := by simp [Sched.init] at hc

section WellFormed

variable {cfg env} {D : ClientId → Prop} {ok : Sched → Event → Prop} {s t : Sched}

/-- Steps that keep contexts, identifiers and counters, forget clients at most and add only
entries of clients of the context keep a state well formed. -/
theorem WellFormed.of_frame (hwf : WellFormed s) (hsub : t.clients.Sublist s.clients)
    (hnctx : t.nctx = s.nctx) (hnalloc : t.nalloc = s.nalloc)
    (hctx : ∀ c, (t.client c).context = (s.client c).context)
    (hid : ∀ c, (t.client c).id = (s.client c).id)
    (hent : ∀ x, ∀ c ∈ (t.ctx x).entries,
      c ∈ (s.ctx x).entries ∨ (s.client c).context = some x) : WellFormed t where
  belongs x c hc := by
    rw [hctx]
    rcases hent x c hc with hold | hnew
    · exact hwf.belongs x c hold
    · exact hnew
  unregistered c h := by rw [hctx, hwf.unregistered c (by rw [← hid, h])]
  allocated c hc := by rw [hnalloc]; exact hwf.allocated c (hsub.subset hc)
  fresh c hc := by rw [hctx, hwf.fresh c (by omega)]
  context_lt c x h := by rw [hnctx]; exact hwf.context_lt c x (by rw [← hctx, h])
  nodup := hwf.nodup.sublist hsub
  ids c hc d hd hreg h := by
    refine hwf.ids c (hsub.subset hc) d (hsub.subset hd) ?_ (by rw [← hid, ← hid, h])
    rwa [hasRegistered, ← hid]

theorem WellFormed.block {D : Exits} {x : CtxId} (hwf : WellFormed s)
    (h : Block cfg env D x s t) : WellFormed t := by
  have hframe := h.frame
  refine hwf.of_frame h.clients_sublist hframe.nctx hframe.nalloc
    (fun c => context_of_static (hframe.static c)) (fun c => id_of_static (hframe.static c)) ?_
  intro y c hc
  by_cases hy : y = x
  · subst hy
    exact Or.inl (h.entries_subset hc)
  · rw [hframe.ctx_ne y hy] at hc
    exact Or.inl hc

theorem WellFormed.tuned (hwf : WellFormed s) (h : Tuned s t) : WellFormed t := by
  refine hwf.of_frame (by rw [h.clients]) h.nctx h.nalloc
    (fun c => context_of_core (h.client c)) (fun c => id_of_core (h.client c)) ?_
  intro x c hc
  rw [entries_of_table (table_of_core (h.ctx x))] at hc
  exact Or.inl hc

/-- A client that has not registered has no entry anywhere. -/
theorem WellFormed.notMem_entries (hwf : WellFormed s) {c : ClientId}
    (h : (s.client c).context = none) (x : CtxId) : c ∉ (s.ctx x).entries := by
  intro hc
  have hctx := hwf.belongs x c hc
  rw [h] at hctx
  cases hctx

theorem WellFormed.registered (hwf : WellFormed s) {c : ClientId}
    (h : (s.client c).context ≠ none) : hasRegistered s c = true := by
  rw [hasRegistered, bne_iff_ne]
  exact fun hid => h (hwf.unregistered c hid)

theorem WellFormed.context_eq_none (hwf : WellFormed s) {c : ClientId}
    (h : hasRegistered s c = false) : (s.client c).context = none := by
  by_contra hne
  rw [hwf.registered hne] at h
  cases h

/-- A connection gets a block to which no entry refers. -/
theorem WellFormed.acceptAt (hwf : WellFormed s) (garbage : Client) {c : ClientId} {n : ℕ}
    (hn : s.nalloc ≤ n) (hlt : c < n) (hfree : c ∉ s.clients)
    (hclean : ∀ x, c ∉ (s.ctx x).entries) :
    WellFormed { acceptAt c garbage s with nalloc := n } := by
  have hold : ∀ d, d ≠ c → (XpuShare.acceptAt c garbage s).client d = s.client d :=
    fun d hd => Function.update_of_ne hd _ _
  have hnew : (XpuShare.acceptAt c garbage s).client c =
      { garbage with id := unregisteredId, context := none } := Function.update_self _ _ _
  refine ⟨fun x d hd => ?_, fun d hd => ?_, fun d hd => ?_, fun d hd => ?_, fun d x hd => ?_, ?_,
    fun d hd e he hreg hid => ?_⟩
  · have hdc : d ≠ c := fun h => hclean x (h ▸ hd)
    exact (congrArg Client.context (hold d hdc)).trans (hwf.belongs x d hd)
  · by_cases hdc : d = c
    · exact hdc ▸ congrArg Client.context hnew
    · have hsame := hold d hdc
      exact (congrArg Client.context hsame).trans
        (hwf.unregistered d ((congrArg Client.id hsame).symm.trans hd))
  · rcases List.mem_append.mp hd with hd | hd
    · exact (hwf.allocated d hd).trans_le hn
    · exact List.mem_singleton.mp hd ▸ hlt
  · have hdc : d ≠ c := (hlt.trans_le hd).ne'
    exact (congrArg Client.context (hold d hdc)).trans (hwf.fresh d (hn.trans hd))
  · by_cases hdc : d = c
    · have hnone : ((XpuShare.acceptAt c garbage s).client d).context = some x := hd
      rw [hdc, hnew] at hnone
      cases hnone
    · exact hwf.context_lt d x ((congrArg Client.context (hold d hdc)).symm.trans hd)
  · exact List.nodup_append.mpr ⟨hwf.nodup, List.nodup_singleton c, fun d hd e he =>
      fun h => hfree (List.mem_singleton.mp he ▸ h ▸ hd)⟩
  · have hreg : hasRegistered (XpuShare.acceptAt c garbage s) d = true := hreg
    have hid : ((XpuShare.acceptAt c garbage s).client d).id =
        ((XpuShare.acceptAt c garbage s).client e).id := hid
    have hdc : d ≠ c := by
      rintro rfl
      rw [hasRegistered, hnew] at hreg
      cases hreg
    by_cases hec : e = c
    · rw [hec, hnew] at hid
      rw [hasRegistered, hid] at hreg
      cases hreg
    · have hmem : ∀ k, k ≠ c → k ∈ s.clients ++ [c] → k ∈ s.clients := by
        intro k hkc hk
        rcases List.mem_append.mp hk with hk | hk
        · exact hk
        · exact absurd (List.mem_singleton.mp hk) hkc
      rw [hold d hdc, hold e hec] at hid
      rw [hasRegistered, hold d hdc] at hreg
      exact hwf.ids d (hmem d hdc hd) e (hmem e hec he) hreg hid

theorem WellFormed.accept (hwf : WellFormed s) (garbage : Client) :
    WellFormed (accept garbage s) := by
  rw [accept_eq]
  refine hwf.acceptAt garbage (Nat.le_succ _) (Nat.lt_succ_self _) (fun hmem => ?_) fun x => ?_
  · exact (hwf.allocated _ hmem).ne rfl
  · exact hwf.notMem_entries (hwf.fresh _ le_rfl) x

/-! ## Registration -/

theorem getOrCreateGpuContext_spec (cfg : Config) (uuid : String) (s : Sched) :
    ∃ x t, getOrCreateGpuContext cfg uuid s = (x, t) ∧ x < t.nctx ∧ s.nctx ≤ t.nctx ∧
      t.clients = s.clients ∧ t.client = s.client ∧ t.nalloc = s.nalloc ∧
      t.schedulerOn = s.schedulerOn ∧ t.out = s.out ∧
      ((x < s.nctx ∧ t.ctx = s.ctx) ∨
        (x = s.nctx ∧ t.ctx = Function.update s.ctx x
          { uuid := strlcpy uuid gpuUuidLen
            totalMemory := cfg.defaultGpuMemory
            availableMemory := cfg.defaultGpuMemory })) := by
  unfold getOrCreateGpuContext
  split
  · rename_i x hx
    have hlt : x < s.nctx := List.mem_range.mp (List.mem_of_find?_eq_some hx)
    exact ⟨x, s, rfl, hlt, le_rfl, rfl, rfl, rfl, rfl, rfl, Or.inl ⟨hlt, rfl⟩⟩
  · exact ⟨s.nctx, _, rfl, Nat.lt_succ_self _, Nat.le_succ _, rfl, rfl, rfl, rfl, rfl,
      Or.inr ⟨rfl, rfl⟩⟩

/-- What `register_client` does before it replies: the record is filled in, with a context
that existed or has just been created. -/
theorem enrol_spec (cfg : Config) (c : ClientId) (m : RegisterMsg) (e : RegisterEnv) (s : Sched) :
    ∃ x, (enrol cfg c m e s).client =
        Function.update s.client c (registeredRecord m e x (s.client c)) ∧
      x < (enrol cfg c m e s).nctx ∧ s.nctx ≤ (enrol cfg c m e s).nctx ∧
      (enrol cfg c m e s).clients = s.clients ∧ (enrol cfg c m e s).nalloc = s.nalloc ∧
      (enrol cfg c m e s).schedulerOn = s.schedulerOn ∧ (enrol cfg c m e s).out = s.out ∧
      ((x < s.nctx ∧ (enrol cfg c m e s).ctx = s.ctx) ∨
        (x = s.nctx ∧ (enrol cfg c m e s).ctx = Function.update s.ctx x
          { uuid := strlcpy m.gpuUuid gpuUuidLen
            totalMemory := cfg.defaultGpuMemory
            availableMemory := cfg.defaultGpuMemory })) := by
  obtain ⟨x, t, heq, hlt, hle, hclients, hclient, hnalloc, hon, hout, hctx⟩ :=
    getOrCreateGpuContext_spec cfg m.gpuUuid s
  unfold enrol
  rw [heq]
  refine ⟨x, ?_, hlt, hle, hclients, hnalloc, hon, hout, hctx⟩
  simp [Sched.modifyClient, hclient]

theorem WellFormed.enrol (hwf : WellFormed s) {c : ClientId} (m : RegisterMsg)
    {e : RegisterEnv} (hunreg : hasRegistered s c = false) (hmem : c ∈ s.clients)
    (hid : acceptableId s e.generatedId) : WellFormed (enrol cfg c m e s) := by
  obtain ⟨x, hclient, hlt, hle, hclients, hnalloc, -, -, hctx⟩ :=
    enrol_spec cfg c m e s
  generalize XpuShare.enrol cfg c m e s = t at hclient hlt hle hclients hnalloc hctx
  have hnone : (s.client c).context = none := hwf.context_eq_none hunreg
  have hself : t.client c = registeredRecord m e x (s.client c) := by simp [hclient]
  have hother : ∀ d, d ≠ c → t.client d = s.client d := by
    intro d hd
    simp [hclient, hd]
  have hent : ∀ y, (t.ctx y).entries ⊆ (s.ctx y).entries := by
    intro y
    rcases hctx with ⟨_, hctx⟩ | ⟨_, hctx⟩
    · rw [hctx]
      exact List.Subset.refl _
    · rw [hctx, Function.update_apply]
      split
      · simp [GpuContext.entries]
      · exact List.Subset.refl _
  refine ⟨fun y d hd => ?_, fun d hd => ?_, fun d hd => ?_, fun d hd => ?_,
    fun d y hd => ?_, hclients ▸ hwf.nodup, fun d hd d' hd' hreg heq => ?_⟩
  · have hne : d ≠ c := by
      rintro rfl
      exact hwf.notMem_entries hnone y (hent y hd)
    rw [hother d hne]
    exact hwf.belongs y d (hent y hd)
  · by_cases hne : d = c
    · rw [hne, hself] at hd
      exact absurd hd hid.1
    · rw [hother d hne] at hd ⊢
      exact hwf.unregistered d hd
  · rw [hnalloc]
    exact hwf.allocated d (hclients ▸ hd)
  · rw [hnalloc] at hd
    have hne : d ≠ c := by
      rintro rfl
      exact absurd (hwf.allocated d hmem) (Nat.not_lt.mpr hd)
    rw [hother d hne]
    exact hwf.fresh d hd
  · by_cases hne : d = c
    · rw [hne, hself] at hd
      have hxy : x = y := Option.some.inj hd
      exact hxy ▸ hlt
    · rw [hother d hne] at hd
      exact (hwf.context_lt d y hd).trans_le hle
  · rw [hclients] at hd hd'
    by_cases hne : d = c
    · by_cases hne' : d' = c
      · rw [hne, hne']
      · rw [hne, hself, hother d' hne'] at heq
        exact absurd heq.symm (hid.2 d' hd')
    · by_cases hne' : d' = c
      · rw [hne', hself, hother d hne] at heq
        exact absurd heq (hid.2 d hd)
      · rw [hother d hne, hother d' hne'] at heq
        rw [hasRegistered, hother d hne] at hreg
        exact hwf.ids d hd d' hd' hreg heq

/-! ## Memory reports -/

/-- A memory report rewrites the memory figures of one record and of one context. -/
theorem creditMemory_spec (cfg : Config) (x : CtxId) (c : ClientId) (v : ℕ) (s : Sched) :
    ∃ usage peak overloaded, creditMemory cfg x c v s =
      (storeMemory c v s).modifyCtx x fun g =>
        { g with
          runningMemoryUsage := usage, peakMemoryUsage := peak
          memoryOverloaded := overloaded } := by
  unfold creditMemory
  split
  · exact ⟨_, _, _, rfl⟩
  · refine ⟨(s.ctx x).runningMemoryUsage, (s.ctx x).peakMemoryUsage,
      (s.ctx x).memoryOverloaded, ?_⟩
    simp [storeMemory, Sched.modifyCtx, Sched.modifyClient]

theorem creditMemory_table (cfg : Config) (x : CtxId) (c : ClientId) (v : ℕ) (s : Sched)
    (y : CtxId) : ((creditMemory cfg x c v s).ctx y).table = (s.ctx y).table := by
  obtain ⟨usage, peak, overloaded, h⟩ := creditMemory_spec cfg x c v s
  rw [h, Sched.modifyCtx_ctx]
  split
  · rename_i hy
    rw [hy]
    rfl
  · rfl

theorem creditMemory_client (cfg : Config) (x : CtxId) (c : ClientId) (v : ℕ) (s : Sched) :
    (creditMemory cfg x c v s).client = (storeMemory c v s).client := by
  obtain ⟨usage, peak, overloaded, h⟩ := creditMemory_spec cfg x c v s
  rw [h]
  rfl

/-- A field of the record other than the memory figures survives a report. -/
theorem storeMemory_field {β : Type*} (π : Client → β)
    (hπ : ∀ (r : Client) v p, π { r with memoryAllocated := v, peakAllocated := p } = π r)
    (c d : ClientId) (v : ℕ) (s : Sched) :
    π ((storeMemory c v s).client d) = π (s.client d) := by
  rw [storeMemory, Sched.modifyClient_client]
  split
  · rename_i hd
    rw [hd, hπ]
  · rfl

theorem WellFormed.memory (hwf : WellFormed s) (x : CtxId) (c : ClientId) (v : ℕ) :
    WellFormed (creditMemory cfg x c v s) := by
  have hspec := creditMemory_spec cfg x c v s
  obtain ⟨usage, peak, overloaded, h⟩ := hspec
  refine hwf.of_frame (by rw [h]; exact List.Sublist.refl _) (by rw [h]; rfl) (by rw [h]; rfl)
    (fun d => ?_) (fun d => ?_) (fun y d hd => ?_)
  · rw [creditMemory_client]
    exact storeMemory_field Client.context (fun _ _ _ => rfl) c d v s
  · rw [creditMemory_client]
    exact storeMemory_field Client.id (fun _ _ _ => rfl) c d v s
  · rw [entries_of_table (creditMemory_table cfg x c v s y)] at hd
    exact Or.inl hd

/-! ## Every action keeps a state well formed -/

theorem Action.wellFormed (hwf : WellFormed s) (h : Action cfg env D ok s t) : WellFormed t := by
  cases h with
  | block x h => exact hwf.block h
  | tune h => exact hwf.tuned h
  | accept garbage hok => exact hwf.accept garbage
  | enrol c m e hok hmem hunreg hid => exact hwf.enrol m hunreg hmem hid
  | insert c x hok hmem hon hctx hreq =>
      refine hwf.of_frame (List.Sublist.refl _) rfl rfl (fun _ => rfl) (fun _ => rfl) ?_
      intro y d hd
      by_cases hy : y = x
      · subst hy
        have hmem' : d ∈ (s.ctx y).entries ∨ d = c := by
          simp only [GpuContext.entries, Sched.modifyCtx_ctx_self, List.mem_append,
            List.mem_singleton] at hd ⊢
          tauto
        rcases hmem' with hold | rfl
        · exact Or.inl hold
        · exact Or.inr hctx
      · rw [Sched.modifyCtx_ctx_ne _ _ _ _ hy] at hd
        exact Or.inl hd
  | memory c x v hok hmem hctx => exact hwf.memory x c v
  | unlink c hctx =>
      exact hwf.of_frame List.filter_sublist rfl rfl (fun _ => rfl) (fun _ => rfl)
        fun _ _ hd => Or.inl hd
  | power on c hok =>
      exact hwf.of_frame (List.Sublist.refl _) rfl rfl (fun _ => rfl) (fun _ => rfl)
        fun _ _ hd => Or.inl hd
  | clear s₀ c hok =>
      refine hwf.of_frame (List.Sublist.refl _) rfl rfl (fun _ => rfl) (fun _ => rfl) ?_
      intro y d hd
      refine Or.inl ?_
      simp only [clearRequests] at hd
      split at hd
      · simp only [GpuContext.entries, List.nil_append, List.append_assoc,
          List.mem_append] at hd ⊢
        exact Or.inr hd
      · exact hd

/-! ## Sequences of actions -/

/-- An action of a run is one of any run that admits more events. -/
theorem Action.mono {ok' : Sched → Event → Prop} (hle : ∀ s e, ok s e → ok' s e)
    (h : Action cfg env D ok s t) : Action cfg env D ok' s t := by
  cases h with
  | block x h => exact .block x h
  | tune h => exact .tune h
  | accept garbage hok => exact .accept garbage (hle _ _ hok)
  | enrol c m e hok hmem hunreg hid => exact .enrol c m e (hle _ _ hok) hmem hunreg hid
  | insert c x hok hmem hon hctx hreq => exact .insert c x (hle _ _ hok) hmem hon hctx hreq
  | memory c x v hok hmem hctx => exact .memory c x v (hle _ _ hok) hmem hctx
  | unlink c hctx => exact .unlink c hctx
  | power on c hok => exact .power on c (hle _ _ hok)
  | clear s₀ c hok => exact .clear s₀ c (hle _ _ hok)

theorem Action.actions (h : Action cfg env D ok s t) : Actions cfg env D ok s t :=
  Relation.ReflTransGen.single h

theorem Actions.refl (s : Sched) : Actions cfg env D ok s s := Relation.ReflTransGen.refl

theorem Actions.trans {u : Sched} (h : Actions cfg env D ok s t) (h' : Actions cfg env D ok t u) :
    Actions cfg env D ok s u :=
  Relation.ReflTransGen.trans h h'

theorem Actions.tuned {u : Sched} (h : Actions cfg env D ok s t) (h' : Tuned t u) :
    Actions cfg env D ok s u :=
  h.trans (Action.tune h').actions

/-- What every action preserves, a sequence of actions preserves. -/
theorem Actions.invariant {I : Sched → Prop}
    (haction : ∀ s t, Action cfg env D ok s t → I s → I t)
    (h : Actions cfg env D ok s t) (hs : I s) : I t := by
  induction h with
  | refl => exact hs
  | tail _ hlast ih => exact haction _ _ hlast ih

theorem Actions.wellFormed (h : Actions cfg env D ok s t) (hwf : WellFormed s) : WellFormed t :=
  h.invariant (fun _ _ ha hs => ha.wellFormed hs) hwf

theorem Path.actions {x : CtxId} (h : Path cfg env (deleting D) x s t) :
    Actions cfg env D ok s t := by
  induction h with
  | refl => exact Actions.refl s
  | tail _ hlast ih => exact ih.trans (Action.block x hlast).actions

end WellFormed

end XpuShare
