import XpuShare.Model.Hook
import XpuShare.Verification.Agreement.Ledger
import XpuShare.Verification.Scheduler.Orders
import XpuShare.Verification.Scheduler.Runs

/-! # What clients know about themselves

A client learns from messages under which identifier it runs, whether the scheduler is on, and
which limits it has. Once it has read everything that was sent to it, what it knows is what
stands in the scheduler's record. -/

namespace XpuShare

open Transition

variable {cfg : Config} {env : Env} {s t : Sched} {c : ClientId}

/-- What a client is told. -/
structure Terms where
  schedulerOn : Bool
  id : ℕ
  coreLimit : ℤ
  memoryLimit : ℕ
  deriving DecidableEq

/-- What a client knows after another message. -/
def learn (k : Terms) : ToClient → Terms
  | .status on _ _ => { k with schedulerOn := on }
  | .schedOn => { k with schedulerOn := true }
  | .schedOff => { k with schedulerOn := false }
  | .updateLimit limit => { k with memoryLimit := limit }
  | .updateCoreLimit limit =>
      if 1 ≤ limit ∧ limit ≤ 100 then { k with coreLimit := limit } else k
  | _ => k

/-- What some messages tell a client, the first of which has to be the reply to REGISTER. -/
def told : List ToClient → Option Terms
  | .status on id coreLimit :: rest => some (rest.foldl learn ⟨on, id, coreLimit, 0⟩)
  | _ => none

/-- What the scheduler's record says. -/
def Sched.termsOf (s : Sched) (c : ClientId) : Terms :=
  ⟨s.schedulerOn, (s.client c).id, (s.client c).coreLimit, (s.client c).memoryLimit⟩

theorem told_append {messages : List ToClient} {k : Terms} (h : told messages = some k)
    (new : List ToClient) : told (messages ++ new) = some (new.foldl learn k) := by
  unfold told at h
  split at h
  · rw [List.cons_append, told, List.foldl_append, Option.some.inj h]
  · cases h

theorem learn_order {m : ToClient} (hm : m.IsOrder) (k : Terms) : learn k m = k := by
  cases m <;> first | rfl | exact hm.elim

theorem learn_orders {new : List ToClient} (hnew : ∀ m ∈ new, m.IsOrder) (k : Terms) :
    new.foldl learn k = k :=
  Loop.foldl_fixed fun m hm => learn_order (hnew m hm) k

/-! ## The library -/

/-- The variables of a client say what it has been told. -/
structure Informed (k : Terms) (r : LibState) (h : HookState) : Prop where
  got : r.gotInitialSchedStatus = true
  schedulerOn : r.schedulerOn = k.schedulerOn
  id : r.nvshareClientId = k.id
  coreLimit : r.clientCoreLimit = k.coreLimit
  memoryLimit : k.memoryLimit ≠ 0 → h.memoryLimit = k.memoryLimit

theorem cuMemAlloc_memoryLimit (d : DriverReply) (bytesize : ℕ) (h : HookState) :
    (cuMemAlloc d bytesize h).2.1.memoryLimit = h.memoryLimit := by
  have hmeasure : (measureMemory d h).memoryLimit = h.memoryLimit := by
    unfold measureMemory
    split <;> rfl
  unfold cuMemAlloc
  simp only
  split
  · rfl
  · split
    · exact hmeasure
    · split
      · exact hmeasure
      · exact hmeasure

theorem cuMemFree_memoryLimit (result : CuResult) (dptr : ℕ) (h : HookState) :
    (cuMemFree result dptr h).2.1.memoryLimit = h.memoryLimit := by
  have hremove : (removeCudaAllocation dptr h).1.memoryLimit = h.memoryLimit := by
    unfold removeCudaAllocation
    refine Loop.foldl_proj (π := fun r : HookState × List ToScheduler => r.1.memoryLimit) ?_ _ _
    intro r a
    unfold removeAllocation
    split <;> rfl
  unfold cuMemFree
  split
  · rfl
  · split
    · exact hremove
    · rfl

theorem continueWithLock_fields (r : LibState) :
    (continueWithLock r).1.gotInitialSchedStatus = r.gotInitialSchedStatus ∧
      (continueWithLock r).1.schedulerOn = r.schedulerOn ∧
      (continueWithLock r).1.nvshareClientId = r.nvshareClientId ∧
      (continueWithLock r).1.clientCoreLimit = r.clientCoreLimit := by
  unfold continueWithLock
  split
  · exact ⟨rfl, rfl, rfl, rfl⟩
  · split <;> exact ⟨rfl, rfl, rfl, rfl⟩

theorem releaseEarlyFn_fields (timedOut idle : Bool) (r : LibState) :
    (releaseEarlyFn timedOut idle r).1.gotInitialSchedStatus = r.gotInitialSchedStatus ∧
      (releaseEarlyFn timedOut idle r).1.schedulerOn = r.schedulerOn ∧
      (releaseEarlyFn timedOut idle r).1.nvshareClientId = r.nvshareClientId ∧
      (releaseEarlyFn timedOut idle r).1.clientCoreLimit = r.clientCoreLimit := by
  unfold releaseEarlyFn
  split
  · split <;> exact ⟨rfl, rfl, rfl, rfl⟩
  · split <;> exact ⟨rfl, rfl, rfl, rfl⟩

theorem onSchedOn_eq (r : LibState) :
    (onSchedOn r).gotInitialSchedStatus = r.gotInitialSchedStatus ∧
      (onSchedOn r).schedulerOn = true ∧ (onSchedOn r).nvshareClientId = r.nvshareClientId ∧
      (onSchedOn r).clientCoreLimit = r.clientCoreLimit := by
  unfold onSchedOn
  split
  · rename_i hon
    exact ⟨rfl, hon, rfl, rfl⟩
  · exact ⟨rfl, rfl, rfl, rfl⟩

theorem onSchedOff_eq (r : LibState) :
    (onSchedOff r).gotInitialSchedStatus = r.gotInitialSchedStatus ∧
      (onSchedOff r).schedulerOn = false ∧ (onSchedOff r).nvshareClientId = r.nvshareClientId ∧
      (onSchedOff r).clientCoreLimit = r.clientCoreLimit := by
  unfold onSchedOff
  split
  · exact ⟨rfl, rfl, rfl, rfl⟩
  · rename_i hoff
    exact ⟨rfl, by simpa using hoff, rfl, rfl⟩

/-- The first message that a client accepts tells it everything. -/
theorem informed_of_initialStatus {r : LibState} {h : HookState} {m : ToClient}
    {r' : LibState × List ToScheduler} (hgot : r.gotInitialSchedStatus = false)
    (hm : clientFn m r = some r') : ∃ k, told [m] = some k ∧ Informed k r'.1 (m.hooked h) := by
  rw [clientFn, hgot] at hm
  simp only [Bool.false_eq_true, if_false] at hm
  cases m with
  | status on id coreLimit =>
      rw [← Option.some.inj hm]
      exact ⟨⟨on, id, coreLimit, 0⟩, rfl, rfl, rfl, rfl, rfl, fun hzero => absurd rfl hzero⟩
  | _ => cases hm

/-- A client learns from each later message what the message says. -/
theorem Informed.receive {k : Terms} {r : LibState} {h : HookState} {m : ToClient}
    {r' : LibState × List ToScheduler} (hk : Informed k r h) (hm : clientFn m r = some r') :
    Informed (learn k m) r'.1 (m.hooked h) := by
  rw [clientFn, hk.got, if_pos rfl] at hm
  rw [← Option.some.inj hm]
  obtain ⟨hgot, hon, hid, hcore, hmemory⟩ := hk
  have hison := onSchedOn_eq r
  have hisoff := onSchedOff_eq r
  cases m with
  | status on id coreLimit =>
      cases on with
      | true => exact ⟨hison.1.trans hgot, hison.2.1, hison.2.2.1.trans hid,
          hison.2.2.2.trans hcore, hmemory⟩
      | false => exact ⟨hisoff.1.trans hgot, hisoff.2.1, hisoff.2.2.1.trans hid,
          hisoff.2.2.2.trans hcore, hmemory⟩
  | schedOn => exact ⟨hison.1.trans hgot, hison.2.1, hison.2.2.1.trans hid,
      hison.2.2.2.trans hcore, hmemory⟩
  | schedOff => exact ⟨hisoff.1.trans hgot, hisoff.2.1, hisoff.2.2.1.trans hid,
      hisoff.2.2.2.trans hcore, hmemory⟩
  | dropLock =>
      simp only [handleMessage]
      split
      · exact ⟨hgot, hon, hid, hcore, hmemory⟩
      · exact ⟨hgot, hon, hid, hcore, hmemory⟩
  | updateLimit limit => exact ⟨hgot, hon, hid, hcore, fun _ => rfl⟩
  | updateCoreLimit limit =>
      simp only [handleMessage, learn]
      split
      · exact ⟨hgot, hon, hid, rfl, hmemory⟩
      · exact ⟨hgot, hon, hid, hcore, hmemory⟩
  | _ => exact ⟨hgot, hon, hid, hcore, hmemory⟩

/-- A client that has read some messages knows what they say, whatever else it has done. -/
theorem ClientRun.informed {h₀ h : HookState} {read : List ToClient} {r : LibState}
    (hrun : ClientRun h₀ read r h) :
    (read = [] ∧ r.gotInitialSchedStatus = false) ∨ ∃ k, told read = some k ∧ Informed k r h := by
  induction hrun with
  | start => exact .inl ⟨rfl, rfl⟩
  | receive m hrun hm ih =>
      rcases ih with ⟨rfl, hgot⟩ | ⟨k, hk, hinformed⟩
      · exact .inr (informed_of_initialStatus hgot hm)
      · exact .inr ⟨_, told_append hk [m], hinformed.receive hm⟩
  | @enter read r h hrun ih =>
      obtain ⟨hgot, hon, hid, hcore⟩ := continueWithLock_fields r
      rcases ih with ⟨hnil, hnot⟩ | ⟨k, hk, hi⟩
      · exact .inl ⟨hnil, hgot.trans hnot⟩
      · exact .inr ⟨k, hk, hgot.trans hi.got, hon.trans hi.schedulerOn, hid.trans hi.id,
          hcore.trans hi.coreLimit, hi.memoryLimit⟩
  | @releaseEarly read r h timedOut idle hrun ih =>
      obtain ⟨hgot, hon, hid, hcore⟩ := releaseEarlyFn_fields timedOut idle r
      rcases ih with ⟨hnil, hnot⟩ | ⟨k, hk, hi⟩
      · exact .inl ⟨hnil, hgot.trans hnot⟩
      · exact .inr ⟨k, hk, hgot.trans hi.got, hon.trans hi.schedulerOn, hid.trans hi.id,
          hcore.trans hi.coreLimit, hi.memoryLimit⟩
  | alloc d bytesize hrun ih =>
      refine ih.imp id fun ⟨k, hk, hi⟩ => ⟨k, hk, hi.got, hi.schedulerOn, hi.id, hi.coreLimit, ?_⟩
      rw [cuMemAlloc_memoryLimit]
      exact hi.memoryLimit
  | free result dptr hrun ih =>
      refine ih.imp id fun ⟨k, hk, hi⟩ => ⟨k, hk, hi.got, hi.schedulerOn, hi.id, hi.coreLimit, ?_⟩
      rw [cuMemFree_memoryLimit]
      exact hi.memoryLimit

/-! ## The scheduler -/

/-- Every registered client has been told what its record says, and nobody else has been told
anything. -/
structure Known (s : Sched) : Prop where
  told : ∀ c ∈ s.clients, hasRegistered s c = true → told (s.sentTo c) = some (s.termsOf c)
  silent : ∀ c ∈ s.clients, hasRegistered s c = false → s.sentTo c = []
  unborn : ∀ c, s.nalloc ≤ c → s.sentTo c = []
  blank : ∀ c, (s.client c).id = unregisteredId →
    (s.client c).podName = "" ∧ (s.client c).memoryLimit = 0

/-- Of a new record, the fields that are read before anything has been written to them are
zero. -/
def Blank (_ : Sched) : Event → Prop
  | .accept garbage => garbage.podName = "" ∧ garbage.memoryLimit = 0
  | _ => True

instance (s : Sched) : DecidablePred (Blank s)
  | .accept garbage => inferInstanceAs (Decidable (garbage.podName = "" ∧ garbage.memoryLimit = 0))
  | .message _ _ | .disconnect _ | .timerBegin _ | .timerEnd _ _ | .annotated _ _ _ =>
      isTrue trivial

theorem Known.init : Known Sched.init where
  told _ hc := by cases hc
  silent _ hc := by cases hc
  unborn _ _ := rfl
  blank _ _ := ⟨rfl, rfl⟩

theorem termsOf_of_terms (hon : t.schedulerOn = s.schedulerOn)
    (hterms : (t.client c).terms = (s.client c).terms) : t.termsOf c = s.termsOf c := by
  unfold Sched.termsOf
  rw [hon, id_of_terms hterms, coreLimit_of_terms hterms, memoryLimit_of_terms hterms]

/-- Orders tell nobody anything about itself. -/
theorem Known.orders (h : Known s) (hwf : WellFormed s) (horders : Orders s t) : Known t := by
  obtain ⟨new, hnew, hall⟩ := horders.sent
  have hsent : ∀ c, t.sentTo c = s.sentTo c ++ messagesTo c new := fun c => sentTo_append c hnew
  have hreg : ∀ c, hasRegistered t c = hasRegistered s c := by
    intro c
    rw [hasRegistered, id_of_terms (horders.terms c), hasRegistered]
  have hnone : ∀ c, (s.client c).context = none → t.sentTo c = s.sentTo c := by
    intro c hctx
    rw [hsent, messagesTo_eq_nil, List.append_nil]
    rintro m hm rfl
    exact (hall m hm).2 hctx
  constructor
  · intro c hc hregc
    rw [hreg] at hregc
    rw [hsent, told_append (h.told c (horders.clients hc) hregc), learn_orders,
      termsOf_of_terms horders.schedulerOn (horders.terms c)]
    intro m hm
    obtain ⟨n, hn, rfl⟩ := List.mem_map.mp hm
    exact (hall n (List.mem_filter.mp hn).1).1
  · intro c hc hunreg
    rw [hreg] at hunreg
    rw [hnone c (hwf.context_eq_none hunreg)]
    exact h.silent c (horders.clients hc) hunreg
  · intro c hc
    rw [horders.nalloc] at hc
    rw [hnone c (hwf.fresh c hc)]
    exact h.unborn c hc
  · intro c hid
    rw [id_of_terms (horders.terms c)] at hid
    rw [podName_of_terms (horders.terms c), memoryLimit_of_terms (horders.terms c)]
    exact h.blank c hid

theorem Known.accept (h : Known s) (hwf : WellFormed s) {garbage : Client}
    (hblank : garbage.podName = "" ∧ garbage.memoryLimit = 0) : Known (accept garbage s) := by
  have hold : ∀ c, c ≠ s.nalloc → (XpuShare.accept garbage s).client c = s.client c :=
    fun c hc => Function.update_of_ne hc _ _
  have hnew : (XpuShare.accept garbage s).client s.nalloc =
      { garbage with id := unregisteredId, context := none } := Function.update_self _ _ _
  have hmem : ∀ c ∈ (XpuShare.accept garbage s).clients, c = s.nalloc ∨ c ∈ s.clients := by
    intro c hc
    rcases List.mem_append.mp hc with hc | hc
    · exact .inr hc
    · exact .inl (List.mem_singleton.mp hc)
  constructor
  · intro c hc hreg
    rcases hmem c hc with rfl | hc
    · rw [hasRegistered, hnew] at hreg
      exact absurd rfl (bne_iff_ne.mp hreg)
    · have hne : c ≠ s.nalloc := (hwf.allocated c hc).ne
      rw [hasRegistered, hold c hne] at hreg
      have htold := h.told c hc hreg
      rw [Sched.termsOf, hold c hne]
      exact htold
  · intro c hc hunreg
    rcases hmem c hc with rfl | hc
    · exact h.unborn s.nalloc (Nat.le_refl _)
    · have hne : c ≠ s.nalloc := (hwf.allocated c hc).ne
      rw [hasRegistered, hold c hne] at hunreg
      exact h.silent c hc hunreg
  · intro c hc
    exact h.unborn c (Nat.le_of_succ_le hc)
  · intro c hid
    by_cases hne : c = s.nalloc
    · rw [hne, hnew]
      exact hblank
    · rw [hold c hne] at hid ⊢
      exact h.blank c hid

/-- A registered client is told what is written to its record. -/
theorem Known.tell (h : Known s) (hc : c ∈ s.clients) (hlt : c < s.nalloc)
    (hreg : hasRegistered s c = true) {m : ToClient} {f : Client → Client}
    (hid : (f (s.client c)).id = (s.client c).id)
    (hlearn : learn (s.termsOf c) m = (s.modifyClient c f).termsOf c) :
    Known (sendMessage env c m (s.modifyClient c f)) := by
  have hold : ∀ d, d ≠ c → (s.modifyClient c f).client d = s.client d :=
    fun d hd => Sched.modifyClient_client_ne s c d f hd
  have hself : (s.modifyClient c f).client c = f (s.client c) :=
    Sched.modifyClient_client_self s c f
  have hsentc : (sendMessage env c m (s.modifyClient c f)).sentTo c = s.sentTo c ++ [m] := by
    rw [sentTo_append c (sendMessage_out env c m _)]
    simp [messagesTo, Sched.sentTo]
  have hsentd : ∀ d, d ≠ c →
      (sendMessage env c m (s.modifyClient c f)).sentTo d = s.sentTo d := by
    intro d hd
    rw [sentTo_append d (sendMessage_out env c m _), messagesTo_eq_nil, List.append_nil]
    · rfl
    · intro n hn
      rw [List.mem_singleton.mp hn]
      exact hd.symm
  constructor
  · intro d hd hregd
    by_cases hdc : d = c
    · subst hdc
      rw [hsentc, told_append (h.told d hc hreg)]
      exact congrArg some hlearn
    · rw [hasRegistered, sendMessage_client, hold d hdc] at hregd
      rw [hsentd d hdc, h.told d hd hregd]
      simp only [Sched.termsOf, sendMessage_client, hold d hdc]
      rfl
  · intro d hd hunreg
    by_cases hdc : d = c
    · subst hdc
      rw [hasRegistered, sendMessage_client, hself, hid] at hunreg
      rw [hasRegistered] at hreg
      rw [hreg] at hunreg
      cases hunreg
    · rw [hasRegistered, sendMessage_client, hold d hdc] at hunreg
      rw [hsentd d hdc]
      exact h.silent d hd hunreg
  · intro d hd
    have hne : d ≠ c := fun he => hlt.not_ge (he ▸ hd)
    rw [hsentd d hne]
    exact h.unborn d hd
  · intro d hidd
    by_cases hdc : d = c
    · subst hdc
      rw [sendMessage_client, hself, hid] at hidd
      rw [hasRegistered, hidd] at hreg
      exact absurd rfl (bne_iff_ne.mp hreg)
    · rw [sendMessage_client, hold d hdc] at hidd ⊢
      exact h.blank d hidd

/-- The watcher tells a client the limits that it stores. -/
theorem Known.annotated (h : Known s) (hwf : WellFormed s) {id : ℕ} {memory : Option ℕ}
    {core : Option ℤ} (hwatched : watched s id = true) :
    Known (annotationUpdate env id memory core s) := by
  unfold annotationUpdate
  split
  · rename_i c hfind
    have hid : (s.client c).id = id := by simpa using List.find?_some hfind
    have hc := List.mem_of_find?_eq_some hfind
    have hlt := hwf.allocated c hc
    have hreg : hasRegistered s c = true := by
      rw [hasRegistered, bne_iff_ne]
      intro hunreg
      simp only [watched, List.any_eq_true, Bool.and_eq_true, decide_eq_true_eq] at hwatched
      obtain ⟨d, -, ⟨hd, hname⟩, -⟩ := hwatched
      exact hname (h.blank d (hd.trans (hid.symm.trans hunreg))).1
    have hmemory : Known (updateMemoryLimit env c memory s) ∧
        hasRegistered (updateMemoryLimit env c memory s) c = true ∧
        (updateMemoryLimit env c memory s).clients = s.clients ∧
        (updateMemoryLimit env c memory s).nalloc = s.nalloc := by
      unfold updateMemoryLimit
      split
      · rename_i n
        split
        · refine ⟨h.tell hc hlt hreg rfl ?_, ?_, rfl, rfl⟩
          · simp [learn, Sched.termsOf]
          · simpa [hasRegistered] using hreg
        · exact ⟨h, hreg, rfl, rfl⟩
      · exact ⟨h, hreg, rfl, rfl⟩
    obtain ⟨hknown, hreg', hclients, hnalloc⟩ := hmemory
    unfold updateCoreLimit
    simp only
    split
    · refine hknown.tell (hclients ▸ hc) (hnalloc ▸ hlt) hreg' rfl ?_
      simp [learn, Sched.termsOf, annotatedCoreLimit_bounds core]
    · exact hknown
  · exact h

/-- The reply to REGISTER tells a client what its new record says. -/
theorem Known.register (h : Known s) (hwf : WellFormed s) (hsent : env.AllSent)
    {m : RegisterMsg} {e : RegisterEnv} {fuel : ℕ}
    (henabled : (Event.message c (.register m e)).enabled s = true)
    (hrun : processMsg cfg env fuel c (.register m e) s = some t) : Known t := by
  have hc : c ∈ s.clients := Event.connected_of_enabled henabled rfl
  have haccept := Event.acceptable_of_enabled henabled
  simp only [processMsg, registerClient] at hrun
  by_cases hreg : hasRegistered s c = true
  · simp only [hreg, if_true, Bool.false_eq_true, if_false] at hrun
    exact h.orders hwf (deleteClient_orders hwf hrun)
  · have hunreg : hasRegistered s c = false := by simpa using hreg
    obtain ⟨x, hclient, -, -, hclients, hnalloc, hon, hout, -⟩ := enrol_spec cfg c m e s
    generalize enrol cfg c m e s = u at *
    have hself : u.client c = registeredRecord m e x (s.client c) := by
      rw [hclient, Function.update_self]
    have hold : ∀ d, d ≠ c → u.client d = s.client d := by
      intro d hd
      rw [hclient, Function.update_of_ne hd]
    have hblank := h.blank c (by simpa [hasRegistered] using hunreg)
    have hregu : hasRegistered u c = true := by
      rw [hasRegistered, hself]
      exact bne_iff_ne.mpr haccept.1
    have hsome : sendSucceeds env c u = true := hsent _ c
    simp only [hunreg, Bool.false_eq_true, if_false, hsome, if_true, Option.some.injEq] at hrun
    have hlt : c < u.nalloc := hnalloc ▸ hwf.allocated c hc
    have hsentc : ∀ m, (sendMessage env c m u).sentTo c = [m] := by
      intro m
      have hs : u.sentTo c = [] := by
        rw [Sched.sentTo, hout]
        exact h.silent c hc hunreg
      rw [sentTo_append c (sendMessage_out env c m u), hs]
      simp [messagesTo]
    have hsentd : ∀ m d, d ≠ c → (sendMessage env c m u).sentTo d = s.sentTo d := by
      intro m d hd
      rw [sentTo_append d (sendMessage_out env c m u), messagesTo_eq_nil, List.append_nil,
        Sched.sentTo, hout]
      · rfl
      · intro n hn
        rw [List.mem_singleton.mp hn]
        exact hd.symm
    have hwelcome : Known (sendMessage env c
        (.status u.schedulerOn e.generatedId (u.client c).coreLimit) u) := by
      constructor
      · intro d hd hregd
        by_cases hdc : d = c
        · subst hdc
          rw [hsentc]
          simp only [Sched.termsOf, sendMessage_client, sendMessage_schedulerOn, hself]
          have hzero : (registeredRecord m e x (s.client d)).memoryLimit = 0 := hblank.2
          rw [hzero]
          rfl
        · rw [hasRegistered, sendMessage_client, hold d hdc] at hregd
          rw [hsentd _ d hdc, h.told d (hclients ▸ hd) hregd]
          simp only [Sched.termsOf, sendMessage_client, sendMessage_schedulerOn, hold d hdc, hon]
      · intro d hd hunregd
        by_cases hdc : d = c
        · subst hdc
          exact absurd (hregu.symm.trans hunregd) (by simp)
        · rw [hasRegistered, sendMessage_client, hold d hdc] at hunregd
          rw [hsentd _ d hdc]
          exact h.silent d (hclients ▸ hd) hunregd
      · intro d hd
        have hne : d ≠ c := fun he => hlt.not_ge (he ▸ hd)
        rw [hsentd _ d hne]
        exact h.unborn d (hnalloc ▸ hd)
      · intro d hid
        by_cases hdc : d = c
        · subst hdc
          rw [sendMessage_client, hself] at hid
          exact absurd hid haccept.1
        · rw [sendMessage_client, hold d hdc] at hid ⊢
          exact h.blank d hid
    rw [← hrun]
    unfold applyInitialLimit
    split
    · rename_i n hn
      split
      · refine hwelcome.tell (hclients ▸ hc) hlt hregu rfl ?_
        simp [learn, Sched.termsOf]
      · exact hwelcome
    · exact hwelcome

theorem messagesTo_announcement {l : List ClientId} (hnodup : l.Nodup) (m : ToClient)
    (c : ClientId) :
    messagesTo c (l.map fun d => ⟨d, m, true⟩) = if c ∈ l then [m] else [] := by
  induction l with
  | nil => rfl
  | cons d l ih =>
      rw [List.nodup_cons] at hnodup
      have htail := ih hnodup.2
      by_cases hd : d = c
      · subst hd
        have hnone : messagesTo d (l.map fun d => (⟨d, m, true⟩ : Sent)) = [] := by
          rw [htail, if_neg hnodup.1]
        simp only [messagesTo] at hnone ⊢
        simp [hnone]
      · have hcd : c ≠ d := fun he => hd he.symm
        simp only [messagesTo] at htail ⊢
        simp [hd, hcd, htail]

/-- A change of the status is told to everybody. -/
theorem Known.announced (h : Known s) (hwf : WellFormed s) (on : Bool) :
    Known ({ s with schedulerOn := on } : Sched).announced := by
  have hsentc : ∀ c, ({ s with schedulerOn := on } : Sched).announced.sentTo c =
      s.sentTo c ++ if c ∈ s.clients ∧ hasRegistered s c = true then
        [if on then .schedOn else .schedOff] else [] := by
    intro c
    have hnodup := hwf.nodup.filter (hasRegistered s ·)
    have hnew := messagesTo_announcement hnodup (if on then .schedOn else .schedOff) c
    simp only [List.mem_filter] at hnew
    rw [← hnew]
    exact sentTo_append c rfl
  constructor
  · intro c hc hreg
    rw [hsentc c, if_pos ⟨hc, hreg⟩, told_append (h.told c hc hreg)]
    cases on <;> rfl
  · intro c hc hunreg
    have hnot : ¬ (c ∈ s.clients ∧ hasRegistered s c = true) := by
      rintro ⟨-, hreg⟩
      exact absurd (hreg.symm.trans hunreg) (by simp)
    rw [hsentc c, if_neg hnot, List.append_nil]
    exact h.silent c hc hunreg
  · intro c hc
    have hnot : ¬ (c ∈ s.clients ∧ hasRegistered s c = true) :=
      fun hmem => (hwf.allocated c hmem.1).not_ge hc
    rw [hsentc c, if_neg hnot, List.append_nil]
    exact h.unborn c hc
  · exact h.blank

/-! ## Whole runs -/

theorem Known.step {e : Event} (h : Known s) (hwf : WellFormed s) (hsent : env.AllSent)
    (hblank : Blank s e) (hstep : Step cfg env s e t) : Known t := by
  have horders : e.OrdersOnly → Known t := fun he => h.orders hwf (hstep.orders hwf he)
  obtain ⟨henabled, fuel, hrun⟩ := hstep
  cases e with
  | accept garbage => exact Option.some.inj hrun ▸ h.accept hwf hblank
  | message c m =>
      cases m with
      | register m e => exact h.register hwf hsent henabled hrun
      | schedOn =>
          simp only [handle, processMsg, bcastStatus_announced hsent] at hrun
          split at hrun
          · exact Option.some.inj hrun ▸ h
          · exact Option.some.inj hrun ▸ h.announced hwf true
      | schedOff =>
          simp only [handle, processMsg, bcastStatus_announced hsent, Option.map_some] at hrun
          split at hrun
          · have hoff := h.announced hwf false
            have hclear : Known (clearRequests
                ({ s with schedulerOn := false } : Sched).announced) :=
              ⟨hoff.told, hoff.silent, hoff.unborn, hoff.blank⟩
            exact Option.some.inj hrun ▸ hclear
          · exact Option.some.inj hrun ▸ h
      | _ => exact horders trivial
  | annotated id memory core =>
      exact Option.some.inj hrun ▸ h.annotated hwf (Event.possible_of_enabled henabled)
  | _ => exact horders trivial

theorem known_of_reaches (hsent : env.AllSent)
    (hreach : Reaches (guarded (Step cfg env) Blank) Sched.init s) : Known s := by
  have hboth : WellFormed s ∧ Known s := by
    refine hreach.invariant (I := fun s => WellFormed s ∧ Known s) ?_
      ⟨WellFormed.init, Known.init⟩
    rintro s e t ⟨hblank, hstep⟩ ⟨hwf, hknown⟩
    exact ⟨hstep.wellFormed hwf, hknown.step hwf hsent hblank hstep⟩
  exact hboth.2

/-- A client that has read all messages sent to it has the identifier, the status and the
limits that stand in the scheduler's record, whatever it did in between; and no message on the
way there ends it. -/
theorem clients_know_their_terms (hsent : env.AllSent)
    (hreach : Reaches (guarded (Step cfg env) Blank) Sched.init s) (hmem : c ∈ s.clients)
    (hreg : hasRegistered s c = true) {h₀ h : HookState} {r : LibState} :
    (ClientRun h₀ (s.sentTo c) r h →
      r.gotInitialSchedStatus = true ∧ r.schedulerOn = s.schedulerOn ∧
        r.nvshareClientId = (s.client c).id ∧ r.clientCoreLimit = (s.client c).coreLimit ∧
        ((s.client c).memoryLimit ≠ 0 → h.memoryLimit = (s.client c).memoryLimit)) ∧
      ∀ read m rest, s.sentTo c = read ++ m :: rest → ClientRun h₀ read r h →
        (clientFn m r).isSome = true := by
  have htold := (known_of_reaches hsent hreach).told c hmem hreg
  constructor
  · intro hrun
    rcases hrun.informed with ⟨hnil, -⟩ | ⟨k, hk, hinformed⟩
    · rw [hnil] at htold
      cases htold
    · rw [htold] at hk
      rw [← Option.some.inj hk] at hinformed
      exact ⟨hinformed.got, hinformed.schedulerOn, hinformed.id, hinformed.coreLimit,
        hinformed.memoryLimit⟩
  · intro read m rest hsplit hrun
    rcases hrun.informed with ⟨rfl, hgot⟩ | ⟨k, -, hinformed⟩
    · rw [hsplit, List.nil_append] at htold
      rw [clientFn, hgot]
      cases m with
      | status on id coreLimit => rfl
      | _ => cases htold
    · rw [clientFn, hinformed.got]
      rfl

/-- A client that has registered with an annotated limit and has read the reply and an update. -/
theorem clients_know_their_terms_limited :
    ∃ s : Sched, s.sentTo 0 = [.status true 7 40, .schedOff] ∧
      ∀ {h₀ h : HookState} {r : LibState},
      (ClientRun h₀ (s.sentTo 0) r h →
        r.gotInitialSchedStatus = true ∧ r.schedulerOn = s.schedulerOn ∧
          r.nvshareClientId = (s.client 0).id ∧ r.clientCoreLimit = (s.client 0).coreLimit ∧
          ((s.client 0).memoryLimit ≠ 0 → h.memoryLimit = (s.client 0).memoryLimit)) ∧
        ∀ read m rest, s.sentTo 0 = read ++ m :: rest → ClientRun h₀ read r h →
          (clientFn m r).isSome = true := by
  obtain ⟨s, hrun, hsent, hmem, hreg⟩ := exists_reaches {} steady Blank 1
    [.accept {}, enterQuota 0 7 40, .accept {}, .message 1 .schedOff]
    (fun s => s.sentTo 0 = [.status true 7 40, .schedOff] ∧ 0 ∈ s.clients ∧
      hasRegistered s 0 = true) (by decide +kernel)
  exact ⟨s, hsent, clients_know_their_terms steady_allSent hrun hmem hreg⟩

end XpuShare
