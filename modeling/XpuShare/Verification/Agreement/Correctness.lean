import XpuShare.Verification.Agreement.Client
import XpuShare.Verification.Scheduler.Runs

/-! # Agreement about the lock

The scheduler and its clients agree about who holds and who seeks the lock, whatever
requests, grants, drops and releases cross on the wire. -/

namespace XpuShare

variable {cfg : Config} {env : Env} {y y' : System} {c d : ClientId} {x : CtxId} {t : Sched}
  {q : ClientId → List ToScheduler}

/-- A client that has not registered yet has nothing but REGISTER under way. -/
structure Outside (y : System) (c : ClientId) : Prop where
  context : (y.sched.client c).context = none
  lib : y.lib c = {}
  received : y.received c = 0
  sentTo : y.sched.sentTo c = []
  toSched : y.toSched c = [] ∨ ∃ m, y.toSched c = [.register m]
  record : c < y.sched.nalloc →
    (y.sched.client c).id = unregisteredId ∧ (y.sched.client c).podName = ""

/-- A client that has registered on `x` agrees with the scheduler, and the lock it holds was
granted by a message it has read. -/
structure Inside (y : System) (c : ClientId) (x : CtxId) : Prop where
  context : (y.sched.client c).context = some x
  agrees : Agrees ((y.sched.ctx x).runningList.count c) ((y.sched.ctx x).pending.count c)
    (y.lib c) (y.toClient c) (y.toSched c)
  received_le : y.received c ≤ (y.sched.sentTo c).length
  granted : (y.lib c).ownLock = true → y.grantedBy c < y.received c ∧
    (y.sched.sentTo c)[y.grantedBy c]? = some .lockOk

/-- The invariant of the system. -/
structure Consistent (y : System) : Prop where
  wellFormed : WellFormed y.sched
  onAir : OnAir y.sched
  clients : ∀ c, Outside y c ∨ ∃ x, Inside y c x

theorem Consistent.init : Consistent {} where
  wellFormed := WellFormed.init
  onAir := ⟨rfl, by simp [Sched.init]⟩
  clients c := Or.inl ⟨rfl, rfl, rfl, rfl, Or.inl rfl, fun h => absurd h (Nat.not_lt_zero c)⟩

/-! ## Steps of the scheduler -/

theorem Outside.unmoved (h : Outside y c) (hc : Unmoved c y.sched t) (hq : q c = y.toSched c)
    (hnalloc : c < t.nalloc → c < y.sched.nalloc) :
    Outside { y with sched := t, toSched := q } c where
  context := by rw [hc.client, h.context]
  lib := h.lib
  received := h.received
  sentTo := hc.sentTo.trans h.sentTo
  toSched := by simpa only [hq] using h.toSched
  record hlt := by
    rw [hc.client]
    exact h.record (hnalloc hlt)

/-- The scheduler reads `read` and keeps its account of the client. -/
theorem Inside.scheduled {read : List ToScheduler} (h : Inside y c x)
    (hq : y.toSched c = read ++ q c)
    (hc : Ledger x c (read.count .reqLock) (read.count .lockReleased) y.sched t) :
    Inside { y with sched := t, toSched := q } c x := by
  obtain ⟨new, hnew, hrun⟩ := hc.sent
  have hentries := hc.entries
  rw [count_entries, count_entries] at hentries
  have hinbox : System.toClient { y with sched := t, toSched := q } c = y.toClient c ++ new := by
    rw [System.toClient, hnew, List.drop_append_of_le_length h.received_le]
    rfl
  refine ⟨hc.context.trans h.context, ?_, ?_, fun hown => ?_⟩
  · rw [hinbox]
    exact (hq ▸ h.agrees).scheduled rfl rfl hentries hrun
  · rw [hnew, List.length_append]
    exact h.received_le.trans (Nat.le_add_right _ _)
  · obtain ⟨hlt, hsome⟩ := h.granted hown
    refine ⟨hlt, ?_⟩
    rw [hnew, List.getElem?_append_left (hlt.trans_le h.received_le)]
    exact hsome

/-- A client that has nothing to do with a step of the scheduler. -/
theorem bystander (h : Outside y c ∨ ∃ x, Inside y c x) (hc : Unmoved c y.sched t)
    (hq : q c = y.toSched c) (hnalloc : c < t.nalloc → c < y.sched.nalloc) :
    Outside { y with sched := t, toSched := q } c ∨
      ∃ x, Inside { y with sched := t, toSched := q } c x := by
  rcases h with hout | ⟨x, hin⟩
  · exact Or.inl (hout.unmoved hc hq hnalloc)
  · have hread : y.toSched c = [] ++ q c := hq.symm
    exact Or.inr ⟨x, hin.scheduled hread (hc.ledger hin.context)⟩

theorem Event.concerns_unswitched {e : Event} {s : Sched} (h : e.concerns x s) :
    Unswitched s e ∧ ∀ garbage, e ≠ .accept garbage := by
  constructor
  · intro c
    constructor <;> rintro rfl <;> exact h
  · rintro garbage rfl
    exact h

/-- An event of one context, if the accounts of the clients on it come out right. -/
theorem Consistent.concerned {e : Event} (hy : Consistent y) (hevent : e.concerns x y.sched)
    (hstep : Step cfg env y.sched e t)
    (hothers : ∀ d, (y.sched.client d).context ≠ some x → q d = y.toSched d)
    (hledger : ∀ d, Inside y d x → ∃ read, y.toSched d = read ++ q d ∧
      Ledger x d (read.count .reqLock) (read.count .lockReleased) y.sched t) :
    Consistent { y with sched := t, toSched := q } where
  wellFormed := hstep.wellFormed hy.wellFormed
  onAir := hstep.onAir hy.wellFormed (Event.concerns_unswitched hevent).1 hy.onAir
  clients d := by
    have hlocal := hstep.local hy.wellFormed hevent
    have hnalloc := hstep.nalloc_eq hy.wellFormed (Event.concerns_unswitched hevent).2
    by_cases hctx : (y.sched.client d).context = some x
    · rcases hy.clients d with hout | ⟨z, hin⟩
      · rw [hout.context] at hctx
        cases hctx
      · have hz : z = x := Option.some.inj (hin.context.symm.trans hctx)
        subst hz
        obtain ⟨read, hq, hd⟩ := hledger d hin
        exact Or.inr ⟨z, hin.scheduled hq hd⟩
    · exact bystander (hy.clients d) (hlocal.unmoved hctx) (hothers d hctx) (hnalloc ▸ id)

theorem schedule_step {fuel : ℕ} {e : Event} (h : y.schedule cfg env fuel e = some y') :
    ∃ t, Step cfg env y.sched e t ∧ y' = { y with sched := t } := by
  unfold System.schedule at h
  split at h
  · rename_i henabled
    obtain ⟨t, ht, rfl⟩ := Option.map_eq_some_iff.mp h
    exact ⟨t, ⟨henabled, fuel, ht⟩, rfl⟩
  · cases h

/-- A new connection. -/
theorem Consistent.connect {fuel : ℕ} {m : RegisterMsg} (hy : Consistent y)
    (h : y.handle cfg env fuel (.connect m) = some y') : Consistent y' := by
  obtain ⟨z, hz, rfl⟩ := Option.map_eq_some_iff.mp h
  obtain ⟨t, hstep, rfl⟩ := schedule_step hz
  obtain rfl : accept {} y.sched = t := Option.some.inj hstep.2.choose_spec
  change Consistent { y with
    sched := accept {} y.sched
    toSched := Function.update y.toSched y.sched.nalloc [.register m] }
  have hok : Unswitched y.sched (.accept {}) := by simp [Unswitched]
  refine ⟨hstep.wellFormed hy.wellFormed, hstep.onAir hy.wellFormed hok hy.onAir, fun d => ?_⟩
  by_cases hd : d = y.sched.nalloc
  · have hnone := hy.wellFormed.fresh d hd.ge
    rcases hy.clients d with hout | ⟨z, hin⟩
    · refine Or.inl ⟨?_, hout.lib, hout.received, hout.sentTo, Or.inr ⟨m, ?_⟩, fun _ => ?_⟩
      · simp [accept, hd]
      · simp [hd]
      · simp [accept, hd]
    · rw [hin.context] at hnone
      cases hnone
  · refine bystander (hy.clients d) (accept_unmoved {} hd) (Function.update_of_ne hd _ _) ?_
    intro hlt
    exact lt_of_le_of_ne (Nat.lt_succ_iff.mp hlt) hd

section Deliver

variable {fuel : ℕ} (hsent : env.AllSent)

include hsent

/-- A client registers. -/
theorem Consistent.register {m : RegisterMsg} {e : RegisterEnv} (hy : Consistent y)
    (htoSched : y.toSched c = [.register m])
    (hstep : Step cfg env y.sched (.message c (.register m e)) t) :
    Consistent { y with sched := t, toSched := Function.update y.toSched c [] } := by
  have hok : Unswitched y.sched (.message c (.register m e)) := by simp [Unswitched]
  have hwf := hy.wellFormed
  rcases hy.clients c with hout | ⟨z, hin⟩
  · have hmem : c ∈ y.sched.clients := Event.connected_of_enabled hstep.1 rfl
    have hunreg : hasRegistered y.sched c = false := by
      simp [hasRegistered, (hout.record (hwf.allocated c hmem)).1]
    obtain ⟨fuel, hstep'⟩ := hstep.2
    refine ⟨hstep.wellFormed hwf, hstep.onAir hwf hok hy.onAir, fun d => ?_⟩
    by_cases hd : d = c
    · subst hd
      obtain ⟨x, new, hctx, hentries, hnew, hlock⟩ := register_entered hsent hwf hunreg hstep'
      rw [hout.sentTo, List.nil_append] at hnew
      rw [← List.count_eq_zero, count_entries, Nat.add_eq_zero_iff] at hentries
      refine Or.inr ⟨x, hctx, ?_, by simp [hout.received], fun hown => ?_⟩
      · have hinbox : System.toClient
            { y with sched := t, toSched := Function.update y.toSched d [] } d = new := by
          simp [System.toClient, hnew, hout.received]
        rw [hinbox]
        simp only [hentries.1, hentries.2, hout.lib, Function.update_self]
        exact Agrees.fresh hlock
      · simp [hout.lib] at hown
    · refine bystander (hy.clients d) (register_unmoved hsent hwf hunreg hd hstep')
        (Function.update_of_ne hd _ _) ?_
      rw [hstep.nalloc_eq hwf (by simp)]
      exact id
  · exact absurd (by simp [htoSched]) (hin.agrees.registered m)

/-- The scheduler reads a message of a client that has registered. -/
theorem Consistent.deliver {m : ToScheduler} {rest : List ToScheduler} {e : RegisterEnv}
    (hy : Consistent y) (hin : Inside y c x) (htoSched : y.toSched c = m :: rest)
    (hstep : Step cfg env y.sched (.message c (m.received e)) t) :
    Consistent { y with sched := t, toSched := Function.update y.toSched c rest } := by
  have hb := hy.wellFormed.belongs x
  have hreg : hasRegistered y.sched c = true :=
    hy.wellFormed.registered (by simp [hin.context])
  have hevent : (Event.message c (m.received e)).concerns x y.sched := by
    cases m <;> exact hin.context
  -- What remains is the account of each client of the context.
  have hfinish (hledger : ∀ d, Ledger x d (if d = c then [m].count .reqLock else 0)
      (if d = c then [m].count .lockReleased else 0) y.sched t) :
      Consistent { y with sched := t, toSched := Function.update y.toSched c rest } := by
    refine hy.concerned hevent hstep (fun d hd => ?_) fun d hd => ?_
    · refine Function.update_of_ne ?_ _ _
      rintro rfl
      exact hd hin.context
    · by_cases hdc : d = c
      · subst hdc
        refine ⟨[m], by simpa using htoSched, ?_⟩
        simpa using hledger d
      · refine ⟨[], by simp [hdc], ?_⟩
        simpa [hdc] using hledger d
  obtain ⟨fuel, h⟩ := hstep.2
  have hagrees := hin.agrees
  rw [htoSched] at hagrees
  cases m with
  | register m => exact absurd List.mem_cons_self (hagrees.registered m)
  | reqLock =>
      have hneed := hagrees.need_eq
      have hone := Bool.toNat_le (y.lib c).needLock
      rw [List.count_cons_self] at hneed
      have hreq : c ∉ (y.sched.ctx x).requests := by
        intro hmem
        have hpos : 0 < (y.sched.ctx x).pending.count c :=
          List.count_pos_iff.mpr (List.mem_append_left _ hmem)
        omega
      simp only [ToScheduler.received, XpuShare.handle, processMsg, hreg, Bool.not_true,
        Bool.false_eq_true, if_false, hy.onAir.on, if_true] at h
      refine hfinish fun d => ?_
      have hd : Ledger x d ([c].count d) 0 y.sched t := reqLock_ledger hsent hb hin.context hreq h
      by_cases hdc : d = c
      · subst hdc
        simpa using hd
      · simpa [hdc, List.count_singleton, Ne.symm hdc] using hd
  | lockReleased =>
      have hrun := hagrees.run_eq
      rw [List.count_cons_self] at hrun
      have hmem : c ∈ (y.sched.ctx x).runningList := List.count_pos_iff.mp (by omega)
      have hpending : c ∉ (y.sched.ctx x).pending :=
        List.count_eq_zero.mp (hagrees.released List.mem_cons_self)
      simp only [ToScheduler.received, XpuShare.handle, processMsg, hreg, Bool.not_true,
        Bool.false_eq_true, if_false, hy.onAir.on, if_true] at h
      refine hfinish fun d => ?_
      have hd : Ledger x d 0 ([c].count d) y.sched t :=
        lockReleased_ledger hsent hb hin.context hmem hpending h
      by_cases hdc : d = c
      · subst hdc
        simpa using hd
      · simpa [hdc, List.count_singleton, Ne.symm hdc] using hd
  | memUpdate v =>
      have ht : memUpdate cfg env c v y.sched = t := Option.some.inj h
      refine hfinish fun d => ?_
      simpa [ht] using memUpdate_ledger cfg env x d c v y.sched

end Deliver

/-- A timer and the annotation watcher change no account. -/
theorem Consistent.undelivered {e : Event} (hy : Consistent y) (hevent : e.concerns x y.sched)
    (hstep : Step cfg env y.sched e t) (hledger : ∀ d, Ledger x d 0 0 y.sched t) :
    Consistent { y with sched := t } :=
  hy.concerned hevent hstep (fun _ _ => rfl) fun d _ => ⟨[], rfl, hledger d⟩

/-- The watcher knows registered clients only. -/
theorem Consistent.watched {id : ℕ} (hy : Consistent y) (hid : watched y.sched id = true)
    (hc : y.sched.clients.find? (fun c => (y.sched.client c).id = id) = some c) :
    ∃ x, Inside y c x := by
  have hmem := List.mem_of_find?_eq_some hc
  have hcid : (y.sched.client c).id = id := by simpa using List.find?_some hc
  rcases hy.clients c with hout | hin
  · exfalso
    have hun := (hout.record (hy.wellFormed.allocated c hmem)).1
    simp only [XpuShare.watched, List.any_eq_true, List.mem_range, Bool.and_eq_true,
      decide_eq_true_eq] at hid
    obtain ⟨d, hlt, ⟨hdid, hpod⟩, -⟩ := hid
    have hdun : (y.sched.client d).id = unregisteredId := by rw [hdid, ← hcid, hun]
    rcases hy.clients d with hdout | ⟨z, hdin⟩
    · exact hpod (hdout.record hlt).2
    · have hnone := hy.wellFormed.unregistered d hdun
      rw [hdin.context] at hnone
      cases hnone
  · exact hin

theorem Consistent.annotated {id : ℕ} {memory : Option ℕ} {core : Option ℤ} (hy : Consistent y)
    (hstep : Step cfg env y.sched (.annotated id memory core) t) :
    Consistent { y with sched := t } := by
  have henabled := hstep.1
  obtain ⟨fuel, h⟩ := hstep.2
  have ht : annotationUpdate env id memory core y.sched = t := Option.some.inj h
  cases hfind : y.sched.clients.find? (fun c => (y.sched.client c).id = id) with
  | none =>
      have hsame : t = y.sched := by
        rw [← ht, annotationUpdate, hfind]
      rw [hsame]
      exact hy
  | some c =>
      obtain ⟨x, hin⟩ := hy.watched (Event.possible_of_enabled henabled) hfind
      have hevent : (Event.annotated id memory core).concerns x y.sched :=
        ⟨c, List.mem_of_find?_eq_some hfind, by simpa using List.find?_some hfind, hin.context⟩
      refine hy.undelivered hevent hstep fun d => ?_
      rw [← ht]
      exact (annotationUpdate_tuned env id memory core y.sched).ledger

/-! ## Steps of the clients -/

/-- A step of one client does not concern the others. -/
theorem Consistent.of_client (hy : Consistent y) (hsched : y'.sched = y.sched)
    (hothers : ∀ d, d ≠ c → y'.lib d = y.lib d ∧ y'.toSched d = y.toSched d ∧
      y'.received d = y.received d ∧ y'.grantedBy d = y.grantedBy d)
    (hc : Inside y' c x) : Consistent y' where
  wellFormed := hsched ▸ hy.wellFormed
  onAir := hsched ▸ hy.onAir
  clients d := by
    by_cases hd : d = c
    · exact Or.inr ⟨x, hd ▸ hc⟩
    · obtain ⟨hlib, htoSched, hreceived, hgranted⟩ := hothers d hd
      have htoClient : y'.toClient d = y.toClient d := by
        rw [System.toClient, hsched, hreceived]
        rfl
      rcases hy.clients d with hout | ⟨z, hin⟩
      · left
        refine ⟨?_, ?_, ?_, ?_, ?_, ?_⟩
        · rw [hsched, hout.context]
        · rw [hlib, hout.lib]
        · rw [hreceived, hout.received]
        · rw [hsched, hout.sentTo]
        · rw [htoSched]
          exact hout.toSched
        · rw [hsched]
          exact hout.record
      · right
        refine ⟨z, ?_, ?_, ?_, ?_⟩
        · rw [hsched, hin.context]
        · rw [hsched, hlib, htoClient, htoSched]
          exact hin.agrees
        · rw [hsched, hreceived]
          exact hin.received_le
        · rw [hsched, hlib, hgranted, hreceived]
          exact hin.granted

/-- A thread of a client that has got its initial status. -/
theorem Consistent.act {f : LibState → LibState × List ToScheduler} (hy : Consistent y)
    (h : y.act c f = some y')
    (hf : ∀ x, Inside y c x → (y.lib c).gotInitialSchedStatus = true →
      Agrees ((y.sched.ctx x).runningList.count c) ((y.sched.ctx x).pending.count c)
        (f (y.lib c)).1 (y.toClient c) (y.toSched c ++ (f (y.lib c)).2))
    (hown : (f (y.lib c)).1.ownLock = true → (y.lib c).ownLock = true) : Consistent y' := by
  unfold System.act at h
  split at h
  · rename_i hgot
    cases h
    rcases hy.clients c with hout | ⟨x, hin⟩
    · simp [hout.lib] at hgot
    · refine hy.of_client rfl (fun d hd => ?_) ⟨hin.context, ?_, hin.received_le, fun ho => ?_⟩
      · simp [System.emit, hd]
      · simpa [System.emit, System.toClient] using hf x hin hgot
      · exact hin.granted (hown (by simpa [System.emit] using ho))
  · cases h

/-- Only LOCK_OK gives a client the lock while the scheduler is on. -/
theorem clientFn_ownLock {m : ToClient} {r r' : LibState} {out : List ToScheduler}
    (hoff : m.turnsOff = false) (hm : m ≠ .lockOk) (h : clientFn m r = some (r', out))
    (hown : r'.ownLock = true) : r.ownLock = true := by
  unfold clientFn at h
  split at h
  · cases m with
    | lockOk => exact absurd rfl hm
    | schedOff => simp at hoff
    | dropLock =>
        simp only [handleMessage, Option.some.injEq] at h
        split at h
        · assumption
        · cases h
          exact hown
    | schedOn =>
        cases h
        unfold onSchedOn at hown
        split at hown
        · exact hown
        · cases hown
    | status on id limit =>
        have hyes : on = true := by simpa using hoff
        subst hyes
        cases h
        simp only [onSchedOn, if_true] at hown
        split at hown
        · exact hown
        · cases hown
    | updateCoreLimit limit =>
        cases h
        split at hown <;> exact hown
    | waitForMem | memAvailable | updateLimit limit =>
        cases h
        exact hown
  · cases m with
    | status on id limit =>
        have hyes : on = true := by simpa using hoff
        subst hyes
        cases h
        simp at hown
    | _ => simp [initialStatus] at h

/-- Only DROP_LOCK takes the lock from a client while the scheduler is on. -/
theorem clientFn_drops {m : ToClient} {r r' : LibState} {out : List ToScheduler}
    (hgot : r.gotInitialSchedStatus = true) (hon : r.schedulerOn = true)
    (hown : r.ownLock = true) (h : clientFn m r = some (r', out))
    (hgone : r'.ownLock = false) : m = .dropLock := by
  simp only [clientFn, hgot, if_true, Option.some.injEq] at h
  have hr' : r' = (handleMessage m r).1 := by rw [h]
  subst hr'
  cases m with
  | dropLock => rfl
  | status on id limit =>
      cases on <;> simp [handleMessage, onSchedOn, onSchedOff, hon, hown] at hgone
  | updateCoreLimit limit =>
      simp only [handleMessage] at hgone
      split at hgone <;> simp [hown] at hgone
  | _ => simp [handleMessage, onSchedOn, onSchedOff, hon, hown] at hgone

/-- `client_fn` reads a message. -/
theorem Consistent.receive {fuel : ℕ} (hy : Consistent y)
    (h : y.handle cfg env fuel (.receive c) = some y') : Consistent y' := by
  simp only [System.handle] at h
  split at h
  · cases h
  · rename_i m rest hbox
    obtain ⟨⟨r, out⟩, hr, rfl⟩ := Option.map_eq_some_iff.mp h
    have hdrop : (y.sched.sentTo c).drop (y.received c) = m :: rest := hbox
    have hnext : (y.sched.sentTo c).drop (y.received c + 1) = rest := by
      rw [← List.tail_drop, hdrop, List.tail_cons]
    have hat : (y.sched.sentTo c)[y.received c]? = some m := by
      rw [← List.head?_drop, hdrop, List.head?_cons]
    have hlt : y.received c < (y.sched.sentTo c).length :=
      (List.getElem?_eq_some_iff.mp hat).1
    have hoff : m.turnsOff = false := by
      have hmem : m ∈ y.sched.sentTo c := List.mem_of_getElem? hat
      obtain ⟨a, ha, rfl⟩ := List.mem_map.mp hmem
      exact hy.onAir.sent a (List.mem_filter.mp ha).1
    rcases hy.clients c with hout | ⟨x, hin⟩
    · rw [hout.sentTo] at hlt
      exact absurd hlt (Nat.not_lt_zero _)
    · refine hy.of_client (c := c) (x := x) rfl (fun d hd => ?_)
        ⟨hin.context, ?_, ?_, fun hown => ?_⟩
      · have hgranted : (if m = .lockOk then Function.update y.grantedBy c (y.received c)
            else y.grantedBy) d = y.grantedBy d := by
          split
          · exact Function.update_of_ne hd _ _
          · rfl
        simp [System.emit, hd, hgranted]
      · have hagrees := hin.agrees
        rw [hbox] at hagrees
        simpa [System.emit, System.toClient, hnext] using hagrees.clientFn hoff hr
      · simpa [System.emit] using hlt
      · by_cases hm : m = .lockOk
        · simp [System.emit, hm, hat]
        · have hold : (y.lib c).ownLock = true :=
            clientFn_ownLock hoff hm hr (by simpa [System.emit] using hown)
          obtain ⟨hbefore, hsome⟩ := hin.granted hold
          simpa [System.emit, hm, hsome] using Nat.lt_succ_of_lt hbefore

/-! ## Runs -/

theorem SystemStep.consistent {e : SystemEvent} (hsent : env.AllSent)
    (h : SystemStep cfg env y e y') (hy : Consistent y) : Consistent y' := by
  obtain ⟨fuel, h⟩ := h
  cases e with
  | connect m => exact hy.connect h
  | enter c =>
      refine hy.act h (fun x hin hgot => hin.agrees.continueWithLock hgot) fun hown => ?_
      unfold continueWithLock at hown
      split at hown
      · exact hown
      · split at hown <;> exact hown
  | receive c => exact hy.receive h
  | releaseEarly c timedOut idle =>
      refine hy.act h (fun x hin _ => hin.agrees.releaseEarlyFn timedOut idle) fun hown => ?_
      unfold releaseEarlyFn at hown
      split at hown
      · split at hown
        · exact hown
        · cases hown
      · simp only at hown
        split at hown <;> exact hown
  | report c allocated sent =>
      exact hy.act (f := fun r => (r, reportMemoryUsageToScheduler allocated sent)) h
        (fun x hin _ => hin.agrees.report allocated sent) id
  | deliver c e =>
      simp only [System.handle] at h
      split at h
      · cases h
      · rename_i m rest hbox
        obtain ⟨t, hstep, rfl⟩ := schedule_step h
        rcases hy.clients c with hout | ⟨x, hin⟩
        · rcases hout.toSched with hnil | ⟨m', hone⟩
          · rw [hnil] at hbox
            cases hbox
          · rw [hone] at hbox
            cases hbox
            exact hy.register hsent hone hstep
        · exact hy.deliver hsent hin hbox hstep
  | timerBegin x =>
      obtain ⟨t, hstep, rfl⟩ := schedule_step h
      obtain ⟨fuel, ht⟩ := hstep.2
      have hevent : (Event.timerBegin x).concerns x y.sched := rfl
      exact hy.undelivered hevent hstep fun d =>
        timerBegin_ledger hsent (hy.wellFormed.belongs x) ht
  | timerEnd x timedOut =>
      obtain ⟨t, hstep, rfl⟩ := schedule_step h
      obtain ⟨fuel, ht⟩ := hstep.2
      have hevent : (Event.timerEnd x timedOut).concerns x y.sched := rfl
      refine hy.undelivered hevent hstep fun d => ?_
      rw [← Option.some.inj ht]
      exact (timerEnd_tuned cfg env x timedOut y.sched).ledger
  | annotated id memory core =>
      obtain ⟨t, hstep, rfl⟩ := schedule_step h
      exact hy.annotated hstep

theorem consistent_of_reaches (hsent : env.AllSent)
    (h : Transition.Reaches (SystemStep cfg env) {} y) : Consistent y :=
  h.invariant (fun _ _ _ hstep hy => hstep.consistent hsent hy) Consistent.init

/-! ## Agreement -/

/-- The client is on the running list of its context. -/
def Runs (y : System) (c : ClientId) : Prop :=
  ∃ x, (y.sched.client c).context = some x ∧ c ∈ (y.sched.ctx x).runningList

/-- The client has one entry in one queue of one context. -/
def QueuedOnce (y : System) (c : ClientId) : Prop :=
  ∃ x, (y.sched.ctx x).pending.count c = 1 ∧ ∀ z, z ≠ x → c ∉ (y.sched.ctx z).pending

/-- The client has no entry in any queue. -/
def Unqueued (y : System) (c : ClientId) : Prop := ∀ x, c ∉ (y.sched.ctx x).pending

theorem Consistent.unqueued (hy : Consistent y) (hin : Inside y c x)
    (h : (y.sched.ctx x).pending.count c = 0) (z : CtxId) (hz : c ∈ (y.sched.ctx z).pending) :
    False := by
  have hctx := hy.wellFormed.belongs z c (List.mem_append_left _ hz)
  have hxz : x = z := Option.some.inj (hin.context.symm.trans hctx)
  rw [hxz] at h
  exact List.count_eq_zero.mp h hz

/-- Holding the lock, or being about to, means to be on the running list. -/
theorem Consistent.runs (hy : Consistent y)
    (h : (y.lib c).ownLock = true ∨ .lockOk ∈ y.toClient c) : Runs y c := by
  rcases hy.clients c with hout | ⟨x, hin⟩
  · simp [hout.lib, System.toClient, hout.sentTo] at h
  · have hrun := hin.agrees.run_eq
    refine ⟨x, hin.context, List.count_pos_iff.mp ?_⟩
    rcases h with hown | hgrant
    · rw [hown, Bool.toNat_true] at hrun
      omega
    · have hpos := List.count_pos_iff.mpr hgrant
      omega

/-- Being on the running list means to hold the lock, or to be about to get it or to have
given it back. -/
theorem Consistent.holds (hy : Consistent y) (h : c ∈ (y.sched.ctx x).runningList) :
    (y.lib c).ownLock = true ∨ .lockOk ∈ y.toClient c ∨ .lockReleased ∈ y.toSched c := by
  have hctx := hy.wellFormed.belongs x c (mem_entries_of_running h)
  rcases hy.clients c with hout | ⟨z, hin⟩
  · rw [hout.context] at hctx
    cases hctx
  · have hz : z = x := Option.some.inj (hin.context.symm.trans hctx)
    subst hz
    have hrun := hin.agrees.run_eq
    have hpos := List.count_pos_iff.mpr h
    by_contra hnone
    simp only [not_or, Bool.not_eq_true] at hnone
    obtain ⟨hown, hgrant, hreleased⟩ := hnone
    rw [hown, List.count_eq_zero.mpr hgrant, List.count_eq_zero.mpr hreleased] at hrun
    simp only [Bool.toNat_false] at hrun
    omega

/-- A client that needs the lock has made one request, which is in one place. -/
theorem Consistent.seeks (hy : Consistent y) (h : (y.lib c).needLock = true) :
    (.reqLock ∈ y.toSched c ∧ Unqueued y c ∧ .lockOk ∉ y.toClient c) ∨
      (.reqLock ∉ y.toSched c ∧ QueuedOnce y c ∧ .lockOk ∉ y.toClient c) ∨
      (.reqLock ∉ y.toSched c ∧ Unqueued y c ∧ .lockOk ∈ y.toClient c) := by
  rcases hy.clients c with hout | ⟨x, hin⟩
  · simp [hout.lib] at h
  · have hneed := hin.agrees.need_eq
    rw [h, Bool.toNat_true] at hneed
    simp only [← List.count_pos_iff]
    by_cases hasked : 0 < (y.toSched c).count .reqLock
    · exact Or.inl ⟨hasked, hy.unqueued hin (by omega), by omega⟩
    · by_cases hqueued : 0 < (y.sched.ctx x).pending.count c
      · refine Or.inr (Or.inl ⟨by omega, ⟨x, by omega, fun z hz hmem => ?_⟩, by omega⟩)
        have hctx := hy.wellFormed.belongs z c (List.mem_append_left _ hmem)
        exact hz (Option.some.inj (hctx.symm.trans hin.context))
      · exact Or.inr (Or.inr ⟨by omega, hy.unqueued hin (by omega), by omega⟩)

/-- A client gives up the lock only for a DROP_LOCK that was sent after its LOCK_OK. -/
theorem Consistent.drops (hy : Consistent y) (h : SystemStep cfg env y (.receive c) y')
    (hown : (y.lib c).ownLock = true) (hgone : (y'.lib c).ownLock = false) :
    y.grantedBy c < y.received c ∧ (y.sched.sentTo c)[y.grantedBy c]? = some .lockOk ∧
      (y.sched.sentTo c)[y.received c]? = some .dropLock := by
  rcases hy.clients c with hout | ⟨x, hin⟩
  · simp [hout.lib] at hown
  · obtain ⟨hlt, hgranted⟩ := hin.granted hown
    refine ⟨hlt, hgranted, ?_⟩
    obtain ⟨fuel, h⟩ := h
    simp only [System.handle] at h
    split at h
    · cases h
    · rename_i m rest hbox
      obtain ⟨⟨r, out⟩, hr, rfl⟩ := Option.map_eq_some_iff.mp h
      have hdrop : (y.sched.sentTo c).drop (y.received c) = m :: rest := hbox
      have hat : (y.sched.sentTo c)[y.received c]? = some m := by
        rw [← List.head?_drop, hdrop, List.head?_cons]
      have hgot : (y.lib c).gotInitialSchedStatus = true := by
        by_contra hno
        have hidle := (hin.agrees.idle (by simpa using hno)).1
        exact Bool.false_ne_true (hidle.symm.trans hown)
      have hgone' : r.ownLock = false := by simpa [System.emit] using hgone
      rw [hat]
      exact congrArg some (clientFn_drops hgot (hin.agrees.on hgot) hown hr hgone')

/-- In every state that the scheduler and its clients reach, for every client: whoever holds
the lock or is about to get it is on the running list; whoever is on the running list holds
the lock, is about to get it or has given it back; whoever needs the lock has one request,
which is under way, queued or granted; and no DROP_LOCK takes a lock away that was granted
after it was sent. -/
theorem lock_agreement (hsent : env.AllSent)
    (hreach : Transition.Reaches (SystemStep cfg env) {} y) (c : ClientId) :
    ((y.lib c).ownLock = true ∨ .lockOk ∈ y.toClient c → Runs y c) ∧
      (∀ x, c ∈ (y.sched.ctx x).runningList →
        (y.lib c).ownLock = true ∨ .lockOk ∈ y.toClient c ∨ .lockReleased ∈ y.toSched c) ∧
      ((y.lib c).needLock = true →
        (.reqLock ∈ y.toSched c ∧ Unqueued y c ∧ .lockOk ∉ y.toClient c) ∨
        (.reqLock ∉ y.toSched c ∧ QueuedOnce y c ∧ .lockOk ∉ y.toClient c) ∨
        (.reqLock ∉ y.toSched c ∧ Unqueued y c ∧ .lockOk ∈ y.toClient c)) ∧
      ∀ y', SystemStep cfg env y (.receive c) y' → (y.lib c).ownLock = true →
        (y'.lib c).ownLock = false →
          y.grantedBy c < y.received c ∧ (y.sched.sentTo c)[y.grantedBy c]? = some .lockOk ∧
            (y.sched.sentTo c)[y.received c]? = some .dropLock := by
  have hy := consistent_of_reaches hsent hreach
  refine ⟨hy.runs, fun x => hy.holds, hy.seeks, ?_⟩
  intro y' hstep hown hgone
  exact hy.drops hstep hown hgone

/-- A client gets the lock, reports more memory than the GPU has and is told to drop the
lock, while another client waits. -/
def overloadedHolder : List SystemEvent :=
  [.connect {}, .deliver 0 { generatedId := 1 }, .receive 0, .enter 0,
    .deliver 0 { generatedId := 1 }, .receive 0, .report 0 (20 * 2 ^ 30) true,
    .deliver 0 { generatedId := 1 }, .connect {}, .deliver 1 { generatedId := 2 }, .receive 1,
    .enter 1, .deliver 1 { generatedId := 2 }]

theorem lock_agreement_overloaded_holder :
    ∃ y y', Transition.Reaches (SystemStep {} steady) {} y ∧
      SystemStep {} steady y (.receive 0) y' ∧ (y.lib 0).ownLock = true ∧ Runs y 0 ∧
      (y.lib 1).needLock = true ∧ QueuedOnce y 1 ∧ (y'.lib 0).ownLock = false ∧
      y.grantedBy 0 < y.received 0 := by
  have hrun : (Transition.execute (fun y e => System.handle {} steady 9 e y) overloadedHolder
      {}).any (fun y => (y.lib 0).ownLock ∧ (y.lib 1).needLock ∧ .reqLock ∉ y.toSched 1 ∧
        .lockOk ∉ y.toClient 1 ∧ (System.handle {} steady 9 (.receive 0) y).any
          fun y' => (y'.lib 0).ownLock = false) = true := by
    decide +kernel
  rw [Option.any_eq_true] at hrun
  obtain ⟨y, hy, hprop⟩ := hrun
  simp only [decide_eq_true_eq] at hprop
  obtain ⟨hown, hneed, hasked, hgranted, hdrop⟩ := hprop
  rw [Option.any_eq_true] at hdrop
  obtain ⟨y', hy', hgone⟩ := hdrop
  have hreach : Transition.Reaches (SystemStep {} steady) {} y :=
    Transition.Reaches.of_execute (fun _ _ _ h => ⟨9, h⟩) hy
  have hstep : SystemStep {} steady y (.receive 0) y' := ⟨9, hy'⟩
  have hgone' : (y'.lib 0).ownLock = false := of_decide_eq_true hgone
  obtain ⟨hruns, -, -, hdrops⟩ := lock_agreement steady_allSent hreach 0
  obtain ⟨-, -, hseeks, -⟩ := lock_agreement steady_allSent hreach 1
  have hqueued : QueuedOnce y 1 := by
    rcases hseeks hneed with ⟨h, -⟩ | ⟨-, h, -⟩ | ⟨-, -, h⟩
    · exact absurd h hasked
    · exact h
    · exact absurd h hgranted
  exact ⟨y, y', hreach, hstep, hown, hruns (Or.inl hown), hneed, hqueued, hgone',
    (hdrops y' hstep hown hgone').1⟩

end XpuShare
