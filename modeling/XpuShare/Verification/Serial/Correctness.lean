import XpuShare.Verification.Serial.Handlers

/-! # First come, first served

In serial mode the lock goes to the client whose request has waited longest. Runs are
observed together with the number of the event that handled each open request, and the
line of a context is always sorted by these numbers. -/

namespace XpuShare

variable {cfg : Config} {env : Env} {x : CtxId} {s t : Sched}

/-! ## Registered clients stay registered -/

theorem Action.keeps {D : ClientId → Prop} {ok : Sched → Event → Prop} {d : ClientId}
    (h : Action cfg env D ok s t) (hwf : WellFormed s) (hd : (s.client d).context ≠ none) :
    (t.client d).context = (s.client d).context ∧ (d ∈ t.clients → d ∈ s.clients) := by
  cases h with
  | block x h => exact ⟨context_of_static (h.frame.static d), fun hm => h.clients_sublist.subset hm⟩
  | tune h => exact ⟨context_of_core (h.client d), fun hm => h.clients ▸ hm⟩
  | accept garbage hok =>
      have hne : d ≠ s.nalloc := by
        rintro rfl
        exact hd (hwf.fresh _ le_rfl)
      refine ⟨by simp [XpuShare.accept, hne], fun hm => ?_⟩
      simpa [XpuShare.accept, hne] using hm
  | enrol c m e hok hmem hunreg hid =>
      have hne : d ≠ c := by
        rintro rfl
        rw [hwf.registered hd] at hunreg
        cases hunreg
      obtain ⟨y, hclient, -, -, hclients, -⟩ := enrol_spec cfg c m e s
      rw [hclient, hclients, Function.update_of_ne hne]
      exact ⟨rfl, id⟩
  | insert c x hok hmem hon hctx hreq => exact ⟨rfl, id⟩
  | memory c x v hok hmem hctx =>
      obtain ⟨usage, peak, overloaded, hspec⟩ := creditMemory_spec cfg x c v s
      rw [creditMemory_client]
      refine ⟨storeMemory_field Client.context (fun _ _ _ => rfl) c d v s, ?_⟩
      rw [hspec]
      exact id
  | unlink c hctx => exact ⟨rfl, fun hm => (List.mem_filter.mp hm).1⟩
  | power on c hok => exact ⟨rfl, id⟩
  | clear s₀ c hok => exact ⟨rfl, id⟩

theorem Step.keeps {e : Event} {d : ClientId} (h : Step cfg env s e t) (hwf : WellFormed s)
    (hd : (s.client d).context ≠ none) :
    (t.client d).context = (s.client d).context ∧ (d ∈ t.clients → d ∈ s.clients) := by
  have hactions : Actions cfg env (fun _ => True) (fun _ _ => True) s t :=
    h.actions (fun _ _ _ => trivial) hwf trivial fun _ _ => trivial
  have hall := hactions.invariant (I := fun u => WellFormed u ∧
    (u.client d).context = (s.client d).context ∧ (d ∈ u.clients → d ∈ s.clients))
    (by
      rintro u v ha ⟨hwfu, hctx, hmem⟩
      obtain ⟨hctx', hmem'⟩ := ha.keeps hwfu (hctx ▸ hd)
      exact ⟨ha.wellFormed hwfu, hctx'.trans hctx, fun hm => hmem (hmem' hm)⟩)
    ⟨hwf, rfl, id⟩
  exact hall.2

theorem Step.linked {e : Event} (h : Step cfg env s e t) (hwf : WellFormed s)
    (hs : Linked s) : Linked t := by
  have hactions : Actions cfg env (fun _ => True) (fun _ _ => True) s t :=
    h.actions (fun _ _ _ => trivial) hwf trivial fun _ _ => trivial
  have hboth := hactions.invariant (I := fun u => WellFormed u ∧ Linked u)
    (fun u v ha hu => ⟨ha.wellFormed hu.1, ha.linked hu.1 hu.2⟩) ⟨hwf, hs⟩
  exact hboth.2

/-! ## Observed runs -/

/-- A scheduler state with the number of events handled so far and, for every client of
some context, the number of the event that handled its REQ_LOCK if it has not been sent
LOCK_OK since. -/
structure Observed where
  sched : Sched := Sched.init
  now : ℕ := 0
  asked : ClientId → Option ℕ := fun _ => none

namespace Observed

/-- The open requests once the next event has been received. -/
def asking (o : Observed) : Event → ClientId → Option ℕ
  | .message c .reqLock =>
      if (o.sched.client c).context = none then o.asked
      else Function.update o.asked c (some o.now)
  | _ => o.asked

/-- The requests left open once some clients have been sent LOCK_OK. -/
def closing (granted : List ClientId) (asked : ClientId → Option ℕ) (c : ClientId) : Option ℕ :=
  if c ∈ granted then none else asked c

theorem closing_eq_some {granted : List ClientId} {asked : ClientId → Option ℕ} {c : ClientId}
    {i : ℕ} : closing granted asked c = some i ↔ c ∉ granted ∧ asked c = some i := by
  by_cases hc : c ∈ granted
  · simp [closing, hc]
  · simp [closing, hc]

theorem closing_ne_none {granted : List ClientId} {asked : ClientId → Option ℕ}
    {c : ClientId} : closing granted asked c ≠ none ↔ c ∉ granted ∧ asked c ≠ none := by
  by_cases hc : c ∈ granted
  · simp [closing, hc]
  · simp [closing, hc]

/-- The clients that are sent LOCK_OK on the way to a state. -/
def granted (o : Observed) (t : Sched) : List ClientId :=
  grants (t.out.drop o.sched.out.length)

/-- What is observed after an event that leads to `t`. -/
def next (o : Observed) (e : Event) (t : Sched) : Observed where
  sched := t
  now := o.now + 1
  asked := closing (o.granted t) (o.asking e)

/-- One observed step. -/
def Step (cfg : Config) (env : Env) (o : Observed) (e : Event) (o' : Observed) : Prop :=
  XpuShare.Step cfg env o.sched e o'.sched ∧ o' = o.next e o'.sched

/-- The events of an observed run: clients follow the protocol, and those of context `x`
have the full compute limit. -/
def Admitted (x : CtxId) (o : Observed) (e : Event) : Prop :=
  Polite o.sched e ∧ Unlimited x o.sched

instance (x : CtxId) (o : Observed) : DecidablePred (Admitted x o) :=
  fun _ => inferInstanceAs (Decidable (_ ∧ _))

end Observed

/-- The request of `c` was handled before the request of `d`. -/
def Earlier (asked : ClientId → Option ℕ) (c d : ClientId) : Prop :=
  ∀ i j, asked c = some i → asked d = some j → i < j

/-- The connected clients of `x` with an open request are those of `l`, in the order in which
their requests were handled. -/
structure Sorted (x : CtxId) (s : Sched) (asked : ClientId → Option ℕ) (now : ℕ)
    (l : List ClientId) : Prop where
  known : ∀ d, asked d ≠ none → (s.client d).context ≠ none
  past : ∀ d i, asked d = some i → i < now
  waits : ∀ d ∈ l, asked d ≠ none
  inLine : ∀ d ∈ s.clients, (s.client d).context = some x → asked d ≠ none → d ∈ l
  order : l.Pairwise (Earlier asked)

section Sorted

variable {asked : ClientId → Option ℕ} {now : ℕ} {l : List ClientId}

theorem Sorted.nodup (h : Sorted x s asked now l) : l.Nodup := by
  refine h.order.imp_of_mem ?_
  rintro c d hc - hcd rfl
  obtain ⟨i, hi⟩ := Option.ne_none_iff_exists'.mp (h.waits c hc)
  exact lt_irrefl i (hcd i i hi hi)

/-- A new request is the latest of all. -/
theorem Sorted.ask {c : ClientId} (h : Sorted x s asked now l) (hc : c ∉ l)
    (hctx : (s.client c).context ≠ none) :
    Sorted x s (Function.update asked c (some now)) (now + 1)
      (l ++ if (s.client c).context = some x then [c] else []) := by
  have hother : ∀ d ∈ l, Function.update asked c (some now) d = asked d :=
    fun d hd => Function.update_of_ne (fun he : d = c => hc (he ▸ hd)) _ _
  have hself : ∀ d ∈ (if (s.client c).context = some x then [c] else []), d = c := by
    intro d hd
    split at hd
    · exact List.mem_singleton.mp hd
    · cases hd
  refine ⟨fun d hd => ?_, fun d i hi => ?_, fun d hd => ?_, fun d hmem hd hask => ?_, ?_⟩
  · by_cases hdc : d = c
    · exact hdc ▸ hctx
    · rw [Function.update_of_ne hdc] at hd
      exact h.known d hd
  · by_cases hdc : d = c
    · rw [hdc, Function.update_self, Option.some.injEq] at hi
      omega
    · rw [Function.update_of_ne hdc] at hi
      exact Nat.lt_succ_of_lt (h.past d i hi)
  · rcases List.mem_append.mp hd with hd | hd
    · rw [hother d hd]
      exact h.waits d hd
    · rw [hself d hd, Function.update_self]
      exact Option.some_ne_none now
  · by_cases hdc : d = c
    · rw [← hdc, if_pos hd]
      exact List.mem_append_right _ (List.mem_singleton.mpr rfl)
    · rw [Function.update_of_ne hdc] at hask
      exact List.mem_append_left _ (h.inLine d hmem hd hask)
  · refine List.pairwise_append.mpr ⟨?_, ?_, fun d hd d' hd' i j hi hj => ?_⟩
    · refine h.order.imp_of_mem fun hd hd' hearlier i j hi hj => ?_
      rw [hother _ hd] at hi
      rw [hother _ hd'] at hj
      exact hearlier i j hi hj
    · split
      · exact List.pairwise_singleton _ _
      · exact List.Pairwise.nil
    · rw [hother d hd] at hi
      rw [hself d' hd', Function.update_self, Option.some.injEq] at hj
      exact hj ▸ h.past d i hi

/-- Who is in line when an event is received. -/
theorem Sorted.arrive {o : Observed} {e : Event}
    (h : Sorted x o.sched o.asked o.now (o.sched.ctx x).line) (hb : Belongs x o.sched)
    (hpolite : Polite o.sched e) :
    Sorted x o.sched (o.asking e) (o.now + 1)
      ((o.sched.ctx x).line ++ arrivals x o.sched e) := by
  have hquiet : o.asking e = o.asked → arrivals x o.sched e = [] →
      Sorted x o.sched (o.asking e) (o.now + 1)
        ((o.sched.ctx x).line ++ arrivals x o.sched e) := by
    intro hasking hnone
    rw [hasking, hnone, List.append_nil]
    exact ⟨h.known, fun d i hi => Nat.lt_succ_of_lt (h.past d i hi), h.waits, h.inLine, h.order⟩
  cases e with
  | message c m =>
      cases m with
      | reqLock =>
          by_cases hctx : (o.sched.client c).context = none
          · exact hquiet (by simp [Observed.asking, hctx]) (by simp [arrivals, hctx])
          · have hc : c ∉ (o.sched.ctx x).line := by
              intro hc
              have hent := mem_entries_iff.mpr (Or.inl (mem_line_iff.mp hc))
              exact hpolite x (hb c hent) hent
            have hasking : o.asking (.message c .reqLock)
                = Function.update o.asked c (some o.now) := by
              simp [Observed.asking, hctx]
            rw [hasking]
            exact h.ask hc hctx
      | _ => exact hquiet rfl rfl
  | _ => exact hquiet rfl rfl

/-- Who is in line after a step. -/
theorem Sorted.serve {granted : List ClientId} {new : List Sent} (hwf : WellFormed t)
    (h : Sorted x s asked now l) (hserv : Service x s t l (· ∉ t.clients) granted)
    (hnew : t.out = s.out ++ new)
    (hkeeps : ∀ d, (s.client d).context ≠ none →
      (t.client d).context = (s.client d).context ∧ (d ∈ t.clients → d ∈ s.clients)) :
    Sorted x t (Observed.closing (grants new) asked) now (t.ctx x).line := by
  have hgrants : ∀ d, (s.client d).context = some x → (d ∈ grants new ↔ d ∈ granted) := by
    obtain ⟨new', hnew', hgrants⟩ := hserv.sent
    rw [hnew] at hnew'
    rwa [List.append_cancel_left hnew']
  have hcontext : ∀ d, asked d ≠ none → (t.client d).context = (s.client d).context :=
    fun d hd => (hkeeps d (h.known d hd)).1
  refine ⟨fun d hd => ?_, fun d i hi => ?_, fun d hd => ?_, fun d hmem hctx hd => ?_, ?_⟩
  · obtain ⟨-, hd⟩ := Observed.closing_ne_none.mp hd
    rw [hcontext d hd]
    exact h.known d hd
  · exact h.past d i (Observed.closing_eq_some.mp hi).2
  · have hask := h.waits d (hserv.line_subset hd)
    have hctx : (s.client d).context = some x := by
      rw [← hcontext d hask]
      exact hwf.belongs x d (mem_entries_iff.mpr (Or.inl (mem_line_iff.mp hd)))
    rw [Observed.closing_ne_none, hgrants d hctx]
    refine ⟨?_, hask⟩
    rcases hserv.order with ⟨rfl, -⟩ | ⟨c, rfl, rfl⟩
    · exact List.not_mem_nil
    · rw [List.mem_singleton]
      rintro rfl
      exact (List.nodup_cons.mp h.nodup).1 hd
  · obtain ⟨hnot, hd⟩ := Observed.closing_ne_none.mp hd
    rw [hcontext d hd] at hctx
    have hmem' := (hkeeps d (h.known d hd)).2 hmem
    rcases hserv.stays d (h.inLine d hmem' hctx hd) with hgone | hgrant | hline
    · exact absurd hmem hgone
    · exact absurd ((hgrants d hctx).mpr hgrant) hnot
    · exact hline
  · have hsub : (t.ctx x).line.Sublist l := by
      rcases hserv.order with ⟨-, hsub⟩ | ⟨c, -, rfl⟩
      · exact hsub
      · exact List.sublist_cons_self c _
    refine (h.order.sublist hsub).imp ?_
    intro c d hcd i j hi hj
    exact hcd i j (Observed.closing_eq_some.mp hi).2 (Observed.closing_eq_some.mp hj).2

end Sorted

/-! ## Runs -/

/-- What holds of context `x` along observed runs. -/
structure Ordered (x : CtxId) (o : Observed) : Prop where
  wellFormed : WellFormed o.sched
  linked : Linked o.sched
  serial : SerialOk x o.sched
  sorted : Sorted x o.sched o.asked o.now (o.sched.ctx x).line

theorem Ordered.init (x : CtxId) : Ordered x {} where
  wellFormed := WellFormed.init
  linked y c hc := by simp [Sched.init, GpuContext.pending] at hc
  serial := ⟨rfl, List.nodup_nil, by simp [Sched.init], fun h => absurd rfl h⟩
  sorted := by
    refine ⟨fun _ h => absurd rfl h, ?_, ?_, fun _ _ _ h => absurd rfl h, List.Pairwise.nil⟩
    · intro d i h
      cases h
    · intro d hd
      cases hd

section Runs

variable {o o' : Observed} {e : Event} (hserial : cfg.schedulingMode = .serial)
  (hsent : env.AllSent)

include hserial hsent

theorem Ordered.service (h : Ordered x o) (hadmitted : o.Admitted x e)
    (hstep : Step cfg env o.sched e t) :
    ∃ granted, Service x o.sched t ((o.sched.ctx x).line ++ arrivals x o.sched e)
      (· ∉ t.clients) granted :=
  hstep.service hserial hsent h.wellFormed h.linked h.serial hadmitted.2 hadmitted.1

theorem Ordered.step (h : Ordered x o) (hadmitted : o.Admitted x e)
    (hstep : o.Step cfg env e o') : Ordered x o' := by
  obtain ⟨hstep, hnext⟩ := hstep
  obtain ⟨granted, hserv⟩ := h.service hserial hsent hadmitted hstep
  have hwf := hstep.wellFormed h.wellFormed
  obtain ⟨new, hnew, -⟩ := hserv.sent
  have hgranted : o.granted o'.sched = grants new := by
    rw [Observed.granted, hnew, List.drop_left]
  have hsorted := (h.sorted.arrive (h.wellFormed.belongs x) hadmitted.1).serve hwf hserv hnew
    fun d hd => hstep.keeps h.wellFormed hd
  rw [hnext]
  refine ⟨hwf, hstep.linked h.wellFormed h.linked, hserv.serial, ?_⟩
  rw [Observed.next, hgranted]
  exact hsorted

/-- LOCK_OK goes to the client whose request was handled first. -/
theorem Ordered.first {c : ClientId} (h : Ordered x o) (hadmitted : o.Admitted x e)
    (hstep : Step cfg env o.sched e t) (hctx : (o.sched.client c).context = some x)
    (hc : c ∈ o.granted t) :
    ∃ i, o.asking e c = some i ∧ ∀ d ∈ o.sched.clients, d ≠ c →
      (o.sched.client d).context = some x → ∀ j, o.asking e d = some j → i < j := by
  obtain ⟨granted, hserv⟩ := h.service hserial hsent hadmitted hstep
  have hline := h.sorted.arrive (h.wellFormed.belongs x) hadmitted.1
  obtain ⟨new, hnew, hgrants⟩ := hserv.sent
  rw [Observed.granted, hnew, List.drop_left, hgrants c hctx] at hc
  rcases hserv.order with ⟨rfl, -⟩ | ⟨c', rfl, hcons⟩
  · cases hc
  · obtain rfl : c = c' := List.mem_singleton.mp hc
    rw [hcons] at hline
    obtain ⟨i, hi⟩ := Option.ne_none_iff_exists'.mp (hline.waits c List.mem_cons_self)
    refine ⟨i, hi, fun d hmem hne hdctx j hj => ?_⟩
    have hd : d ∈ c :: (t.ctx x).line := hline.inLine d hmem hdctx (by simp [hj])
    rcases List.mem_cons.mp hd with hdc | hd
    · exact absurd hdc hne
    · exact (List.pairwise_cons.mp hline.order).1 d hd i j hi hj

/-- In serial mode, while the clients of a context are unlimited and follow the protocol,
LOCK_OK goes to the client whose open request was handled first, and somebody runs whenever
a request is pending. -/
theorem serial_first_come_first_served
    (h : Transition.Reaches
      (Transition.guarded (Observed.Step cfg env) (Observed.Admitted x)) {} o) :
    ((o.sched.ctx x).pending ≠ [] → (o.sched.ctx x).runningList ≠ []) ∧
      ∀ e t, o.Admitted x e → Step cfg env o.sched e t →
        ∀ c ∈ o.granted t, (o.sched.client c).context = some x →
          ∃ i, o.asking e c = some i ∧ ∀ d ∈ o.sched.clients, d ≠ c →
            (o.sched.client d).context = some x → ∀ j, o.asking e d = some j → i < j := by
  have hordered : Ordered x o :=
    h.invariant (fun _ _ _ hstep ho => ho.step hserial hsent hstep.1 hstep.2) (Ordered.init x)
  refine ⟨hordered.serial.busy, ?_⟩
  intro e t hadmitted hstep c hc hctx
  exact hordered.first hserial hsent hadmitted hstep hctx hc

end Runs

/-- Handling one event of an observed run, if it is possible and admitted. -/
def Observed.tryStep (cfg : Config) (env : Env) (x : CtxId) (fuel : ℕ) (o : Observed)
    (e : Event) : Option Observed :=
  if o.Admitted x e ∧ e.enabled o.sched = true then
    (handle cfg env fuel e o.sched).map (o.next e)
  else none

theorem Observed.tryStep_guarded {fuel : ℕ} {o o' : Observed} {e : Event}
    (h : o.tryStep cfg env x fuel e = some o') :
    Transition.guarded (Observed.Step cfg env) (Observed.Admitted x) o e o' := by
  rw [Observed.tryStep] at h
  split at h
  · rename_i hok
    obtain ⟨t, ht, rfl⟩ := Option.map_eq_some_iff.mp h
    exact ⟨hok.1, ⟨hok.2, fuel, ht⟩, rfl⟩
  · cases h

/-- Client 0 runs while clients 1 and 2 ask, in this order; then it gives the lock back. -/
theorem serial_first_come_first_served_three_clients :
    ∃ (o : Observed) (t : Sched) (i j : ℕ), (o.sched.ctx 0).line = [1, 2] ∧
      Step { schedulingMode := .serial } steady o.sched (.message 0 .lockReleased) t ∧
      o.granted t = [1] ∧ o.asked 1 = some i ∧ o.asked 2 = some j ∧ i < j := by
  have hrun : ((Transition.execute
      (Observed.tryStep { schedulingMode := .serial } steady 0 9)
      [.accept {}, .accept {}, .accept {}, enter 0 1, enter 1 2, enter 2 3,
        .message 0 .reqLock, .message 1 .reqLock, .timerBegin 0, .message 2 .reqLock] {}).any
      fun o => (o.sched.ctx 0).line = [1, 2] ∧ o.Admitted 0 (.message 0 .lockReleased) ∧
        (Event.message 0 .lockReleased).enabled o.sched = true ∧
        (handle { schedulingMode := .serial } steady 9 (.message 0 .lockReleased) o.sched).any
          (fun t => o.granted t = [1]) = true ∧ (o.asked 2).isSome = true ∧
        2 ∈ o.sched.clients ∧ (o.sched.client 1).context = some 0 ∧
        (o.sched.client 2).context = some 0) = true := by
    decide +kernel
  rw [Option.any_eq_true] at hrun
  obtain ⟨o, ho, hprops⟩ := hrun
  obtain ⟨hline, hadmitted, henabled, hhandle, hasked, hmem, hctx, hctx'⟩ :=
    of_decide_eq_true hprops
  rw [Option.any_eq_true] at hhandle
  obtain ⟨t, ht, hgranted⟩ := hhandle
  have hgranted' : o.granted t = [1] := of_decide_eq_true hgranted
  obtain ⟨j, hj⟩ := Option.isSome_iff_exists.mp hasked
  have hreach := Transition.Reaches.of_execute
    (fun _ _ _ => Observed.tryStep_guarded (x := 0)) ho
  have hstep : Step { schedulingMode := .serial } steady o.sched (.message 0 .lockReleased) t :=
    ⟨henabled, 9, ht⟩
  obtain ⟨i, hi, hfirst⟩ := (serial_first_come_first_served rfl steady_allSent hreach).2
    (.message 0 .lockReleased) t hadmitted hstep 1 (by simp [hgranted']) hctx
  exact ⟨o, t, i, j, hline, hstep, hgranted', hi, hj, hfirst 2 hmem (by decide) hctx' j hj⟩

end XpuShare
