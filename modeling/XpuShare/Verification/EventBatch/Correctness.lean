import XpuShare.Verification.Scheduler.Runs
import XpuShare.Verification.EventBatch.Tracking

/-! # Event batches and deleted clients

`main` takes the clients of a batch from the pointers that `epoll_wait` returned, and
`bcast_status` takes the next client from a pointer saved before the visit. Both pointers
outlive a deletion. They are good if and only if no LOCK_OK, SCHED_ON or SCHED_OFF to the
client has failed in the meantime. -/

namespace XpuShare

variable (cfg : Config) (env : Env)

/-! ## Batches -/

/-- `main`, serving a batch from `s` on, gets to an event of `c` in state `t`. -/
def Dispatches (batch : List Event) (s t : Sched) (c : ClientId) : Prop :=
  ∃ fuel front e back, batch = front ++ e :: back ∧ serve cfg env fuel front s = some t ∧
    e.client = some c

section Batch

variable {cfg env} {d : ClientId} {s t : Sched} {fuel : ℕ}

theorem serve_tracks {front : List Event} (hown : ∀ e ∈ front, e.client ≠ some d)
    (hd : d < s.nalloc) (h : serve cfg env fuel front s = some t) : Tracks d s t := by
  induction front generalizing s with
  | nil =>
      exact Tracks.of_some h
  | cons e front ih =>
      rw [serve] at h
      split at h
      · rw [Option.bind_eq_some_iff] at h
        obtain ⟨u, hu, hut⟩ := h
        have he : Tracks d s u := handle_tracks (hown e List.mem_cons_self) hd hu
        have hrest : ∀ e ∈ front, e.client ≠ some d := fun e' he' =>
          hown e' (List.mem_cons_of_mem e he')
        exact he.trans (ih hrest (hd.trans_le he.nalloc) hut)
      · cases h

/-- What the other threads do between `epoll_wait` and the first event. -/
theorem background_tracks (hd : d < s.nalloc)
    (h : Transition.Reaches (Transition.guarded (Step cfg env) fun _ e => e.polled = false) s t) :
    Tracks d s t := by
  refine h.invariant (I := Tracks d s) ?_ (Tracks.refl s)
  rintro u e v ⟨hother, -, fuel, hstep⟩ hu
  have hown : e.client ≠ some d := by
    cases e <;> simp_all [Event.client, Event.polled]
  exact hu.trans (handle_tracks hown (hd.trans_le hu.nalloc) hstep)

/-- The events before an event of `d` in one batch are of other clients. -/
theorem Polled.front_ne {front back : List Event} {e : Event}
    (h : Polled s (front ++ e :: back)) (he : e.client = some d) :
    ∀ e' ∈ front, e'.client ≠ some d := by
  intro e' he' hd
  have hfront : d ∈ front.filterMap Event.client := List.mem_filterMap.mpr ⟨e', he', hd⟩
  have hnodup := h.nodup
  rw [List.filterMap_append, List.filterMap_cons_some he] at hnodup
  exact (List.disjoint_of_nodup_append hnodup) hfront List.mem_cons_self

/-- A dispatch is to a live client if and only if the client has not been given up since
`epoll_wait` returned. -/
theorem Dispatches.mem_iff {s₀ : Sched} {batch : List Event} (hwf : WellFormed s₀)
    (hpoll : Polled s₀ batch)
    (hother : Transition.Reaches
      (Transition.guarded (Step cfg env) fun _ e => e.polled = false) s₀ s)
    (h : Dispatches cfg env batch s t d) :
    d ∈ t.clients ↔ ¬ GivenUp d (t.out.drop s₀.out.length) := by
  obtain ⟨fuel, front, e, back, rfl, hserve, he⟩ := h
  have hd : d ∈ s₀.clients :=
    hpoll.linked d (List.mem_filterMap.mpr ⟨e, by simp, he⟩)
  have hlt : d < s₀.nalloc := hwf.allocated d hd
  have hwait : Tracks d s₀ s := background_tracks hlt hother
  have hfront : Tracks d s t :=
    serve_tracks (hpoll.front_ne he) (hlt.trans_le hwait.nalloc) hserve
  exact (hwait.trans hfront).mem_iff hd

end Batch

/-! ## Broadcasts -/

/-- The visits of the loop of `bcast_status`: the element of each and the state it begins
in. -/
def bcastVisits (fuel : ℕ) : List ClientId → List ClientId → Sched → List (Sched × ClientId)
  | _, [], _ => []
  | linked, c :: rest, s =>
      if c ∉ linked then bcastVisits fuel linked rest s
      else (s, c) :: (bcastClient cfg env fuel s c).elim [] (bcastVisits fuel s.clients rest)

/-- The element of a visit is in the client list. -/
def VisitLive (v : Sched × ClientId) : Prop := v.2 ∈ v.1.clients

/-- The element of the second visit is not given up during the first, in which it was saved as
the next one. -/
def NextSpared (v w : Sched × ClientId) : Prop :=
  ¬ GivenUp w.2 (w.1.out.drop v.1.out.length)

section Broadcast

variable {cfg env} {s t : Sched} {fuel : ℕ}

/-- A broadcast that returns has visited live clients only. -/
theorem visitsLive_of_bcast {linked l : List ClientId}
    (h : bcastFrom cfg env fuel linked l s = some t) :
    ∀ v ∈ bcastVisits cfg env fuel linked l s, VisitLive v := by
  induction l generalizing linked s with
  | nil => simp [bcastVisits]
  | cons c l ih =>
      rw [bcastFrom] at h
      rw [bcastVisits]
      split at h
      · rename_i hc
        rw [if_pos hc]
        exact ih h
      · rename_i hc
        rw [Option.bind_eq_some_iff] at h
        obtain ⟨u, hu, hut⟩ := h
        have hlive : c ∈ s.clients := (bcastClient_cases hu).1
        rw [if_neg hc, hu, Option.elim_some]
        intro v hv
        rcases List.mem_cons.mp hv with rfl | hv
        · exact hlive
        · exact ih hut v hv

/-- The visits after the one that begins in `s` and ends in `t`. -/
theorem visitsLive_iff_chain (c : ClientId) (l : List ClientId) (h : ∀ d, Tracks d s t) :
    (∀ v ∈ bcastVisits cfg env fuel s.clients l t, VisitLive v) ↔
      ((s, c) :: bcastVisits cfg env fuel s.clients l t).IsChain NextSpared := by
  induction l generalizing c s t with
  | nil => simp [bcastVisits]
  | cons d l ih =>
      by_cases hd : d ∈ s.clients
      · -- `d` was linked when its pointer was saved, so only giving it up can unlink it.
        have hfirst : VisitLive (t, d) ↔ NextSpared (s, c) (t, d) := (h d).mem_iff hd
        rw [bcastVisits, if_neg (not_not.mpr hd), List.forall_mem_cons, List.isChain_cons_cons,
          hfirst]
        refine and_congr_right fun _ => ?_
        cases hvisit : bcastClient cfg env fuel t d with
        | none => simp
        | some u => exact ih d fun e => bcastClient_tracks hvisit
      · rw [bcastVisits, if_pos hd]
        exact ih c h

theorem visitsLive_iff (l : List ClientId) (s : Sched) :
    (∀ v ∈ bcastVisits cfg env fuel s.clients l s, VisitLive v) ↔
      (bcastVisits cfg env fuel s.clients l s).IsChain NextSpared := by
  induction l with
  | nil => simp [bcastVisits]
  | cons c l ih =>
      by_cases hc : c ∈ s.clients
      · have hfirst : VisitLive (s, c) := hc
        rw [bcastVisits, if_neg (not_not.mpr hc), List.forall_mem_cons, and_iff_right hfirst]
        cases hvisit : bcastClient cfg env fuel s c with
        | none => simp
        | some u => exact visitsLive_iff_chain c l fun d => bcastClient_tracks hvisit
      · rw [bcastVisits, if_pos hc]
        exact ih

end Broadcast

/-! ## Live clients -/

/-- In any batch, with any steps of other threads between `epoll_wait` and the first event,
`main` dispatches to live clients only if and only if no vital send to the client of an event
fails between `epoll_wait` and the event. In any state `bcast_status` visits live clients only
if and only if no vital send to the next client visited fails during a visit. -/
theorem dispatches_live_iff {s₀ s : Sched} {batch : List Event}
    (hreach : Transition.Reaches (Step cfg env) Sched.init s₀) (hpoll : Polled s₀ batch)
    (hother : Transition.Reaches
      (Transition.guarded (Step cfg env) fun _ e => e.polled = false) s₀ s) :
    ((∀ t c, Dispatches cfg env batch s t c → c ∈ t.clients) ↔
      ∀ t c, Dispatches cfg env batch s t c → ¬ GivenUp c (t.out.drop s₀.out.length)) ∧
    ∀ fuel u, (∀ v ∈ bcastVisits cfg env fuel u.clients u.clients u, VisitLive v) ↔
      (bcastVisits cfg env fuel u.clients u.clients u).IsChain NextSpared := by
  have hwf : WellFormed s₀ := wellFormed_of_reaches hreach
  refine ⟨?_, fun fuel u => visitsLive_iff u.clients u⟩
  constructor
  · intro hlive t c h
    exact (h.mem_iff hwf hpoll hother).mp (hlive t c h)
  · intro hspared t c h
    exact (h.mem_iff hwf hpoll hother).mpr (hspared t c h)

/-- A clock that stands still and sends that succeed, but for some of them. -/
def losing (lost : List ℕ) : Env where
  clock _ := 1
  sendOk n _ := n ∉ lost

/-- In serial mode the second of two clients waits for the first one's lock. -/
def waitingPair : List Event :=
  [.accept {}, .accept {}, enter 0 1, enter 1 2, .message 0 .reqLock, .message 1 .reqLock]

/-- The first client gives the lock back and the second one hangs up, both in one batch. -/
def releaseBatch : List Event := [.message 0 .lockReleased, .disconnect 1]

theorem releaseBatch_polled {s : Sched} (h : s.clients = [0, 1]) : Polled s releaseBatch where
  polled := by decide
  nodup := by decide
  linked := by
    rw [h]
    decide

theorem releaseBatch_dispatches {env : Env} {s t : Sched}
    (h : serve { schedulingMode := .serial } env 9 [.message 0 .lockReleased] s
      = some t) : Dispatches { schedulingMode := .serial } env releaseBatch s t 1 :=
  ⟨9, _, .disconnect 1, [], rfl, h, rfl⟩

/-- When every send succeeds, the hang-up of the second client reaches a live client. -/
theorem dispatches_live_iff_release :
    ∃ s t, Transition.Reaches (Step { schedulingMode := .serial } (losing [])) Sched.init s ∧
      Polled s releaseBatch ∧
      Dispatches { schedulingMode := .serial } (losing []) releaseBatch s t 1 ∧
      1 ∈ t.clients ∧
      ((∀ t c, Dispatches { schedulingMode := .serial } (losing []) releaseBatch s t c →
          c ∈ t.clients) ↔
        ∀ t c, Dispatches { schedulingMode := .serial } (losing []) releaseBatch s t c →
          ¬ GivenUp c (t.out.drop s.out.length)) := by
  obtain ⟨s, hs, hclients, hserve⟩ := exists_reaches { schedulingMode := .serial } (losing [])
    (fun _ _ => True) 9 waitingPair
    (fun s => s.clients = [0, 1] ∧ (serve { schedulingMode := .serial } (losing []) 9
      [.message 0 .lockReleased] s).any (fun t => 1 ∈ t.clients) = true)
    (by decide +kernel)
  rw [Option.any_eq_true] at hserve
  obtain ⟨t, ht, hlive⟩ := hserve
  have hreach := hs.mono fun _ _ _ hstep => hstep.2
  have hpoll := releaseBatch_polled hclients
  exact ⟨s, t, hreach, hpoll, releaseBatch_dispatches ht, of_decide_eq_true hlive,
    (dispatches_live_iff _ _ hreach hpoll (Transition.Reaches.refl s)).1⟩

/-- When the LOCK_OK that follows the release fails, the second client is deleted before its
event. When SCHED_OFF to the first client and the LOCK_OK that follows its deletion fail,
`bcast_status` goes on to the second client all the same. -/
theorem dispatches_to_dead :
    (¬ ∀ (cfg : Config) (env : Env) (s t : Sched) (batch : List Event) (c : ClientId),
      Transition.Reaches (Step cfg env) Sched.init s → Polled s batch →
      Dispatches cfg env batch s t c → c ∈ t.clients) ∧
    ¬ ∀ (cfg : Config) (env : Env) (fuel : ℕ) (s : Sched),
      Transition.Reaches (Step cfg env) Sched.init s → s.schedulerOn = true →
      ∀ v ∈ bcastVisits cfg env fuel s.clients s.clients { s with schedulerOn := false },
        VisitLive v := by
  constructor
  · intro h
    obtain ⟨s, hs, hclients, hserve⟩ := exists_reaches { schedulingMode := .serial }
      (losing [3]) (fun _ _ => True) 9 waitingPair
      (fun s => s.clients = [0, 1] ∧ (serve { schedulingMode := .serial } (losing [3]) 9
        [.message 0 .lockReleased] s).any (fun t => 1 ∉ t.clients) = true)
      (by decide +kernel)
    rw [Option.any_eq_true] at hserve
    obtain ⟨t, ht, hdead⟩ := hserve
    have hreach := hs.mono fun _ _ _ hstep => hstep.2
    exact of_decide_eq_true hdead (h _ _ s t _ 1 hreach (releaseBatch_polled hclients)
      (releaseBatch_dispatches ht))
  · intro h
    obtain ⟨s, hs, hon, hdead⟩ := exists_reaches { schedulingMode := .serial }
      (losing [3, 4]) (fun _ _ => True) 9 waitingPair
      (fun s => s.schedulerOn = true ∧
        (bcastVisits { schedulingMode := .serial } (losing [3, 4]) 9 s.clients s.clients
          { s with schedulerOn := false }).any (fun v => v.2 ∉ v.1.clients) = true)
      (by decide +kernel)
    rw [List.any_eq_true] at hdead
    obtain ⟨v, hv, hgone⟩ := hdead
    have hreach := hs.mono fun _ _ _ hstep => hstep.2
    exact of_decide_eq_true hgone (h _ _ 9 s hreach hon v hv)

end XpuShare
