import XpuShare.Verification.Initialization.Handlers
import XpuShare.Verification.Scheduler.Moves
import XpuShare.Verification.Scheduler.Runs

/-! # Uninitialised memory

The same events are handled twice, with different contents of the records that `malloc`
returns. As long as no handler reads a field that the runs do not agree on, they send the same
messages and reach the same scheduling state. -/

namespace XpuShare

variable {cfg : Config} {env : Env} {s s' t t' : Sched} {content content' : ClientId → Client}

/-- The event with the contents of the record that a new connection is given. -/
def Event.on (content : ClientId → Client) (s : Sched) : Event → Event
  | .accept _ => .accept (content s.nalloc)
  | e => e

/-- The steps of the scheduler on a memory with the given contents. -/
def StepOn (cfg : Config) (env : Env) (content : ClientId → Client) (s : Sched) (e : Event)
    (t : Sched) : Prop :=
  Step cfg env s (e.on content s) t

/-- The messages sent and the queues, locks and memory accounts are the same. -/
structure SameScheduling (s s' : Sched) : Prop where
  out : s'.out = s.out
  requests : ∀ x, (s'.ctx x).requests = (s.ctx x).requests
  waitQueue : ∀ x, (s'.ctx x).waitQueue = (s.ctx x).waitQueue
  runningList : ∀ x, (s'.ctx x).runningList = (s.ctx x).runningList
  lockHeld : ∀ x, (s'.ctx x).lockHeld = (s.ctx x).lockHeld
  runningMemoryUsage : ∀ x, (s'.ctx x).runningMemoryUsage = (s.ctx x).runningMemoryUsage
  memoryOverloaded : ∀ x, (s'.ctx x).memoryOverloaded = (s.ctx x).memoryOverloaded

theorem Twins.sameScheduling (h : Twins s s') : SameScheduling s s' := by
  constructor
  · exact h.out
  all_goals
    intro x
    rw [h.ctx]

/-- Whatever the record of a new connection contains, it does not show. -/
theorem Twins.accept (h : Twins s s') (hwf : WellFormed s) (garbage garbage' : Client) :
    Twins (accept garbage s) (accept garbage' s') where
  rest := congrArg (fun u : Sched => { u with
    clients := u.clients ++ [u.nalloc]
    client := (XpuShare.accept garbage s).client
    nalloc := u.nalloc + 1 }) h.rest
  client c := by
    simp only [XpuShare.accept, h.nalloc, Function.update_apply]
    split
    · rfl
    · exact h.client c
  shown x c hc := by
    obtain ⟨hreg, hmemory⟩ := h.shown x c hc
    have hne : c ≠ s.nalloc := by
      rintro rfl
      exact hreg (hwf.fresh _ le_rfl)
    simp only [XpuShare.accept, h.nalloc, Function.update_of_ne hne]
    exact ⟨hreg, hmemory⟩

/-- Events whose handlers read nothing that the runs do not agree on keep the states twins. -/
theorem Twins.step {e : Event} (h : Twins s s') (hwf : WellFormed s)
    (hread : ReadsAgree s s' e) (hstep : StepOn cfg env content s e t)
    (hstep' : StepOn cfg env content' s' e t') : Twins t t' := by
  obtain ⟨-, fuel, ht⟩ := hstep
  obtain ⟨-, fuel', ht'⟩ := hstep'
  have hfollow : ∀ {f : Sched → Option Sched}, Follows f → f s = some t →
      (∀ u, f s' = some u → u = t') → Twins t t' := by
    intro f hf hs hsame
    obtain ⟨u, hu, htwins⟩ := hf s s' t h hs
    rwa [hsame u hu] at htwins
  cases e with
  | accept garbage =>
      rw [← Option.some.inj ht, ← Option.some.inj ht']
      exact h.accept hwf _ _
  | message c m =>
      obtain ⟨u, hu, htwins⟩ := h.processMsg hread ht
      have hsame : u = t' := handle_unique (e := .message c m) hu ht'
      rwa [hsame] at htwins
  | disconnect c =>
      exact hfollow (Twins.disconnect cfg env fuel c) ht
        fun u hu => handle_unique (e := .disconnect c) hu ht'
  | timerBegin x =>
      exact hfollow (Twins.timerBegin cfg env fuel x) ht
        fun u hu => handle_unique (e := .timerBegin x) hu ht'
  | timerEnd x timedOut =>
      rw [← Option.some.inj ht, ← Option.some.inj ht']
      exact h.timerEnd cfg env x timedOut
  | annotated id memory core =>
      rw [← Option.some.inj ht, ← Option.some.inj ht']
      exact h.annotationUpdate env hread

/-- On any two contents of the memory, runs in which the handlers of the same events read
nothing that the runs do not agree on send the same messages in the same order and have equal
queues, locks and memory accounts throughout. -/
theorem scheduling_independent_of_contents
    (h : Transition.Reaches (Transition.guarded
      (Transition.lockstep (StepOn cfg env content) (StepOn cfg env content'))
      fun p e => ReadsAgree p.1 p.2 e) (Sched.init, Sched.init) (s, s')) :
    SameScheduling s s' := by
  have htwins := h.invariant (I := fun p => WellFormed p.1 ∧ Twins p.1 p.2) ?_
    ⟨WellFormed.init, Twins.refl_init⟩
  · exact htwins.2.sameScheduling
  · rintro p e q ⟨hread, hstep, hstep'⟩ ⟨hwf, hp⟩
    exact ⟨hstep.wellFormed hwf, hp.step hwf hread hstep hstep'⟩

/-! ## Exhibiting pairs of runs -/

/-- Handling one event on both memories, if it is possible there and admitted. -/
def tryBoth (cfg : Config) (env : Env) (content content' : ClientId → Client)
    (ok : Sched × Sched → Event → Prop) [∀ p, DecidablePred (ok p)] (fuel : ℕ)
    (p : Sched × Sched) (e : Event) : Option (Sched × Sched) :=
  if ok p e ∧ (e.on content p.1).enabled p.1 = true ∧ (e.on content' p.2).enabled p.2 = true then
    (handle cfg env fuel (e.on content p.1) p.1).bind fun t =>
      (handle cfg env fuel (e.on content' p.2) p.2).map fun t' => (t, t')
  else none

/-- A list of events leads to a pair of states with a property that can be evaluated. -/
theorem exists_lockstep (cfg : Config) (env : Env) (content content' : ClientId → Client)
    (ok : Sched × Sched → Event → Prop) [∀ p, DecidablePred (ok p)] (fuel : ℕ)
    (events : List Event) (P : Sched → Sched → Prop) [∀ s, DecidablePred (P s)]
    (h : (Transition.execute (tryBoth cfg env content content' ok fuel) events
      (Sched.init, Sched.init)).any (fun p => P p.1 p.2) = true) :
    ∃ s s', Transition.Reaches (Transition.guarded
      (Transition.lockstep (StepOn cfg env content) (StepOn cfg env content')) ok)
      (Sched.init, Sched.init) (s, s') ∧ P s s' := by
  rw [Option.any_eq_true] at h
  obtain ⟨⟨s, s'⟩, hs, hP⟩ := h
  refine ⟨s, s', Transition.Reaches.of_execute (fun p e q hq => ?_) hs, of_decide_eq_true hP⟩
  unfold tryBoth at hq
  split at hq
  · rename_i hok
    rw [Option.bind_eq_some_iff] at hq
    obtain ⟨t, ht, hq⟩ := hq
    rw [Option.map_eq_some_iff] at hq
    obtain ⟨t', ht', rfl⟩ := hq
    exact ⟨hok.1, ⟨hok.2.1, fuel, ht⟩, hok.2.2, fuel, ht'⟩
  · cases hq

/-- Memory in which the record numbered `c` claims that 20 GB have been allocated. -/
def leftovers (c : ClientId) (d : ClientId) : Client :=
  if d = c then { memoryAllocated := 20 * 1024 ^ 3, memoryLimit := 7 } else {}

/-- A client that reports its memory usage before it asks for the lock. -/
theorem scheduling_independent_of_contents_reported :
    ∃ s s', Transition.Reaches (Transition.guarded
        (Transition.lockstep (StepOn {} steady fun _ => {}) (StepOn {} steady (leftovers 0)))
        fun p e => ReadsAgree p.1 p.2 e) (Sched.init, Sched.init) (s, s') ∧
      (s'.client 0).memoryLimit ≠ (s.client 0).memoryLimit ∧ (s.ctx 0).runningList = [0] ∧
      SameScheduling s s' := by
  obtain ⟨s, s', hrun, hlimit, hgranted⟩ := exists_lockstep {} steady (fun _ => {}) (leftovers 0)
    (fun p e => ReadsAgree p.1 p.2 e) 9
    [.accept {}, enter 0 1, .message 0 (.memUpdate (5 * 1024 ^ 3)), .message 0 .reqLock]
    (fun s s' => (s'.client 0).memoryLimit ≠ (s.client 0).memoryLimit ∧
      (s.ctx 0).runningList = [0]) (by decide +kernel)
  exact ⟨s, s', hrun, hlimit, hgranted, scheduling_independent_of_contents hrun⟩

/-- A client that asks for the lock before it has reported anything is admitted beside a
running one if its record contains zeros, and has to wait if it contains 20 GB. -/
theorem scheduling_depends_on_contents :
    ¬ ∀ (cfg : Config) (env : Env) (content content' : ClientId → Client) (s s' : Sched),
      Transition.Reaches (Transition.lockstep (StepOn cfg env content) (StepOn cfg env content'))
        (Sched.init, Sched.init) (s, s') → SameScheduling s s' := by
  intro h
  obtain ⟨s, s', hrun, hruns, hwaits⟩ := exists_lockstep {} steady (fun _ => {}) (leftovers 1)
    (fun _ _ => True) 9
    [.accept {}, .accept {}, enter 0 1, enter 1 2, .message 0 .reqLock,
      .message 0 (.memUpdate (5 * 1024 ^ 3)), .message 1 .reqLock]
    (fun s s' => (s.ctx 0).runningList = [0, 1] ∧ (s'.ctx 0).runningList = [0])
    (by decide +kernel)
  have hsame := (h {} steady (fun _ => {}) (leftovers 1) s s'
    (hrun.mono fun _ _ _ hstep => hstep.2)).runningList 0
  rw [hruns, hwaits] at hsame
  cases hsame

end XpuShare
