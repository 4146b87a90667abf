import XpuShare.Lib.Transition
import XpuShare.Model.Hook

/-! # Work is submitted under the lock

`continue_with_lock` gives the mutex up before the real call is made. As long as the lock is
not taken away while a thread stands between the two, every real call is made by an owner of
the lock, and none follows the LOCK_RELEASED that ended a grant. -/

namespace XpuShare

/-- The events that take the lock away from the library. -/
def AppEvent.revokes (r : LibState) : AppEvent → Bool
  | .receive .dropLock => r.ownLock
  | .receive .schedOn | .receive (.status true _ _) => r.ownLock && !r.schedulerOn
  | .releaseEarly timedOut idle =>
      timedOut && idle && r.schedulerOn && r.ownLock && !r.didWork
  | _ => false

/-- The lock is not taken away while a thread is about to make a real call. -/
def Unhurried (a : Application) (e : AppEvent) : Prop :=
  e.revokes a.lib = true → ∀ i call, a.thread i ≠ .cleared call

/-- Every real call that can be made now is made by an owner of the lock. -/
def SubmitsOwned (a : Application) : Prop :=
  ∀ i a', Application.Step a (.execute i) a' → a.lib.ownLock = true

/-- The library takes this message for a grant. -/
def Activity.grants : Activity → Bool
  | .received .lockOk | .received .schedOff | .received (.status false _ _) => true
  | _ => false

/-- After every LOCK_RELEASED there has been a grant. -/
def Granted (log : List Activity) : Prop :=
  ∀ front back, log = front ++ .sent .lockReleased :: back → ∃ m ∈ back, m.grants = true

/-- No real call follows a LOCK_RELEASED without a grant in between. -/
def Orderly (log : List Activity) : Prop :=
  ∀ front mid back i call,
    log = front ++ .sent .lockReleased :: (mid ++ .executed i call :: back) →
    ∃ m ∈ mid, m.grants = true

/-! ## Logs that grow at the end -/

section Logs

variable {log : List Activity} {x : Activity}

theorem snoc_eq_split {α : Type*} {log front back : List α} {x y : α}
    (h : log ++ [x] = front ++ y :: back) :
    (back = [] ∧ x = y) ∨ ∃ back', back = back' ++ [x] ∧ log = front ++ y :: back' := by
  rcases List.eq_nil_or_concat back with rfl | ⟨back', z, rfl⟩
  · left
    have hlast := List.append_inj_right' h rfl
    exact ⟨rfl, List.singleton_injective hlast⟩
  · right
    have hassoc : log ++ [x] = (front ++ y :: back') ++ [z] := by simpa using h
    have hlast := List.append_inj_right' hassoc rfl
    rw [List.singleton_injective hlast]
    exact ⟨back', by simp, List.append_inj_left' hassoc rfl⟩

theorem Granted.snoc (h : Granted log) (hx : x ≠ .sent .lockReleased) :
    Granted (log ++ [x]) := by
  intro front back hsplit
  rcases snoc_eq_split hsplit with ⟨-, heq⟩ | ⟨back', rfl, hlog⟩
  · exact absurd heq hx
  · obtain ⟨m, hm, hgrants⟩ := h front back' hlog
    exact ⟨m, List.mem_append_left _ hm, hgrants⟩

theorem Granted.of_grant (log : List Activity) (hx : x.grants = true) : Granted (log ++ [x]) := by
  intro front back hsplit
  rcases snoc_eq_split hsplit with ⟨-, heq⟩ | ⟨back', rfl, -⟩
  · rw [heq] at hx
    cases hx
  · exact ⟨x, by simp, hx⟩

theorem Orderly.snoc (h : Orderly log) (hx : ∀ i call, x ≠ .executed i call) :
    Orderly (log ++ [x]) := by
  intro front mid back i call hsplit
  have hsplit' :
      log ++ [x] = (front ++ .sent .lockReleased :: mid) ++ .executed i call :: back := by
    simpa using hsplit
  rcases snoc_eq_split hsplit' with ⟨-, heq⟩ | ⟨back', -, hlog⟩
  · exact absurd heq (hx i call)
  · exact h front mid back' i call (by simpa using hlog)

theorem Orderly.execute (h : Orderly log) (hg : Granted log) (j : ℕ) (call : HookedCall) :
    Orderly (log ++ [.executed j call]) := by
  intro front mid back i call' hsplit
  have hsplit' : log ++ [.executed j call] =
      (front ++ .sent .lockReleased :: mid) ++ .executed i call' :: back := by
    simpa using hsplit
  rcases snoc_eq_split hsplit' with ⟨rfl, heq⟩ | ⟨back', -, hlog⟩
  · have hlog : log = front ++ .sent .lockReleased :: mid := by
      rw [heq] at hsplit'
      exact List.append_inj_left' hsplit' rfl
    exact hg front mid hlog
  · exact h front mid back' i call' (by simpa using hlog)

end Logs

/-! ## The lock under each function of the library -/

section Library

variable {r : LibState} {m : ToClient} {q : LibState × List ToScheduler}

@[simp] theorem continueWithLock_ownLock (r : LibState) :
    (continueWithLock r).1.ownLock = r.ownLock := by
  unfold continueWithLock
  split
  · rfl
  · split <;> rfl

@[simp] theorem continueWithLock_settled (r : LibState) :
    (continueWithLock r).1.gotInitialSchedStatus = r.gotInitialSchedStatus := by
  unfold continueWithLock
  split
  · rfl
  · split <;> rfl

theorem continueWithLock_sent (r : LibState) :
    (continueWithLock r).2 = [] ∨ (continueWithLock r).2 = [.reqLock] := by
  unfold continueWithLock
  split
  · exact Or.inl rfl
  · split
    · exact Or.inl rfl
    · exact Or.inr rfl

/-- A message after which the library owns the lock: it owned it before, or was granted it
by the message. Nothing is sent. -/
theorem clientFn_owns (h : clientFn m r = some q) (hown : q.1.ownLock = true) :
    q.2 = [] ∧ (r.ownLock = true ∨ (Activity.received m).grants = true) := by
  unfold clientFn at h
  split at h
  · cases h
    cases m <;> simp [handleMessage, onSchedOn, onSchedOff, Activity.grants] at hown ⊢ <;> grind
  · cases m <;> simp [initialStatus] at h
    cases h
    simp_all [Activity.grants]

/-- A message takes the lock away exactly when it revokes it. -/
theorem clientFn_keeps (hs : r.gotInitialSchedStatus = false → r.ownLock = false)
    (h : clientFn m r = some q) (hown : r.ownLock = true) :
    q.1.ownLock = !(AppEvent.receive m).revokes r := by
  unfold clientFn at h
  split at h
  · cases h
    cases m <;> simp [handleMessage, onSchedOn, onSchedOff, AppEvent.revokes, hown] <;> grind
  · simp_all

theorem clientFn_settled (h : clientFn m r = some q) : q.1.gotInitialSchedStatus = true := by
  unfold clientFn at h
  split at h
  · cases h
    cases m <;> simp [handleMessage, onSchedOn, onSchedOff] <;> grind
  · cases m <;> simp [initialStatus] at h
    cases h
    rfl

/-- LOCK_RELEASED is the only thing sent while messages are handled. -/
theorem clientFn_sent (h : clientFn m r = some q) : q.2 = [] ∨ q.2 = [.lockReleased] := by
  unfold clientFn at h
  split at h
  · cases h
    cases m <;> simp [handleMessage]
    grind
  · cases m <;> simp [initialStatus] at h
    cases h
    simp

theorem releaseEarlyFn_keeps (timedOut idle : Bool) (hown : r.ownLock = true) :
    (releaseEarlyFn timedOut idle r).1.ownLock =
      !(AppEvent.releaseEarly timedOut idle).revokes r := by
  cases timedOut <;> simp [releaseEarlyFn, AppEvent.revokes, hown] <;> grind

theorem releaseEarlyFn_owns (timedOut idle : Bool)
    (hown : (releaseEarlyFn timedOut idle r).1.ownLock = true) :
    (releaseEarlyFn timedOut idle r).2 = [] ∧ r.ownLock = true := by
  cases timedOut <;> simp [releaseEarlyFn] at hown ⊢ <;> grind

theorem releaseEarlyFn_settled (timedOut idle : Bool) :
    (releaseEarlyFn timedOut idle r).1.gotInitialSchedStatus = r.gotInitialSchedStatus := by
  cases timedOut <;> simp [releaseEarlyFn] <;> grind

theorem releaseEarlyFn_sent (timedOut idle : Bool) :
    (releaseEarlyFn timedOut idle r).2 = [] ∨
      (releaseEarlyFn timedOut idle r).2 = [.lockReleased] := by
  cases timedOut <;> simp [releaseEarlyFn]
  grind

end Library

/-! ## One step -/

/-- What holds along every run that never takes the lock from a thread about to call. -/
structure Owned (a : Application) : Prop where
  settled : a.lib.gotInitialSchedStatus = false → a.lib.ownLock = false
  cleared : ∀ i call, a.thread i = .cleared call → a.lib.ownLock = true
  granted : a.lib.ownLock = true → Granted a.log
  orderly : Orderly a.log

theorem Owned.start : Owned {} where
  settled _ := rfl
  cleared i call h := by cases h
  granted h := by cases h
  orderly front mid back i call h := by simp at h

section Steps

variable {a a' : Application} {e : AppEvent}

/-- What a step can be: a pass through the wait for the lock, a real call, or a piece of one
of the library's own threads. -/
theorem Application.Step.cases (h : Application.Step a e a') :
    (∃ i call, (e = .call i call ∨ e = .wake i) ∧ (∀ other, a.thread i ≠ .cleared other) ∧
      a' = a.continueWithLock i call) ∨
    (∃ i call, e = .execute i ∧ a.thread i = .cleared call ∧ a' = a.realCall i call) ∨
    (∃ m q, e = .receive m ∧ clientFn m a.lib = some q ∧
      a' = { a with lib := q.1, log := a.log ++ .received m :: q.2.map .sent }) ∨
    (∃ timedOut idle, e = .releaseEarly timedOut idle ∧
      a.lib.gotInitialSchedStatus = true ∧
      a' = { a with
        lib := (releaseEarlyFn timedOut idle a.lib).1
        log := a.log ++ (releaseEarlyFn timedOut idle a.lib).2.map .sent }) := by
  unfold Application.Step Application.handle at h
  cases e with
  | call i call =>
      left
      simp only [Option.ite_none_right_eq_some, Option.some.injEq] at h
      exact ⟨i, call, Or.inl rfl, by simp [h.1.2], h.2.symm⟩
  | wake i =>
      left
      simp only at h
      split at h
      · rename_i call hthread
        exact ⟨i, call, Or.inr rfl, by simp [hthread], (Option.some.inj h).symm⟩
      · cases h
  | execute i =>
      right; left
      simp only at h
      split at h
      · rename_i call hthread
        exact ⟨i, call, rfl, hthread, (Option.some.inj h).symm⟩
      · cases h
  | receive m =>
      right; right; left
      simp only [Option.map_eq_some_iff] at h
      obtain ⟨q, hq, rfl⟩ := h
      exact ⟨m, q, rfl, hq, rfl⟩
  | releaseEarly timedOut idle =>
      right; right; right
      simp only [Option.ite_none_right_eq_some, Option.some.injEq] at h
      exact ⟨timedOut, idle, rfl, h.1, h.2.symm⟩

/-- A step of an owner of the lock keeps the lock unless it revokes it. -/
theorem Owned.ownLock_of_step (ha : Owned a) (h : Application.Step a e a')
    (hown : a.lib.ownLock = true) : a'.lib.ownLock = !e.revokes a.lib := by
  rcases h.cases with ⟨i, call, he, -, rfl⟩ | ⟨i, call, rfl, -, rfl⟩ |
    ⟨m, q, rfl, hq, rfl⟩ | ⟨timedOut, idle, rfl, -, rfl⟩
  · rcases he with rfl | rfl <;> simp [Application.continueWithLock, AppEvent.revokes, hown]
  · simp [Application.realCall, AppEvent.revokes, hown]
  · exact clientFn_keeps ha.settled hq hown
  · exact releaseEarlyFn_keeps timedOut idle hown

/-- A thread that has been cleared for its call is cleared after any step, except its own. -/
theorem cleared_of_step (h : Application.Step a e a') {i : ℕ} {call : HookedCall}
    (hi : a.thread i = .cleared call) (hne : e ≠ .execute i) : a'.thread i = .cleared call := by
  rcases h.cases with ⟨j, other, -, hj, rfl⟩ | ⟨j, other, rfl, hj, rfl⟩ |
    ⟨m, q, rfl, hq, rfl⟩ | ⟨timedOut, idle, rfl, -, rfl⟩
  · have hij : i ≠ j := by
      rintro rfl
      exact hj call hi
    simpa [Application.continueWithLock, hij] using hi
  · have hij : i ≠ j := by
      rintro rfl
      exact hne rfl
    simpa [Application.realCall, hij] using hi
  · exact hi
  · exact hi

/-- A thread cleared after a step was cleared before it, or the library owned the lock. -/
theorem cleared_before_step (h : Application.Step a e a') {i : ℕ} {call : HookedCall}
    (hi : a'.thread i = .cleared call) :
    a.thread i = .cleared call ∨ (a.lib.ownLock = true ∧ e.revokes a.lib = false) := by
  rcases h.cases with ⟨j, other, he, -, rfl⟩ | ⟨j, other, rfl, -, rfl⟩ |
    ⟨m, q, rfl, -, rfl⟩ | ⟨timedOut, idle, rfl, -, rfl⟩
  · by_cases hij : i = j
    · subst hij
      right
      simp only [Application.continueWithLock, Function.update_self] at hi
      split at hi
      · rename_i hown
        rcases he with rfl | rfl
        · exact ⟨hown, rfl⟩
        · exact ⟨hown, rfl⟩
      · cases hi
    · left
      simpa [Application.continueWithLock, hij] using hi
  · by_cases hij : i = j
    · subst hij
      simp [Application.realCall] at hi
    · left
      simpa [Application.realCall, hij] using hi
  · exact Or.inl hi
  · exact Or.inl hi

theorem Owned.settled_step (ha : Owned a) (h : Application.Step a e a') :
    a'.lib.gotInitialSchedStatus = false → a'.lib.ownLock = false := by
  intro hnot
  rcases h.cases with ⟨j, other, -, -, rfl⟩ | ⟨j, other, -, -, rfl⟩ |
    ⟨m, q, rfl, hq, rfl⟩ | ⟨timedOut, idle, rfl, hset, rfl⟩
  · simp only [Application.continueWithLock, continueWithLock_settled] at hnot
    simpa [Application.continueWithLock] using ha.settled hnot
  · exact ha.settled hnot
  · rw [clientFn_settled hq] at hnot
    cases hnot
  · rw [releaseEarlyFn_settled, hset] at hnot
    cases hnot

/-- An owner of the lock has been granted it since it last released it. -/
theorem Owned.granted_step (ha : Owned a) (h : Application.Step a e a')
    (hown : a'.lib.ownLock = true) : Granted a'.log := by
  rcases h.cases with ⟨j, other, -, -, rfl⟩ | ⟨j, other, -, -, rfl⟩ |
    ⟨m, q, rfl, hq, rfl⟩ | ⟨timedOut, idle, rfl, -, rfl⟩
  · have hgranted := ha.granted (by simpa [Application.continueWithLock] using hown)
    rcases continueWithLock_sent a.lib with hsent | hsent
    · simpa [Application.continueWithLock, hsent] using hgranted
    · simpa [Application.continueWithLock, hsent] using hgranted.snoc (by simp)
  · exact (ha.granted hown).snoc (by simp)
  · obtain ⟨hsent, hbefore | hgrants⟩ := clientFn_owns hq hown
    · simpa [hsent] using (ha.granted hbefore).snoc (x := .received m) (by simp)
    · simpa [hsent] using Granted.of_grant a.log hgrants
  · obtain ⟨hsent, hbefore⟩ := releaseEarlyFn_owns timedOut idle hown
    simpa [hsent] using ha.granted hbefore

theorem Owned.orderly_step (ha : Owned a) (h : Application.Step a e a') : Orderly a'.log := by
  rcases h.cases with ⟨j, other, -, -, rfl⟩ | ⟨j, other, -, hj, rfl⟩ |
    ⟨m, q, rfl, hq, rfl⟩ | ⟨timedOut, idle, rfl, -, rfl⟩
  · rcases continueWithLock_sent a.lib with hsent | hsent
    · simpa [Application.continueWithLock, hsent] using ha.orderly
    · simpa [Application.continueWithLock, hsent] using ha.orderly.snoc (by simp)
  · exact ha.orderly.execute (ha.granted (ha.cleared j other hj)) j other
  · have hreceived := ha.orderly.snoc (x := .received m) (by simp)
    rcases clientFn_sent hq with hsent | hsent
    · simpa [hsent] using hreceived
    · simpa [hsent] using hreceived.snoc (x := .sent .lockReleased) (by simp)
  · rcases releaseEarlyFn_sent (r := a.lib) timedOut idle with hsent | hsent
    · simpa [hsent] using ha.orderly
    · simpa [hsent] using ha.orderly.snoc (x := .sent .lockReleased) (by simp)

/-- A step that does not hurry anybody keeps every thread about to call an owner. -/
theorem Owned.step (ha : Owned a) (hok : Unhurried a e) (h : Application.Step a e a') :
    Owned a' where
  settled := ha.settled_step h
  cleared i call hi := by
    rcases cleared_before_step h hi with hbefore | ⟨hown, hkeep⟩
    · have hown := ha.cleared i call hbefore
      have hkeep : e.revokes a.lib = false := by
        by_contra hrevokes
        exact hok (by simpa using hrevokes) i call hbefore
      rw [ha.ownLock_of_step h hown, hkeep]
      rfl
    · rw [ha.ownLock_of_step h hown, hkeep]
      rfl
  granted := ha.granted_step h
  orderly := ha.orderly_step h

theorem submitsOwned_iff (a : Application) :
    SubmitsOwned a ↔ ∀ i call, a.thread i = .cleared call → a.lib.ownLock = true := by
  constructor
  · intro h i call hi
    exact h i (a.realCall i call) (by simp [Application.Step, Application.handle, hi])
  · intro h i a' hstep
    rcases hstep.cases with ⟨j, other, he | he, -⟩ | ⟨j, other, -, hj, -⟩ | ⟨m, q, he, -⟩ |
      ⟨timedOut, idle, he, -⟩
    · cases he
    · cases he
    · exact h j other hj
    · cases he
    · cases he

/-- Taking the lock from a thread about to call leaves it with an unlocked call to make. -/
theorem Owned.submitsOwned_step_iff (ha : Owned a) (h : Application.Step a e a') :
    SubmitsOwned a' ↔ Unhurried a e := by
  constructor
  · intro howned hrevokes i call hi
    have hne : e ≠ .execute i := by
      rintro rfl
      cases hrevokes
    have hown' := (submitsOwned_iff a').mp howned i call (cleared_of_step h hi hne)
    rw [ha.ownLock_of_step h (ha.cleared i call hi), hrevokes] at hown'
    cases hown'
  · intro hok
    exact (submitsOwned_iff a').mpr (ha.step hok h).cleared

end Steps

/-! ## Every run -/

theorem owned_of_reaches {a : Application}
    (h : Transition.Reaches (Transition.guarded Application.Step Unhurried) {} a) : Owned a :=
  h.invariant (fun _ _ _ hstep ha => ha.step hstep.1 hstep.2) Owned.start

/-- In every run that never takes the lock away from a thread between the return of
`continue_with_lock` and its real call, whatever the number of threads, every real call is
made by an owner of the lock and none follows the LOCK_RELEASED that ends a grant. The first
step that does take it away leaves a call to be made without the lock. -/
theorem calls_hold_lock {a : Application}
    (h : Transition.Reaches (Transition.guarded Application.Step Unhurried) {} a) :
    SubmitsOwned a ∧ Orderly a.log ∧
      ∀ e a', Application.Step a e a' → (SubmitsOwned a' ↔ Unhurried a e) := by
  have howned := owned_of_reaches h
  refine ⟨(submitsOwned_iff a).mpr howned.cleared, howned.orderly, ?_⟩
  intro e a' hstep
  exact howned.submitsOwned_step_iff hstep

/-- Handling an event that does not take the lock away. -/
def Application.tryStep (a : Application) (e : AppEvent) : Option Application :=
  if e.revokes a.lib then none else a.handle e

theorem Application.tryStep_guarded {a a' : Application} {e : AppEvent}
    (h : a.tryStep e = some a') :
    Transition.guarded Application.Step Unhurried a e a' := by
  unfold Application.tryStep at h
  split at h
  · cases h
  · rename_i hkeep
    exact ⟨fun hrevokes => absurd hrevokes hkeep, h⟩

/-- One thread asks for the lock, is granted it and makes its call. -/
theorem calls_hold_lock_once : ∃ a : Application, SubmitsOwned a ∧ Orderly a.log ∧
    .executed 0 .cuLaunchKernel ∈ a.log ∧
      ∀ e a', Application.Step a e a' → (SubmitsOwned a' ↔ Unhurried a e) := by
  have hrun : (Transition.execute Application.tryStep
      [.receive (.status true 1 100), .call 0 .cuLaunchKernel, .receive .lockOk, .wake 0,
        .execute 0] {}).any (fun a => .executed 0 .cuLaunchKernel ∈ a.log) = true := by
    decide
  rw [Option.any_eq_true] at hrun
  obtain ⟨a, ha, hlog⟩ := hrun
  have hreach : Transition.Reaches (Transition.guarded Application.Step Unhurried) {} a :=
    Transition.Reaches.of_execute (fun _ _ _ => Application.tryStep_guarded) ha
  obtain ⟨howned, horder, hexact⟩ := calls_hold_lock hreach
  exact ⟨a, howned, horder, of_decide_eq_true hlog, hexact⟩

/-- DROP_LOCK is handled after `continue_with_lock` has returned and before the real call,
which is made after LOCK_RELEASED. -/
theorem call_after_release : ∃ a a' : Application,
    Transition.Reaches Application.Step {} a ∧ Application.Step a (.execute 0) a' ∧
      a.lib.ownLock = false ∧ ¬ Orderly a'.log := by
  have hrun : (Transition.execute (fun a e => Application.handle e a)
      [.receive (.status true 1 100), .call 0 .cuLaunchKernel, .receive .lockOk, .wake 0,
        .receive .dropLock] {}).any (fun a => a.lib.ownLock = false ∧
          a.thread 0 = .cleared .cuLaunchKernel ∧
          a.log = [.received (.status true 1 100), .sent .reqLock, .received .lockOk,
            .received .dropLock] ++ [.sent .lockReleased]) = true := by
    decide
  rw [Option.any_eq_true] at hrun
  obtain ⟨a, ha, hP⟩ := hrun
  obtain ⟨hown, hthread, hlog⟩ := of_decide_eq_true hP
  have hreach : Transition.Reaches Application.Step {} a :=
    Transition.Reaches.of_execute (fun _ _ _ hstep => hstep) ha
  refine ⟨a, a.realCall 0 .cuLaunchKernel, hreach, ?_, hown, ?_⟩
  · simp [Application.Step, Application.handle, hthread]
  · intro horder
    have hafter : (a.realCall 0 .cuLaunchKernel).log =
        [.received (.status true 1 100), .sent .reqLock, .received .lockOk,
          .received .dropLock] ++ .sent .lockReleased :: ([] ++ [.executed 0 .cuLaunchKernel]) := by
      simp [Application.realCall, hlog]
    obtain ⟨m, hm, -⟩ := horder _ _ _ _ _ hafter
    cases hm

end XpuShare
