import XpuShare.Verification.Scheduler.Marks
import XpuShare.Verification.Window.Invariant
import XpuShare.Verification.Serial.Handlers

/-! # A window is charged only for itself

Windows end at clock readings that the handlers take. If no reading ends the window of a
context while a limited client there has been told to drop the lock, and no annotation
limits a client whose usage reaches back before the window, then the usage of every limited
client is its carried debt and time of the current window. -/

namespace XpuShare

variable {cfg : Config} {env : Env} {s t : Sched} {c d : ClientId} {x : CtxId} {T : ℕ}

/-- A limited client that has been told to drop the lock and will be billed for its tail. -/
structure Dropping (cfg : Config) (x : CtxId) (s : Sched) (d : ClientId) : Prop where
  connected : d ∈ s.clients
  runs : d ∈ (s.ctx x).runningList
  limited : (s.client d).coreLimit < 100
  told : (s.client d).pendingDrop = true
  charged : cfg.dropTailBillingPercent ≠ 0

/-- While somebody is dropping the lock of a context, no reading before the `T`-th ends its
window. -/
def Unbroken (cfg : Config) (env : Env) (T : ℕ) (x : CtxId) (s : Sched) : Prop :=
  ∀ d, Dropping cfg x s d → (s.ctx x).windowStartMs ≠ 0 ∧
    ∀ n, s.ticks ≤ n → n < T → windowExpired cfg (s.ctx x) (env.clock n) = false

theorem windowExpired_congr {g g' : GpuContext} (h : g'.windowStartMs = g.windowStartMs)
    (now : ℤ) : windowExpired cfg g' now = windowExpired cfg g now := by
  rw [windowExpired, windowExpired, windowStartAt, windowStartAt, h]

/-- Nobody begins to drop the lock, and the window stays where it is. -/
theorem Unbroken.of_window (hs : Unbroken cfg env T x s)
    (hdrop : ∀ d, Dropping cfg x t d → Dropping cfg x s d)
    (hstart : (t.ctx x).windowStartMs = (s.ctx x).windowStartMs) (hticks : s.ticks ≤ t.ticks) :
    Unbroken cfg env T x t := by
  intro d hd
  obtain ⟨hwindow, hopen⟩ := hs d (hdrop d hd)
  refine ⟨by rwa [hstart], fun n hn hT => ?_⟩
  rw [windowExpired_congr hstart]
  exact hopen n (hticks.trans hn) hT

theorem Unbroken.costless (h : Costless env s t) (hs : Unbroken cfg env T x s) :
    Unbroken cfg env T x t := by
  refine hs.of_window (fun d hd => ?_) (h.window x) h.ticks
  have hrec := h.client d
  exact ⟨h.clients hd.connected, by rw [← h.running]; exact hd.runs,
    by rw [← coreLimit_of_billing hrec]; exact hd.limited,
    by rw [← pendingDrop_of_billing hrec]; exact hd.told, hd.charged⟩

/-! ## Scheduling keeps windows unbroken -/

theorem freshWindow_pendingDrop (cfg : Config) (env : Env) (x : CtxId) (s : Sched)
    (d : ClientId) : ((freshWindow cfg env x s).client d).pendingDrop =
      (s.client d).pendingDrop := by
  rcases freshWindow_marks cfg env x s d with hsame | hfreed
  · exact (congrArg Marks.pendingDrop hsame :)
  · exact (congrArg Marks.pendingDrop hfreed :)

theorem grant_dropping (h : Dropping cfg x (grant env x c (sendMessage env c .lockOk s)) d)
    (hc : c ∈ (s.ctx x).entries) : Dropping cfg x s d := by
  have heff := grantSent_effect env hc
  have hruns := h.runs
  have htold : ((grant env x c (sendMessage env c .lockOk s)).client d).marks.pendingDrop = true :=
    h.told
  rw [grant_running, if_pos rfl] at hruns
  rw [grant_marks] at htold
  split at htold
  · cases htold
  · rename_i hdc
    refine ⟨by rw [← heff.clients_eq]; exact h.connected, ?_,
      by rw [← coreLimit_of_static (heff.static d)]; exact h.limited, htold, h.charged⟩
    simpa [hdc] using hruns

theorem leaveRunning_dropping (hc : c ∈ (s.ctx x).runningList)
    (h : Dropping cfg x (leaveRunning cfg env x c s) d) : Dropping cfg x s d ∧ d ≠ c := by
  have heff := leaveRunning_effect cfg env hc
  have hruns := h.runs
  have htold : ((leaveRunning cfg env x c s).client d).marks.pendingDrop = true := h.told
  rw [leaveRunning_running, if_pos rfl] at hruns
  rw [leaveRunning_marks] at htold
  split at htold
  · cases htold
  · rename_i hdc
    have hne : d ≠ c := fun he => hdc ⟨he, hc⟩
    refine ⟨⟨by rw [← heff.clients_eq]; exact h.connected, List.mem_of_mem_erase hruns,
      by rw [← coreLimit_of_static (heff.static d)]; exact h.limited, htold, h.charged⟩, hne⟩

section Unbroken

variable (hpos : ∀ n, 0 < env.clock n)

include hpos

theorem freshWindow_start_ne_zero (cfg : Config) (x : CtxId) (s : Sched) :
    ((freshWindow cfg env x s).ctx x).windowStartMs ≠ 0 := by
  have hnow : 0 < currentTimeMs env s := hpos _
  cases hexpired : windowExpired cfg (s.ctx x) (currentTimeMs env s) with
  | false =>
      rw [freshWindow_start_open hexpired, windowStartAt]
      split
      · omega
      · assumption
  | true =>
      rw [freshWindow_start_expired hexpired]
      omega

theorem Unbroken.freshWindow (hs : Unbroken cfg env T x s) :
    Unbroken cfg env T x (freshWindow cfg env x s) := by
  intro d hd
  have hticks := freshWindow_ticks cfg env x s
  have hstatic := static_of_unbilled (freshWindow_unbilled cfg env x s d)
  have hbefore : Dropping cfg x s d :=
    ⟨by rw [← freshWindow_clients cfg env x s]; exact hd.connected,
      by rw [← freshWindow_runningList cfg env x s]; exact hd.runs,
      by rw [← coreLimit_of_static hstatic]; exact hd.limited,
      by rw [← freshWindow_pendingDrop cfg env x s]; exact hd.told, hd.charged⟩
  obtain ⟨hwindow, hopen⟩ := hs d hbefore
  refine ⟨freshWindow_start_ne_zero hpos cfg x s, fun n hn hT => ?_⟩
  have hnow : windowExpired cfg (s.ctx x) (currentTimeMs env s) = false :=
    hopen s.ticks le_rfl (by omega)
  have hstart := freshWindow_start_open hnow
  rw [windowStartAt, if_neg hwindow] at hstart
  rw [windowExpired_congr hstart]
  exact hopen n (by omega) hT

theorem unbroken_lasting (cfg : Config) (T : ℕ) : Lasting cfg env (Unbroken cfg env T) where
  block := by
    intro x s t h hs
    cases h with
    | window => exact hs.freshWindow hpos
    | defer c rest hreq hno hwait => exact hs.costless (moveToWaitQueue_costless x c s)
    | promote front c back hwait hok => exact hs.costless (promote_costless x c s front back)
    | grant c rest hreq hok hsend =>
        have hc : c ∈ (s.ctx x).entries := mem_entries_of_requests (by simp [hreq])
        have hticks := settleRunners_ticks env x (sendMessage env c .lockOk s)
        refine hs.of_window (fun d hd => grant_dropping hd hc) (grant_windowStart env x x c s) ?_
        rw [grant_ticks]
        exact hticks.trans (Nat.le_succ _)
    | refuse c rest hreq hok hsend hD => exact hs.costless (Costless.sendMessage c _ s)
    | leave c hD =>
        by_cases hc : c ∈ (s.ctx x).runningList
        · refine hs.of_window (fun d hd => (leaveRunning_dropping hc hd).1)
            (leaveRunning_windowStart cfg env x x c s) ?_
          rw [leaveRunning_ticks cfg env x c s hc]
          exact Nat.le_succ _
        · rw [leaveRunning_of_notMem cfg env hc]
          exact hs.costless (clearLock_costless x s)
    | withdraw c hD => exact hs.costless (dropPending_costless x c s)
    | unlink c hD hctx hgone => exact hs.costless (unlink_costless c s)
  idle := by
    intro x s hnil d hd
    have hruns := hd.runs
    rw [hnil] at hruns
    cases hruns

end Unbroken

/-! ## Charges -/

/-- Charges never turn the clock back. -/
theorem Charge.ticks_le {K : CtxId → Sched → Prop} {ok : Sched → Event → Prop} {m : Meter}
    (h : Charge cfg env K ok s m t) : s.ticks ≤ t.ticks := by
  cases h with
  | window x hK => exact (freshWindow_ticks cfg env x s).ge.trans' (Nat.le_succ _)
  | grant x c rest hfresh hreq hok hsend =>
      have hticks := settleRunners_ticks env x (sendMessage env c .lockOk s)
      rw [grant_ticks]
      exact hticks.trans (Nat.le_succ _)
  | leave x c hc => exact (leaveRunning_ticks cfg env x c s hc).ge.trans' (Nat.le_succ _)
  | enforce x => exact (enforceLimits_ticks cfg env x s).ge.trans' (Nat.le_succ _)
  | rotate x => exact (rotateRunning_ticks env x s).ge.trans' (Nat.le_succ _)
  | annotate id memory core hok => exact (annotationUpdate_rest env id memory core s).2.2.2.ge
  | accept garbage hok => exact le_rfl
  | enrol c m e hok hmem hunreg hid => exact (enrol_ticks cfg c m e s).ge
  | costless h hcost => exact hcost.ticks

/-- The contexts whose windows the handler of an event may check while clients run on them. -/
def Event.checks (s : Sched) (x : CtxId) : Event → Prop
  | .message c .reqLock => (s.client c).context = some x
  | .message c .lockReleased | .disconnect c =>
      (s.client c).context = some x ∧ (s.ctx x).lockHeld = false
  | .timerBegin y => y = x
  | _ => False

/-- The client whose run an event ends. -/
def Event.ends : Event → Option ClientId
  | .message c .lockReleased | .disconnect c => some c
  | _ => none

def Event.annotates : Event → Bool
  | .annotated _ _ _ => true
  | _ => false

/-- Nobody asks for the lock while waiting or running; no clock reading taken while an event
is handled ends the window of a context on which a limited client is dropping the lock; and
an annotation limits a client only if what the client has used lies within the window. -/
structure KeepsWindows (cfg : Config) (env : Env) (s : Sched) (e : Event) : Prop where
  fresh : FreshRequest s e
  settled : ∀ x t n d, e.checks s x → Step cfg env s e t → s.ticks ≤ n → n < t.ticks →
    windowExpired cfg (s.ctx x) (env.clock n) = true → e.ends ≠ some d → ¬ Dropping cfg x s d
  limited : ∀ id memory core c, e = .annotated id memory core →
    (s.clients.find? fun c => (s.client c).id = id) = some c → 100 ≤ (s.client c).coreLimit →
    annotatedCoreLimit core < 100 → UsedWithin env s c

section Runs

variable (hclock : Monotone env.clock) (hpos : ∀ n, 0 < env.clock n)

include hclock hpos

theorem Charge.windowed {m : Meter}
    (h : Charge cfg env (Unbroken cfg env T) (KeepsWindows cfg env) s m t) (hwf : WellFormed s)
    (hsingle : SingleEntries s) (hT : t.ticks ≤ T) (hs : Windowed cfg env s) :
    Windowed cfg env t := by
  cases h with
  | window x hK =>
      cases hexpired : windowExpired cfg (s.ctx x) (currentTimeMs env s) with
      | false => exact hs.unexpired hclock hwf hpos hexpired
      | true =>
          refine hs.expired hclock hwf hsingle hpos hexpired fun c hc hruns hlimit htold => ?_
          by_contra hcharged
          rw [freshWindow_ticks] at hT
          have hopen := (hK c ⟨hc, hruns, hlimit, htold, hcharged⟩).2 s.ticks le_rfl hT
          rw [currentTimeMs, hopen] at hexpired
          cases hexpired
  | grant x c rest hfresh hreq hok hsend =>
      obtain ⟨u, hu⟩ := hfresh
      exact hs.grant hclock hwf hsingle (hu ▸ freshWindow_start_ne_zero hpos cfg x u) hreq
  | leave x c hc => exact hs.leave hclock hwf hsingle hc
  | enforce x => exact hs.enforce hclock hwf hsingle x
  | rotate x => exact hs.rotate hclock hwf hsingle x
  | annotate id memory core hok =>
      exact hs.annotate hwf fun c hfind hold hnew =>
        hok.limited id memory core c rfl hfind hold hnew
  | accept garbage hok => exact hs.accept hwf garbage
  | enrol c m e hok hmem hunreg hid => exact hs.enrol hwf hpos m e hunreg
  | costless h hcost => exact hs.costless hclock hwf hcost

omit hclock hpos in
/-- Where the handler of an admitted event checks the window of a context in use, nobody who
drops the lock there is overtaken by the end of the window. -/
theorem KeepsWindows.ready {e : Event} (h : KeepsWindows cfg env s e)
    (hs : Windowed cfg env s) (hstep : Step cfg env s e t) :
    e.Ready cfg env (Unbroken cfg env t.ticks) s := by
  have hunbroken : ∀ x, e.checks s x → e.ends = none → Unbroken cfg env t.ticks x s := by
    intro x hx hends d hd
    refine ⟨fun hzero => ?_, fun n hn hT => ?_⟩
    · have hruns := hd.runs
      rw [hs.unstarted x hzero] at hruns
      cases hruns
    · by_contra hexpired
      exact h.settled x t n d hx hstep hn hT (by simpa using hexpired) (by simp [hends]) hd
  have hended : ∀ c x, e.checks s x → e.ends = some c →
      Unbroken cfg env t.ticks x (leaveRunning cfg env x c s) := by
    intro c x hx hends
    by_cases hc : c ∈ (s.ctx x).runningList
    · intro d hd
      obtain ⟨hbefore, hne⟩ := leaveRunning_dropping hc hd
      have hstart := leaveRunning_windowStart cfg env x x c s
      have hticks := leaveRunning_ticks cfg env x c s hc
      refine ⟨fun hzero => ?_, fun n hn hT => ?_⟩
      · have hruns := hbefore.runs
        rw [hs.unstarted x (hstart ▸ hzero)] at hruns
        cases hruns
      · rw [windowExpired_congr hstart]
        by_contra hexpired
        refine h.settled x t n d hx hstep (by omega) hT (by simpa using hexpired) ?_ hbefore
        rw [hends]
        exact fun he => hne (Option.some.inj he).symm
    · rw [leaveRunning_of_notMem cfg env hc]
      refine Unbroken.costless (clearLock_costless x s) fun d hd => ?_
      refine ⟨fun hzero => ?_, fun n hn hT => ?_⟩
      · have hruns := hd.runs
        rw [hs.unstarted x hzero] at hruns
        cases hruns
      · by_contra hexpired
        refine h.settled x t n d hx hstep hn hT (by simpa using hexpired) ?_ hd
        rw [hends]
        exact fun he => hc ((Option.some.inj he) ▸ hd.runs)
  unfold Event.Ready
  split
  · intro x hx
    exact (hunbroken x hx rfl).costless (insertReq_costless _ s)
  · intro x hx hfree
    exact hended _ x ⟨hx, hfree⟩ rfl
  · intro x hx hfree
    exact hended _ x ⟨hx, hfree⟩ rfl
  · exact hunbroken _ rfl rfl
  · trivial

theorem windowed_of_reaches
    (h : Transition.Reaches (Transition.guarded (Step cfg env) (KeepsWindows cfg env))
      Sched.init s) : WellFormed s ∧ SingleEntries s ∧ Windowed cfg env s := by
  refine h.invariant (I := fun s => WellFormed s ∧ SingleEntries s ∧ Windowed cfg env s) ?_
    ⟨WellFormed.init, SingleEntries.init, Windowed.init hpos⟩
  rintro s e t ⟨hok, hstep⟩ ⟨hwf, hsingle, hs⟩
  have hready := hok.ready hs hstep
  obtain ⟨henabled, fuel, hhandle⟩ := hstep
  have hresult := handle_invariant (I := fun u _ => u.ticks ≤ t.ticks → Windowed cfg env u)
    (unbroken_lasting hpos cfg t.ticks) (fun _ _ h => h.fresh)
    (fun u v _ _ hwf hsingle hcharge hu hv =>
      hcharge.windowed hclock hpos hwf hsingle hv (hu (hcharge.ticks_le.trans hv)))
    hok henabled hready hhandle (m := 0) ⟨hwf, hsingle, fun _ => hs⟩
  exact ⟨hresult.1, hresult.2.1, hresult.2.2 le_rfl⟩

/-- In such runs the usage of a limited client is at most its carried debt and the part of
the current window that has passed. -/
theorem window_charged_for_itself
    (h : Transition.Reaches (Transition.guarded (Step cfg env) (KeepsWindows cfg env))
      Sched.init s)
    (hc : c ∈ s.clients) (hctx : (s.client c).context = some x)
    (hlimit : (s.client c).coreLimit < 100) (hstarted : (s.ctx x).windowStartMs ≠ 0)
    {now : ℤ} (hnow : lastReading env s ≤ now) :
    (s.client c).runTimeInWindowMs ≤
      (s.client c).quotaDebtMs + (now - (s.ctx x).windowStartMs) := by
  obtain ⟨-, -, hs⟩ := windowed_of_reaches hclock hpos h
  have hle := (hs.within c hc x hctx hlimit hstarted).le (hs.began x c)
  omega

end Runs

/-- A decidable form of the condition: no annotations, and a client that has been told to
drop the lock does so before anything else happens. -/
def Prompt (s : Sched) (e : Event) : Prop :=
  FreshRequest s e ∧ (∀ d ∈ s.clients, (s.client d).pendingDrop = true → e.ends = some d) ∧
    e.annotates = false

instance (s : Sched) : DecidablePred (Prompt s) :=
  fun e => inferInstanceAs (Decidable (FreshRequest s e ∧ _ ∧ _))

theorem Prompt.keepsWindows {e : Event} (h : Prompt s e) : KeepsWindows cfg env s e where
  fresh := h.1
  settled x t n d _ _ _ _ _ hends hd := hends (h.2.1 d hd.connected hd.told)
  limited id memory core c he := by
    have hnone := h.2.2
    rw [he] at hnone
    cases hnone

/-- The lock is released 1.6 s, and again 2.5 s, after the clock showed 1 ms. -/
def twoWindows : Env where
  clock n := if n < 4 then 1 else if n < 5 then 1501 else if n < 6 then 1601
    else if n < 10 then 2001 else 2501
  sendOk _ _ := true

theorem window_charged_for_itself_two_windows :
    ∃ s, Transition.Reaches (Transition.guarded (Step {} twoWindows)
        (KeepsWindows {} twoWindows)) Sched.init s ∧
      (s.client 0).quotaDebtMs = 142 ∧ (s.ctx 0).windowStartMs = 2001 ∧
      (s.client 0).runTimeInWindowMs ≤ (s.client 0).quotaDebtMs + (2501 - 2001) := by
  have hmono : Monotone twoWindows.clock := by
    intro i j hij
    simp only [twoWindows]
    split_ifs <;> omega
  have hpos : ∀ n, 0 < twoWindows.clock n := by
    intro n
    simp only [twoWindows]
    split_ifs <;> norm_num
  obtain ⟨s, hs, hc, hctx, hlimit, hdebt, hstart, hlast⟩ := exists_reaches {} twoWindows Prompt 9
    [.accept {}, enterQuota 0 1 50, .message 0 .reqLock, .timerBegin 0, .timerEnd 0 true,
      .message 0 .lockReleased, .timerBegin 0, .message 0 .reqLock, .message 0 .lockReleased]
    (fun s => 0 ∈ s.clients ∧ (s.client 0).context = some 0 ∧ (s.client 0).coreLimit < 100 ∧
      (s.client 0).quotaDebtMs = 142 ∧ (s.ctx 0).windowStartMs = 2001 ∧
      lastReading twoWindows s ≤ 2501) (by decide +kernel)
  have hreach : Transition.Reaches (Transition.guarded (Step {} twoWindows)
      (KeepsWindows {} twoWindows)) Sched.init s :=
    hs.mono fun _ _ _ hstep => ⟨hstep.1.keepsWindows, hstep.2⟩
  refine ⟨s, hreach, hdebt, hstart, ?_⟩
  have hle := window_charged_for_itself hmono hpos hreach hc hctx hlimit
    (by rw [hstart]; decide) hlast
  rwa [hstart] at hle

/-- The lock is dropped on request, half a second after the window has ended. -/
def lateRelease : Env where
  clock n := if n < 4 then 1 else if n < 5 then 1501 else if n < 7 then 2001 else 2501
  sendOk _ _ := true

/-- A client throttled near the end of a window is billed in the next one for the time it
took to drop the lock before that window began. -/
theorem window_charged_for_tail :
    ¬ ∀ (cfg : Config) (env : Env) (s : Sched) (c : ClientId) (x : CtxId) (now : ℤ),
      env.AllSent → Monotone env.clock →
      Transition.Reaches (Transition.guarded (Step cfg env) Polite) Sched.init s →
      c ∈ s.clients → (s.client c).context = some x → (s.client c).coreLimit < 100 →
      (s.ctx x).windowStartMs ≠ 0 → lastReading env s ≤ now →
      (s.client c).runTimeInWindowMs ≤
        (s.client c).quotaDebtMs + (now - (s.ctx x).windowStartMs) := by
  intro h
  have hmono : Monotone lateRelease.clock := by
    intro i j hij
    simp only [lateRelease]
    split_ifs <;> omega
  obtain ⟨s, hs, hc, hctx, hlimit, hdebt, hstart, hused, hlast⟩ :=
    exists_reaches {} lateRelease Polite 9
    [.accept {}, enterQuota 0 1 50, .message 0 .reqLock, .timerBegin 0, .timerEnd 0 true,
      .timerBegin 0, .message 0 .lockReleased]
    (fun s => 0 ∈ s.clients ∧ (s.client 0).context = some 0 ∧ (s.client 0).coreLimit < 100 ∧
      (s.client 0).quotaDebtMs = 125 ∧ (s.ctx 0).windowStartMs = 2001 ∧
      (s.client 0).runTimeInWindowMs = 825 ∧ lastReading lateRelease s ≤ 2501)
    (by decide +kernel)
  have hle := h {} lateRelease s 0 0 2501 (fun _ _ => rfl) hmono hs hc hctx hlimit
    (by rw [hstart]; decide) hlast
  rw [hused, hdebt, hstart] at hle
  omega

end XpuShare
