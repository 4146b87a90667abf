import XpuShare.Verification.Billing.Records
import XpuShare.Verification.Queues.Termination

/-! # Clients that scheduling passes by

A client without a pending request, or one without quota in a window that lasts until the end
of the call, is not admitted while others are scheduled. If the messages to everybody else are
delivered, then nobody is deleted either, and the call returns when nobody stands in two
queues. -/

namespace XpuShare

variable {cfg : Config} {env : Env} {x : CtxId} {s t u : Sched} {c d : ClientId}
  {reads : ℕ → Prop}

/-- A client that is throttled or at its quota, in a window that none of the clock readings
`reads` ends. -/
structure Barred (cfg : Config) (env : Env) (x : CtxId) (c : ClientId) (reads : ℕ → Prop)
    (s : Sched) : Prop where
  limited : (s.client c).coreLimit < 100
  spent : (s.client c).isThrottled = true ∨
    getEffectiveQuotaMs cfg s x c ≤ (s.client c).runTimeInWindowMs
  started : (s.ctx x).windowStartMs ≠ 0
  unexpired : ∀ n, reads n → windowExpired cfg (s.ctx x) (env.clock n) = false

/-- A client that scheduling passes by. -/
structure Sidelined (cfg : Config) (env : Env) (x : CtxId) (c : ClientId) (reads : ℕ → Prop)
    (s : Sched) : Prop where
  notRunning : c ∉ (s.ctx x).runningList
  barred : c ∉ (s.ctx x).pending ∨ Barred cfg env x c reads s

/-- Messages from the next one on are delivered to every pending client but `c`. -/
def DeliveredBut (env : Env) (x : CtxId) (c : ClientId) (s : Sched) : Prop :=
  ∀ n, s.out.length ≤ n → ∀ d ∈ (s.ctx x).pending, d ≠ c → env.sendOk n d = true

theorem Barred.refused (h : Barred cfg env x c reads s) : canRunTest cfg s x c = false := by
  have hlimit := h.limited
  have hquota : quotaAllows cfg s x c = false := by
    rcases h.spent with hthrottled | hspent
    · simp [quotaAllows, hthrottled, hlimit]
    · simp [quotaAllows, hspent, hlimit]
  rw [canRunTest, hquota, Bool.false_and]

theorem Barred.congr (h : Barred cfg env x c reads s) (hclient : t.client c = s.client c)
    (hstart : (t.ctx x).windowStartMs = (s.ctx x).windowStartMs)
    (hclients : t.clients = s.clients)
    (hstatic : ∀ d, (t.client d).static = (s.client d).static) :
    Barred cfg env x c reads t := by
  refine ⟨by rw [hclient]; exact h.limited, ?_, by rw [hstart]; exact h.started, fun n hn => ?_⟩
  · rw [hclient, getEffectiveQuotaMs_congr hclients hstatic]
    exact h.spent
  · rw [windowExpired, windowStartAt, hstart]
    exact h.unexpired n hn

/-- A client that is admitted is not sidelined. -/
theorem Sidelined.ne_of_admitted (h : Sidelined cfg env x c reads s)
    (hd : d ∈ (s.ctx x).pending) (hok : canRunTest cfg s x d = true) : d ≠ c := by
  rintro rfl
  rcases h.barred with hgone | hbarred
  · exact hgone hd
  · rw [hbarred.refused] at hok
    cases hok

/-! ## What blocks do to the record of such a client -/

theorem freshWindow_barred (h : Barred cfg env x c reads s) (hread : reads s.ticks) :
    (freshWindow cfg env x s).client c = s.client c ∧
      ((freshWindow cfg env x s).ctx x).windowStartMs = (s.ctx x).windowStartMs := by
  have hopen : windowExpired cfg (s.ctx x) (currentTimeMs env s) = false :=
    h.unexpired s.ticks hread
  simp [freshWindow, checkAndResetWindow, hopen, windowStartAt, h.started]

theorem grant_others (hne : c ≠ d) (hc : c ∉ (s.ctx x).runningList) :
    (grant env x d s).client c = s.client c ∧
      ((grant env x d s).ctx x).windowStartMs = (s.ctx x).windowStartMs := by
  have hsettle : (settleRunners env x s).client c = s.client c ∧
      (settleRunners env x s).ctx x = s.ctx x := by
    unfold settleRunners
    split
    · exact ⟨rfl, rfl⟩
    · exact ⟨accrue_client_of_notMem _ none s.tick hc, by simp⟩
  refine ⟨?_, ?_⟩
  · simp [grant, hne, hsettle.1]
  · simp [grant, hsettle.2]

theorem leaveRunning_others (cfg : Config) (env : Env) (d : ClientId)
    (hc : c ∉ (s.ctx x).runningList) :
    (leaveRunning cfg env x d s).client c = s.client c ∧
      ((leaveRunning cfg env x d s).ctx x).windowStartMs = (s.ctx x).windowStartMs := by
  have hclear : ∀ v : Sched, (clearLock x v).client = v.client ∧
      ((clearLock x v).ctx x).windowStartMs = (v.ctx x).windowStartMs := by
    intro v
    unfold clearLock
    split
    · exact ⟨rfl, by simp⟩
    · exact ⟨rfl, rfl⟩
  unfold leaveRunning
  rw [(hclear _).1, (hclear _).2]
  split
  · rename_i hd
    have hne : c ≠ d := fun he => hc (he ▸ hd)
    have hgive :
        c ∉ ((giveBackMemory x (s.client d).memoryAllocated s).tick.ctx x).runningList := by
      simpa [giveBackMemory] using hc
    refine ⟨?_, ?_⟩
    · simp [releaseRunning, hne, accrue_client_of_notMem _ _ _ hgive]
      rfl
    · simp [releaseRunning, giveBackMemory]
  · exact ⟨rfl, rfl⟩

/-! ## Blocks -/

/-- Blocks never turn the clock back. -/
theorem Block.ticks_le {D : Exits} (h : Block cfg env D x s t) : s.ticks ≤ t.ticks := by
  cases h with
  | window => exact (freshWindow_ticks cfg env x s).ge.trans' (Nat.le_succ _)
  | defer d rest hreq hno hwait => exact (moveToWaitQueue_costless x d s).ticks
  | promote front d back hwait hok => exact (promote_costless x d s front back).ticks
  | grant d rest hreq hok hsend =>
      rw [grant_ticks]
      exact (settleRunners_ticks env x (sendMessage env d .lockOk s)).trans (Nat.le_succ _)
  | refuse d rest hreq hok hsend hD => exact le_rfl
  | leave d hD =>
      by_cases hd : d ∈ (s.ctx x).runningList
      · exact (leaveRunning_ticks cfg env x d s hd).ge.trans' (Nat.le_succ _)
      · rw [leaveRunning_of_notMem cfg env hd]
        have hclear : Costless env s (clearLock x s) := clearLock_costless x s
        exact hclear.ticks
  | withdraw d hD => exact le_rfl
  | unlink d hD hctx hgone => exact le_rfl

theorem Path.ticks_le {D : Exits} (h : Path cfg env D x s t) : s.ticks ≤ t.ticks := by
  induction h with
  | refl => exact le_rfl
  | tail _ hlast ih => exact ih.trans hlast.ticks_le

theorem Path.out_length {D : Exits} (h : Path cfg env D x s t) :
    s.out.length ≤ t.out.length := by
  induction h with
  | refl => exact le_rfl
  | tail _ hlast ih =>
      obtain ⟨new, hout, -⟩ := hlast.sent
      rw [hout, List.length_append]
      omega

theorem DeliveredBut.path {D : Exits} (h : DeliveredBut env x c s) (hp : Path cfg env D x s t) :
    DeliveredBut env x c t :=
  fun n hn d hd hdc => h n (hp.out_length.trans hn) d (hp.pending_subset hd) hdc

/-- A block that deletes nobody passes by a sidelined client. -/
theorem Block.sidelined (h : Block cfg env nobody x s t) (hs : Sidelined cfg env x c reads s)
    (hread : ∀ n, s.ticks ≤ n → n < t.ticks → reads n) : Sidelined cfg env x c reads t := by
  -- enough is that neither its record nor the start of the window changes
  have hkeep : c ∉ (t.ctx x).runningList → (Barred cfg env x c reads s →
      t.client c = s.client c ∧ (t.ctx x).windowStartMs = (s.ctx x).windowStartMs) →
      Sidelined cfg env x c reads t := by
    intro hrun hsame
    refine ⟨hrun, ?_⟩
    rcases hs.barred with hgone | hbarred
    · exact Or.inl fun hc => hgone (h.pending_subset hc)
    · obtain ⟨hclient, hstart⟩ := hsame hbarred
      exact Or.inr (hbarred.congr hclient hstart h.path.clients_eq h.frame.static)
  cases h with
  | window =>
      have hticks := freshWindow_ticks cfg env x s
      refine hkeep ?_ fun hb => freshWindow_barred hb (hread s.ticks le_rfl (by omega))
      rw [freshWindow_runningList]
      exact hs.notRunning
  | defer d rest hreq hno hwait =>
      have heff := moveToWaitQueue_effect env hwait
      have hrun : ((moveToWaitQueue env x d s).ctx x).runningList = (s.ctx x).runningList :=
        congrArg LockTable.running heff.table_eq
      refine hkeep (hrun ▸ hs.notRunning) fun _ => ⟨by rw [moveToWaitQueue_client], ?_⟩
      have hcost : Costless env s (moveToWaitQueue env x d s) := moveToWaitQueue_costless x d s
      exact hcost.window x
  | promote front d back hwait hok =>
      have heff := promote_effect env x front d back s
      have hrun : ((XpuShare.promote env x front d back s).ctx x).runningList
          = (s.ctx x).runningList := congrArg LockTable.running heff.table_eq
      refine hkeep (hrun ▸ hs.notRunning) fun _ => ⟨rfl, ?_⟩
      simp [XpuShare.promote]
  | grant d rest hreq hok hsend =>
      have hne := hs.ne_of_admitted (by simp [GpuContext.pending, hreq]) hok
      have hd : d ∈ (s.ctx x).entries := mem_entries_of_requests (by simp [hreq])
      have heff := grantSent_effect env hd
      have hrun : ((XpuShare.grant env x d (sendMessage env d .lockOk s)).ctx x).runningList
          = (s.ctx x).runningList ++ [d] := congrArg LockTable.running heff.table_eq
      refine hkeep ?_ fun _ => grant_others (s := sendMessage env d .lockOk s) hne.symm
        hs.notRunning
      rw [hrun]
      simpa [hs.notRunning] using hne.symm
  | refuse d rest hreq hok hsend hD => exact False.elim hD
  | leave d hD => exact False.elim hD
  | withdraw d hD => exact False.elim hD
  | unlink d hD hctx hgone => exact False.elim hD

theorem Path.sidelined (h : Path cfg env nobody x s t) (hs : Sidelined cfg env x c reads s)
    (hread : ∀ n, s.ticks ≤ n → n < t.ticks → reads n) : Sidelined cfg env x c reads t := by
  induction h with
  | refl => exact hs
  | tail hpath hlast ih =>
      have hmid := ih fun n hn hlt => hread n hn (hlt.trans_le hlast.ticks_le)
      exact hlast.sidelined hmid fun n hn hlt => hread n (Path.ticks_le hpath |>.trans hn) hlt

/-! ## The loop -/

/-- A sidelined client is not at the head when somebody is admitted, so that LOCK_OK is
delivered. -/
theorem Sidelined.sends (hs : Sidelined cfg env x c reads s) (hsend : DeliveredBut env x c s)
    (hd : d ∈ (s.ctx x).pending) (hok : canRunTest cfg s x d = true) :
    sendSucceeds env d s = true :=
  hsend _ le_rfl d hd (hs.ne_of_admitted hd hok)

/-- The loop comes to its first grant by blocks that delete nobody. -/
theorem Searching.path (hr : Ready x s) (h : Searching cfg env x s u) :
    Path cfg env nobody x s u := by
  induction h with
  | here s => exact Relation.ReflTransGen.refl
  | next s e rest u hreq hno hrest ih =>
      have hrefill : Path cfg env nobody x s (refill cfg env x s) := refill_path s
      have hrr := hrefill.invariant (I := Ready x) (fun _ _ hb hu => hu.block hb) hr
      have hwindow : Block cfg env nobody x _ (freshWindow cfg env x (refill cfg env x s)) :=
        .window _
      have hrf := hrr.block hwindow
      have hreqf : ((freshWindow cfg env x (refill cfg env x s)).ctx x).requests = e :: rest := by
        rw [freshWindow_requests, hreq]
      have hdefer : Block cfg env nobody x _ _ :=
        .defer _ e rest hreqf hno (hrf.head_notMem hreqf).1
      exact ((hrefill.trans hwindow.path).trans hdefer.path).trans (ih (hrf.block hdefer))

/-- If no reading from now on ends the window, the first LOCK_OK is delivered. -/
theorem Sidelined.firstGrantDelivered (hr : Ready x s) (hs : Sidelined cfg env x c reads s)
    (hsend : DeliveredBut env x c s) (hread : ∀ n, s.ticks ≤ n → reads n) :
    FirstGrantDelivered cfg env x s := by
  intro u e rest hsearch hreq hok
  have hrefill : Path cfg env nobody x u (refill cfg env x u) := refill_path u
  have hwindow : Block cfg env nobody x _ (freshWindow cfg env x (refill cfg env x u)) :=
    .window _
  have hpath := ((hsearch.path hr).trans hrefill).trans hwindow.path
  refine (hpath.sidelined hs fun n hn _ => hread n hn).sends (hsend.path hpath) ?_ hok
  refine List.mem_append_left _ ?_
  rw [freshWindow_requests, hreq]
  exact List.mem_cons_self

/-- A call that returns before any reading ends the window deletes nobody. -/
theorem trySchedule_passing {fuel : ℕ} (hb : Belongs x s) (hs : Sidelined cfg env x c reads s)
    (hsend : DeliveredBut env x c s) (hread : ∀ n, s.ticks ≤ n → n < t.ticks → reads n)
    (h : trySchedule cfg env fuel x s = some t) : Path cfg env nobody x s t := by
  induction fuel generalizing s with
  | zero => cases h
  | succ fuel ih =>
      have hrefill : Path cfg env nobody x s (refill cfg env x s) := refill_path s
      cases hreq : ((refill cfg env x s).ctx x).requests with
      | nil =>
          rw [trySchedule_of_nil rfl hreq] at h
          exact Option.some.inj h ▸ hrefill
      | cons d rest =>
          have hwindow : Block cfg env nobody x _ (freshWindow cfg env x (refill cfg env x s)) :=
            .window _
          have hpath := hrefill.trans hwindow.path
          have hreqf : ((freshWindow cfg env x (refill cfg env x s)).ctx x).requests
              = d :: rest := by
            rw [freshWindow_requests, hreq]
          have hgrant := fun n => trySchedule_of_grant (n := n) rfl hreq
            (rfl : freshWindow cfg env x (refill cfg env x s) = _)
          have hrefuse := fun n => trySchedule_of_refuse (n := n) rfl hreq
            (rfl : freshWindow cfg env x (refill cfg env x s) = _)
          have hdefer := fun n => trySchedule_of_defer (n := n) rfl hreq
            (rfl : freshWindow cfg env x (refill cfg env x s) = _)
          generalize freshWindow cfg env x (refill cfg env x s) = f
            at hpath hreqf hgrant hrefuse hdefer
          have hbf : Belongs x f := hb.path hpath
          have hd : d ∈ (f.ctx x).pending := by simp [GpuContext.pending, hreqf]
          -- the client is still sidelined when the call has come to `f`
          have hsf : f.ticks ≤ t.ticks → Sidelined cfg env x c reads f := fun hle =>
            hpath.sidelined hs fun n hn hlt => hread n hn (hlt.trans_le hle)
          have hnext : ∀ u, Block cfg env nobody x f u → trySchedule cfg env fuel x u = some t →
              Path cfg env nobody x s t := by
            intro u hfu hu
            have hut : Path cfg env anyone x u t := trySchedule_anyone (hbf.path hfu.path) hu
            have hsu : Path cfg env nobody x s u := hpath.trans hfu.path
            refine hsu.trans (ih (hbf.path hfu.path) ?_ (hsend.path hsu) ?_ hu)
            · exact hsu.sidelined hs fun n hn hlt => hread n hn (hlt.trans_le hut.ticks_le)
            · exact fun n hn hlt => hread n (hsu.ticks_le.trans hn) hlt
          by_cases hok : canRunTest cfg f x d = true
          · by_cases hs' : sendSucceeds env d f = true
            · have hblock : Block cfg env nobody x f _ := .grant f d rest hreqf hok hs'
              rw [hgrant fuel hok hs'] at h
              split at h
              · exact Option.some.inj h ▸ hpath.trans hblock.path
              · exact hnext _ hblock h
            · rw [Bool.not_eq_true] at hs'
              rw [hrefuse fuel hok hs', Option.bind_eq_some_iff] at h
              obtain ⟨mid, hmid, hagain⟩ := h
              have hsent : Block cfg env anyone x f (sendMessage env d .lockOk f) :=
                .refuse f d rest hreqf hok hs' trivial
              have hctx : ((sendMessage env d .lockOk f).client d).context = some x :=
                hbf d (mem_entries_iff.mpr (Or.inl hd))
              have hdelete : Path cfg env anyone x _ mid := deleteClient_path hctx
                ⟨trivial, trivial⟩ (fun _ _ => trySchedule_anyone) (hbf.path hsent.path) hmid
              have hlast : Path cfg env anyone x mid t :=
                trySchedule_anyone ((hbf.path hsent.path).path hdelete) hagain
              have hle := ((hsent.path.trans hdelete).trans hlast).ticks_le
              rw [(hsf hle).sends (hsend.path hpath) hd hok] at hs'
              cases hs'
          · rw [Bool.not_eq_true] at hok
            rw [hdefer fuel hok] at h
            by_cases hwait : d ∈ (f.ctx x).waitQueue
            · -- `move_to_wait_queue` changes nothing
              rw [moveToWaitQueue_of_mem env hwait] at h
              have hft : Path cfg env anyone x f t := trySchedule_anyone hbf h
              refine hpath.trans (ih hbf (hsf hft.ticks_le) (hsend.path hpath) ?_ h)
              exact fun n hn hlt => hread n (hpath.ticks_le.trans hn) hlt
            · exact hnext _ (.defer f d rest hreqf hok hwait) h

end XpuShare
