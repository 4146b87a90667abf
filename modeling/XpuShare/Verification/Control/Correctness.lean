import XpuShare.Verification.Scheduler.Orders
import XpuShare.Verification.Scheduler.Runs
import XpuShare.Verification.Transport.Messages

/-! # Correctness of `nvsharectl`

The options of a command become messages, their texts numbers again, and each connection
changes in the scheduler what its option asks for and nothing else. -/

namespace XpuShare

open Printf Transition

variable {cfg : Config} {env : Env} {s t u : Sched} {c : ClientId} {fuel : ℕ}

/-! ## Numbers -/

theorem isDigitOf_hexChar {d : ℕ} (h : d < 10) : isDigitOf 10 (hexChar d) = true := by
  interval_cases d <;> decide

theorem hexChar_ne_zero {d : ℕ} (h : d < 10) (hd : d ≠ 0) : hexChar d ≠ '0' := by
  interval_cases d <;> revert hd <;> decide

/-- The characters of a positive number. -/
theorem textOf_natural {n : ℕ} (hn : n ≠ 0) :
    (textOf (natural n)).toList = (Nat.digits 10 n).reverse.map hexChar := by
  rw [natural, if_neg hn, textOf, String.toList_ofList, List.map_map]
  apply List.map_congr_left
  intro d hd
  have hlt : d < 10 := Nat.digits_lt_base (by norm_num) (List.mem_reverse.mp hd)
  rw [hexChar, hexDigit, if_pos hlt, Function.comp_apply]

/-- The first of them is not a zero, which would make the number octal. -/
theorem digits_head {n : ℕ} (hn : n ≠ 0) :
    ∃ d rest, (Nat.digits 10 n).reverse = d :: rest ∧ d < 10 ∧ d ≠ 0 := by
  have hne : Nat.digits 10 n ≠ [] := Nat.digits_ne_nil_iff_ne_zero.mpr hn
  have hlast := Nat.getLast_digit_ne_zero 10 hn
  have hmem := List.getLast_mem hne
  refine ⟨(Nat.digits 10 n).getLast hne, (Nat.digits 10 n).dropLast.reverse, ?_,
    Nat.digits_lt_base (by norm_num) hmem, hlast⟩
  conv_lhs => rw [← List.dropLast_append_getLast hne, List.reverse_append]
  rfl

theorem ofDigits_digits (n : ℕ) :
    ofDigits 10 ((Nat.digits 10 n).reverse.map hexChar) = n := by
  have hfold : ∀ ds : List ℕ, (∀ d ∈ ds, d < 10) →
      (ds.map hexChar).foldr (fun ch acc => 10 * acc + digitValue ch) 0 = Nat.ofDigits 10 ds := by
    intro ds hds
    induction ds with
    | nil => rfl
    | cons d ds ih =>
        have hd : d < 16 := (hds d List.mem_cons_self).trans (by norm_num)
        have hrest := ih fun e he => hds e (List.mem_cons_of_mem d he)
        rw [List.map_cons, List.foldr_cons, hrest, (hexChar_spec hd).2.1, Nat.ofDigits_cons]
        omega
  rw [ofDigits, List.map_reverse, List.foldl_reverse, hfold, Nat.ofDigits_digits]
  intro d hd
  exact Nat.digits_lt_base (by norm_num) hd

/-- `strtoll` reads a positive number that `snprintf` has written. -/
theorem strtoll_natural {n : ℕ} (hn : n ≠ 0) (hlt : n < 2 ^ 63) :
    strtoll (textOf (natural n)).toList = some ((n : ℤ), []) := by
  obtain ⟨d, rest, hdigits, hd, hnz⟩ := digits_head hn
  obtain ⟨-, -, hspace, hminus, hplus, -, -⟩ := hexChar_spec (hd.trans (by norm_num))
  have hcons : (Nat.digits 10 n).reverse.map hexChar = hexChar d :: rest.map hexChar := by
    rw [hdigits, List.map_cons]
  have hall : ∀ ch ∈ (Nat.digits 10 n).reverse.map hexChar, isDigitOf 10 ch = true := by
    intro ch hch
    obtain ⟨e, he, rfl⟩ := List.mem_map.mp hch
    exact isDigitOf_hexChar (Nat.digits_lt_base (by norm_num) (List.mem_reverse.mp he))
  have htake := List.takeWhile_eq_self_iff.mpr hall
  have hdrop := List.dropWhile_eq_nil_iff.mpr hall
  have hvalue := ofDigits_digits n
  rw [textOf_natural hn]
  rw [hcons] at htake hdrop hvalue ⊢
  have htrim : (hexChar d :: rest.map hexChar).dropWhile isSpace =
      hexChar d :: rest.map hexChar := List.dropWhile_cons_of_neg (by simp [hspace])
  have hsign : splitSign (hexChar d :: rest.map hexChar) =
      (false, hexChar d :: rest.map hexChar) := by
    unfold splitSign
    split
    · rename_i heq
      exact absurd (List.cons.inj heq).1 hminus
    · rename_i heq
      exact absurd (List.cons.inj heq).1 hplus
    · rfl
  have hbody : hexBody (hexChar d :: rest.map hexChar) = none := by
    unfold hexBody
    split
    · rename_i heq
      exact absurd (List.cons.inj heq).1 (hexChar_ne_zero hd hnz)
    · rfl
  have hbase : findBase (hexChar d :: rest.map hexChar) =
      (10, hexChar d :: rest.map hexChar) := by
    unfold findBase
    rw [hbody]
    simp [hexChar_ne_zero hd hnz]
  unfold strtoll
  rw [htrim, hsign]
  simp only [hbase, htake, hdrop, hvalue]
  rw [if_neg]
  · rfl
  · rintro (hnil | hlow | hhigh)
    · cases hnil
    · simp only [Bool.false_eq_true, if_false] at hlow
      omega
    · simp only [Bool.false_eq_true, if_false] at hhigh
      omega

/-- The text of a time quantum ends within its array. -/
theorem dataText_changeTq {v : ℤ} (hpos : 0 < v) (hfits : FitsInt v) :
    (changeTq v).dataText = (textOf (natural v.natAbs)).toList := by
  have hlength : (natural v.natAbs).length < (zeros msgDataLen).toList.length := by
    have hlt : v.natAbs < 10 ^ 10 := by
      have hhigh := hfits.2
      omega
    have hdigits := (Nat.digits_length_le_iff (by norm_num) _).mpr hlt
    rw [natural, if_neg (by omega), List.length_map, List.length_reverse, Vector.length_toList]
    exact hdigits.trans_lt (by decide)
  have hne : ∀ b ∈ natural v.natAbs, b ≠ 0 := by
    intro b hb hzero
    have hdigit := natural_isDigit v.natAbs b hb
    rw [hzero] at hdigit
    cases hdigit
  obtain ⟨tail, htail⟩ := strlcpyBytes_whole hlength
  have hlist : (changeTq v).data.toList = natural v.natAbs ++ 0 :: tail := by
    have hbytes : decimal v = natural v.natAbs := if_neg (by omega)
    rw [← htail, ← hbytes]
    rfl
  unfold Message.dataText
  simp only [hlist, List.append_assoc, List.cons_append]
  rw [untilNul_append hne]

theorem fromClient_changeTq {v : ℤ} (hpos : 0 < v) (hfits : FitsInt v) (e : RegisterEnv) :
    (changeTq v).fromClient e = .setTq (some v) := by
  have hread : (changeTq v).fromClient e = .setTq (parseTq (changeTq v).dataText) := rfl
  have hnum : strtoll (textOf (natural v.natAbs)).toList = some ((v.natAbs : ℤ), []) :=
    strtoll_natural (by omega) (by have hhigh := hfits.2; omega)
  have habs : (v.natAbs : ℤ) = v := by omega
  have hint : toInt32 v = v := toInt32_eq hfits.1 hfits.2
  rw [hread, dataText_changeTq hpos hfits, parseTq, hnum]
  simp only [habs, hint]

theorem fromClient_changeStatus (on : Bool) (e : RegisterEnv) :
    (changeStatus on).fromClient e = if on then .schedOn else .schedOff := by
  cases on <;> rfl

/-! ## What the options ask for -/

/-- The scheduler after it has been told to be on or off. -/
def Sched.turned (on : Bool) (s : Sched) : Sched :=
  if s.schedulerOn = on then s
  else if on then ({ s with schedulerOn := true } : Sched).announced
  else clearRequests ({ s with schedulerOn := false } : Sched).announced

/-- The scheduler as the user of `nvsharectl` wants it. -/
def SimpleConfig.applied (config : SimpleConfig) (s : Sched) : Sched :=
  let turned := match config.cmdlineAntiThrash with
    | some status => s.turned (status = "on")
    | none => s
  if config.cmdlineSchedulerTq = 0 then turned else setTq config.cmdlineSchedulerTq turned

/-- Everything but the records of connections that have come and gone is the same. -/
structure Undisturbed (s t : Sched) : Prop where
  clients : t.clients = s.clients
  client : ∀ c < s.nalloc, t.client c = s.client c
  nctx : t.nctx = s.nctx
  ctx : t.ctx = s.ctx
  schedulerOn : t.schedulerOn = s.schedulerOn
  tq : t.tq = s.tq
  ticks : t.ticks = s.ticks
  out : t.out = s.out
  exited : t.exited = s.exited
  nalloc : s.nalloc ≤ t.nalloc

theorem Undisturbed.refl (s : Sched) : Undisturbed s s where
  clients := rfl
  client _ _ := rfl
  nctx := rfl
  ctx := rfl
  schedulerOn := rfl
  tq := rfl
  ticks := rfl
  out := rfl
  exited := rfl
  nalloc := Nat.le_refl s.nalloc

theorem Undisturbed.trans (h : Undisturbed s t) (h' : Undisturbed t u) : Undisturbed s u where
  clients := h'.clients.trans h.clients
  client c hc := (h'.client c (hc.trans_le h.nalloc)).trans (h.client c hc)
  nctx := h'.nctx.trans h.nctx
  ctx := h'.ctx.trans h.ctx
  schedulerOn := h'.schedulerOn.trans h.schedulerOn
  tq := h'.tq.trans h.tq
  ticks := h'.ticks.trans h.ticks
  out := h'.out.trans h.out
  exited := h'.exited.trans h.exited
  nalloc := h.nalloc.trans h'.nalloc

/-! ## One connection -/

/-- What SCHED_ON, SCHED_OFF and SET_TQ do. -/
def commanded (m : FromClient) (s : Sched) : Sched :=
  match m with
  | .schedOn => s.turned true
  | .schedOff => s.turned false
  | .setTq (some v) => setTq v s
  | _ => s

/-- The messages of `nvsharectl`. -/
def FromClient.IsCommand : FromClient → Prop
  | .schedOn | .schedOff | .setTq _ => True
  | _ => False

theorem processMsg_command (hsent : env.AllSent) {m : FromClient} (hm : m.IsCommand)
    (fuel : ℕ) (c : ClientId) (s : Sched) :
    processMsg cfg env fuel c m s = some (commanded m s) := by
  cases m with
  | schedOn => cases hon : s.schedulerOn <;>
      simp [processMsg, commanded, Sched.turned, hon, bcastStatus_announced hsent]
  | schedOff => cases hon : s.schedulerOn <;>
      simp [processMsg, commanded, Sched.turned, hon, bcastStatus_announced hsent]
  | setTq v => cases v <;> rfl
  | _ => exact hm.elim

/-- A command does not look at the record of a connection that has only been accepted. -/
theorem commanded_accepted {m : FromClient} (hm : m.IsCommand) (garbage : Client) (s : Sched)
    (hlt : ∀ c ∈ s.clients, c < s.nalloc) :
    commanded m (accept garbage s) =
      { commanded m s with
        clients := s.clients ++ [s.nalloc], client := (accept garbage s).client
        nalloc := s.nalloc + 1 } := by
  have hnew : hasRegistered (accept garbage s) s.nalloc = false := by
    simp [hasRegistered, accept]
  have hold : ∀ c ∈ s.clients, hasRegistered (accept garbage s) c = hasRegistered s c := by
    intro c hc
    have hne : c ≠ s.nalloc := (hlt c hc).ne
    simp [hasRegistered, accept, hne]
  have hfilter : ((accept garbage s).clients.filter (hasRegistered (accept garbage s) ·)) =
      s.clients.filter (hasRegistered s ·) := by
    have happend : (accept garbage s).clients = s.clients ++ [s.nalloc] := rfl
    rw [happend, List.filter_append, List.filter_congr hold]
    simp [hnew]
  have hannounced : ∀ on : Bool,
      ({ accept garbage s with schedulerOn := on } : Sched).announced =
        { ({ s with schedulerOn := on } : Sched).announced with
          clients := s.clients ++ [s.nalloc], client := (accept garbage s).client
          nalloc := s.nalloc + 1 } := by
    intro on
    have hout := congrArg (fun l : List ClientId => s.out ++ l.map fun c =>
      (⟨c, if on then .schedOn else .schedOff, true⟩ : Sent)) hfilter
    exact congrArg (fun out => ({ accept garbage s with schedulerOn := on, out := out } : Sched))
      hout
  have hon : (accept garbage s).schedulerOn = s.schedulerOn := rfl
  cases m with
  | schedOn =>
      unfold commanded Sched.turned
      simp only [hon, hannounced, if_true]
      split <;> rfl
  | schedOff =>
      unfold commanded Sched.turned
      simp only [hon, hannounced]
      split <;> rfl
  | setTq v => cases v <;> rfl
  | _ => exact hm.elim

theorem commanded_frame (m : FromClient) (s : Sched) :
    (commanded m s).clients = s.clients ∧ (commanded m s).client = s.client ∧
      (commanded m s).nalloc = s.nalloc ∧ (commanded m s).exited = s.exited := by
  unfold commanded Sched.turned
  split <;> (try split) <;> exact ⟨rfl, rfl, rfl, rfl⟩

/-- A connection that has not registered hangs up. -/
theorem disconnect_unregistered (hctx : (s.client c).context = none) (hmem : c ∈ s.clients) :
    disconnect cfg env fuel c s = some { s with clients := s.clients.filter (· ≠ c) } := by
  simp [disconnect, deleteClient, removeReq, hctx, unlinkClient, hmem]

/-- The connection of a command leaves nothing behind but what the command asks for. -/
theorem controlSession_runs (hsent : env.AllSent) {m : FromClient} (hm : m.IsCommand)
    (garbage : Client) (fuel : ℕ) (hup : s.exited = false) (hlt : ∀ c ∈ s.clients, c < s.nalloc) :
    ∃ t, execute (tryStep cfg env (fun _ _ => True) fuel)
        [.accept garbage, .message s.nalloc m, .disconnect s.nalloc] s = some t ∧
      Undisturbed (commanded m s) t ∧ t.nalloc = s.nalloc + 1 := by
  obtain ⟨hclients, hclient, hnalloc, hexited⟩ := commanded_frame m s
  have haccept : tryStep cfg env (fun _ _ => True) fuel s (.accept garbage) =
      some (accept garbage s) := by
    rw [tryStep, if_pos ⟨trivial, Event.enabled_iff.mpr ⟨hup, rfl⟩⟩]
    rfl
  have hopen : s.nalloc ∈ (accept garbage s).clients := List.mem_append_right _ List.mem_cons_self
  have hmessage : tryStep cfg env (fun _ _ => True) fuel (accept garbage s)
      (.message s.nalloc m) = some (commanded m (accept garbage s)) := by
    have henabled : Event.enabled (accept garbage s) (.message s.nalloc m) = true := by
      refine Event.enabled_iff.mpr ⟨hup, ?_⟩
      cases m with
      | schedOn => exact decide_eq_true hopen
      | schedOff => exact decide_eq_true hopen
      | setTq v => exact decide_eq_true hopen
      | _ => exact hm.elim
    rw [tryStep, if_pos ⟨trivial, henabled⟩]
    exact processMsg_command hsent hm fuel s.nalloc (accept garbage s)
  have hcommanded := commanded_accepted hm garbage s hlt
  have hctx : ((commanded m (accept garbage s)).client s.nalloc).context = none := by
    rw [hcommanded]
    simp [accept]
  have hmem : s.nalloc ∈ (commanded m (accept garbage s)).clients := by
    rw [hcommanded]
    exact hopen
  have hdisconnect : tryStep cfg env (fun _ _ => True) fuel (commanded m (accept garbage s))
      (.disconnect s.nalloc) = some { commanded m (accept garbage s) with
        clients := (commanded m (accept garbage s)).clients.filter (· ≠ s.nalloc) } := by
    have hstill : (commanded m (accept garbage s)).exited = false := by
      rw [hcommanded]
      exact hexited.trans hup
    rw [tryStep, if_pos ⟨trivial, Event.enabled_iff.mpr ⟨hstill, decide_eq_true hmem⟩⟩]
    exact disconnect_unregistered hctx hmem
  have hgone : (s.clients ++ [s.nalloc]).filter (· ≠ s.nalloc) = s.clients := by
    have hall : ∀ d ∈ s.clients, decide (d ≠ s.nalloc) = true := by
      intro d hd
      exact decide_eq_true (hlt d hd).ne
    rw [List.filter_append, List.filter_eq_self.mpr hall]
    simp
  refine ⟨{ commanded m (accept garbage s) with
    clients := (commanded m (accept garbage s)).clients.filter (· ≠ s.nalloc) }, ?_, ?_, ?_⟩
  · simp only [execute, List.foldlM_cons, haccept, hmessage, hdisconnect, Option.bind_eq_bind,
      Option.bind_some]
    rfl
  · rw [hcommanded]
    exact {
      clients := hgone.trans hclients.symm
      client := by
        intro c hc
        rw [hnalloc] at hc
        rw [hclient]
        exact Function.update_of_ne hc.ne _ _
      nctx := rfl
      ctx := rfl
      schedulerOn := rfl
      tq := rfl
      ticks := rfl
      out := rfl
      exited := rfl
      nalloc := hnalloc.le.trans (Nat.le_succ _) }
  · rw [hcommanded]

/-! ## A whole command -/

theorem Undisturbed.announced (h : Undisturbed s t) (hlt : ∀ c ∈ s.clients, c < s.nalloc) :
    Undisturbed s.announced t.announced := by
  have hfilter : t.clients.filter (hasRegistered t ·) = s.clients.filter (hasRegistered s ·) := by
    rw [h.clients]
    apply List.filter_congr
    intro c hc
    rw [hasRegistered, h.client c (hlt c hc), hasRegistered]
  have hout : t.announced.out = s.announced.out := by
    simp only [Sched.announced, hfilter, h.out, h.schedulerOn]
  exact { h with out := hout }

theorem Undisturbed.clearRequests (h : Undisturbed s t) :
    Undisturbed (clearRequests s) (clearRequests t) := by
  refine { h with ctx := ?_ }
  unfold XpuShare.clearRequests
  simp only [h.ctx, h.nctx]

theorem Undisturbed.turned (h : Undisturbed s t) (hlt : ∀ c ∈ s.clients, c < s.nalloc)
    (on : Bool) : Undisturbed (s.turned on) (t.turned on) := by
  have hpower : Undisturbed ({ s with schedulerOn := on } : Sched)
      ({ t with schedulerOn := on } : Sched) := { h with schedulerOn := rfl }
  unfold Sched.turned
  rw [h.schedulerOn]
  split
  · exact h
  · split
    · rename_i hon
      subst hon
      exact hpower.announced hlt
    · rename_i hoff
      rw [Bool.not_eq_true] at hoff
      subst hoff
      exact (hpower.announced hlt).clearRequests

theorem Undisturbed.setTq {v : ℤ} (h : Undisturbed s t) :
    Undisturbed (setTq v s) (setTq v t) := by
  refine { h with ctx := ?_, tq := rfl }
  unfold XpuShare.setTq
  simp only [h.ctx, h.nctx]

/-- Commands do not look at what connections that are gone have left. -/
theorem Undisturbed.commanded (h : Undisturbed s t) (hlt : ∀ c ∈ s.clients, c < s.nalloc)
    (m : FromClient) : Undisturbed (commanded m s) (commanded m t) := by
  unfold XpuShare.commanded
  split
  · exact h.turned hlt true
  · exact h.turned hlt false
  · exact h.setTq
  · exact h

/-- The messages of a command, one after the other. -/
def commandedAll (e : RegisterEnv) (messages : List Message) (s : Sched) : Sched :=
  messages.foldl (fun s m => commanded (m.fromClient e) s) s

theorem Undisturbed.commandedAll {e : RegisterEnv} {messages : List Message}
    (h : Undisturbed s t) (hlt : ∀ c ∈ s.clients, c < s.nalloc) :
    Undisturbed (commandedAll e messages s) (commandedAll e messages t) := by
  induction messages generalizing s t with
  | nil => exact h
  | cons m messages ih =>
      obtain ⟨hclients, -, hnalloc, -⟩ := commanded_frame (m.fromClient e) s
      apply ih (h.commanded hlt (m.fromClient e))
      rw [hclients, hnalloc]
      exact hlt

theorem controlEvents_run (hsent : env.AllSent) (garbage : Client) (e : RegisterEnv) (fuel : ℕ)
    {messages : List Message} (hcommand : ∀ m ∈ messages, (m.fromClient e).IsCommand)
    (hup : s.exited = false) (hlt : ∀ c ∈ s.clients, c < s.nalloc) :
    ∃ t, execute (tryStep cfg env (fun _ _ => True) fuel)
        (controlEvents garbage e s.nalloc messages) s = some t ∧
      Undisturbed (commandedAll e messages s) t := by
  induction messages generalizing s with
  | nil => exact ⟨s, rfl, Undisturbed.refl s⟩
  | cons m messages ih =>
      have hm := hcommand m List.mem_cons_self
      obtain ⟨hclients, -, hnalloc, hexited⟩ := commanded_frame (m.fromClient e) s
      obtain ⟨u, hu, hsame, hnext⟩ := controlSession_runs hsent hm garbage fuel hup hlt
      have hlt' : ∀ c ∈ (commanded (m.fromClient e) s).clients,
          c < (commanded (m.fromClient e) s).nalloc := by
        rw [hclients, hnalloc]
        exact hlt
      have hltu : ∀ c ∈ u.clients, c < u.nalloc := by
        intro c hc
        rw [hsame.clients] at hc
        exact (hlt' c hc).trans_le hsame.nalloc
      obtain ⟨t, ht, hrest⟩ := ih (fun n hn => hcommand n (List.mem_cons_of_mem m hn))
        (hsame.exited.trans (hexited.trans hup)) hltu
      refine ⟨t, ?_, (hsame.commandedAll hlt').trans hrest⟩
      rw [controlEvents, messageCodec.decode_encode, execute, List.foldlM_append]
      rw [execute] at hu
      rw [hu, ← hnext]
      exact ht

/-- `nvsharectl` gets to its end with the messages of its options. -/
theorem nvsharectl_cases {config : SimpleConfig} {sent : List Message}
    (h : nvsharectl config = (sent, true)) :
    ∃ first second, sent = first ++ second ∧
      ((config.cmdlineAntiThrash = none ∧ first = []) ∨
        ∃ on, config.cmdlineAntiThrash = some (if on then "on" else "off") ∧
          first = [changeStatus on]) ∧
      ((config.cmdlineSchedulerTq = 0 ∧ second = []) ∨
        (0 < config.cmdlineSchedulerTq ∧ second = [changeTq config.cmdlineSchedulerTq])) := by
  have hfirst : ∀ first, antiThrashMessages config = some first →
      (config.cmdlineAntiThrash = none ∧ first = []) ∨
        ∃ on, config.cmdlineAntiThrash = some (if on then "on" else "off") ∧
          first = [changeStatus on] := by
    intro first hsome
    unfold antiThrashMessages at hsome
    split at hsome
    · rename_i hnone
      exact .inl ⟨hnone, (Option.some.inj hsome).symm⟩
    · rename_i hon
      exact .inr ⟨true, hon, (Option.some.inj hsome).symm⟩
    · rename_i hoff
      exact .inr ⟨false, hoff, (Option.some.inj hsome).symm⟩
    · cases hsome
  unfold nvsharectl at h
  split at h
  · cases h
  · rename_i first hsome
    split at h
    · rename_i hzero
      exact ⟨first, [], by rw [List.append_nil, (Prod.mk.inj h).1], hfirst first hsome,
        .inl ⟨hzero, rfl⟩⟩
    · split at h
      · cases h
      · rename_i hpos
        exact ⟨first, _, ((Prod.mk.inj h).1).symm, hfirst first hsome,
          .inr ⟨not_le.mp hpos, rfl⟩⟩

/-- A command that gets to its end makes of the scheduler what its options ask for, whatever
its connections find in memory, and disturbs nothing else. -/
theorem nvsharectl_configures (hsent : env.AllSent) {config : SimpleConfig}
    (hfits : FitsInt config.cmdlineSchedulerTq) {sent : List Message}
    (hrun : nvsharectl config = (sent, true))
    (hreach : Reaches (Step cfg env) Sched.init s) (hup : s.exited = false)
    (garbage : Client) (e : RegisterEnv) (fuel : ℕ) :
    ∃ t, execute (tryStep cfg env (fun _ _ => True) fuel)
        (controlEvents garbage e s.nalloc sent) s = some t ∧
      Undisturbed (config.applied s) t := by
  have hwf := wellFormed_of_reaches hreach
  obtain ⟨first, second, rfl, hfirst, hsecond⟩ := nvsharectl_cases hrun
  have hstatus : (∀ m ∈ first, (m.fromClient e).IsCommand) ∧
      commandedAll e first s =
        ({ config with cmdlineSchedulerTq := 0 } : SimpleConfig).applied s := by
    rcases hfirst with ⟨hnone, rfl⟩ | ⟨on, hon, rfl⟩
    · exact ⟨by simp, by simp [commandedAll, SimpleConfig.applied, hnone]⟩
    · have hread := fromClient_changeStatus on e
      cases on with
      | true =>
          exact ⟨by simp [hread, FromClient.IsCommand],
            by simp [commandedAll, SimpleConfig.applied, hon, hread, commanded]⟩
      | false =>
          exact ⟨by simp [hread, FromClient.IsCommand],
            by simp [commandedAll, SimpleConfig.applied, hon, hread, commanded]⟩
  have hall : (∀ m ∈ first ++ second, (m.fromClient e).IsCommand) ∧
      commandedAll e (first ++ second) s = config.applied s := by
    have hsplit : commandedAll e (first ++ second) s =
        commandedAll e second (commandedAll e first s) := List.foldl_append
    rw [hsplit, hstatus.2]
    rcases hsecond with ⟨hzero, rfl⟩ | ⟨hpos, rfl⟩
    · refine ⟨by rw [List.append_nil]; exact hstatus.1, ?_⟩
      simp [commandedAll, SimpleConfig.applied, hzero]
    · have hread := fromClient_changeTq hpos hfits e
      refine ⟨?_, ?_⟩
      · intro m hm
        rcases List.mem_append.mp hm with hm | hm
        · exact hstatus.1 m hm
        · rw [List.mem_singleton.mp hm, hread]
          trivial
      · simp [commandedAll, SimpleConfig.applied, hpos.ne', hread, commanded]
  obtain ⟨t, ht, hsame⟩ := controlEvents_run hsent garbage e fuel hall.1 hup hwf.allocated
  rw [hall.2] at hsame
  exact ⟨t, ht, hsame⟩

/-- Turning the scheduler off and setting its quantum while one client is registered. -/
theorem nvsharectl_configures_off :
    ∃ s, s.clients = [0] ∧ ∃ t, execute (tryStep {} steady (fun _ _ => True) 0)
        (controlEvents {} { generatedId := 0 } s.nalloc [changeStatus false, changeTq 45]) s =
          some t ∧
      Undisturbed (SimpleConfig.applied
        { cmdlineSchedulerTq := 45, cmdlineAntiThrash := some "off" } s) t := by
  obtain ⟨s, hreach, hclients, hup⟩ := exists_reaches {} steady (fun _ _ => True) 1
    [.accept {}, enter 0 7] (fun s => s.clients = [0] ∧ s.exited = false) (by decide +kernel)
  exact ⟨s, hclients, nvsharectl_configures steady_allSent (by decide) rfl
    (hreach.mono fun _ _ _ h => h.2) hup {} { generatedId := 0 } 0⟩

end XpuShare
