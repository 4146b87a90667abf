import XpuShare.Model.Hook
import XpuShare.Verification.Scheduler.Moves
import XpuShare.Verification.Scheduler.Runs

/-! # Memory reports arrive

A client keeps its allocations in a list, their total in a variable, and tells the scheduler
each new total. Once the channel is empty the scheduler's figure is the last total reported;
before the first report it is whatever the record held when it was allocated. -/

namespace XpuShare

/-! ## The allocation list -/

section Hooks

variable {h : HookState}

@[simp] theorem measureMemory_list (d : DriverReply) (h : HookState) :
    (measureMemory d h).cudaAllocationList = h.cudaAllocationList := by
  unfold measureMemory
  split <;> rfl

@[simp] theorem measureMemory_sum (d : DriverReply) (h : HookState) :
    (measureMemory d h).sumAllocated = h.sumAllocated := by
  unfold measureMemory
  split <;> rfl

@[simp] theorem totalSize_append (l l' : List CudaMemAllocation) :
    totalSize (l ++ l') = totalSize l + totalSize l' := by
  simp [totalSize]

@[simp] theorem totalSize_cons (a : CudaMemAllocation) (l : List CudaMemAllocation) :
    totalSize (a :: l) = a.size + totalSize l := by
  simp [totalSize]

theorem toSizeT_sub {m n : ℕ} (hle : n ≤ m) (hm : m < sizeMod) :
    toSizeT ((m : ℤ) - n) = m - n := by
  unfold toSizeT
  have hnonneg : (0 : ℤ) ≤ (m : ℤ) - n := by omega
  have hlt : (m : ℤ) - n < (sizeMod : ℤ) := by omega
  rw [Int.emod_eq_of_lt hnonneg hlt]
  omega

/-- A call that ends in no allocation changes neither list nor total and sends nothing. -/
theorem cuMemAlloc_of_not (d : DriverReply) (bytesize : ℕ)
    (hnot : allocates d bytesize h = false) :
    (cuMemAlloc d bytesize h).1 ≠ .success ∧
      (cuMemAlloc d bytesize h).2.1.cudaAllocationList = h.cudaAllocationList ∧
      (cuMemAlloc d bytesize h).2.1.sumAllocated = h.sumAllocated ∧
      (cuMemAlloc d bytesize h).2.2 = [] := by
  unfold cuMemAlloc
  by_cases hboot : h.bootstrapped = true
  · by_cases hadmits : admitsAllocation bytesize (measureMemory d h) = true
    · have hfail : d.managed ≠ .success := by
        simpa [allocates, hboot, hadmits] using hnot
      simp [hboot, hadmits, hfail]
    · simp [hboot, hadmits]
  · simp [hboot]

theorem cuMemAlloc_of_allocates (d : DriverReply) (bytesize : ℕ)
    (hyes : allocates d bytesize h = true) :
    (cuMemAlloc d bytesize h).1 = .success ∧
      (cuMemAlloc d bytesize h).2.1.cudaAllocationList =
        h.cudaAllocationList ++ [⟨d.dptr, bytesize⟩] ∧
      (cuMemAlloc d bytesize h).2.1.sumAllocated = (h.sumAllocated + bytesize) % sizeMod ∧
      memoryUsages (cuMemAlloc d bytesize h).2.2 =
        [(h.sumAllocated + bytesize) % sizeMod] := by
  simp only [allocates, Bool.and_eq_true, decide_eq_true_eq] at hyes
  simp [cuMemAlloc, hyes, insertCudaAllocation, reportMemoryUsageToScheduler, memoryUsages]

section Removing

variable {rmPtr : ℕ} {a : CudaMemAllocation} {front back : List CudaMemAllocation}
  {r : HookState × List ToScheduler}

theorem removeAllocation_of_ne (ha : a.ptr ≠ rmPtr) : removeAllocation rmPtr r a = r := by
  rw [removeAllocation, if_neg ha]

/-- An allocation at the pointer leaves the list. -/
theorem removeAllocation_of_eq (ha : a.ptr = rmPtr) (hfront : ∀ b ∈ front, b.ptr ≠ rmPtr)
    (hlist : r.1.cudaAllocationList = front ++ a :: back) :
    (removeAllocation rmPtr r a).1.cudaAllocationList = front ++ back := by
  have hnot : a ∉ front := fun hmem => hfront a hmem ha
  rw [removeAllocation, if_pos ha]
  simp only [hlist]
  rw [List.erase_append_right _ hnot, List.erase_cons_head]

theorem kept_snoc (ha : a.ptr ≠ rmPtr) (hfront : ∀ b ∈ front, b.ptr ≠ rmPtr) :
    ∀ b ∈ front ++ [a], b.ptr ≠ rmPtr := by
  intro b hb
  rcases List.mem_append.mp hb with hb | hb
  · exact hfront b hb
  · rwa [List.mem_singleton.mp hb]

/-- The loop of `remove_cuda_allocation`: `front` is what it has kept of the elements
visited, `back` what it has still to visit. -/
theorem removeAllocation_list (hfront : ∀ b ∈ front, b.ptr ≠ rmPtr)
    (hlist : r.1.cudaAllocationList = front ++ back) :
    (back.foldl (removeAllocation rmPtr) r).1.cudaAllocationList =
      front ++ back.filter (·.ptr ≠ rmPtr) := by
  induction back generalizing front r with
  | nil => simpa using hlist
  | cons a back ih =>
      rw [List.foldl_cons]
      by_cases ha : a.ptr = rmPtr
      · rw [ih hfront (removeAllocation_of_eq ha hfront hlist),
          List.filter_cons_of_neg (by simpa using ha)]
      · have hmoved : r.1.cudaAllocationList = (front ++ [a]) ++ back := by
          rw [hlist, List.append_assoc, List.singleton_append]
        rw [removeAllocation_of_ne ha, ih (kept_snoc ha hfront) hmoved,
          List.filter_cons_of_pos (by simpa using ha), List.append_assoc, List.singleton_append]

/-- The total stays that of the list, and the last report is the new total. -/
theorem removeAllocation_foldl (hfront : ∀ b ∈ front, b.ptr ≠ rmPtr)
    (hlist : r.1.cudaAllocationList = front ++ back)
    (hsum : r.1.sumAllocated = totalSize (front ++ back)) (hlt : r.1.sumAllocated < sizeMod) :
    let t := back.foldl (removeAllocation rmPtr) r
    t.1.sumAllocated = totalSize t.1.cudaAllocationList ∧
      t.1.sumAllocated ≤ r.1.sumAllocated ∧
      ∃ new, t.2 = r.2 ++ new ∧
        (memoryUsages new).getLast?.getD r.1.sumAllocated = t.1.sumAllocated := by
  induction back generalizing front r with
  | nil =>
      refine ⟨?_, le_rfl, [], by simp, by simp [memoryUsages]⟩
      simpa [hlist] using hsum
  | cons a back ih =>
      by_cases ha : a.ptr = rmPtr
      · have hsum' : toSizeT ((r.1.sumAllocated : ℤ) - a.size) = totalSize (front ++ back) := by
          simp only [totalSize_append, totalSize_cons] at hsum ⊢
          rw [toSizeT_sub (by omega) hlt]
          omega
        have hle : totalSize (front ++ back) ≤ r.1.sumAllocated := by
          simp only [totalSize_append, totalSize_cons] at hsum ⊢
          omega
        have hlist' := removeAllocation_of_eq ha hfront hlist
        have htotal' : (removeAllocation rmPtr r a).1.sumAllocated = totalSize (front ++ back) := by
          simp [removeAllocation, ha, hsum']
        have hsent' : (removeAllocation rmPtr r a).2 =
            r.2 ++ [.memUpdate (totalSize (front ++ back))] := by
          simp [removeAllocation, ha, hsum', reportMemoryUsageToScheduler]
        rw [List.foldl_cons]
        generalize removeAllocation rmPtr r a = r' at hlist' htotal' hsent'
        obtain ⟨htotal, hless, new, hnew, hlast⟩ :=
          ih hfront hlist' htotal' (htotal' ▸ hle.trans_lt hlt)
        refine ⟨htotal, (htotal' ▸ hless).trans hle,
          .memUpdate (totalSize (front ++ back)) :: new, by simp [hnew, hsent'], ?_⟩
        rw [htotal'] at hlast
        simp only [memoryUsages, List.filterMap_cons] at hlast ⊢
        rw [List.getLast?_cons]
        simpa using hlast
      · rw [List.foldl_cons, removeAllocation_of_ne ha]
        exact ih (kept_snoc ha hfront) (by simpa using hlist) (by simpa using hsum) hlt

end Removing

theorem removeCudaAllocation_list (rmPtr : ℕ) (h : HookState) :
    (removeCudaAllocation rmPtr h).1.cudaAllocationList =
      h.cudaAllocationList.filter (·.ptr ≠ rmPtr) := by
  have hnone : ∀ b ∈ ([] : List CudaMemAllocation), b.ptr ≠ rmPtr := by simp
  exact removeAllocation_list (r := (h, [])) hnone rfl

/-- A successful free takes every entry with the pointer out of the list and its size off the
total; the last report, if any is made, is the new total. -/
theorem removeCudaAllocation_spec (dptr : ℕ)
    (hsum : h.sumAllocated = totalSize h.cudaAllocationList) (hlt : h.sumAllocated < sizeMod) :
    (removeCudaAllocation dptr h).1.cudaAllocationList =
        h.cudaAllocationList.filter (·.ptr ≠ dptr) ∧
      (removeCudaAllocation dptr h).1.sumAllocated =
        totalSize (removeCudaAllocation dptr h).1.cudaAllocationList ∧
      (removeCudaAllocation dptr h).1.sumAllocated ≤ h.sumAllocated ∧
      (memoryUsages (removeCudaAllocation dptr h).2).getLast?.getD h.sumAllocated =
        (removeCudaAllocation dptr h).1.sumAllocated := by
  have hnone : ∀ b ∈ ([] : List CudaMemAllocation), b.ptr ≠ dptr := by simp
  obtain ⟨htotal, hless, new, hnew, hlast⟩ :=
    removeAllocation_foldl (r := (h, [])) hnone rfl hsum hlt
  refine ⟨removeCudaAllocation_list dptr h, htotal, hless, ?_⟩
  have hsent : (removeCudaAllocation dptr h).2 = new := hnew
  rw [hsent]
  exact hlast

/-- A failed free changes neither list nor total and sends nothing. -/
theorem cuMemFree_of_not (result : CuResult) (dptr : ℕ)
    (hnot : (cuMemFree result dptr h).1 ≠ .success) : (cuMemFree result dptr h).2 = (h, []) := by
  unfold cuMemFree at hnot ⊢
  split
  · rfl
  · split
    · simp_all
    · rfl

end Hooks

/-! ## The record of the client -/

/-- The memory figures of a record. -/
def Client.memoryFigures (r : Client) : Option CtxId × ℕ × ℕ :=
  (r.context, r.memoryAllocated, r.peakAllocated)

section Record

variable {cfg : Config} {env : Env} {c : ClientId} {s t : Sched}

theorem Action.memoryFigures_eq {D : ClientId → Prop}
    (h : Action cfg env D (fun _ e => ∀ v, e ≠ .message c (.memUpdate v)) s t)
    (hwf : WellFormed s) (hctx : (s.client c).context ≠ none) :
    (t.client c).memoryFigures = (s.client c).memoryFigures := by
  cases h with
  | block x h => exact (congrArg Client.memoryFigures (h.frame.static c) :)
  | tune h => exact (congrArg Client.memoryFigures (h.client c) :)
  | accept garbage hok =>
      have hne : c ≠ s.nalloc := by
        rintro rfl
        exact hctx (hwf.fresh _ le_rfl)
      simp [XpuShare.accept, hne]
  | enrol d m e hok hmem hunreg hid =>
      have hne : c ≠ d := by
        rintro rfl
        exact hctx (hwf.context_eq_none hunreg)
      obtain ⟨x, hclient, -⟩ := enrol_spec cfg d m e s
      rw [hclient, Function.update_of_ne hne]
  | insert d x hok hmem hon hd hreq => rfl
  | memory d x v hok hmem hd =>
      have hne : c ≠ d := by
        rintro rfl
        exact hok v rfl
      rw [creditMemory_client, storeMemory, Sched.modifyClient_client_ne _ _ _ _ hne]
  | unlink d hd => rfl
  | power on d hok => rfl
  | clear s₀ d hok => rfl

/-- Only a memory report of its own changes the memory figures of a registered client. -/
theorem Step.memoryFigures_eq {e : Event} (h : Step cfg env s e t) (hwf : WellFormed s)
    (hctx : (s.client c).context ≠ none) (hother : ∀ v, e ≠ .message c (.memUpdate v)) :
    (t.client c).memoryFigures = (s.client c).memoryFigures := by
  have hactions : Actions cfg env (fun _ => True)
      (fun _ e => ∀ v, e ≠ .message c (.memUpdate v)) s t :=
    h.actions (fun _ _ _ => trivial) hwf hother fun _ _ => trivial
  have hboth := hactions.invariant
    (I := fun u => WellFormed u ∧ (u.client c).memoryFigures = (s.client c).memoryFigures) ?_
    ⟨hwf, rfl⟩
  · exact hboth.2
  · rintro u v ha ⟨hwfu, hu⟩
    have hctxu : (u.client c).context ≠ none := by
      have heq : (u.client c).context = (s.client c).context := congrArg Prod.fst hu
      rwa [heq]
    exact ⟨ha.wellFormed hwfu, (ha.memoryFigures_eq hwfu hctxu).trans hu⟩

/-- A delivered report is stored. -/
theorem memUpdate_memoryFigures (cfg : Config) (env : Env) (hwf : WellFormed s)
    (hctx : (s.client c).context ≠ none) (v : ℕ) :
    ((memUpdate cfg env c v s).client c).memoryFigures =
      ((s.client c).context, v, max (s.client c).peakAllocated v) := by
  obtain ⟨x, hx⟩ := Option.ne_none_iff_exists'.mp hctx
  have hreg := hwf.registered hctx
  have hstored : ((creditMemory cfg x c v s).client c).memoryFigures =
      ((s.client c).context, v, max (s.client c).peakAllocated v) := by
    rw [creditMemory_client]
    simp [storeMemory, Client.memoryFigures]
  have htuned : Tuned (creditMemory cfg x c v s) (memUpdate cfg env c v s) := by
    unfold memUpdate creditMemory
    simp only [hx, hreg, Bool.not_true, Bool.false_eq_true, if_false]
    split
    · split
      · exact forcePreemption_tuned env x _
      · exact Tuned.refl _
    · exact Tuned.refl _
  rw [← hstored]
  exact (congrArg Client.memoryFigures (htuned.client c) :)

end Record

/-! ## Every run -/

/-- What holds along every run of client `c`, whose record held `garbage` at first. -/
structure Reported (c : ClientId) (garbage : ℕ) (y : Reporting) : Prop where
  wellFormed : WellFormed y.sched
  context : (y.sched.client c).context ≠ none
  list : y.hook.cudaAllocationList = y.live
  sum : y.hook.sumAllocated = totalSize y.live
  small : y.hook.sumAllocated < sizeMod
  reported : (y.delivered ++ y.channel).getLast?.getD 0 = y.hook.sumAllocated
  memory : (y.sched.client c).memoryAllocated = y.delivered.getLast?.getD garbage
  peak : ∀ v ∈ y.delivered, v ≤ (y.sched.client c).peakAllocated

section Runs

variable {cfg : Config} {env : Env} {c : ClientId} {garbage : ℕ} {y z : Reporting}

theorem getLast?_append_getD {α : Type*} (l l' : List α) (d : α) :
    (l ++ l').getLast?.getD d = l'.getLast?.getD (l.getLast?.getD d) := by
  rw [List.getLast?_append]
  cases l'.getLast? <;> rfl

theorem Reported.alloc (hy : Reported c garbage y) (d : DriverReply) (bytesize : ℕ)
    (hdriver : allocates d bytesize y.hook = true →
      ¬ y.isLive d.dptr ∧ totalSize y.live + bytesize < sizeMod) :
    Reported c garbage
      { y with
        hook := (cuMemAlloc d bytesize y.hook).2.1
        live := if allocates d bytesize y.hook then y.live ++ [⟨d.dptr, bytesize⟩] else y.live
        channel := y.channel ++ memoryUsages (cuMemAlloc d bytesize y.hook).2.2 } := by
  cases halloc : allocates d bytesize y.hook with
  | false =>
      obtain ⟨-, hlist, hsum, hsent⟩ := cuMemAlloc_of_not d bytesize halloc
      exact
        { wellFormed := hy.wellFormed
          context := hy.context
          list := by simpa [hlist] using hy.list
          sum := by simpa [hsum] using hy.sum
          small := by simpa [hsum] using hy.small
          reported := by simpa [hsum, hsent, memoryUsages] using hy.reported
          memory := hy.memory
          peak := hy.peak }
  | true =>
      obtain ⟨-, hlist, hsum, hsent⟩ := cuMemAlloc_of_allocates d bytesize halloc
      have hfits := (hdriver halloc).2
      have hmod : (y.hook.sumAllocated + bytesize) % sizeMod = totalSize y.live + bytesize := by
        rw [hy.sum, Nat.mod_eq_of_lt hfits]
      rw [hmod] at hsum hsent
      exact
        { wellFormed := hy.wellFormed
          context := hy.context
          list := by simp [hlist, hy.list]
          sum := by simp [hsum, totalSize]
          small := by simpa [hsum] using hfits
          reported := by simp [hsum, hsent]
          memory := hy.memory
          peak := hy.peak }

theorem Reported.free (hy : Reported c garbage y) (result : CuResult) (dptr : ℕ) :
    Reported c garbage
      { y with
        hook := (cuMemFree result dptr y.hook).2.1
        live := if y.hook.bootstrapped && result = .success then
          y.live.filter (·.ptr ≠ dptr) else y.live
        foreign := if y.hook.bootstrapped && result = .success then
          y.foreign.filter (· ≠ dptr) else y.foreign
        channel := y.channel ++ memoryUsages (cuMemFree result dptr y.hook).2.2 } := by
  by_cases hfree : y.hook.bootstrapped = true ∧ result = .success
  · obtain ⟨hlist, htotal, hless, hlast⟩ := removeCudaAllocation_spec dptr
      (by rw [hy.list, hy.sum]) hy.small
    have hcall : cuMemFree result dptr y.hook =
        (.success, removeCudaAllocation dptr y.hook) := by
      simp [cuMemFree, hfree]
    rw [hy.list] at hlist
    rw [hlist] at htotal
    rw [hcall]
    exact
      { wellFormed := hy.wellFormed
        context := hy.context
        list := by simp [hlist, hfree]
        sum := by simpa [hfree] using htotal
        small := hless.trans_lt hy.small
        reported := by
          rw [← List.append_assoc, getLast?_append_getD, hy.reported]
          exact hlast
        memory := hy.memory
        peak := hy.peak }
  · have hcall : (cuMemFree result dptr y.hook).2 = (y.hook, []) := by
      apply cuMemFree_of_not
      by_cases hboot : y.hook.bootstrapped = true
      · have hfail : result ≠ .success := fun hok => hfree ⟨hboot, hok⟩
        simp [cuMemFree, hboot, hfail]
      · simp [cuMemFree, hboot]
    have hnot : (y.hook.bootstrapped && decide (result = .success)) = false := by
      simpa using hfree
    simpa [hcall, hnot, memoryUsages] using hy

theorem Reported.deliver (hy : Reported c garbage y) {v : ℕ} {rest : List ℕ} {s : Sched}
    (hchannel : y.channel = v :: rest)
    (hstep : Step cfg env y.sched (.message c (.memUpdate v)) s) :
    Reported c garbage
      { y with channel := rest, delivered := y.delivered ++ [v], sched := s } := by
  have hwf := hstep.wellFormed hy.wellFormed
  obtain ⟨-, fuel, hhandle⟩ := hstep
  have hs : memUpdate cfg env c v y.sched = s := Option.some.inj hhandle
  have hfigures := memUpdate_memoryFigures cfg env hy.wellFormed hy.context v
  rw [hs] at hfigures
  simp only [Client.memoryFigures, Prod.mk.injEq] at hfigures
  obtain ⟨hctx, hmemory, hpeak⟩ := hfigures
  exact
    { wellFormed := hwf
      context := by simpa [hctx] using hy.context
      list := hy.list
      sum := hy.sum
      small := hy.small
      reported := by simpa [hchannel] using hy.reported
      memory := by simp [hmemory]
      peak := by
        intro w hw
        rw [hpeak]
        rcases List.mem_append.mp hw with hw | hw
        · exact (hy.peak w hw).trans (le_max_left _ _)
        · rw [List.mem_singleton.mp hw]
          exact le_max_right _ _ }

/-- Every step of the client and the scheduler keeps the two totals in agreement. -/
theorem Reported.step {e : ReportEvent} (hy : Reported c garbage y)
    (h : ReportStep cfg env c y e z) : Reported c garbage z := by
  cases h with
  | cuMemAlloc d bytesize hdriver => exact hy.alloc d bytesize hdriver
  | cuMemFree result dptr hdriver => exact hy.free result dptr
  | allocateElsewhere dptr hdriver =>
      exact ⟨hy.wellFormed, hy.context, hy.list, hy.sum, hy.small, hy.reported, hy.memory, hy.peak⟩
  | updateLimit limit =>
      exact ⟨hy.wellFormed, hy.context, hy.list, hy.sum, hy.small, hy.reported, hy.memory, hy.peak⟩
  | deliver v rest s hchannel hstep => exact hy.deliver hchannel hstep
  | schedule e s hother hstep =>
      have hfigures := hstep.memoryFigures_eq hy.wellFormed hy.context hother
      simp only [Client.memoryFigures, Prod.mk.injEq] at hfigures
      obtain ⟨hctx, hmemory, hpeak⟩ := hfigures
      exact
        { wellFormed := hstep.wellFormed hy.wellFormed
          context := by simpa [hctx] using hy.context
          list := hy.list
          sum := hy.sum
          small := hy.small
          reported := hy.reported
          memory := by simpa [hmemory] using hy.memory
          peak := by simpa [hpeak] using hy.peak }

/-- A registration that succeeds fills the record in and leaves the memory figure as it
found it. -/
theorem register_memoryAllocated {s s₀ : Sched} {m : RegisterMsg} {e : RegisterEnv}
    (hunreg : hasRegistered s c = false)
    (h : Step cfg env s (.message c (.register m e)) s₀) (hin : c ∈ s₀.clients) :
    (s₀.client c).context ≠ none ∧
      (s₀.client c).memoryAllocated = (s.client c).memoryAllocated := by
  have htuned := register_tuned hunreg h hin
  obtain ⟨x, hclient, -⟩ := enrol_spec cfg c m e s
  have hfigures : (s₀.client c).memoryFigures = ((enrol cfg c m e s).client c).memoryFigures :=
    (congrArg Client.memoryFigures (htuned.client c) :)
  rw [hclient, Function.update_self] at hfigures
  simp only [Client.memoryFigures, registeredRecord, Prod.mk.injEq] at hfigures
  exact ⟨by simp [hfigures.1], hfigures.2.1⟩

theorem Reported.start {s s₀ : Sched} {m : RegisterMsg} {e : RegisterEnv} {h₀ : HookState}
    (hwf : WellFormed s) (hunreg : hasRegistered s c = false)
    (h : Step cfg env s (.message c (.register m e)) s₀) (hin : c ∈ s₀.clients)
    (hlist : h₀.cudaAllocationList = []) (hsum : h₀.sumAllocated = 0) :
    Reported c (s.client c).memoryAllocated { hook := h₀, sched := s₀ } where
  wellFormed := h.wellFormed hwf
  context := (register_memoryAllocated hunreg h hin).1
  list := hlist
  sum := hsum
  small := by simp [hsum]
  reported := by simp [hsum]
  memory := (register_memoryAllocated hunreg h hin).2
  peak := by simp

/-- Memory reporting from end to end. A client registers, with whatever `malloc` left in its
record, and then allocates and frees while its reports travel and the scheduler does anything
else. List, total and driver agree at every moment, a call that fails or is rejected leaves
list and total alone and sends nothing, and the peak covers every report. Whenever the channel
is empty the scheduler knows the total, provided that a report has arrived or that the record
happened to hold zero. -/
theorem memory_reporting {s s₀ : Sched} {m : RegisterMsg} {e : RegisterEnv} {h₀ : HookState}
    (hreach : Transition.Reaches (Step cfg env) Sched.init s)
    (hunreg : hasRegistered s c = false)
    (hregister : Step cfg env s (.message c (.register m e)) s₀) (hin : c ∈ s₀.clients)
    (hlist : h₀.cudaAllocationList = []) (hsum : h₀.sumAllocated = 0)
    (hrun : Transition.Reaches (ReportStep cfg env c) { hook := h₀, sched := s₀ } y) :
    y.hook.sumAllocated = totalSize y.hook.cudaAllocationList ∧
      y.hook.sumAllocated = totalSize y.live ∧
      (∀ d bytesize, (cuMemAlloc d bytesize y.hook).1 ≠ .success →
        (cuMemAlloc d bytesize y.hook).2.1.cudaAllocationList = y.hook.cudaAllocationList ∧
        (cuMemAlloc d bytesize y.hook).2.1.sumAllocated = y.hook.sumAllocated ∧
        (cuMemAlloc d bytesize y.hook).2.2 = []) ∧
      (∀ result dptr, (cuMemFree result dptr y.hook).1 ≠ .success →
        (cuMemFree result dptr y.hook).2 = (y.hook, [])) ∧
      (y.channel = [] → ((y.sched.client c).memoryAllocated = y.hook.sumAllocated ↔
        y.delivered ≠ [] ∨ (s.client c).memoryAllocated = 0)) ∧
      ∀ v ∈ y.delivered, v ≤ (y.sched.client c).peakAllocated := by
  have hstart := Reported.start (wellFormed_of_reaches hreach) hunreg hregister hin hlist hsum
  have hy := hrun.invariant (fun _ _ _ hstep hy => Reported.step hy hstep) hstart
  refine ⟨by rw [hy.list, hy.sum], hy.sum, ?_, fun result dptr => cuMemFree_of_not result dptr,
    ?_, hy.peak⟩
  · intro d bytesize hfail
    have hnot : allocates d bytesize y.hook = false := by
      by_contra hyes
      exact hfail (cuMemAlloc_of_allocates d bytesize (by simpa using hyes)).1
    exact (cuMemAlloc_of_not d bytesize hnot).2
  · intro hchannel
    have hreported := hy.reported
    rw [hchannel, List.append_nil] at hreported
    rw [hy.memory, ← hreported]
    cases hlast : y.delivered.getLast? with
    | none =>
        rw [List.getLast?_eq_none_iff] at hlast
        simp [hlast]
    | some v =>
        have hne : y.delivered ≠ [] := by
          intro hnil
          simp [hnil] at hlast
        simp [hne]

end Runs

/-- The scheduler after one client has connected, with a given memory figure in its record. -/
def oneConnected (garbage : ℕ) : Sched := accept { memoryAllocated := garbage } Sched.init

/-- The scheduler after that client has registered. -/
def oneRegistered (garbage : ℕ) : Sched :=
  (registerClient .static steady 0 {} { generatedId := 1 } (oneConnected garbage)).2

theorem oneConnected_reaches (garbage : ℕ) :
    Transition.Reaches (Step {} steady) Sched.init (oneConnected garbage) :=
  (Transition.Reaches.refl _).tail (e := .accept { memoryAllocated := garbage }) ⟨rfl, 0, rfl⟩

theorem oneRegistered_step (garbage : ℕ) :
    Step {} steady (oneConnected garbage) (enter 0 1) (oneRegistered garbage) :=
  ⟨rfl, 0, rfl⟩

/-- An allocation of 4096 bytes is reported and arrives. -/
theorem memory_reporting_once : ∃ y : Reporting, y.channel = [] ∧ y.delivered = [4096] ∧
    y.hook.sumAllocated = totalSize y.live ∧
    (y.sched.client 0).memoryAllocated = y.hook.sumAllocated := by
  let first : Reporting := { hook := {}, sched := oneRegistered 7 }
  let d : DriverReply := { total := 2 ^ 34, dptr := 64 }
  let allocated : Reporting :=
    { first with
      hook := (cuMemAlloc d 4096 first.hook).2.1
      live := if allocates d 4096 first.hook then first.live ++ [⟨64, 4096⟩] else first.live
      channel := first.channel ++ memoryUsages (cuMemAlloc d 4096 first.hook).2.2 }
  let arrived : Reporting :=
    { allocated with
      channel := [], delivered := [4096]
      sched := memUpdate {} steady 0 4096 (oneRegistered 7) }
  have hrun : Transition.Reaches (ReportStep {} steady 0) first arrived := by
    have halloc : ReportStep {} steady 0 first (.cuMemAlloc d 4096) allocated := by
      refine ReportStep.cuMemAlloc first d 4096 fun _ => ⟨?_, by decide⟩
      simp [Reporting.isLive, first]
    have hdeliver : ReportStep {} steady 0 allocated .deliver arrived :=
      ReportStep.deliver allocated 4096 [] _ (by decide +kernel) ⟨rfl, 0, rfl⟩
    exact ((Transition.Reaches.refl first).tail halloc).tail hdeliver
  obtain ⟨-, hlive, -, -, hknown, -⟩ := memory_reporting (oneConnected_reaches 7) rfl
    (oneRegistered_step 7) (by decide) rfl rfl hrun
  exact ⟨arrived, rfl, rfl, hlive, (hknown rfl).mpr (Or.inl (by simp [arrived]))⟩

/-- A client that has registered and allocated nothing, in a record that held 5 bytes. -/
theorem memory_reporting_garbage : ∃ (s s₀ : Sched) (y : Reporting),
    Transition.Reaches (Step {} steady) Sched.init s ∧ hasRegistered s 0 = false ∧
      Step {} steady s (enter 0 1) s₀ ∧ 0 ∈ s₀.clients ∧
      Transition.Reaches (ReportStep {} steady 0) { hook := {}, sched := s₀ } y ∧
      y.channel = [] ∧ (y.sched.client 0).memoryAllocated ≠ y.hook.sumAllocated :=
  ⟨oneConnected 5, oneRegistered 5, { hook := {}, sched := oneRegistered 5 },
    oneConnected_reaches 5, rfl, oneRegistered_step 5, by decide, Transition.Reaches.refl _, rfl,
    by decide⟩

end XpuShare
