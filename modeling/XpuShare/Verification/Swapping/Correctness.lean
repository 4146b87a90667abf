import XpuShare.Lib.Transition
import XpuShare.Model.Swapping
import XpuShare.Verification.Reporting.Correctness

/-! # The walk over the allocations

Between two passes of the walk the application may append cells to the list and free others.
The walk stays on the list as long as its own cell is not freed, and then it has visited every
allocation that is on the list when it ends. -/

namespace XpuShare

open LinkedList

variable {s t : Swapping} {l : List (ℕ × CudaMemAllocation)} {h₀ : HookState}

/-! ## The list of the hooks -/

theorem cuMemFree_list (result : CuResult) (dptr : ℕ) (s : Swapping) :
    (cuMemFree result dptr s.hook).2.1.cudaAllocationList =
      if s.frees result then s.hook.cudaAllocationList.filter (·.ptr ≠ dptr)
      else s.hook.cudaAllocationList := by
  unfold cuMemFree Swapping.frees
  cases s.hook.bootstrapped with
  | false => simp
  | true =>
      by_cases hresult : result = .success
      · simp [hresult, removeCudaAllocation_list]
      · simp [hresult]

/-! ## The invariant -/

/-- The cells `l` are the list, and the walk stands at one of them: it has given its advice for
all those before it. -/
structure Swapping.Walked (s : Swapping) (l : List (ℕ × CudaMemAllocation)) : Prop where
  list : Segment s.memory s.head l none
  items : l.map Prod.snd = s.hook.cudaAllocationList
  place : ∀ a, s.a = some a → ∃ done i rest, l = done ++ (a, i) :: rest ∧
    (done.map Prod.snd).Sublist s.advised

namespace Swapping.Walked

theorem init (hlist : h₀.cudaAllocationList = []) :
    Walked ({ hook := h₀ } : Swapping) [] where
  list := .nil none
  items := hlist.symm
  place _ ha := by cases ha

/-- The cell at which the walk stands. -/
theorem here (h : s.Walked l) {a : ℕ} (ha : s.a = some a) :
    ∃ cell, s.memory a = some cell ∧ (a, cell.item) ∈ l := by
  obtain ⟨done, i, rest, rfl, -⟩ := h.place a ha
  obtain ⟨next, hcell, -, -⟩ := h.list.cell
  exact ⟨⟨next, i⟩, hcell, List.mem_append_right _ List.mem_cons_self⟩

/-! ### Changes of the list -/

/-- A new cell joins the list behind everything the walk has still to visit. -/
theorem insert (h : s.Walked l) {dptr bytesize cell fuel : ℕ}
    {r : Option ℕ × Memory CudaMemAllocation} (hr : s.insert fuel dptr bytesize cell = some r)
    {hook : HookState}
    (hhook : hook.cudaAllocationList = s.hook.cudaAllocationList ++ [⟨dptr, bytesize⟩]) :
    (s.relink hook r).Walked (l ++ [(cell, ⟨dptr, bytesize⟩)]) := by
  obtain ⟨m, hmalloc, happend⟩ := Option.bind_eq_some_iff.mp hr
  unfold malloc at hmalloc
  split at hmalloc
  case isFalse => cases hmalloc
  case isTrue hfree =>
    have hnot : cell ∉ addresses l := by
      intro hmem
      exact h.list.allocated hmem (Option.isNone_iff_eq_none.mp hfree)
    have hcell : m cell = some ⟨none, ⟨dptr, bytesize⟩⟩ := by
      rw [← Option.some.inj hmalloc, Function.update_self]
    have hlist : Segment m s.head l none := by
      rw [← Option.some.inj hmalloc]
      exact h.list.update hnot _
    refine ⟨hlist.of_append hcell hnot happend, ?_, ?_⟩
    · rw [List.map_append, h.items]
      exact hhook.symm
    · intro a ha
      obtain ⟨done, i, rest, rfl, hdone⟩ := h.place a ha
      exact ⟨done, i, rest ++ [(cell, ⟨dptr, bytesize⟩)], by simp, hdone⟩

/-- The cells of a pointer leave the list. The walk goes on if it stands at another one. -/
theorem remove (h : s.Walked l) {dptr fuel : ℕ} {r : Option ℕ × Memory CudaMemAllocation}
    (hr : s.remove fuel dptr = some r) {hook : HookState}
    (hhook : hook.cudaAllocationList = s.hook.cudaAllocationList.filter (·.ptr ≠ dptr))
    (hspared : s.standsAt dptr = false) :
    (s.relink hook r).Walked (l.filter fun e => !decide (e.2.ptr = dptr)) := by
  refine ⟨(h.list.of_deleteAll hr).1, ?_, ?_⟩
  · change _ = hook.cudaAllocationList
    rw [hhook, ← h.items, List.filter_map]
    simp only [decide_not, Function.comp_def]
  · intro a ha
    obtain ⟨cell, hcell, -⟩ := h.here ha
    obtain ⟨done, i, rest, rfl, hdone⟩ := h.place a ha
    obtain ⟨next, hcell', -, -⟩ := h.list.cell
    have hi : (!decide (i.ptr = dptr)) = true := by
      have ha : s.a = some a := ha
      simpa [Swapping.standsAt, ha, hcell'] using hspared
    refine ⟨done.filter fun e => !decide (e.2.ptr = dptr), i,
      rest.filter fun e => !decide (e.2.ptr = dptr), ?_, ?_⟩
    · rw [List.filter_append, List.filter_cons_of_pos (by exact hi)]
    · exact (List.filter_sublist.map Prod.snd).trans hdone

/-! ### The walk -/

/-- Changes of the hooks that leave the list alone. -/
theorem keep (h : s.Walked l) {hook : HookState}
    (hhook : hook.cudaAllocationList = s.hook.cudaAllocationList) :
    ({ s with hook := hook } : Swapping).Walked l :=
  ⟨h.list, h.items.trans hhook.symm, h.place⟩

/-- A walk begins at the first cell. -/
theorem start (h : s.Walked l) (advice : MemAdvise) :
    ({ s with a := s.head, advice := advice, advised := [] } : Swapping).Walked l := by
  refine ⟨h.list, h.items, fun a ha => ?_⟩
  have hlist := h.list
  rw [show s.head = some a from ha] at hlist
  cases hlist with
  | cons hcell hrest => exact ⟨[], _, _, rfl, List.Sublist.refl _⟩

/-- The cell at which the walk stands is advised. -/
theorem pass (h : s.Walked l) {a : ℕ} {cell : Cell CudaMemAllocation} (ha : s.a = some a)
    (hcell : s.memory a = some cell) :
    ({ s with a := cell.next, advised := s.advised ++ [cell.item] } : Swapping).Walked l ∧
      (cell.next = none → (l.map Prod.snd).Sublist (s.advised ++ [cell.item])) := by
  obtain ⟨done, i, rest, rfl, hdone⟩ := h.place a ha
  obtain ⟨next, hcell', -, hback⟩ := h.list.cell
  obtain rfl : cell = ⟨next, i⟩ := Option.some.inj (hcell.symm.trans hcell')
  have hmore : ((done ++ [(a, i)]).map Prod.snd).Sublist (s.advised ++ [i]) := by
    rw [List.map_append]
    exact hdone.append (List.Sublist.refl [i])
  refine ⟨⟨h.list, h.items, fun b hb => ?_⟩, fun hnext => ?_⟩
  · have hb : next = some b := hb
    subst hb
    cases hback with
    | cons hcell hrest =>
        exact ⟨done ++ [(a, i)], _, _, by rw [List.append_assoc]; rfl, hmore⟩
  · have hnext : next = none := hnext
    subst hnext
    cases hback with
    | nil => exact hmore

/-! ### Steps and runs -/

theorem step (h : s.Walked l) {e : SwapEvent} (hspares : e.spares s) (hstep : SwapStep s e t) :
    ∃ l', t.Walked l' := by
  obtain ⟨fuel, hrun⟩ := hstep
  cases e with
  | cuMemAlloc d bytesize cell =>
      simp only [Swapping.handle] at hrun
      split at hrun
      · rename_i hyes
        obtain ⟨-, hlist, -⟩ := cuMemAlloc_of_allocates d bytesize hyes
        obtain ⟨r, hr, rfl⟩ := Option.map_eq_some_iff.mp hrun
        exact ⟨_, h.insert hr hlist⟩
      · rename_i hno
        obtain ⟨-, hlist, -⟩ := cuMemAlloc_of_not d bytesize
          (Bool.eq_false_of_not_eq_true hno)
        exact ⟨l, Option.some.inj hrun ▸ h.keep hlist⟩
  | cuMemFree result dptr =>
      have hlist := cuMemFree_list result dptr s
      simp only [Swapping.handle] at hrun
      split at hrun
      · rename_i hfrees
        rw [if_pos hfrees] at hlist
        obtain ⟨r, hr, rfl⟩ := Option.map_eq_some_iff.mp hrun
        have hspared : s.standsAt dptr = false :=
          Bool.eq_false_of_not_eq_true fun hstands => hspares ⟨hfrees, hstands⟩
        exact ⟨_, h.remove hr hlist hspared⟩
      · rename_i hkeeps
        rw [if_neg hkeeps] at hlist
        exact ⟨l, Option.some.inj hrun ▸ h.keep hlist⟩
  | updateLimit limit =>
      exact ⟨l, Option.some.inj hrun ▸ h.keep rfl⟩
  | walk advice usable =>
      simp only [Swapping.handle] at hrun
      split at hrun
      · cases hrun
      · split at hrun
        · exact ⟨l, Option.some.inj hrun ▸ h.start advice⟩
        · exact ⟨l, Option.some.inj hrun ▸ h⟩
  | pass =>
      simp only [Swapping.handle, Option.bind_eq_some_iff, Option.map_eq_some_iff] at hrun
      obtain ⟨a, ha, cell, hcell, rfl⟩ := hrun
      exact ⟨l, (h.pass ha hcell).1⟩

theorem not_dangling (h : s.Walked l) : ¬ s.Dangling := by
  rintro ⟨a, ha, hfreed⟩
  obtain ⟨cell, hcell, -⟩ := h.here ha
  rw [hcell] at hfreed
  cases hfreed

/-- The last pass of a walk has left out nothing that is on the list. -/
theorem advised (h : s.Walked l) (hstep : SwapStep s .pass t) (hend : t.a = none) :
    t.hook.cudaAllocationList.Sublist t.advised := by
  obtain ⟨fuel, hrun⟩ := hstep
  simp only [Swapping.handle, Option.bind_eq_some_iff, Option.map_eq_some_iff] at hrun
  obtain ⟨a, ha, cell, hcell, rfl⟩ := hrun
  rw [← h.items]
  exact (h.pass ha hcell).2 hend

/-- A walk whose cell is freed reads freed memory next. -/
theorem dangling_of_frees (h : s.Walked l) {result : CuResult} {dptr : ℕ}
    (hstep : SwapStep s (.cuMemFree result dptr) t) (hfrees : s.frees result)
    (hstands : s.standsAt dptr) : t.Dangling := by
  obtain ⟨fuel, hrun⟩ := hstep
  simp only [Swapping.handle, if_pos hfrees] at hrun
  obtain ⟨r, hr, rfl⟩ := Option.map_eq_some_iff.mp hrun
  rw [Swapping.standsAt, Option.any_eq_true] at hstands
  obtain ⟨cell, hcell, hptr⟩ := hstands
  obtain ⟨a, ha, hcell⟩ := Option.bind_eq_some_iff.mp hcell
  obtain ⟨cell', hcell', hmem⟩ := h.here ha
  obtain rfl : cell = cell' := Option.some.inj (hcell.symm.trans hcell')
  exact ⟨a, ha, (h.list.of_deleteAll hr).2 _ hmem hptr⟩

end Swapping.Walked

theorem walked_of_reaches (hlist : h₀.cudaAllocationList = [])
    (h : Transition.Reaches (Transition.guarded SwapStep fun s e => e.spares s)
      ({ hook := h₀ } : Swapping) s) : ∃ l, s.Walked l := by
  refine h.invariant (I := fun s => ∃ l, Swapping.Walked s l) ?_ ⟨[], .init hlist⟩
  rintro u e v ⟨hspares, hstep⟩ ⟨l, hl⟩
  exact hl.step hspares hstep

/-- As long as the application has not freed the allocation at which the walk stands, the walk
reads no freed memory, and when it ends it has advised all that is on the list, in its order.
The first free that breaks this makes the walk read freed memory. -/
theorem swap_walk_safe_iff (hlist : h₀.cudaAllocationList = [])
    (h : Transition.Reaches (Transition.guarded SwapStep fun s e => e.spares s)
      ({ hook := h₀ } : Swapping) s) :
    (∀ t, SwapStep s .pass t → t.a = none → t.hook.cudaAllocationList.Sublist t.advised) ∧
      ∀ e t, SwapStep s e t → (t.Dangling ↔ ¬ e.spares s) := by
  obtain ⟨l, hl⟩ := walked_of_reaches hlist h
  refine ⟨fun t hstep hend => hl.advised hstep hend, fun e t hstep => ⟨fun hd hspares => ?_, ?_⟩⟩
  · obtain ⟨l', hl'⟩ := hl.step hspares hstep
    exact hl'.not_dangling hd
  · intro hbreaks
    cases e with
    | cuMemFree result dptr =>
        have hboth : s.frees result ∧ s.standsAt dptr := not_not.mp hbreaks
        exact hl.dangling_of_frees hstep hboth.1 hboth.2
    | _ => exact absurd trivial hbreaks

/-- A program makes three allocations. While the walk stands at the second, the program may free
the third, but not the second. -/
theorem swap_walk_safe_iff_three :
    ∃ s : Swapping, Transition.Reaches (Transition.guarded SwapStep fun s e => e.spares s)
        ({} : Swapping) s ∧
      (∃ t, SwapStep s (.cuMemFree .success 24) t ∧ ¬ t.Dangling) ∧
      ∃ t, SwapStep s (.cuMemFree .success 16) t ∧ t.Dangling := by
  have hrun : (Transition.execute
      (Transition.attempt (Swapping.handle 9) fun s e => SwapEvent.spares s e)
      [.cuMemAlloc { total := 2 ^ 34, dptr := 8 } 4096 0,
        .cuMemAlloc { total := 2 ^ 34, dptr := 16 } 4096 1,
        .cuMemAlloc { total := 2 ^ 34, dptr := 24 } 4096 2, .walk .unsetPreferredLocation true,
        .pass] {}).any (fun s =>
          (Swapping.handle 9 s (.cuMemFree .success 24)).isSome ∧
          (Swapping.handle 9 s (.cuMemFree .success 16)).isSome ∧
          SwapEvent.spares s (.cuMemFree .success 24) ∧
          ¬ SwapEvent.spares s (.cuMemFree .success 16)) = true := by decide +kernel
  rw [Option.any_eq_true] at hrun
  obtain ⟨s, hs, hfrees⟩ := hrun
  obtain ⟨hkeep, hlose, hspares, hbreaks⟩ := of_decide_eq_true hfrees
  obtain ⟨t, ht⟩ := Option.isSome_iff_exists.mp hkeep
  obtain ⟨u, hu⟩ := Option.isSome_iff_exists.mp hlose
  have hreach : Transition.Reaches (Transition.guarded SwapStep fun s e => e.spares s)
      ({} : Swapping) s := Transition.Reaches.of_attempts (fun _ _ _ hstep => ⟨9, hstep⟩) hs
  have hempty : ({} : HookState).cudaAllocationList = [] := rfl
  have hiff := (swap_walk_safe_iff hempty hreach).2
  refine ⟨s, hreach, ⟨t, ⟨9, ht⟩, ?_⟩, u, ⟨9, hu⟩, (hiff _ u ⟨9, hu⟩).mpr hbreaks⟩
  exact fun hd => (hiff _ t ⟨9, ht⟩).mp hd hspares

end XpuShare
