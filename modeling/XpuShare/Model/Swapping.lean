import XpuShare.Lib.LinkedList
import XpuShare.Model.Hook

/-! # Hints for all allocations

`swap_in_all_allocations` and `swap_out_all_allocations` walk `cuda_allocation_list` in the
client thread. The application allocates and frees in its own thread and shares no mutex with
the walk, so that the list may change between two passes of the loop. -/

namespace XpuShare

open LinkedList

/-- The advice that a walk gives about the CPU as a preferred location: the first is that of
`swap_out_all_allocations`, the second that of `swap_in_all_allocations`. -/
inductive MemAdvise where
  | setPreferredLocation
  | unsetPreferredLocation
  deriving DecidableEq

/-- The list on the cells it is made of, and the walk: `a` is its loop variable, NULL also
outside the loop, and `advised` lists the `cuMemAdvise` calls made since it began. Only proofs
look at the list in `hook`. -/
structure Swapping where
  hook : HookState := {}
  memory : Memory CudaMemAllocation := fun _ => none
  head : Option ℕ := none
  a : Option ℕ := none
  advice : MemAdvise := .unsetPreferredLocation
  advised : List CudaMemAllocation := []

/-- `cell` is the address that `malloc` returns. For a walk, `usable` tells whether
`cuMemAdvise` has been found and the context can be made current. -/
inductive SwapEvent where
  | cuMemAlloc (d : DriverReply) (bytesize cell : ℕ)
  | cuMemFree (result : CuResult) (dptr : ℕ)
  | updateLimit (limit : ℕ)
  | walk (advice : MemAdvise) (usable : Bool)
  | pass

namespace Swapping

variable (fuel : ℕ) (s : Swapping)

/-- The list part of `insert_cuda_allocation`. -/
def insert (dptr bytesize cell : ℕ) : Option (Option ℕ × Memory CudaMemAllocation) :=
  (malloc cell ⟨dptr, bytesize⟩ s.memory).bind (append fuel cell s.head)

/-- The list part of `remove_cuda_allocation`. -/
def remove (rmPtr : ℕ) : Option (Option ℕ × Memory CudaMemAllocation) :=
  deleteAll (·.ptr = rmPtr) fuel s.head s.memory

/-- The hooks go on to another state, and the list to other cells. -/
def relink (h : HookState) (r : Option ℕ × Memory CudaMemAllocation) : Swapping :=
  { s with hook := h, head := r.1, memory := r.2 }

/-- Whether the real `cuMemFree` has freed something. -/
def frees (result : CuResult) : Bool := s.hook.bootstrapped && result = .success

/-- The state after an event, `none` if it cannot occur or reads memory that is not
allocated. -/
def handle (e : SwapEvent) : Option Swapping :=
  match e with
  | .cuMemAlloc d bytesize cell =>
      let h := (XpuShare.cuMemAlloc d bytesize s.hook).2.1
      if allocates d bytesize s.hook then
        (s.insert fuel d.dptr bytesize cell).map (s.relink h)
      else some { s with hook := h }
  | .cuMemFree result dptr =>
      let h := (XpuShare.cuMemFree result dptr s.hook).2.1
      if s.frees result then (s.remove fuel dptr).map (s.relink h)
      else some { s with hook := h }
  | .updateLimit limit => some { s with hook := XpuShare.updateLimit limit s.hook }
  | .walk advice usable =>
      if s.a.isSome then none
      else if usable then some { s with a := s.head, advice := advice, advised := [] }
      else some s
  | .pass => s.a.bind fun a => (s.memory a).map fun cell =>
      { s with a := cell.next, advised := s.advised ++ [cell.item] }

/-- The next pass reads memory that has been freed. -/
def Dangling : Prop := ∃ a, s.a = some a ∧ s.memory a = none

/-- The walk stands at the allocation of a pointer. -/
def standsAt (dptr : ℕ) : Bool := (s.a.bind s.memory).any (·.item.ptr = dptr)

end Swapping

/-- One step of the application or of the client thread. -/
def SwapStep (s : Swapping) (e : SwapEvent) (t : Swapping) : Prop :=
  ∃ fuel, s.handle fuel e = some t

/-- The application does not free the allocation at which the walk stands. -/
def SwapEvent.spares (s : Swapping) : SwapEvent → Prop
  | .cuMemFree result dptr => ¬ (s.frees result ∧ s.standsAt dptr)
  | _ => True

instance (s : Swapping) : DecidablePred (SwapEvent.spares s)
  | .cuMemFree _ _ => inferInstanceAs (Decidable (¬ (_ ∧ _)))
  | .cuMemAlloc _ _ _ | .updateLimit _ | .walk _ _ | .pass => inferInstanceAs (Decidable True)

end XpuShare
