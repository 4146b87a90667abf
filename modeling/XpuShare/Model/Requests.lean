import XpuShare.Lib.LinkedList
import XpuShare.Model.Handlers

/-! # Queues as linked lists

The parts of `scheduler.c` that walk and change the lists of `utlist.h`, on the cells these lists
are made of. A `struct nvshare_request` is a cell whose item is its `client`, and comparing the
`fd`s of two clients compares these items. Addresses are what `malloc` returns. -/

namespace XpuShare

open LinkedList

/-! ## Requests -/

/-- The lists of a `struct gpu_context`. -/
inductive Queue where
  | requests
  | waitQueue
  | runningList
  deriving DecidableEq

/-- The requests of all contexts. -/
abbrev Heap := Lists (CtxId × Queue) ClientId

namespace Heap

variable (fuel : ℕ)

/-- Looking for the request of `c` in a queue. -/
def find (i : CtxId × Queue) (c : ClientId) (h : Heap) : Option (Option ℕ) :=
  search (· = c) fuel (h.head i) h.memory

/-- `insert_req`; `r` is the address of the new request. -/
def insertReq (x : CtxId) (c : ClientId) (r : ℕ) (h : Heap) : Option Heap :=
  (find fuel (x, .requests) c h).bind fun found =>
    if found.isSome then some h
    else (h.onMemory (malloc r c)).bind (Lists.onList (x, .requests) (append fuel r))

/-- `move_to_wait_queue`, up to the message. -/
def moveToWaitQueue (x : CtxId) (req : ℕ) (h : Heap) : Option Heap :=
  (h.memory req).bind fun cell =>
    (find fuel (x, .waitQueue) cell.item h).bind fun found =>
      if found.isSome then some h
      else (h.onList (x, .requests) (delete fuel req)).bind
        (Lists.onList (x, .waitQueue) (append fuel req))

/-- What `check_wait_queue` does with the request `r` of a client that can run. -/
def promote (x : CtxId) (r : ℕ) (h : Heap) : Option Heap :=
  (h.onList (x, .waitQueue) (delete fuel r)).bind (Lists.onList (x, .requests) (prepend r))

/-- What `try_schedule` does with the first request once its client has been sent LOCK_OK. -/
def grant (x : CtxId) (h : Heap) : Option Heap :=
  (h.head (x, .requests)).bind fun req =>
    (h.onList (x, .requests) (delete fuel req)).bind
      (Lists.onList (x, .runningList) (append fuel req))

/-- The first loop of `remove_req`, which ends at the first request of the client. -/
def leaveRunning (x : CtxId) (c : ClientId) (h : Heap) : Option Heap :=
  (find fuel (x, .runningList) c h).bind fun found =>
    match found with
    | none => some h
    | some r => (h.onList (x, .runningList) (delete fuel r)).bind (Lists.onMemory (free r))

/-- The last two loops of `remove_req`. -/
def dropPending (x : CtxId) (c : ClientId) (h : Heap) : Option Heap :=
  (h.onList (x, .requests) (deleteAll (· = c) fuel)).bind
    (Lists.onList (x, .waitQueue) (deleteAll (· = c) fuel))

/-- The loop over the contexts on SCHED_OFF; `nctx` is their number. -/
def clearRequests (nctx : ℕ) (h : Heap) : Option Heap :=
  (List.range nctx).foldlM
    (fun l x => Lists.onList (x, .requests) (deleteAll (fun _ => true) fuel) l) h

end Heap

/-- The operations on the requests. -/
inductive HeapEvent where
  | insertReq (x : CtxId) (c : ClientId) (r : ℕ)
  | moveToWaitQueue (x : CtxId) (req : ℕ)
  | promote (x : CtxId) (r : ℕ)
  | grant (x : CtxId)
  | leaveRunning (x : CtxId) (c : ClientId)
  | dropPending (x : CtxId) (c : ClientId)
  | clearRequests (nctx : ℕ)

/-- The requests after an operation, `none` if it reads or frees what is not allocated. -/
def Heap.handle (fuel : ℕ) (e : HeapEvent) (h : Heap) : Option Heap :=
  match e with
  | .insertReq x c r => insertReq fuel x c r h
  | .moveToWaitQueue x req => moveToWaitQueue fuel x req h
  | .promote x r => promote fuel x r h
  | .grant x => grant fuel x h
  | .leaveRunning x c => leaveRunning fuel x c h
  | .dropPending x c => dropPending fuel x c h
  | .clearRequests nctx => clearRequests fuel nctx h

end XpuShare
