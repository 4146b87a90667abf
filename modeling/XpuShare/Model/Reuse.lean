import XpuShare.Model.Handlers

/-! # Blocks that are handed out again

`main` frees the record of a client that it deletes, and `malloc` may return the same block for
a later connection. Nothing takes the old client's entries out of a queue then: an entry that
`remove_req` has left behind is one of the new client. -/

namespace XpuShare

variable (cfg : Config) (env : Env)

/-- The accept path of `main` with a block that has been freed. -/
def acceptAt (c : ClientId) (garbage : Client) (s : Sched) : Sched :=
  { s with
    clients := s.clients ++ [c]
    client := Function.update s.client c
      { garbage with id := unregisteredId, context := none } }

/-- A block of its own makes no other difference. -/
theorem accept_eq (garbage : Client) (s : Sched) :
    accept garbage s = { acceptAt s.nalloc garbage s with nalloc := s.nalloc + 1 } := rfl

/-- The events of the scheduler, and connections that get the block of a freed record. -/
inductive ReuseEvent where
  | event (e : Event)
  | reuse (c : ClientId) (garbage : Client)

def ReuseEvent.enabled (s : Sched) : ReuseEvent → Bool
  | .event e => e.enabled s
  | .reuse c _ => !s.exited && decide (c < s.nalloc) && decide (c ∉ s.clients)

def reuseHandle (fuel : ℕ) (e : ReuseEvent) (s : Sched) : Option Sched :=
  match e with
  | .event e => handle cfg env fuel e s
  | .reuse c garbage => some (acceptAt c garbage s)

/-- One step of the scheduler when blocks are handed out again. -/
def ReuseStep (s : Sched) (e : ReuseEvent) (t : Sched) : Prop :=
  e.enabled s = true ∧ ∃ fuel, reuseHandle cfg env fuel e s = some t

end XpuShare
