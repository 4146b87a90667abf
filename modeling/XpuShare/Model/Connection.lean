import XpuShare.Model.Comm

/-! # Connections

The two directions of a stream socket between a client and the scheduler. A step is one `read`
or `write`, of which the kernel may carry out a part. The first list of a state and `handled`
are what the two sides take to have passed; the code keeps neither. -/

namespace XpuShare

/-- What the kernel answers to a `read` or a `write`: an amount, EINTR or another error. -/
inductive Reply where
  | moved (n : ℕ)
  | interrupted
  | failed
  deriving DecidableEq

/-- A chunk that a system call for `bound` bytes moves while there are `available` ones. -/
def Reply.chunk (bound available : ℕ) (n : ℕ) : Bool := 0 < n && n ≤ bound && n ≤ available

/-! ## From a client to the scheduler -/

/-- `writing` is the part of the buffer that a `write_whole` has still to write. A client whose
`write_whole` fails has `exited`; a client that the scheduler has deleted is `dropped`. -/
structure Upstream where
  begun : List Message := []
  writing : List UInt8 := []
  wire : List UInt8 := []
  handled : List Message := []
  exited : Bool := false
  dropped : Bool := false

inductive Upstream.Event where
  | begin (m : Message)
  | write (r : Reply)
  | report (m : Message) (r : Reply)
  | receive (r : Reply)

namespace Upstream

/-- A thread that holds `global_mutex` enters `write_whole`. -/
def begin (m : Message) (u : Upstream) : Option Upstream :=
  if u.exited || u.writing ≠ [] then none
  else some { u with begun := u.begun ++ [m], writing := messageCodec.encode m }

/-- One pass through the loop of `write_whole`. -/
def write (r : Reply) (u : Upstream) : Option Upstream :=
  if u.exited || u.writing = [] then none
  else match r with
    | .moved n =>
        if Reply.chunk u.writing.length u.writing.length n then
          some { u with wire := u.wire ++ u.writing.take n, writing := u.writing.drop n }
        else none
    | .interrupted => some u
    | .failed => some { u with exited := true }

/-- `nvshare_send_noblock` in `report_memory_usage_to_scheduler`, which makes do with whatever
part of the message the kernel takes. -/
def report (m : Message) (r : Reply) (u : Upstream) : Option Upstream :=
  if u.exited then none
  else match r with
    | .moved n =>
        if Reply.chunk messageCodec.width messageCodec.width n then
          some { u with
            begun := u.begun ++ [m], wire := u.wire ++ (messageCodec.encode m).take n }
        else none
    | .interrupted => some u
    | .failed => some u

/-- `receive_message`, which takes anything but a whole message for the end. A `read` returns
nothing only when the client is gone. -/
def receive (r : Reply) (u : Upstream) : Option Upstream :=
  if u.dropped then none
  else match r with
    | .moved n =>
        if n = 0 then (if u.exited && u.wire = [] then some { u with dropped := true } else none)
        else if Reply.chunk messageCodec.width u.wire.length n then
          if n < messageCodec.width then some { u with wire := u.wire.drop n, dropped := true }
          else some { u with
            handled := u.handled ++ [messageCodec.decode (u.wire.take n)]
            wire := u.wire.drop n }
        else none
    | .interrupted => some u
    | .failed => some { u with dropped := true }

def handle (u : Upstream) : Event → Option Upstream
  | .begin m => u.begin m
  | .write r => u.write r
  | .report m r => u.report m r
  | .receive r => u.receive r

/-- One step of the connection. -/
def Step (u : Upstream) (e : Event) (v : Upstream) : Prop := u.handle e = some v

end Upstream

/-! ## From the scheduler to a client -/

/-- `buffer` is what a `read_whole` has read so far. -/
structure Downstream where
  sent : List Message := []
  wire : List UInt8 := []
  buffer : List UInt8 := []
  handled : List Message := []
  closed : Bool := false
  exited : Bool := false

inductive Downstream.Event where
  | send (m : Message) (r : Reply)
  | close
  | read (r : Reply)
  | take

namespace Downstream

/-- `write` has taken `n` bytes of a message. -/
def put (m : Message) (n : ℕ) (d : Downstream) : Downstream :=
  { d with sent := d.sent ++ [m], wire := d.wire ++ (messageCodec.encode m).take n }

/-- `nvshare_send_noblock` in `send_message`. -/
def send (m : Message) (r : Reply) (d : Downstream) : Option Downstream :=
  if d.closed then none
  else match r with
    | .moved n =>
        if Reply.chunk messageCodec.width messageCodec.width n then some (d.put m n) else none
    | .interrupted => some d
    | .failed => some d

/-- One pass through the loop of `read_whole`; less than a whole message ends the client. -/
def read (r : Reply) (d : Downstream) : Option Downstream :=
  if d.exited || messageCodec.width ≤ d.buffer.length then none
  else match r with
    | .moved n =>
        if n = 0 then (if d.closed && d.wire = [] then some { d with exited := true } else none)
        else if Reply.chunk (messageCodec.width - d.buffer.length) d.wire.length n then
          some { d with buffer := d.buffer ++ d.wire.take n, wire := d.wire.drop n }
        else none
    | .interrupted => some d
    | .failed => some { d with exited := true }

/-- `client_fn` goes on with a message that it has read. -/
def take (d : Downstream) : Option Downstream :=
  if d.exited || d.buffer.length < messageCodec.width then none
  else some { d with handled := d.handled ++ [messageCodec.decode d.buffer], buffer := [] }

def handle (d : Downstream) : Event → Option Downstream
  | .send m r => d.send m r
  | .close => some { d with closed := true }
  | .read r => d.read r
  | .take => d.take

/-- One step of the connection. -/
def Step (d : Downstream) (e : Event) (d' : Downstream) : Prop := d.handle e = some d'

end Downstream

end XpuShare
