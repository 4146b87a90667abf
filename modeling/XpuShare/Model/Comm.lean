import XpuShare.Lib.Codec
import XpuShare.Lib.Printf
import XpuShare.Model.Client
import XpuShare.Model.MemorySize

/-! # Messages as bytes

`struct message` is packed, and its bytes are what passes over the sockets. Characters stand
for the bytes of their numbers. -/

namespace XpuShare

open Printf

/-! ## Strings -/

/-- `strlcpy` of `common.c`, which stops at the NUL that ends `src`: the buffer `dst` after it. -/
def strlcpyBytes : List UInt8 → List UInt8 → List UInt8
  | [], _ => []
  | [_], _ => [0]
  | _ :: dst, [] => 0 :: dst
  | _ :: dst, b :: src => b :: strlcpyBytes dst src

theorem strlcpyBytes_length (dst src : List UInt8) :
    (strlcpyBytes dst src).length = dst.length := by
  fun_induction strlcpyBytes dst src with
  | case1 => rfl
  | case2 => rfl
  | case3 => rfl
  | case4 a dst b src hne ih => rw [List.length_cons, List.length_cons, ih]

/-- Copying a C string into an array. -/
def copyBytes {n : ℕ} (dst : Vector UInt8 n) (src : List UInt8) : Vector UInt8 n :=
  ⟨(strlcpyBytes dst.toList src).toArray, by
    rw [List.size_toArray, strlcpyBytes_length, Vector.length_toList]⟩

def copyText {n : ℕ} (dst : Vector UInt8 n) (text : String) : Vector UInt8 n :=
  copyBytes dst (bytesOf text)

/-- The text of some bytes. -/
def textOf (bytes : List UInt8) : String := String.ofList (bytes.map fun b => Char.ofNat b.toNat)

/-- The bytes of a C string. -/
def untilNul (bytes : List UInt8) : List UInt8 := bytes.takeWhile (· ≠ 0)

/-! ## `struct message` -/

/-- `enum message_type`. -/
inductive MessageType where
  | register
  | schedOn
  | schedOff
  | reqLock
  | lockOk
  | dropLock
  | lockReleased
  | setTq
  | memUpdate
  | waitForMem
  | memAvailable
  | prepareSwapOut
  | updateLimit
  | updateCoreLimit
  deriving DecidableEq

def MessageType.code : MessageType → UInt8
  | .register => 1
  | .schedOn => 2
  | .schedOff => 3
  | .reqLock => 4
  | .lockOk => 5
  | .dropLock => 6
  | .lockReleased => 7
  | .setTq => 8
  | .memUpdate => 9
  | .waitForMem => 10
  | .memAvailable => 11
  | .prepareSwapOut => 12
  | .updateLimit => 13
  | .updateCoreLimit => 14

/-- `MSG_DATA_LEN` and `NVSHARE_PROTOCOL_VERSION`. -/
def msgDataLen : ℕ := 20
def protocolVersion : UInt16 := 2

def zeros (n : ℕ) : Vector UInt8 n := Vector.replicate n 0

structure Message where
  type : UInt8 := 0
  protocolVersion : UInt16 := 0
  podName : Vector UInt8 podNameLenMax := zeros podNameLenMax
  podNamespace : Vector UInt8 podNamespaceLenMax := zeros podNamespaceLenMax
  gpuUuid : Vector UInt8 gpuUuidLen := zeros gpuUuidLen
  id : UInt64 := 0
  data : Vector UInt8 msgDataLen := zeros msgDataLen
  memoryUsage : UInt64 := 0
  memoryLimit : UInt64 := 0
  coreLimit : Int32 := 0
  hostPid : Int32 := 0
  deriving DecidableEq

/-- The fields in their order. -/
abbrev MessageFields : Type :=
  BitVec (8 * 1) × BitVec (8 * 2) × Vector UInt8 podNameLenMax ×
    Vector UInt8 podNamespaceLenMax × Vector UInt8 gpuUuidLen × BitVec (8 * 8) ×
    Vector UInt8 msgDataLen × BitVec (8 * 8) × BitVec (8 * 8) × BitVec (8 * 4) × BitVec (8 * 4)

def Message.fields (m : Message) : MessageFields :=
  (m.type.toBitVec, m.protocolVersion.toBitVec, m.podName, m.podNamespace, m.gpuUuid,
    m.id.toBitVec, m.data, m.memoryUsage.toBitVec, m.memoryLimit.toBitVec,
    m.coreLimit.toBitVec, m.hostPid.toBitVec)

def Message.ofFields (f : MessageFields) : Message :=
  match f with
  | (type, version, podName, podNamespace, gpuUuid, id, data, usage, limit, core, pid) =>
      { type := ⟨type⟩, protocolVersion := ⟨version⟩, podName, podNamespace, gpuUuid
        id := ⟨id⟩, data, memoryUsage := ⟨usage⟩, memoryLimit := ⟨limit⟩
        coreLimit := ⟨⟨core⟩⟩, hostPid := ⟨⟨pid⟩⟩ }

def Message.fieldsEquiv : MessageFields ≃ Message where
  toFun := Message.ofFields
  invFun := Message.fields
  left_inv _ := rfl
  right_inv _ := rfl

/-- The layout of `struct message`. -/
def messageCodec : Codec Message :=
  ((Codec.word 1).pair ((Codec.word 2).pair ((Codec.array podNameLenMax).pair
    ((Codec.array podNamespaceLenMax).pair ((Codec.array gpuUuidLen).pair
    ((Codec.word 8).pair ((Codec.array msgDataLen).pair ((Codec.word 8).pair
    ((Codec.word 8).pair ((Codec.word 4).pair (Codec.word 4))))))))))).map Message.fieldsEquiv

/-- `sizeof(struct message)`. -/
theorem messageCodec_width : messageCodec.width = 659 := rfl

/-- The C string at `data`, which runs on into the fields behind it if nothing ends it. -/
def Message.dataText (m : Message) : List Char :=
  (textOf (untilNul (m.data.toList ++ Codec.littleEndian 8 m.memoryUsage.toNat
    ++ Codec.littleEndian 8 m.memoryLimit.toNat
    ++ Codec.littleEndian 4 m.coreLimit.toBitVec.toNat
    ++ Codec.littleEndian 4 m.hostPid.toBitVec.toNat))).toList

/-! ## From the scheduler to a client -/

/-- `snprintf(data, 16 + 1, "%016" PRIx64, id)`. -/
def printId (data : Vector UInt8 msgDataLen) (id : UInt64) : Vector UInt8 msgDataLen :=
  ⟨(hex16 id ++ 0 :: data.toList.drop 17).toArray, by
    rw [List.size_toArray, List.length_append, hex16_length, List.length_cons,
      List.length_drop, Vector.length_toList]
    rfl⟩

/-- A message of the scheduler: what its kind sets, over what the structure held before.
Outside `register_client` the `data` of `out_msg` is zero. -/
def ToClient.message (rest : Message) : ToClient → Message
  | .status on id coreLimit =>
      { rest with
        type := if on then MessageType.schedOn.code else MessageType.schedOff.code
        data := printId rest.data (UInt64.ofNat id), coreLimit := Int32.ofInt coreLimit }
  | .schedOn => { rest with type := MessageType.schedOn.code, data := zeros msgDataLen }
  | .schedOff => { rest with type := MessageType.schedOff.code, data := zeros msgDataLen }
  | .lockOk => { rest with type := MessageType.lockOk.code }
  | .dropLock => { rest with type := MessageType.dropLock.code }
  | .waitForMem => { rest with type := MessageType.waitForMem.code }
  | .memAvailable => { rest with type := MessageType.memAvailable.code }
  | .updateLimit limit =>
      { rest with type := MessageType.updateLimit.code, memoryLimit := UInt64.ofNat limit }
  | .updateCoreLimit limit =>
      { rest with type := MessageType.updateCoreLimit.code, coreLimit := Int32.ofInt limit }

/-- `sscanf(text, "%" SCNx64, &id)`. -/
def scanId (text : List Char) : Option ℕ :=
  let (negative, body) := splitSign (text.dropWhile isSpace)
  let digits := ((hexBody body).getD body).takeWhile isHexDigit
  let v := ofDigits 16 digits
  if digits = [] then none
  else if sizeMod ≤ v then some (sizeMod - 1)
  else some (if negative then (sizeMod - v) % sizeMod else v)

/-- The first `switch` of `client_fn`. -/
def Message.initialStatus (m : Message) (r : LibState) : Option LibState :=
  if m.type = MessageType.schedOn.code ∨ m.type = MessageType.schedOff.code then
    (scanId m.dataText).map fun id =>
      { r with
        gotInitialSchedStatus := true
        schedulerOn := m.type = MessageType.schedOn.code
        ownLock := m.type = MessageType.schedOff.code
        needLock := false, nvshareClientId := id, clientCoreLimit := m.coreLimit.toInt }
  else none

/-- The cases of the second `switch` of `client_fn` that do more than log. -/
def Message.toClient (m : Message) : Option ToClient :=
  if m.type = MessageType.lockOk.code then some .lockOk
  else if m.type = MessageType.dropLock.code then some .dropLock
  else if m.type = MessageType.schedOn.code then some .schedOn
  else if m.type = MessageType.schedOff.code then some .schedOff
  else if m.type = MessageType.updateLimit.code then some (.updateLimit m.memoryLimit.toNat)
  else if m.type = MessageType.updateCoreLimit.code then
    some (.updateCoreLimit m.coreLimit.toInt)
  else none

/-- `client_fn` on one message as it has read it. -/
def Message.clientFn (m : Message) (r : LibState) : Option (LibState × List ToScheduler) :=
  if r.gotInitialSchedStatus then
    some (m.toClient.elim (r, []) fun t => handleMessage t r)
  else (m.initialStatus r).map fun r => (r, [])

/-! ## From a client to the scheduler -/

/-- A message of a client whose identifier is `id`. -/
def ToScheduler.message (id : UInt64) : ToScheduler → Message
  | .register m =>
      { type := MessageType.register.code, protocolVersion := protocolVersion, id := 1234
        podName := copyText (zeros podNameLenMax) m.podName
        podNamespace := copyText (zeros podNamespaceLenMax) m.podNamespace
        gpuUuid := copyText (zeros gpuUuidLen) m.gpuUuid
        hostPid := Int32.ofInt m.hostPid }
  | .reqLock => { type := MessageType.reqLock.code, id }
  | .lockReleased => { type := MessageType.lockReleased.code, id }
  | .memUpdate usage =>
      { type := MessageType.memUpdate.code, id, memoryUsage := UInt64.ofNat usage }

/-- The base that `strtoll` finds when it is asked to, and where the digits begin. -/
def findBase (text : List Char) : ℕ × List Char :=
  match hexBody text with
  | some body => (16, body)
  | none => if text.head? = some '0' then (8, text) else (10, text)

def isDigitOf (base : ℕ) (ch : Char) : Bool := isHexDigit ch && decide (digitValue ch < base)

/-- `strtoll(text, &endptr, 0)`: the number and the text after it, if there is one in range. -/
def strtoll (text : List Char) : Option (ℤ × List Char) :=
  let (negative, unsigned) := splitSign (text.dropWhile isSpace)
  let (base, body) := findBase unsigned
  let digits := body.takeWhile (isDigitOf base)
  let magnitude : ℤ := ofDigits base digits
  let value := if negative then -magnitude else magnitude
  if digits = [] ∨ value < -2 ^ 63 ∨ 2 ^ 63 ≤ value then none
  else some (value, body.dropWhile (isDigitOf base))

/-- The new time quantum in SET_TQ. -/
def parseTq (text : List Char) : Option ℤ :=
  match strtoll text with
  | some (value, []) => some (toInt32 value)
  | _ => none

/-- The `switch` of `process_msg` on a message as the scheduler has read it. -/
def Message.fromClient (e : RegisterEnv) (m : Message) : FromClient :=
  if m.type = MessageType.register.code then
    .register
      { podName := textOf (untilNul m.podName.toList)
        podNamespace := textOf (untilNul m.podNamespace.toList)
        gpuUuid := textOf (untilNul m.gpuUuid.toList)
        hostPid := m.hostPid.toInt } e
  else if m.type = MessageType.schedOn.code then .schedOn
  else if m.type = MessageType.schedOff.code then .schedOff
  else if m.type = MessageType.setTq.code then .setTq (parseTq m.dataText)
  else if m.type = MessageType.reqLock.code then .reqLock
  else if m.type = MessageType.lockReleased.code then .lockReleased
  else if m.type = MessageType.memUpdate.code then .memUpdate m.memoryUsage.toNat
  else .unknown

/-! ## From `nvsharectl` to the scheduler -/

/-- The message of `change_tq`. -/
def changeTq (newtq : ℤ) : Message :=
  { type := MessageType.setTq.code, id := 0xBEEF
    data := copyBytes (zeros msgDataLen) (decimal newtq) }

/-- The message of `change_status`. -/
def changeStatus (status : Bool) : Message :=
  { type := if status then MessageType.schedOn.code else MessageType.schedOff.code, id := 0xBEEF }

/-- `SimpleConfig`, once the command line has been read. -/
structure SimpleConfig where
  cmdlineSchedulerTq : ℤ := 0
  cmdlineAntiThrash : Option String := none

/-- The first half of `main` of `nvsharectl`: the message it sends, `none` if it gives up. -/
def antiThrashMessages (config : SimpleConfig) : Option (List Message) :=
  match config.cmdlineAntiThrash with
  | none => some []
  | some "on" => some [changeStatus true]
  | some "off" => some [changeStatus false]
  | some _ => none

/-- `main` of `nvsharectl`: the messages it sends, each on a connection of its own, and whether
it gets to its end. -/
def nvsharectl (config : SimpleConfig) : List Message × Bool :=
  match antiThrashMessages config with
  | none => ([], false)
  | some sent =>
      if config.cmdlineSchedulerTq = 0 then (sent, true)
      else if config.cmdlineSchedulerTq ≤ 0 then (sent, false)
      else (sent ++ [changeTq config.cmdlineSchedulerTq], true)

/-- What the event loop sees of these messages: `c` is the first of the connections, `garbage`
what `malloc` returns for their records. -/
def controlEvents (garbage : Client) (e : RegisterEnv) : ClientId → List Message → List Event
  | _, [] => []
  | c, m :: rest =>
      [.accept garbage,
        .message c ((messageCodec.decode (messageCodec.encode m)).fromClient e),
        .disconnect c] ++ controlEvents garbage e (c + 1) rest

/-! ## Ranges -/

/-- The values of a `size_t` or `uint64_t`, and those of an `int`. -/
def FitsSize (n : ℕ) : Prop := n < sizeMod
def FitsInt (z : ℤ) : Prop := -2 ^ 31 ≤ z ∧ z < 2 ^ 31

instance (n : ℕ) : Decidable (FitsSize n) := inferInstanceAs (Decidable (_ < _))
instance (z : ℤ) : Decidable (FitsInt z) := inferInstanceAs (Decidable (_ ∧ _))

/-- A C string that an array of `size` bytes holds whole. -/
def FitsArray (size : ℕ) (text : String) : Prop :=
  text.toList.length < size ∧ ∀ ch ∈ text.toList, ch.toNat < 256 ∧ ch.toNat ≠ 0

instance (size : ℕ) (text : String) : Decidable (FitsArray size text) :=
  @instDecidableAnd _ _ inferInstance (List.decidableBAll _ text.toList)

/-- The values of a message lie in the ranges of the fields that carry them. -/
def ToClient.Fits : ToClient → Prop
  | .status _ id coreLimit => FitsSize id ∧ FitsInt coreLimit
  | .updateLimit limit => FitsSize limit
  | .updateCoreLimit limit => FitsInt limit
  | _ => True

structure RegisterMsg.Fits (m : RegisterMsg) : Prop where
  podName : FitsArray podNameLenMax m.podName
  podNamespace : FitsArray podNamespaceLenMax m.podNamespace
  gpuUuid : FitsArray gpuUuidLen m.gpuUuid
  hostPid : FitsInt m.hostPid

instance (m : RegisterMsg) : Decidable m.Fits :=
  decidable_of_iff (FitsArray podNameLenMax m.podName ∧
      FitsArray podNamespaceLenMax m.podNamespace ∧ FitsArray gpuUuidLen m.gpuUuid ∧
      FitsInt m.hostPid)
    ⟨fun h => ⟨h.1, h.2.1, h.2.2.1, h.2.2.2⟩,
      fun h => ⟨h.podName, h.podNamespace, h.gpuUuid, h.hostPid⟩⟩

def ToScheduler.Fits : ToScheduler → Prop
  | .register m => m.Fits
  | .memUpdate usage => FitsSize usage
  | _ => True

end XpuShare
