import Libcmm.SenderIrob
import Libcmm.Robustness
import Libcmm.Lib.Words

/-! # Messages on the wire (`cmm_socket_control.h`, `csocket_sender.cpp`, `csocket_receiver.cpp`)

A control message is a header, a C struct written as it lies in memory, and for some
types what follows it: an array of identifiers or the bytes of a chunk. The sender puts
several messages into one write, each time with its own array of vectors and its own
count of them; the receiver reads one header after the other and takes from it how much
more belongs to the message.

Both ends share the layout of the struct (`Platform`). A field holds the 32-bit word
`htonl` returned, zero-extended where the field is wider, and `ntohl` is given the low 32
bits of it. What the handlers do with a message they have read is not part of this: here
they only read.

`read_deps_array` computes the size of the array in an `int`. With 2^31 bytes of
dependencies or more it does not read what was written.
-/

namespace Libcmm

open Lib

/-- The word a C integer becomes as the argument of `htonl`. -/
def toWord (value : Int) : UInt32 := UInt32.ofNat (value % 2 ^ 32).toNat

theorem toNat_toWord (value : Int) : ((toWord value).toNat : Int) = value % 2 ^ 32 := by
  have nonneg : 0 ≤ value % 2 ^ 32 := Int.emod_nonneg _ (by norm_num)
  have small : value % 2 ^ 32 < 2 ^ 32 := Int.emod_lt_of_pos _ (by norm_num)
  rw [toWord, UInt32.toNat_ofNat']
  omega

/-- The members of the union `op` as they are in memory, each under the type that goes
with it. The `data` pointer of a chunk is null. -/
inductive Op where
  | beginIrob (id numdeps : UInt32)
  | endIrob (id expectedBytes expectedChunks : UInt32)
  | irobChunk (id seqno offset datalen : UInt32)
  | newInterface (ipAddr bandwidthDown bandwidthUp rtt type : UInt32)
  | downInterface (ipAddr : UInt32)
  | ack (numAcks id srvSec srvUsec qdelaySec qdelayUsec : UInt32)
  | goodbye
  | resendRequest (id request seqno nextChunk : UInt32)
  | dataCheck (id : UInt32)
  deriving DecidableEq

/-- The `CMM_CONTROL_MSG` numbers. -/
def Op.type : Op → Nat
  | beginIrob _ _ => 1
  | endIrob _ _ _ => 2
  | irobChunk _ _ _ _ => 3
  | newInterface _ _ _ _ _ => 5
  | downInterface _ => 6
  | ack _ _ _ _ _ _ => 7
  | goodbye => 8
  | resendRequest _ _ _ _ => 9
  | dataCheck _ => 10

/-- `struct CMMSocketControlHdr` in network byte order. -/
structure WireHdr where
  sendLabels : UInt32
  op : Op
  deriving DecidableEq

/-- A block of memory read as a header: one of a type that has a handler of its own, or
another type. -/
inductive LoadedHdr where
  | known (hdr : WireHdr)
  | other (type : BitVec 16)
  deriving DecidableEq

/-- What the two ends share: byte order, the layout of the header, and that of an
`irob_id_t` in an array. -/
structure Platform where
  htonl : UInt32 → UInt32
  ntohl : UInt32 → UInt32
  ntohl_htonl : ∀ word, ntohl (htonl word) = word
  htonl_zero : htonl 0 = 0
  hdrSize : Nat
  hdrSize_pos : 0 < hdrSize
  store : WireHdr → List Byte
  load : List Byte → LoadedHdr
  length_store : ∀ hdr, (store hdr).length = hdrSize
  load_store : ∀ hdr, load (store hdr) = .known hdr
  idSize : Nat
  idSize_cases : idSize = 4 ∨ idSize = 8
  storeId : UInt32 → List Byte
  loadId : List Byte → UInt32
  length_storeId : ∀ word, (storeId word).length = idSize
  loadId_storeId : ∀ word, loadId (storeId word) = word

/-! ### A little-endian LP64 platform -/

namespace Lp64

/-- The byte order reversed. -/
def swapWord (word : UInt32) : UInt32 := UInt32.ofNat (swap 4 word.toNat)

theorem swapWord_swapWord (word : UInt32) : swapWord (swapWord word) = word := by
  have bound : swap 4 word.toNat < 2 ^ 32 := swap_lt 4 word.toNat
  apply UInt32.toNat.inj
  rw [swapWord, swapWord, UInt32.toNat_ofNat_of_lt' bound, swap_swap word.toNat_lt,
    UInt32.toNat_ofNat_of_lt' word.toNat_lt]

/-- A word in a field of `size` bytes. -/
def put (size : Nat) (word : UInt32) : List Byte := leBytes size word.toNat

/-- The low word of a field. -/
def get (offset size : Nat) (block : List Byte) : UInt32 :=
  UInt32.ofNat (leValue (field offset size block))

/-- Bytes of the struct that no field covers. -/
def padding (size : Nat) : List Byte := List.replicate size 0

/-- The union, without the bytes behind its member. -/
def storeOp : Op → List Byte
  | .beginIrob id numdeps => put 8 id ++ put 4 numdeps
  | .endIrob id expectedBytes expectedChunks => put 8 id ++ (put 8 expectedBytes ++ put 4 expectedChunks)
  | .irobChunk id seqno offset datalen => put 8 id ++ (put 8 seqno ++ (put 8 offset ++ put 8 datalen))
  | .newInterface ipAddr bandwidthDown bandwidthUp rtt type =>
      put 4 ipAddr ++ (padding 4 ++ (put 8 bandwidthDown ++ (put 8 bandwidthUp ++
        (put 8 rtt ++ put 4 type))))
  | .downInterface ipAddr => put 4 ipAddr
  | .ack numAcks id srvSec srvUsec qdelaySec qdelayUsec =>
      put 8 numAcks ++ (put 8 id ++ (put 8 srvSec ++ (put 8 srvUsec ++
        (put 8 qdelaySec ++ put 8 qdelayUsec))))
  | .goodbye => []
  | .resendRequest id request seqno nextChunk =>
      put 8 id ++ (put 4 request ++ (padding 4 ++ (put 8 seqno ++ put 4 nextChunk)))
  | .dataCheck id => put 8 id

/-- The member of the union that a type names. -/
def loadOp (type : Nat) (op : List Byte) : Option Op :=
  match type with
  | 1 => some (.beginIrob (get 0 8 op) (get 8 4 op))
  | 2 => some (.endIrob (get 0 8 op) (get 8 8 op) (get 16 4 op))
  | 3 => some (.irobChunk (get 0 8 op) (get 8 8 op) (get 16 8 op) (get 24 8 op))
  | 5 => some (.newInterface (get 0 4 op) (get 8 8 op) (get 16 8 op) (get 24 8 op) (get 32 4 op))
  | 6 => some (.downInterface (get 0 4 op))
  | 7 => some (.ack (get 0 8 op) (get 8 8 op) (get 16 8 op) (get 24 8 op) (get 32 8 op) (get 40 8 op))
  | 8 => some .goodbye
  | 9 => some (.resendRequest (get 0 8 op) (get 8 4 op) (get 16 8 op) (get 24 4 op))
  | 10 => some (.dataCheck (get 0 8 op))
  | _ => none

/-- The header: `type` and padding, `send_labels`, and the union with the size of its
largest member, `struct ack_data`. -/
def store (hdr : WireHdr) : List Byte :=
  leBytes 2 (swap 2 hdr.op.type) ++ (padding 6 ++ (put 8 hdr.sendLabels ++
    (storeOp hdr.op ++ padding (48 - (storeOp hdr.op).length))))

/-- The header in a block of memory. -/
def load (block : List Byte) : LoadedHdr :=
  let type := swap 2 (leValue (field 0 2 block))
  match loadOp type (field 16 48 block) with
  | some op => .known ⟨get 8 8 block, op⟩
  | none => .other (BitVec.ofNat 16 type)

@[simp] theorem length_put (size : Nat) (word : UInt32) : (put size word).length = size :=
  length_leBytes size word.toNat

@[simp] theorem length_padding (size : Nat) : (padding size).length = size :=
  List.length_replicate

theorem length_storeOp_le (op : Op) : (storeOp op).length ≤ 48 := by
  cases op <;> simp [storeOp]

theorem length_store (hdr : WireHdr) : (store hdr).length = 64 := by
  have room := length_storeOp_le hdr.op
  simp only [store, List.length_append, length_leBytes, length_padding, length_put]
  omega

/-- A field that was stored first is read back. -/
theorem get_put {size : Nat} (wide : 4 ≤ size) (word : UInt32) (rest : List Byte) :
    get 0 size (put size word ++ rest) = word := by
  have fits : word.toNat < 256 ^ size :=
    Nat.lt_of_lt_of_le word.toNat_lt (Nat.pow_le_pow_right (by norm_num : 0 < 256) wide)
  rw [get, field_head (length_put size word), put, leValue_leBytes fits, UInt32.ofNat_toNat]

/-- A field behind others is read behind them. -/
theorem get_append {head : List Byte} {offset : Nat} (beyond : head.length ≤ offset) (size : Nat)
    (rest : List Byte) : get offset size (head ++ rest) = get (offset - head.length) size rest := by
  rw [get, get, field_tail beyond]

/-- The member that was stored is read back. -/
theorem loadOp_storeOp (op : Op) (rest : List Byte) :
    loadOp op.type (storeOp op ++ rest) = some op := by
  cases op <;>
    simp (disch := simp) [loadOp, storeOp, Op.type, get_append, get_put]

theorem load_store (hdr : WireHdr) : load (store hdr) = .known hdr := by
  have type : swap 2 (leValue (field 0 2 (store hdr))) = hdr.op.type := by
    have small : hdr.op.type < 256 ^ 2 := by
      cases hdr.op <;> norm_num [Op.type]
    rw [store, field_head (length_leBytes 2 _), leValue_leBytes (swap_lt 2 _), swap_swap small]
  have labels : get 8 8 (store hdr) = hdr.sendLabels := by
    rw [store, get_append (by simp), get_append (by simp)]
    exact get_put (by norm_num) _ _
  have op : field 16 48 (store hdr) =
      storeOp hdr.op ++ padding (48 - (storeOp hdr.op).length) := by
    have room := length_storeOp_le hdr.op
    have sized : (storeOp hdr.op ++ padding (48 - (storeOp hdr.op).length)).length = 48 := by
      rw [List.length_append, length_padding]
      omega
    rw [store, field_tail (by simp), field_tail (by simp), field_tail (by simp)]
    simpa using field_head sized []
  rw [load, type, labels, op, loadOp_storeOp]

end Lp64

/-- A little-endian platform with 64-bit `long`. -/
def Platform.lp64 : Platform where
  htonl := Lp64.swapWord
  ntohl := Lp64.swapWord
  ntohl_htonl := Lp64.swapWord_swapWord
  htonl_zero := rfl
  hdrSize := 64
  hdrSize_pos := by norm_num
  store := Lp64.store
  load := Lp64.load
  length_store := Lp64.length_store
  load_store := Lp64.load_store
  idSize := 8
  idSize_cases := .inr rfl
  storeId := Lp64.put 8
  loadId := Lp64.get 0 8
  length_storeId := Lp64.length_put 8
  loadId_storeId word := by
    rw [← List.append_nil (Lp64.put 8 word)]
    exact Lp64.get_put (by norm_num) word []

/-! ### Messages and the writes that carry them -/

/-- `struct net_interface`; the address is in network byte order as usual. -/
structure NetInterface where
  ipAddr : UInt32
  bandwidthDown : Int
  bandwidthUp : Int
  rtt : Int
  type : Int
  deriving DecidableEq

/-- A time as a header carries it: the low words of the fields of a `struct timeval`. -/
structure WireTime where
  sec : UInt32
  usec : UInt32
  deriving DecidableEq

/-- The words of a time. -/
def Timeval.words (time : Timeval) : WireTime := ⟨toWord time.tvSec, toWord time.tvUsec⟩

/-- What a handler reads: the members of the union it uses, and what follows the header. -/
inductive Content where
  | beginIrob (id : IrobId) (deps : List IrobId)
  | endIrob (id : IrobId) (expectedBytes expectedChunks : Int)
  | irobChunk (id : IrobId) (seqno offset : Int) (data : List Byte)
  | newInterface (iface : NetInterface)
  | downInterface (ipAddr : UInt32)
  | ack (id : IrobId) (ackedIrobs : List IrobId) (srvTime qdelay : WireTime)
  | goodbye
  | resendRequest (id : IrobId) (request : ResendRequestType) (seqno nextChunk : Int)
  | dataCheck (id : IrobId)
  deriving DecidableEq

/-- A control message, with its labels. -/
structure WireMessage where
  sendLabels : Int
  content : Content
  deriving DecidableEq

/-- The number of a `resend_request_type_t`. -/
def ResendRequestType.number (request : ResendRequestType) : Int :=
  request.deps.toNat + 2 * request.data.toNat + 4 * request.endIrob.toNat

/-- The flags of a `resend_request_type_t`. -/
def ResendRequestType.ofNumber (number : Nat) : ResendRequestType :=
  ⟨number.testBit 0, number.testBit 1, number.testBit 2⟩

theorem ResendRequestType.ofNumber_number (request : ResendRequestType) :
    ofNumber (request.number % 2 ^ 32).toNat = request := by
  obtain ⟨deps, data, endIrob⟩ := request
  cases deps <;> cases data <;> cases endIrob <;> rfl

/-- What `send_data_check` sends of an IROB that is still there: its next chunk, or its
last one, or none, and the numbers of its `End_IROB` if it is complete and all chunked. -/
structure Probed where
  sendLabels : Int
  deps : List IrobId
  chunk : Option Transmission
  finished : Option (Nat × Nat)

/-- One write of a sender: the arguments its messages are built from. An IROB that is sent
as a whole by `begin_irob` comes with a chunk and the numbers of its `End_IROB`;
`waitingAckIrob` is -1 without an acknowledgment; `missing` are the sequence numbers of
the missing chunks, and `nextChunk` is known if the IROB is. -/
inductive Composite where
  | beginIrob (sendLabels : Int) (id : IrobId) (deps : List IrobId)
      (whole : Option (Transmission × Nat × Nat))
  | irobChunk (waitingAckIrob : IrobId) (qdelay : Timeval) (sendLabels : Int) (id : IrobId)
      (chunk : Transmission)
  | sendAcks (id : IrobId) (ackedIrobs : List IrobId) (srvTime qdelay : Timeval)
  | resendRequest (id : IrobId) (request : ResendRequestType) (missing : List Nat)
      (nextChunk : Option Nat)
  | sendDataCheck (id : IrobId) (irob : Option Probed)
  | endIrob (sendLabels : Int) (id : IrobId) (expectedBytes numSenderChunks : Nat)
  | newInterface (iface : NetInterface)
  | downInterface (iface : NetInterface)
  | goodbye

namespace Platform

variable (platform : Platform)

/-- `htonl` of a C integer. -/
def net (value : Int) : UInt32 := platform.htonl (toWord value)

/-- `ntohl`, as a value that is not negative. -/
def host (word : UInt32) : Int := (platform.ntohl word).toNat

/-- A `Begin_IROB` header. -/
def beginHdr (sendLabels : Int) (id : IrobId) (numdeps : Nat) : List Byte :=
  platform.store ⟨platform.net sendLabels, .beginIrob (platform.net id) (platform.net numdeps)⟩

/-- An `IROB_chunk` header. -/
def chunkHdr (sendLabels : Int) (id : IrobId) (chunk : Transmission) : List Byte :=
  platform.store ⟨platform.net sendLabels, .irobChunk (platform.net id) (platform.net chunk.seqno)
    (platform.net chunk.offset) (platform.net chunk.bytes.length)⟩

/-- An `End_IROB` header. -/
def endHdr (sendLabels : Int) (id : IrobId) (expectedBytes numSenderChunks : Nat) : List Byte :=
  platform.store ⟨platform.net sendLabels, .endIrob (platform.net id) (platform.net expectedBytes)
    (platform.net numSenderChunks)⟩

/-- An `ACK` header. -/
def ackHdr (id : IrobId) (numAcks : Nat) (srvTime qdelay : Timeval) : List Byte :=
  platform.store ⟨0, .ack (platform.net numAcks) (platform.net id) (platform.net srvTime.tvSec)
    (platform.net srvTime.tvUsec) (platform.net qdelay.tvSec) (platform.net qdelay.tvUsec)⟩

/-- A `Resend_Request` header. -/
def requestHdr (id : IrobId) (request : ResendRequestType) (seqno nextChunk : Nat) : List Byte :=
  platform.store ⟨0, .resendRequest (platform.net id) (platform.net request.number)
    (platform.net seqno) (platform.net nextChunk)⟩

/-- An array of identifiers in network byte order (`PendingIROB::copy_deps_htonl`). -/
def idArray (ids : List IrobId) : List Byte := ids.flatMap fun id => platform.storeId (platform.net id)

/-- `struct iovec vec[6]` in `begin_irob`, the vectors it sends instead for a whole IROB, and
its count of them. -/
def beginVecs (sendLabels : Int) (id : IrobId) (deps : List IrobId) :
    Option (Transmission × Nat × Nat) → List (List Byte) × Nat
  | none => ([platform.beginHdr sendLabels id deps.length, platform.idArray deps, [], [], [], []], 2)
  | some (chunk, expectedBytes, numSenderChunks) =>
      ([platform.beginHdr sendLabels id deps.length, platform.idArray deps] ++
        [platform.chunkHdr sendLabels id chunk] ++ chunk.data ++
        [platform.endHdr sendLabels id expectedBytes numSenderChunks],
        2 + 1 + chunk.data.length + 1)

/-- The vectors of `irob_chunk`. The acknowledgment in front of the chunk gets no service
time. -/
def chunkVecs (waitingAckIrob : IrobId) (qdelay : Timeval) (sendLabels : Int) (id : IrobId)
    (chunk : Transmission) : List (List Byte) × Nat :=
  let veccount := 1 + chunk.data.length
  if waitingAckIrob = -1 then (platform.chunkHdr sendLabels id chunk :: chunk.data, veccount)
  else (platform.ackHdr waitingAckIrob 0 ⟨0, 0⟩ qdelay ::
    platform.chunkHdr sendLabels id chunk :: chunk.data, veccount + 1)

/-- The vectors of `send_acks`. -/
def ackVecs (id : IrobId) (ackedIrobs : List IrobId) (srvTime qdelay : Timeval) :
    List (List Byte) × Nat :=
  ([platform.ackHdr id ackedIrobs.length srvTime qdelay, platform.idArray ackedIrobs],
    if 0 < ackedIrobs.length then 2 else 1)

/-- The headers of `resend_request`. -/
def requestHdrs (id : IrobId) (request : ResendRequestType) (missing : List Nat)
    (nextChunk : Option Nat) : List (List Byte) :=
  let missingChunks := if request.data then missing else []
  let reqType := if missingChunks.isEmpty then { request with data := false } else request
  if reqType = .none then []
  else
    let next := if reqType.endIrob then nextChunk.getD 0 else 0
    match missingChunks with
    | [] => [platform.requestHdr id reqType 0 next]
    -- the request of the first header is already set
    | seqno :: rest => platform.requestHdr id reqType seqno next ::
        rest.map fun seqno => platform.requestHdr id .onlyData seqno 0

/-- The vectors of `send_data_check`. -/
def checkVecs (id : IrobId) : Option Probed → List (List Byte)
  | none => [platform.store ⟨0, .dataCheck (platform.net id)⟩]
  | some irob =>
      [platform.beginHdr irob.sendLabels id irob.deps.length] ++
      (if irob.deps.isEmpty then [] else [platform.idArray irob.deps]) ++
      (match irob.chunk with
        | none => []
        | some chunk => platform.chunkHdr irob.sendLabels id chunk :: chunk.data) ++
      (match irob.finished with
        | none => []
        | some (bytes, chunks) => [platform.endHdr irob.sendLabels id bytes chunks]) ++
      [platform.store ⟨platform.net irob.sendLabels, .dataCheck (platform.net id)⟩]

/-- `writev` of the first vectors. -/
def writev (vecs : List (List Byte) × Nat) : List Byte := (vecs.1.take vecs.2).flatten

/-- The bytes of one write. -/
def written : Composite → List Byte
  | .beginIrob sendLabels id deps whole => writev (platform.beginVecs sendLabels id deps whole)
  | .irobChunk waitingAckIrob qdelay sendLabels id chunk =>
      writev (platform.chunkVecs waitingAckIrob qdelay sendLabels id chunk)
  | .sendAcks id ackedIrobs srvTime qdelay => writev (platform.ackVecs id ackedIrobs srvTime qdelay)
  | .resendRequest id request missing nextChunk =>
      (platform.requestHdrs id request missing nextChunk).flatten
  | .sendDataCheck id irob => (platform.checkVecs id irob).flatten
  | .endIrob sendLabels id expectedBytes numSenderChunks =>
      platform.endHdr sendLabels id expectedBytes numSenderChunks
  | .newInterface iface => platform.store ⟨platform.net 0, .newInterface iface.ipAddr
      (platform.net iface.bandwidthDown) (platform.net iface.bandwidthUp) (platform.net iface.rtt)
      (platform.net iface.type)⟩
  | .downInterface iface => platform.store ⟨platform.net 0, .downInterface iface.ipAddr⟩
  | .goodbye => platform.store ⟨0, .goodbye⟩

/-! ### The receiver -/

/-- `read_bytes` of as many bytes as an `int` says, with what is left; nothing if it returns
something else. -/
def readBytes (count : Int) (stream : List Byte) : Option (List Byte × List Byte) :=
  if 0 ≤ count ∧ count.toNat ≤ stream.length then
    some (stream.take count.toNat, stream.drop count.toNat)
  else none

/-- Why no more messages are read: a header is not there as a whole, a handler throws
`CMMControlException`, a handler is looked up beyond the table, or elements of an array are
used that were not read. -/
inductive Stop where
  | noHeader (left : List Byte)
  | controlException
  | noHandler
  | indeterminate
  deriving DecidableEq

/-- The identifiers in an array of bytes; the array may be too short. -/
def loadIds : Nat → List Byte → Option (List IrobId)
  | 0, _ => some []
  | count + 1, bytes =>
      if platform.idSize ≤ bytes.length then
        (loadIds count (bytes.drop platform.idSize)).map
          (platform.host (platform.loadId (bytes.take platform.idSize)) :: ·)
      else none

/-- Reading an array of identifiers, given its size in bytes. -/
def readArray (count : Nat) (datalen : Int) (stream : List Byte) :
    Except Stop (List IrobId × List Byte) :=
  match readBytes datalen stream with
  | none => .error .controlException
  | some (bytes, later) => match platform.loadIds count bytes with
      | none => .error .indeterminate
      | some ids => .ok (ids, later)

/-- The size of an array of identifiers as `read_deps_array` and `do_ack` compute it, in an
`int`. -/
def arraySize (count : Nat) : Int := toInt (count * platform.idSize)

/-- A computation that throws at no step. -/
theorem bind_eq_ok {ε α β : Type} {first : Except ε α} {next : α → Except ε β} {result : β} :
    first >>= next = .ok result ↔ ∃ value, first = .ok value ∧ next value = .ok result := by
  cases first with
  | error thrown => exact iff_of_false nofun nofun
  | ok value => exact ⟨fun onward => ⟨value, rfl, onward⟩, fun ⟨_, same, onward⟩ => by
      cases same
      exact onward⟩

/-- `CSocketReceiver::read_deps_array`. -/
def readDepsArray (numdeps : Int) (stream : List Byte) : Except Stop (List IrobId × List Byte) :=
  if 0 < numdeps then
    platform.readArray numdeps.toNat (platform.arraySize numdeps.toNat) stream
  else .ok ([], stream)

/-- The array behind the header in `CSocketReceiver::do_ack`. -/
def readAckedIrobs (numAcks : Nat) (stream : List Byte) : Except Stop (List IrobId × List Byte) :=
  if 0 < numAcks then platform.readArray numAcks (platform.arraySize numAcks) stream
  else .ok ([], stream)

/-- `CSocketReceiver::read_data_buffer`. -/
def readDataBuffer (datalen : Int) (stream : List Byte) : Except Stop (List Byte × List Byte) :=
  if datalen ≤ 0 then .error .controlException
  else match readBytes datalen stream with
    | none => .error .controlException
    | some result => .ok result

/-- The handlers, as far as they read: what they take from the header and from the stream
behind it. -/
def readContent (stream : List Byte) : Op → Except Stop (Content × List Byte)
  | .beginIrob id numdeps => do
      let (deps, later) ← platform.readDepsArray (toInt (platform.host numdeps)) stream
      return (.beginIrob (platform.host id) deps, later)
  | .endIrob id expectedBytes expectedChunks =>
      return (.endIrob (platform.host id) (platform.host expectedBytes)
        (toInt (platform.host expectedChunks)), stream)
  | .irobChunk id seqno offset datalen => do
      let (data, later) ← readDataBuffer (toInt (platform.host datalen)) stream
      return (.irobChunk (platform.host id) (platform.host seqno) (platform.host offset) data, later)
  | .newInterface ipAddr bandwidthDown bandwidthUp rtt type =>
      return (.newInterface ⟨ipAddr, platform.host bandwidthDown, platform.host bandwidthUp,
        platform.host rtt, toInt (platform.host type)⟩, stream)
  | .downInterface ipAddr => return (.downInterface ipAddr, stream)
  | .ack numAcks id srvSec srvUsec qdelaySec qdelayUsec => do
      let (ackedIrobs, later) ← platform.readAckedIrobs (platform.host numAcks).toNat stream
      return (.ack (platform.host id) ackedIrobs ⟨platform.ntohl srvSec, platform.ntohl srvUsec⟩
        ⟨platform.ntohl qdelaySec, platform.ntohl qdelayUsec⟩, later)
  | .goodbye => return (.goodbye, stream)
  | .resendRequest id request seqno nextChunk =>
      return (.resendRequest (platform.host id) (.ofNumber (platform.host request).toNat)
        (platform.host seqno) (toInt (platform.host nextChunk)), stream)
  | .dataCheck id => return (.dataCheck (platform.host id), stream)

/-- `CSocketReceiver::dispatch`. -/
def dispatch (stream : List Byte) : LoadedHdr → Except Stop (WireMessage × List Byte)
  | .known hdr => do
      let (content, later) ← platform.readContent stream hdr.op
      return (⟨platform.host hdr.sendLabels, content⟩, later)
  | .other type => match dispatchType type with
      | some _ => .error .controlException
      | none => .error .noHandler

variable {platform} {stream later : List Byte}

theorem readBytes_length {count : Int} {bytes : List Byte}
    (reading : readBytes count stream = some (bytes, later)) : later.length ≤ stream.length := by
  unfold readBytes at reading
  split_ifs at reading
  cases reading
  rw [List.length_drop]
  exact Nat.sub_le _ _

theorem readArray_length {count : Nat} {datalen : Int} {ids : List IrobId}
    (reading : platform.readArray count datalen stream = .ok (ids, later)) :
    later.length ≤ stream.length := by
  unfold readArray at reading
  split at reading
  · cases reading
  · next bytes after taken =>
      split at reading
      · cases reading
      · cases reading
        exact readBytes_length taken

theorem readDepsArray_length {numdeps : Int} {deps : List IrobId}
    (reading : platform.readDepsArray numdeps stream = .ok (deps, later)) :
    later.length ≤ stream.length := by
  unfold readDepsArray at reading
  split_ifs at reading
  · exact readArray_length reading
  · cases reading
    exact Nat.le_refl _

theorem readDataBuffer_length {datalen : Int} {data : List Byte}
    (reading : readDataBuffer datalen stream = .ok (data, later)) :
    later.length ≤ stream.length := by
  unfold readDataBuffer at reading
  split_ifs at reading
  split at reading
  · cases reading
  · next result taken =>
      cases reading
      exact readBytes_length taken

theorem readContent_length {op : Op} {content : Content}
    (reading : platform.readContent stream op = .ok (content, later)) :
    later.length ≤ stream.length := by
  cases op with
  | beginIrob id numdeps =>
      obtain ⟨⟨deps, after⟩, array, done⟩ := bind_eq_ok.mp reading
      cases done
      exact readDepsArray_length array
  | irobChunk id seqno offset datalen =>
      obtain ⟨⟨data, after⟩, buffer, done⟩ := bind_eq_ok.mp reading
      cases done
      exact readDataBuffer_length buffer
  | ack numAcks id srvSec srvUsec qdelaySec qdelayUsec =>
      obtain ⟨⟨ackedIrobs, after⟩, array, done⟩ := bind_eq_ok.mp reading
      cases done
      unfold readAckedIrobs at array
      split_ifs at array
      · exact readArray_length array
      · cases array
        exact Nat.le_refl _
  | _ =>
      cases reading
      exact Nat.le_refl _

theorem dispatch_length {loaded : LoadedHdr} {message : WireMessage}
    (dispatched : platform.dispatch stream loaded = .ok (message, later)) :
    later.length ≤ stream.length := by
  cases loaded with
  | known hdr =>
      obtain ⟨⟨content, after⟩, reading, done⟩ := bind_eq_ok.mp dispatched
      cases done
      exact readContent_length reading
  | other type =>
      simp only [dispatch] at dispatched
      split at dispatched <;> cases dispatched

variable (platform) in
/-- The loop of `CSocketReceiver::Run`: the messages that are read, and why it ends. -/
def receive (stream : List Byte) : List WireMessage × Stop :=
  if _enough : platform.hdrSize ≤ stream.length then
    match _dispatched : platform.dispatch (stream.drop platform.hdrSize)
        (platform.load (stream.take platform.hdrSize)) with
    | .error stop => ([], stop)
    | .ok (message, later) => ((receive later).1.cons message, (receive later).2)
  else ([], .noHeader stream)
termination_by stream.length
decreasing_by all_goals
  have shorter := dispatch_length _dispatched
  have positive := platform.hdrSize_pos
  rw [List.length_drop] at shorter
  omega

end Platform

end Libcmm
