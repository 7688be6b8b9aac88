import Mathlib.Tactic.NormNum
import Libcmm.Lib.OrderedSet

/-! # Control data

The plain data the two endpoints share (`cmm_socket_control.h`, `libcmm.h`):
IROB identifiers, data chunks, label bits, resend-request flags and the control
messages that carry IROBs. Integers are unbounded except where the code narrows
one (`toInt`); byte order conversion is the identity on values that fit.
-/

namespace Libcmm

/-- `irob_id_t`, a C `long`. -/
abbrev IrobId := Int

/-- One byte of application data. -/
abbrev Byte := UInt8

/-- `irob_id_set`. -/
abbrev IrobIdSet := Lib.OrderedSet IrobId

/-- The value a 64-bit difference has after it is stored in a 32-bit `int`. -/
def toInt (value : Int) : Int := value.bmod (2 ^ 32)

/-- Narrowing keeps a value that fits. -/
theorem toInt_of_fits {value : Int} (lower : -(2 ^ 31) ≤ value) (upper : value < 2 ^ 31) :
    toInt value = value := by
  unfold toInt
  rw [Int.bmod_eq_of_le_mul_two] <;> norm_num <;> omega

/-- The value a signed integer has after its conversion to `u_long`. -/
def toULong (value : Int) : Int := if value < 0 then value + 2 ^ 64 else value

/-- The conversion keeps a value that is not negative. -/
theorem toULong_of_nonneg {value : Int} (nonneg : 0 ≤ value) : toULong value = value :=
  if_neg (Int.not_lt.mpr nonneg)

/-- The identifiers the protocol uses, `[0, 2^31)`. -/
def IrobId.InRange (id : IrobId) : Prop := (0 : Int) ≤ id ∧ (2 ^ 31 : Int) > id

instance (id : IrobId) : Decidable id.InRange :=
  inferInstanceAs (Decidable ((0 : Int) ≤ id ∧ (2 ^ 31 : Int) > id))

/-- `struct timeval`. -/
structure Timeval where
  tvSec : Int
  tvUsec : Int
  deriving DecidableEq

/-- `timercmp(tvp, uvp, <)`. -/
def Timeval.before (first second : Timeval) : Bool :=
  if first.tvSec = second.tvSec then decide (first.tvUsec < second.tvUsec)
  else decide (first.tvSec < second.tvSec)

/-- `CMM_LABEL_ONDEMAND`. -/
def labelOndemand : Nat := 0x4

/-- `CMM_LABEL_BACKGROUND`. -/
def labelBackground : Nat := 0x8

/-- Whether a label word has some bit of a mask. -/
def hasLabel (labels mask : Nat) : Bool := labels &&& mask != 0

/-- `struct irob_chunk_data`. A null `data` pointer is `none`. -/
structure IrobChunk where
  id : IrobId
  seqno : Nat
  offset : Nat
  datalen : Nat
  data : Option (List Byte)
  deriving DecidableEq

/-- A chunk whose bytes were all set to zero. -/
def IrobChunk.zero : IrobChunk := ⟨0, 0, 0, 0, none⟩

/-- The bytes a chunk holds; a null chunk holds none. -/
def IrobChunk.bytes (chunk : IrobChunk) : List Byte := chunk.data.getD []

/-- `SumChunkFunctor` run over a list of chunks. -/
def sumChunks (chunks : List IrobChunk) : Nat := (chunks.map IrobChunk.datalen).sum

/-- `resend_request_type_t`, one flag per bit. -/
structure ResendRequestType where
  deps : Bool
  data : Bool
  endIrob : Bool
  deriving DecidableEq

namespace ResendRequestType

/-- `CMM_RESEND_REQUEST_NONE`. -/
def none : ResendRequestType := ⟨false, false, false⟩

/-- `CMM_RESEND_REQUEST_DATA`. -/
def onlyData : ResendRequestType := ⟨false, true, false⟩

/-- `CMM_RESEND_REQUEST_ALL`. -/
def all : ResendRequestType := ⟨true, true, true⟩

end ResendRequestType

end Libcmm
