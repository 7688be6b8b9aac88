import Libcmm.SenderIrob
import Mathlib.Algebra.GroupWithZero.Nat

/-! # The lengths of what is sent (`cmm_socket_impl.cpp`)

The length of a buffer passes through `size_t`, `ssize_t` and `int`. Where it is less than two to
the 31st, all of these hold it, and what is sent is exactly what was given. Longer data are rejected
only where they do not fit into an `ssize_t`; else an assertion on a truncated length fires, or, on
the one path whose sum is an `int`, the bytes are copied beyond a buffer that is too short for them.
-/

namespace Libcmm

/-- `struct iovec`, with the bytes that it leads to. -/
structure Iovec where
  bytes : List Byte
  fits : bytes.length < 2 ^ 64

namespace SendLengths

/-- The conversion to an `int` of 32 bits. -/
def toInt (value : Int) : Int := value.bmod (2 ^ 32)

/-- The conversion to an `ssize_t` of 64 bits. -/
def toSsize (value : Int) : Int := value.bmod (2 ^ 64)

/-- What a call comes to. Where it fails, by its value or by an exception of `new`, nothing was
queued. The buffer that it returns from is the one of the data that it queued. -/
inductive Outcome where
  | failed (rc : Int)
  | threw
  | asserted
  | overran
  | returned (buffer : Option (List Byte)) (rc : Int)

/-- The result of a function that queues nothing. -/
structure Refusal where
  rc : Int
  negative : rc < 0
  fits : -2 ^ 31 ≤ rc

/-- What the calls find: the result of `connect_status`, whether there is memory for a buffer, of
the first or the second allocation, and whether `validate_default_irob` or `irob_chunk` refuses. -/
structure Env where
  connectStatus : Int
  room : Nat → Nat → Bool
  refusal : Option Refusal

/-- What a copying loop comes to. -/
inductive Copied where
  | asserted
  | overran
  | done (bytesCopied : Int) (content : List Byte)
  deriving DecidableEq

/-- The copying loops, into a buffer of `size` bytes. The counter has a type of its own, and an
assertion may follow each copy. -/
def copyLoop (convert : Int → Int) (holds : Int → Bool) (size : Int) :
    List Iovec → Int → List Byte → Copied
  | [], bytesCopied, content => .done bytesCopied content
  | vec :: rest, bytesCopied, content =>
      if bytesCopied < 0 ∨ size < bytesCopied + vec.bytes.length then .overran
      else
        let bytesCopied := convert (bytesCopied + vec.bytes.length)
        if holds bytesCopied then
          copyLoop convert holds size rest bytesCopied (content ++ vec.bytes)
        else .asserted

/-- `CMMSocketImpl::send_default_irob`, once the IROB is inserted. -/
def sendDefaultIrob (psirob : SenderIrob) : Int := toInt psirob.expectedBytes

/-- `CMMSocketImpl::default_irob`. -/
def defaultIrob (env : Env) (nextIrob : IrobId) (buf : List Byte) (sendLabels : Nat) : Outcome :=
  if env.room 0 buf.length then
    match env.refusal with
    | some refusal => .failed refusal.rc
    | none =>
        let rc := sendDefaultIrob (.mk nextIrob [] buf sendLabels)
        if toULong rc = buf.length then .returned (some buf) rc else .asserted
  else .threw

/-- `CMMSocketImpl::mc_send`. -/
def mcSend (env : Env) (nextIrob : IrobId) (buf : Iovec) (sendLabels : Nat) : Outcome :=
  if toSsize buf.bytes.length < 0 then .failed (-1)
  else if env.connectStatus ≠ 0 then .failed (-1)
  else defaultIrob env nextIrob buf.bytes sendLabels

/-- `CMMSocketImpl::default_irob_writev`. -/
def defaultIrobWritev (env : Env) (nextIrob : IrobId) (vec : List Iovec) (totalBytes : Int)
    (sendLabels : Nat) : Outcome :=
  if env.room 0 totalBytes.toNat then
    match copyLoop toSsize (fun bytesCopied => bytesCopied ≤ totalBytes) totalBytes vec 0 [] with
    | .asserted => .asserted
    | .overran => .overran
    | .done bytesCopied data =>
        if bytesCopied = totalBytes then
          match env.refusal with
          | some refusal => .failed refusal.rc
          | none =>
              let rc := sendDefaultIrob (.mk nextIrob [] data sendLabels)
              if rc = totalBytes then .returned (some data) rc else .asserted
        else .asserted
  else .threw

/-- The sum in `mc_writev`; none when it overflows. -/
def totalBytes : List Iovec → Int → Option Int
  | [], total => some total
  | vec :: rest, bytes =>
      let total := toSsize (bytes + vec.bytes.length)
      if total < bytes then none else totalBytes rest total

/-- `CMMSocketImpl::mc_writev`. The array has the entries that are counted. -/
def mcWritev (env : Env) (nextIrob : IrobId) (vec : List Iovec) (count : Int) (sendLabels : Nat) :
    Outcome :=
  if count < 0 then .failed (-1)
  else if count = 0 then .returned none 0
  else if env.connectStatus ≠ 0 then .failed (-1)
  else match totalBytes (vec.take count.toNat) 0 with
    | none => .failed (-1)
    | some total => defaultIrobWritev env nextIrob (vec.take count.toNat) total sendLabels

/-- `CMMSocketImpl::irob_chunk`; the data are copied once more. -/
def irobChunk (env : Env) (buf : List Byte) : Outcome :=
  match env.refusal with
  | some refusal => .failed refusal.rc
  | none => if env.room 1 buf.length then .returned (some buf) buf.length else .threw

/-- The sum in `mc_irob_writev`, whose additions of a `size_t` are stored in an `int`; none when
there is an entry of no bytes. -/
def bufLen : List Iovec → Int → Option Int
  | [], buflen => some buflen
  | vec :: rest, buflen =>
      if vec.bytes.length ≤ 0 then none else bufLen rest (toInt (buflen + vec.bytes.length))

/-- `CMMSocketImpl::mc_irob_writev`. A buffer of a negative length is one that no memory has room
for. -/
def mcIrobWritev (env : Env) (vec : Option (List Iovec)) (count : Int) : Outcome :=
  match vec with
  | none => .failed (-1)
  | some vec =>
      if count ≤ 0 then .failed (-1)
      else match bufLen (vec.take count.toNat) 0 with
        | none => .failed (-1)
        | some buflen =>
            if 0 ≤ buflen ∧ env.room 0 buflen.toNat then
              match copyLoop toInt (fun _ => true) buflen (vec.take count.toNat) 0 [] with
              | .asserted => .asserted
              | .overran => .overran
              | .done bytesCopied buf =>
                  if bytesCopied = buflen then
                    match irobChunk env buf with
                    | .failed rc => .failed (toInt rc)
                    | .returned buffer rc => .returned buffer (toInt rc)
                    | other => other
                  else .asserted
            else .threw

/-- The true sum of the lengths. -/
def sumLen (vec : List Iovec) : Nat := (vec.map fun entry => entry.bytes.length).sum

/-- A call fails, or its buffer has the true length, and that is what it returns. -/
def Outcome.Exact (length : Nat) : Outcome → Prop
  | .failed rc => rc < 0
  | .threw => True
  | .asserted => False
  | .overran => False
  | .returned buffer rc => rc = length ∧ ∀ content ∈ buffer, content.length = length

/-- A default IROB of this length is queued. -/
def Env.Queues (env : Env) (length : Nat) : Prop :=
  env.connectStatus = 0 ∧ env.room 0 length = true ∧ env.refusal = none

/-! ### Conversions and sums -/

section Lengths

variable {length : Nat} {vec : List Iovec}

theorem toInt_of_fits {value : Int} (low : -2 ^ 31 ≤ value) (high : value < 2 ^ 31) :
    toInt value = value := by
  apply Int.bmod_eq_of_le
  · exact low
  · exact high

theorem toSsize_of_fits {value : Int} (low : -2 ^ 63 ≤ value) (high : value < 2 ^ 63) :
    toSsize value = value := by
  apply Int.bmod_eq_of_le
  · exact low
  · exact high

/-- A sum of which each part fits into 64 bits is negative when it does not fit into 63. -/
theorem toSsize_of_large {value : Int} (low : 2 ^ 63 ≤ value) (high : value < 2 ^ 64 + 2 ^ 63) :
    toSsize value = value - 2 ^ 64 := by
  have shifted : toSsize value = toSsize (value - 2 ^ 64) := by
    rw [toSsize, toSsize]
    exact (Int.sub_bmod_right value (2 ^ 64)).symm
  rw [shifted]
  exact toSsize_of_fits (by omega) (by omega)

theorem toInt_eq_iff : toInt length = length ↔ length < 2 ^ 31 := by
  constructor
  · intro same
    have high : toInt length < 2 ^ 31 := Int.bmod_lt (by decide)
    omega
  · intro fits
    exact toInt_of_fits (by omega) (by omega)

/-- The lower 32 bits, read with their sign. -/
theorem toInt_natCast : toInt length =
    if length % 2 ^ 32 < 2 ^ 31 then ((length % 2 ^ 32 : Nat) : Int)
    else ((length % 2 ^ 32 : Nat) : Int) - 2 ^ 32 := by
  rw [toInt, Int.bmod_def]
  split_ifs <;> omega

/-- Where a length is converted back to a `size_t`, it is what it was if it fits into an `int`. -/
theorem toULong_toInt_eq_iff (small : length < 2 ^ 63) :
    toULong (toInt length) = length ↔ length < 2 ^ 31 := by
  have low : -2 ^ 31 ≤ toInt length := Int.le_bmod (by decide)
  rw [← toInt_eq_iff, toULong]
  split_ifs with negative
  · omega
  · rfl

theorem expectedBytes_mk (id : IrobId) (data : List Byte) (sendLabels : Nat) :
    (SenderIrob.mk id [] data sendLabels).expectedBytes = data.length := by
  cases data with
  | nil => rfl
  | cons first rest => exact Nat.add_zero _

theorem sumLen_cons (entry : Iovec) (vec : List Iovec) :
    sumLen (entry :: vec) = entry.bytes.length + sumLen vec := rfl

/-- The check for an overflow finds each of them. -/
theorem totalBytes_eq {total : Int} (nonneg : 0 ≤ total) (fits : total < 2 ^ 63) :
    totalBytes vec total =
      if total + sumLen vec < 2 ^ 63 then some (total + sumLen vec) else none := by
  induction vec generalizing total with
  | nil =>
      have whole : total + sumLen [] = total := Int.add_zero total
      rw [whole, if_pos fits]
      rfl
  | cons entry rest ih =>
      have small := entry.fits
      rw [totalBytes, sumLen_cons]
      by_cases inside : total + entry.bytes.length < 2 ^ 63
      · rw [toSsize_of_fits (by omega) inside, if_neg (by omega), ih (by omega) inside,
          Int.add_assoc]
        rfl
      · rw [toSsize_of_large (by omega) (by omega), if_pos (by omega), if_neg (by omega)]

/-- The sum in an `int` is the true one up to multiples of two to the 32nd. -/
theorem bufLen_eq {buflen : Int} (positive : ∀ entry ∈ vec, 0 < entry.bytes.length) :
    bufLen vec (toInt buflen) = some (toInt (buflen + sumLen vec)) := by
  induction vec generalizing buflen with
  | nil => exact congrArg (fun sum => some (toInt sum)) (Int.add_zero buflen).symm
  | cons entry rest ih =>
      have nonempty := positive entry List.mem_cons_self
      have wrapped : toInt (toInt buflen + entry.bytes.length) =
          toInt (buflen + entry.bytes.length) := Int.bmod_add_bmod
      rw [bufLen, if_neg (Nat.not_le.mpr nonempty), wrapped,
        ih fun other member => positive other (List.mem_cons_of_mem _ member), sumLen_cons,
        Int.add_assoc]
      rfl

theorem bufLen_eq_none {buflen : Int} {entry : Iovec} (member : entry ∈ vec)
    (empty : entry.bytes.length = 0) : bufLen vec buflen = none := by
  induction vec generalizing buflen with
  | nil => exact absurd member List.not_mem_nil
  | cons first rest ih =>
      rw [bufLen]
      split_ifs with none
      · rfl
      · rcases List.mem_cons.mp member with rfl | later
        · exact absurd (Nat.le_of_eq empty) none
        · exact ih later

end Lengths

/-! ### Copies -/

section Copies

variable {convert : Int → Int} {holds : Int → Bool} {size : Int} {vec : List Iovec}
  {content : List Byte}

/-- Where the buffer has room for all, each copy stays within it. -/
theorem copyLoop_of_le (exact : ∀ count, 0 ≤ count → count ≤ size → convert count = count)
    (asserts : ∀ count, count ≤ size → holds count = true)
    (room : (content.length : Int) + sumLen vec ≤ size) :
    ∃ data : List Byte, data.length = content.length + sumLen vec ∧
      copyLoop convert holds size vec content.length content = .done data.length data := by
  induction vec generalizing content with
  | nil => exact ⟨content, rfl, rfl⟩
  | cons entry rest ih =>
      rw [sumLen_cons] at room ⊢
      have within : (content.length : Int) + entry.bytes.length ≤ size := by omega
      have counted : convert (content.length + entry.bytes.length) =
          ((content ++ entry.bytes).length : Int) := by
        rw [exact _ (by omega) within, List.length_append, Int.natCast_add]
      obtain ⟨data, length, copied⟩ := @ih (content ++ entry.bytes) (by
        rw [List.length_append]
        omega)
      refine ⟨data, by rw [length, List.length_append, Nat.add_assoc], ?_⟩
      rw [copyLoop, if_neg (by omega), counted, if_pos]
      · exact copied
      · apply asserts
        rw [List.length_append]
        omega

/-- A buffer of the true sum is filled. -/
theorem copyLoop_whole (exact : ∀ count : Int, 0 ≤ count → count ≤ sumLen vec →
      convert count = count)
    (asserts : ∀ count : Int, count ≤ sumLen vec → holds count = true) :
    ∃ data : List Byte, data.length = sumLen vec ∧
      copyLoop convert holds (sumLen vec) vec 0 [] = .done (sumLen vec) data := by
  obtain ⟨data, length, copied⟩ := @copyLoop_of_le _ _ _ vec [] exact asserts (by
    rw [List.length_nil, Int.natCast_zero, Int.zero_add])
  rw [List.length_nil, Nat.zero_add] at length
  rw [List.length_nil, Int.natCast_zero, length] at copied
  exact ⟨data, length, copied⟩

/-- Where the buffer is too short, some copy goes beyond it. -/
theorem copyLoop_of_lt (exact : ∀ count, 0 ≤ count → count ≤ size → convert count = count)
    {bytesCopied : Int} (nonneg : 0 ≤ bytesCopied) (within : bytesCopied ≤ size)
    (short : size < bytesCopied + sumLen vec) :
    copyLoop convert (fun _ => true) size vec bytesCopied content = .overran := by
  induction vec generalizing bytesCopied content with
  | nil =>
      have whole : bytesCopied + sumLen [] = bytesCopied := Int.add_zero bytesCopied
      exact absurd (whole ▸ short) (Int.not_lt.mpr within)
  | cons entry rest ih =>
      by_cases beyond : bytesCopied < 0 ∨ size < bytesCopied + entry.bytes.length
      · exact if_pos beyond
      · rw [copyLoop, if_neg beyond, exact _ (by omega) (by omega), if_pos rfl]
        apply ih (by omega) (by omega)
        rw [sumLen_cons] at short
        omega

end Copies

/-! ### The calls -/

section Calls

variable (env : Env) (nextIrob : IrobId) (sendLabels : Nat)

theorem exact_rejected (length : Nat) : (Outcome.failed (-1)).Exact length :=
  Int.negSucc_lt_zero 0

/-- A default IROB is sent exactly if and only if its length fits into an `int`. -/
theorem defaultIrob_exact_iff {buf : List Byte} (small : buf.length < 2 ^ 63) :
    (defaultIrob env nextIrob buf sendLabels).Exact buf.length ↔
      (env.room 0 buf.length = true → env.refusal = none → buf.length < 2 ^ 31) := by
  rw [defaultIrob, sendDefaultIrob, expectedBytes_mk]
  cases env.room 0 buf.length with
  | false => exact iff_of_true trivial fun room => absurd room Bool.false_ne_true
  | true =>
      rw [if_pos rfl]
      cases env.refusal with
      | some refusal =>
          exact iff_of_true refusal.negative fun _ accepted => absurd accepted (by exact nofun)
      | none =>
          simp only [toULong_toInt_eq_iff small, forall_const]
          split_ifs with fits
          · refine iff_of_true ⟨toInt_eq_iff.mpr fits, fun content same => ?_⟩ fits
            rw [Option.mem_some_iff.mp same]
          · exact iff_of_false not_false fits

theorem mcSend_exact_iff (buf : Iovec) :
    (mcSend env nextIrob buf sendLabels).Exact buf.bytes.length ↔
      (env.Queues buf.bytes.length → buf.bytes.length < 2 ^ 31 ∨ 2 ^ 63 ≤ buf.bytes.length) := by
  have fits := buf.fits
  rw [mcSend]
  by_cases large : 2 ^ 63 ≤ buf.bytes.length
  · rw [toSsize_of_large (by omega) (by omega), if_pos (by omega)]
    exact iff_of_true (exact_rejected _) fun _ => .inr large
  · rw [toSsize_of_fits (by omega) (by omega), if_neg (by omega)]
    by_cases connected : env.connectStatus = 0
    · rw [if_neg (not_not_intro connected),
        defaultIrob_exact_iff env nextIrob sendLabels (Nat.lt_of_not_le large)]
      constructor
      · exact fun exact queues => .inl (exact queues.2.1 queues.2.2)
      · exact fun short room accepted =>
          (short ⟨connected, room, accepted⟩).resolve_right large
    · rw [if_pos connected]
      exact iff_of_true (exact_rejected _) fun queues => absurd queues.1 connected

theorem defaultIrobWritev_exact_iff {vec : List Iovec} (small : sumLen vec < 2 ^ 63) :
    (defaultIrobWritev env nextIrob vec (sumLen vec) sendLabels).Exact (sumLen vec) ↔
      (env.room 0 (sumLen vec) = true → env.refusal = none → sumLen vec < 2 ^ 31) := by
  rw [defaultIrobWritev, Int.toNat_natCast]
  cases env.room 0 (sumLen vec) with
  | false => exact iff_of_true trivial fun room => absurd room Bool.false_ne_true
  | true =>
      obtain ⟨data, length, copied⟩ := @copyLoop_whole toSsize
        (fun bytesCopied => decide (bytesCopied ≤ (sumLen vec : Int))) vec
        (fun count low high => toSsize_of_fits (by omega) (by omega))
        fun count high => decide_eq_true high
      rw [if_pos rfl]
      simp only [copied, if_true]
      cases env.refusal with
      | some refusal =>
          exact iff_of_true refusal.negative fun _ accepted => absurd accepted (by exact nofun)
      | none =>
          simp only [sendDefaultIrob, expectedBytes_mk, length, toInt_eq_iff, forall_const]
          split_ifs with fits
          · refine iff_of_true ⟨toInt_eq_iff.mpr fits, fun content same => ?_⟩ fits
            rw [Option.mem_some_iff.mp same] at length
            exact length
          · exact iff_of_false not_false fits

theorem mcWritev_exact_iff (vec : List Iovec) (count : Int) :
    (mcWritev env nextIrob vec count sendLabels).Exact (sumLen (vec.take count.toNat)) ↔
      (0 < count → env.Queues (sumLen (vec.take count.toNat)) →
        sumLen (vec.take count.toNat) < 2 ^ 31 ∨ 2 ^ 63 ≤ sumLen (vec.take count.toNat)) := by
  rw [mcWritev]
  rcases Int.lt_trichotomy count 0 with negative | zero | positive
  · rw [if_pos negative]
    exact iff_of_true (exact_rejected _) fun positive => by omega
  · subst zero
    refine iff_of_true ⟨rfl, fun content none => ?_⟩ fun positive => by omega
    exact absurd none (Option.not_mem_none content)
  · rw [if_neg (by omega), if_neg (by omega)]
    generalize vec.take count.toNat = entries
    by_cases connected : env.connectStatus = 0
    · rw [if_neg (not_not_intro connected), totalBytes_eq le_rfl (by decide), Int.zero_add]
      by_cases large : 2 ^ 63 ≤ sumLen entries
      · rw [if_neg (by omega)]
        exact iff_of_true (exact_rejected _) fun _ _ => .inr large
      · rw [if_pos (by omega)]
        simp only [defaultIrobWritev_exact_iff env nextIrob sendLabels (Nat.lt_of_not_le large)]
        constructor
        · exact fun exact _ queues => .inl (exact queues.2.1 queues.2.2)
        · exact fun short room accepted =>
            (short positive ⟨connected, room, accepted⟩).resolve_right large
    · rw [if_pos connected]
      exact iff_of_true (exact_rejected _) fun _ queues => absurd queues.1 connected

/-- The chunk is queued with the bytes that were copied. -/
theorem irobChunk_exact {buf : List Byte} (fits : buf.length < 2 ^ 31) :
    Outcome.Exact buf.length (match irobChunk env buf with
      | .failed rc => .failed (toInt rc)
      | .returned buffer rc => .returned buffer (toInt rc)
      | other => other) := by
  rw [irobChunk]
  cases env.refusal with
  | some refusal =>
      have low := refusal.fits
      have negative := refusal.negative
      simp only [toInt_of_fits low (by omega)]
      exact negative
  | none =>
      cases env.room 1 buf.length with
      | false => trivial
      | true =>
          refine ⟨toInt_eq_iff.mpr fits, fun content same => ?_⟩
          rw [Option.mem_some_iff.mp same]

/-- What a call comes to whose entries are all counted and none of which is empty. -/
theorem mcIrobWritev_of_positive {vec : List Iovec} {count : Int} (positive : 0 < count)
    (nonempty : ∀ entry ∈ vec.take count.toNat, 0 < entry.bytes.length) :
    (mcIrobWritev env (some vec) count).Exact (sumLen (vec.take count.toNat)) ↔
      (env.room 0 (sumLen (vec.take count.toNat) % 2 ^ 32) = true →
        sumLen (vec.take count.toNat) % 2 ^ 32 < 2 ^ 31 →
        sumLen (vec.take count.toNat) < 2 ^ 32) := by
  rw [mcIrobWritev, if_neg (Int.not_le.mpr positive)]
  generalize vec.take count.toNat = entries at nonempty ⊢
  have summed : bufLen entries 0 = some (toInt (sumLen entries)) := by
    have wrapped := @bufLen_eq entries 0 nonempty
    rwa [Int.zero_add] at wrapped
  rw [summed, toInt_natCast]
  by_cases sign : sumLen entries % 2 ^ 32 < 2 ^ 31
  · simp only [if_pos sign, Int.toNat_natCast, Int.natCast_nonneg, true_and]
    cases room : env.room 0 (sumLen entries % 2 ^ 32) with
    | false => exact iff_of_true trivial fun memory => absurd memory Bool.false_ne_true
    | true =>
        rw [if_pos rfl]
        by_cases small : sumLen entries < 2 ^ 32
        · rw [Nat.mod_eq_of_lt small] at sign ⊢
          obtain ⟨data, length, copied⟩ := @copyLoop_whole toInt (fun _ => true) entries
            (fun bytes low high => toInt_of_fits (by omega) (by omega)) fun _ _ => rfl
          simp only [copied, if_true]
          have exact := irobChunk_exact env (length.symm ▸ sign)
          rw [length] at exact
          exact iff_of_true exact fun _ _ => small
        · rw [copyLoop_of_lt (fun bytes low high => toInt_of_fits (by omega) (by omega)) le_rfl
            (by omega) (by omega)]
          exact iff_of_false not_false fun fits => small (fits rfl sign)
  · rw [if_neg sign]
    simp only
    rw [if_neg (by omega)]
    exact iff_of_true trivial fun _ low => absurd low sign

/-- A sum that no longer is the true one, and is not negative, is one of a shorter buffer. -/
theorem mcIrobWritev_exact_iff (vec : Option (List Iovec)) (count : Int) :
    (mcIrobWritev env vec count).Exact (sumLen ((vec.getD []).take count.toNat)) ↔
      (vec.isSome → 0 < count →
        (∀ entry ∈ (vec.getD []).take count.toNat, 0 < entry.bytes.length) →
        env.room 0 (sumLen ((vec.getD []).take count.toNat) % 2 ^ 32) = true →
        sumLen ((vec.getD []).take count.toNat) % 2 ^ 32 < 2 ^ 31 →
        sumLen ((vec.getD []).take count.toNat) < 2 ^ 32) := by
  cases vec with
  | none => exact iff_of_true (exact_rejected _) fun given => absurd given Bool.false_ne_true
  | some vec =>
      rw [Option.getD_some]
      by_cases positive : 0 < count
      · by_cases nonempty : ∀ entry ∈ vec.take count.toNat, 0 < entry.bytes.length
        · rw [mcIrobWritev_of_positive env positive nonempty]
          exact ⟨fun fits _ _ _ => fits, fun fits => fits rfl positive nonempty⟩
        · rw [mcIrobWritev, if_neg (Int.not_le.mpr positive)]
          push Not at nonempty
          obtain ⟨entry, member, empty⟩ := nonempty
          rw [bufLen_eq_none member (Nat.le_zero.mp empty)]
          exact iff_of_true (exact_rejected _) fun _ _ all =>
            absurd (all entry member) (Nat.not_lt.mpr empty)
      · rw [mcIrobWritev, if_pos (Int.not_lt.mp positive)]
        exact iff_of_true (exact_rejected _) fun _ few => absurd few positive

/-- A buffer is sent exactly, or the call fails, if and only if its length fits into an `int` when
it is queued, or does not fit into an `ssize_t`, which is rejected. So it is for the sum of the
lengths in `mc_writev`. In `mc_irob_writev` the sum is stored in an `int`: if it does not fit into
one, the bytes overrun the buffer, except where what is stored is negative and `new` throws. -/
theorem sends_exactly_iff (buf : Iovec) (vec : List Iovec) (given : Option (List Iovec))
    (count : Int) :
    ((mcSend env nextIrob buf sendLabels).Exact buf.bytes.length ↔
      (env.Queues buf.bytes.length → buf.bytes.length < 2 ^ 31 ∨ 2 ^ 63 ≤ buf.bytes.length)) ∧
    ((mcWritev env nextIrob vec count sendLabels).Exact (sumLen (vec.take count.toNat)) ↔
      (0 < count → env.Queues (sumLen (vec.take count.toNat)) →
        sumLen (vec.take count.toNat) < 2 ^ 31 ∨ 2 ^ 63 ≤ sumLen (vec.take count.toNat))) ∧
    ((mcIrobWritev env given count).Exact (sumLen ((given.getD []).take count.toNat)) ↔
      (given.isSome → 0 < count →
        (∀ entry ∈ (given.getD []).take count.toNat, 0 < entry.bytes.length) →
        env.room 0 (sumLen ((given.getD []).take count.toNat) % 2 ^ 32) = true →
        sumLen ((given.getD []).take count.toNat) % 2 ^ 32 < 2 ^ 31 →
        sumLen ((given.getD []).take count.toNat) < 2 ^ 32)) :=
  ⟨mcSend_exact_iff env nextIrob sendLabels buf,
    mcWritev_exact_iff env nextIrob sendLabels vec count, mcIrobWritev_exact_iff env given count⟩

end Calls

/-- A connected socket that accepts everything, and memory for any buffer. -/
def accepting : Env := ⟨0, fun _ _ => true, none⟩

/-- Two GiB. -/
def twoGiB : Iovec := ⟨List.replicate (2 ^ 31) 0, by rw [List.length_replicate]; decide⟩

theorem length_twoGiB : twoGiB.bytes.length = 2 ^ 31 := List.length_replicate

/-- Two GiB in one buffer, in one entry, and twice in two entries of one chunk. -/
theorem not_exact_two_gib :
    ¬(mcSend accepting 1 twoGiB 0).Exact twoGiB.bytes.length ∧
    ¬(mcWritev accepting 1 [twoGiB] 1 0).Exact (sumLen [twoGiB]) ∧
    ¬(mcIrobWritev accepting (some [twoGiB, twoGiB]) 2).Exact (sumLen [twoGiB, twoGiB]) := by
  have queues : ∀ length, accepting.Queues length := fun _ => ⟨rfl, rfl, rfl⟩
  have one : sumLen [twoGiB] = 2 ^ 31 := by
    rw [sumLen_cons, length_twoGiB]
    rfl
  have two : sumLen [twoGiB, twoGiB] = 2 ^ 32 := by
    rw [sumLen_cons, one, length_twoGiB]
    rfl
  refine ⟨?_, ?_, ?_⟩
  · rw [mcSend_exact_iff, length_twoGiB]
    exact fun exact => absurd (exact (queues _)) (by decide)
  · have exact_iff := mcWritev_exact_iff accepting 1 0 [twoGiB] 1
    rw [show [twoGiB].take (1 : Int).toNat = [twoGiB] from rfl, one] at exact_iff
    rw [one, exact_iff]
    exact fun exact => absurd (exact (by decide) (queues _)) (by decide)
  · have exact_iff := mcIrobWritev_exact_iff accepting (some [twoGiB, twoGiB]) 2
    rw [show ((some [twoGiB, twoGiB]).getD []).take (2 : Int).toNat = [twoGiB, twoGiB] from rfl,
      two] at exact_iff
    rw [two, exact_iff]
    intro exact
    have nonempty : ∀ entry ∈ [twoGiB, twoGiB], 0 < entry.bytes.length := by
      intro entry member
      have same : entry = twoGiB := by simpa using member
      rw [same, length_twoGiB]
      decide
    exact absurd (exact rfl (by decide) nonempty rfl (by decide)) (by decide)

end SendLengths

end Libcmm
