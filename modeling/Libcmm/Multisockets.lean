import Mathlib.Data.List.Basic
import Mathlib.Data.List.Nodup

/-! # The descriptors of multisockets (`cmm_socket_impl.cpp`)

To wait for a multisocket, a call waits for descriptors that belong to it: the reading ends of two
pipes, for reads and for writes, and those of its csockets for exceptions. What a wait does to the
pipes first, to clear them and to wake a call that need not block, shows in what the kernel reports.
-/

namespace Libcmm

/-- The members of a multisocket that a wait needs: `select_pipe[0]`, `write_ready_pipe[0]`, the
descriptors of its csockets, the status of the bootstrapper unless that is null, and the result of
`will_block_on_read`. -/
structure Multisocket where
  selectPipe : Int
  writeReadyPipe : Int
  osfds : List Int
  bootstrapper : Option Int
  willBlockOnRead : Bool
  deriving DecidableEq

/-- The descriptors that belong to a multisocket. -/
def Multisocket.underlying (sk : Multisocket) : List Int :=
  sk.selectPipe :: sk.writeReadyPipe :: sk.osfds

/-- `cmm_sock_hash`. Descriptors of one multisocket differ from each other, from those of another
one, and from the numbers of multisockets. -/
structure SockHash where
  table : Int → Option Multisocket
  distinct : ∀ s sk, table s = some sk → sk.underlying.Nodup
  apart : ∀ s t sk other, table s = some sk → table t = some other → s ≠ t →
    ∀ fd ∈ sk.underlying, fd ∉ other.underlying
  notNumbers : ∀ s sk, table s = some sk → ∀ fd ∈ sk.underlying, table fd = none

/-- `CMMSocketImpl::get_fds_for_select`, the pairs that it appends; it traps where a null pointer is
followed. -/
def Multisocket.getFdsForSelect (sk : Multisocket) (sock : Int) (reading writing : Bool) :
    Option (List (Int × Int)) :=
  if reading then if writing then none else some [(sock, sk.selectPipe)]
  else if writing then sk.bootstrapper.map fun _ => [(sock, sk.writeReadyPipe)]
  else some (sk.osfds.map (sock, ·))

namespace SockHash

variable {hash : SockHash} {s t fd : Int} {sk other : Multisocket}

theorem selectPipe_ne (held : hash.table s = some sk) : sk.selectPipe ≠ sk.writeReadyPipe := by
  intro same
  have distinct := (List.nodup_cons.mp (hash.distinct s sk held)).1
  exact distinct (same ▸ List.mem_cons_self)

/-- A descriptor belongs to one multisocket at most. -/
theorem eq_of_mem_underlying (held : hash.table s = some sk) (heldToo : hash.table t = some other)
    (member : fd ∈ sk.underlying) (memberToo : fd ∈ other.underlying) : s = t := by
  by_contra different
  exact hash.apart s t sk other held heldToo different fd member memberToo

end SockHash

end Libcmm
