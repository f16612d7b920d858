import Provenant.Data.Json

/-!
# Processes as the run store sees them

The native identity of a process and what can be observed of a process id. The admission ledger
names the process that owns a lease by its identity and asks the host whether that process is still
there.

## Main definitions

* `ProcessIdentity` — boot, process id and start stamp, compared without the mutable groups.
* `ProcessObservation` — present, absent or unknown.
-/

namespace Provenant.Run

open Json

/-! ## Machine integers -/

/-- The largest value of an unsigned word of 64 bits. -/
def u64Max : Nat := 2 ^ 64 - 1

/-- `u64::saturating_add`. -/
def saturatingAdd (a b : Nat) : Nat := min (a + b) u64Max

/-! ## Process identities -/

/-- `ProcessIdentity`. Group and session may change during the lifetime of a process. -/
structure ProcessIdentity where
  boot : Text
  pid : Int
  nativeStart : Nat
  groupId : Int
  sessionId : Int
  deriving DecidableEq, Repr

/-- Equality of identities denotes the native process, never its mutable groups. -/
instance : BEq ProcessIdentity where
  beq a b := a.boot == b.boot && a.pid == b.pid && a.nativeStart == b.nativeStart

/-- The part of `ProcessFact` that ownership checks read. -/
structure ProcessFact where
  identity : ProcessIdentity
  zombie : Bool
  deriving DecidableEq, Repr

/-- `ProcessObservation`, what the host says about a process id. -/
inductive ProcessObservation
  | present (fact : ProcessFact)
  | absent
  | unknown
  deriving DecidableEq, Repr

end Provenant.Run
