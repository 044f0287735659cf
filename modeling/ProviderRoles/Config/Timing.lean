import ProviderRoles.Json.Decode

/-! The timings of a reconciler, in seconds. -/
namespace ProviderRoles

structure Timing where
  /-- The delay before another try after a failure that may pass. -/
  shortWait : UInt64 := 30
  /-- The longest time that one reconcile may take. -/
  timeout : UInt64 := 60
  deriving DecidableEq, Inhabited

inductive TimingFlaw where
  | noShortWait
  | noTimeout
  | shortWaitTooLong
  deriving DecidableEq

def TimingFlaw.message : TimingFlaw → String
  | .noShortWait => "reconciler.short_wait_secs must be > 0"
  | .noTimeout => "reconciler.timeout_secs must be > 0"
  | .shortWaitTooLong => "reconciler.short_wait_secs must be < reconciler.timeout_secs"

namespace Timing

/-- Both timings have to be positive and the short wait below the timeout. The first flaw
counts. -/
def flaw? (t : Timing) : Option TimingFlaw :=
  if t.shortWait = 0 then some .noShortWait
  else if t.timeout = 0 then some .noTimeout
  else if t.timeout ≤ t.shortWait then some .shortWaitTooLong
  else none

theorem flaw?_eq_none_iff {t : Timing} :
    t.flaw? = none ↔ 0 < t.shortWait ∧ t.shortWait < t.timeout := by
  simp only [flaw?, ← UInt64.toNat_inj, UInt64.le_iff_toNat_le, UInt64.lt_iff_toNat_lt,
    UInt64.toNat_zero]
  split
  · simp; omega
  · split
    · simp; omega
    · split
      · simp; omega
      · simp; omega

def encode (t : Timing) : Json :=
  .ofMap <| Json.ofFields
    [("short_wait_secs", some (.int t.shortWait.toNat)),
     ("timeout_secs", some (.int t.timeout.toNat))]

open Decode

def ofMembers (ms : SortedMap Json) : Except DecodeError Timing := do
  let shortWait ← field? ms "short_wait_secs" unsigned64
  let timeout ← field? ms "timeout_secs" unsigned64
  pure ⟨shortWait.getD 30, timeout.getD 60⟩

def ofItems (xs : List Json) : Except DecodeError Timing := do
  let shortWait ← item? xs 0 unsigned64
  let timeout ← item? xs 1 unsigned64
  pure ⟨shortWait.getD 30, timeout.getD 60⟩

def decode : Decoder Timing := record "ReconcilerConfig" 2 ofMembers ofItems

end Timing

structure Settings where
  reconciler : Timing := {}
  deriving DecidableEq, Inhabited

namespace Settings

def flaw? (s : Settings) : Option TimingFlaw := s.reconciler.flaw?

def encode (s : Settings) : Json :=
  .ofMap <| Json.ofFields [("reconciler", some s.reconciler.encode)]

open Decode

def ofMembers (ms : SortedMap Json) : Except DecodeError Settings := do
  let reconciler ← field? ms "reconciler" Timing.decode
  pure ⟨reconciler.getD {}⟩

def ofItems (xs : List Json) : Except DecodeError Settings := do
  let reconciler ← item? xs 0 Timing.decode
  pure ⟨reconciler.getD {}⟩

def decode : Decoder Settings := record "ControllerConfig" 1 ofMembers ofItems

end Settings

end ProviderRoles
