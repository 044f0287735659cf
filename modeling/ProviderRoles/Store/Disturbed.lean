import ProviderRoles.Plan

/-! A store behind a script of disturbances. A disturbance delays a call, lets other writers
in before it, and fails it or lets it through. -/
namespace ProviderRoles

inductive Intrusion where
  | create (object : Manifest)
  | update (object : Manifest)
  | delete (kind : String) (key : ObjectKey)
  /-- Writes the stored object again as it is. -/
  | touch (kind : String) (key : ObjectKey)

structure Disturbance where
  operation : Operation
  kind : Option String := none
  name : Option String := none
  /-- How many matching calls go undisturbed first. -/
  skip : Nat := 0
  /-- How many calls are disturbed after those. -/
  times : Nat := 1
  delay : Nat := 0
  intrusions : List Intrusion := []
  error : Option StoreError := none

namespace Disturbance

def matchesCall (d : Disturbance) (c : Call) : Bool :=
  d.operation = c.operation
    && d.kind.all (· = c.kind)
    && d.name.all fun name => c.key?.any (·.name = name)

/-- The disturbance that a call meets, and the script after it. The first one that matches
and is not used up takes the call, if only to count it as skipped. -/
def meet (c : Call) : List Disturbance → Option Disturbance × List Disturbance
  | [] => (none, [])
  | d :: ds =>
    if d.times ≠ 0 ∧ d.matchesCall c then
      if d.skip ≠ 0 then (none, { d with skip := d.skip - 1 } :: ds)
      else (some d, { d with times := d.times - 1 } :: ds)
    else
      let (met, ds) := meet c ds
      (met, d :: ds)

end Disturbance

/-- A store, the script, and how much of the births has been used up. -/
structure DisturbedStore where
  store : Store
  script : List Disturbance := []
  /-- How many UIDs the store has given out. -/
  born : Nat := 0

namespace DisturbedStore

/-- A call that gives out a UID when it succeeds. -/
def asksForUid : Call → Bool
  | .create m => m.metadata.uid.isEmpty
  | _ => false

def perform (births : Nat → Birth) (c : Call) (w : DisturbedStore) :
    Except StoreError c.Reply × DisturbedStore :=
  let (reply, store) := w.store.perform (births w.born) c
  let born := if asksForUid c && reply.isOk then w.born + 1 else w.born
  (reply, { w with store, born })

/-- Lets another writer in. Whether the write succeeds does not matter. -/
def intrude (births : Nat → Birth) (w : DisturbedStore) : Intrusion → DisturbedStore
  | .create m => (w.perform births (.create m)).2
  | .update m => (w.perform births (.update m)).2
  | .delete kind key => (w.perform births (.delete kind key)).2
  | .touch kind key =>
    match w.store.get kind key with
    | .ok m => (w.perform births (.update m)).2
    | .error _ => w

def finish (births : Nat → Birth) (d : Disturbance) (c : Call) (w : DisturbedStore) :
    Except StoreError c.Reply × DisturbedStore :=
  let w := d.intrusions.foldl (intrude births) w
  match d.error with
  | some e => (.error e, w)
  | none => w.perform births c

def serve (births : Nat → Birth) : Server DisturbedStore := fun c w =>
  let (met, script) := Disturbance.meet c w.script
  let w := { w with script }
  match met with
  | none => ⟨0, w, w.perform births c⟩
  | some d => ⟨d.delay, w, w.finish births d c⟩

end DisturbedStore

end ProviderRoles
