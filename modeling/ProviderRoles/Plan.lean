import ProviderRoles.Event
import ProviderRoles.Store.Call

/-! Plans: programs of store calls as data. A plan says which call comes next given the
replies so far, and does not say who answers. The same plan runs against a store alone, a
disturbed one, or any other source of replies. -/
namespace ProviderRoles

inductive Plan (α : Type) : Type where
  | done (a : α)
  | note (n : Note) (next : Plan α)
  | call (c : Call) (next : Except StoreError c.Reply → Plan α)

namespace Plan

variable {α β : Type}

def bind : Plan α → (α → Plan β) → Plan β
  | .done a, f => f a
  | .note n next, f => .note n (next.bind f)
  | .call c next, f => .call c fun reply => (next reply).bind f

instance : Monad Plan where
  pure := .done
  bind := bind

theorem bind_done (p : Plan α) : p.bind .done = p := by
  induction p with
  | done a => rfl
  | note n next ih => rw [bind, ih]
  | call c next ih => rw [bind, funext ih]

theorem bind_bind {γ : Type} (p : Plan α) (f : α → Plan β) (g : β → Plan γ) :
    (p.bind f).bind g = p.bind fun a => (f a).bind g := by
  induction p with
  | done a => rfl
  | note n next ih => rw [bind, bind, ih, bind]
  | call c next ih => rw [bind, bind, funext ih, bind]

instance : LawfulMonad Plan :=
  LawfulMonad.mk' Plan bind_done (fun _ _ => rfl) bind_bind

def log (e : Event) : Plan Unit := .note (.event e) (.done ())

def get (kind : String) (key : ObjectKey) : Plan (Except StoreError Manifest) :=
  .call (.get kind key) .done

def list (kind : String) (selector : Selector) : Plan (Except StoreError (List Manifest)) :=
  .call (.list kind selector) .done

def create (m : Manifest) : Plan (Except StoreError Manifest) := .call (.create m) .done

def update (m : Manifest) : Plan (Except StoreError Manifest) := .call (.update m) .done

def delete (kind : String) (key : ObjectKey) : Plan (Except StoreError Unit) :=
  .call (.delete kind key) .done

end Plan

/-- A call that someone works on. It takes effect when it completes. -/
structure Pending (σ β : Type) where
  /-- How long it takes, in seconds. -/
  delay : Nat
  /-- The state as long as the call is under way, and after it if it is given up. -/
  begun : σ
  /-- Reply and state when it completes. -/
  finish : Except StoreError β × σ

/-- Answers calls and keeps a state of type `σ`. -/
abbrev Server (σ : Type) := (c : Call) → σ → Pending σ c.Reply

/-- Answers every call at once. -/
def Server.immediate {σ : Type} (serve : (c : Call) → σ → Except StoreError c.Reply × σ) :
    Server σ :=
  fun c s => ⟨0, s, serve c s⟩

structure Completed where
  call : Call
  reply : Except StoreError call.Reply

/-- How a plan went. The completed calls and the notes are in order. -/
structure Run (σ α : Type) where
  /-- The result, unless the plan was given up. -/
  result : Option α
  state : σ
  /-- When the last call completed. -/
  elapsed : Nat
  calls : List Completed
  notes : List Note

namespace Plan

/-- Runs a plan that has taken `elapsed` seconds so far. It is given up as soon as a call
would complete after `limit` seconds, and that call does not take effect. -/
def run {σ α : Type} (serve : Server σ) (limit : Option Nat) : Plan α → Nat → σ → Run σ α
  | .done a, elapsed, s => ⟨some a, s, elapsed, [], []⟩
  | .note n next, elapsed, s =>
    let r := next.run serve limit elapsed s
    { r with notes := n :: r.notes }
  | .call c next, elapsed, s =>
    let pending := serve c s
    let later := elapsed + pending.delay
    if limit.any (· < later) then ⟨none, pending.begun, elapsed, [], []⟩
    else
      let (reply, s) := pending.finish
      let r := (next reply).run serve limit later s
      { r with calls := ⟨c, reply⟩ :: r.calls }

end Plan

end ProviderRoles
