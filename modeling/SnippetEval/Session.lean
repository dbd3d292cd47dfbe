import SnippetEval.Bridge
import SnippetEval.Description.Host
import SnippetEval.Evaluator
/-!
A session of named sandboxes and evaluators that share one registry of modules. An evaluator is
known by a number, so one whose name was given to another stays reachable through the registry.
-/

namespace SnippetEval

inductive Adjustment
  | refresh
  | revoke
  | foreign
  | withoutIssues
  | reshape (shape : UnitShape)

def Adjustment.apply (a : Adjustment) (u : CompiledUnit) (s : Sandbox) : CompiledUnit × Sandbox :=
  match a with
  | refresh => (u, s.refresh)
  | revoke => (u.revoke, s)
  | foreign => ({ u with body := some .foreign, issues := [] }, s)
  | withoutIssues => (.invalid u.fingerprint [], s)
  | reshape shape => (if u.body.isSome then { u with shape } else u, s)

structure Seat where
  evaluator : Evaluator
  sandbox : String
  cache : Cache CachedUnit := .empty

structure Session where
  sandboxes : Table String Sandbox := .empty
  seats : Table Nat Seat := .empty
  names : Table String Nat := .empty
  registry : Registry Nat := .empty
  objects : Objects := .empty
  seatCount : Nat := 0
  graphCount : Nat := 0

namespace Session

def sandbox (s : Session) (name : String) : Sandbox := (s.sandboxes.get? name).getD {}

def setSandbox (s : Session) (name : String) (sandbox : Sandbox) : Session :=
  { s with sandboxes := s.sandboxes.insert name sandbox }

def define (s : Session) (name : String) (t : TypeDef) : Session :=
  s.setSandbox name ((s.sandbox name).define t)

def refresh (s : Session) (name : String) : Session :=
  s.setSandbox name (s.sandbox name).refresh

def enterIncludeAll (s : Session) (name : String) : Session :=
  s.setSandbox name (s.sandbox name).enterIncludeAll

def exitIncludeAll (s : Session) (name : String) : Session :=
  s.setSandbox name (s.sandbox name).exitIncludeAll

def install (s : Session) (name : String) (d : HostDescription) : Except HostError Nat × Session :=
  let (result, sandbox) := d.install s.graphCount (s.sandbox name)
  let s := { s.setSandbox name sandbox with graphCount := s.graphCount + 1 }
  match result with
  | .error e => (.error e, s)
  | .ok objects =>
    let merged := objects.entries.foldl (fun all e => all.insert e.1 e.2) s.objects
    (.ok objects.size, { s with objects := merged })

def setEvaluator (s : Session) (name sandbox : String) (e : Evaluator) : Session :=
  { s with
    seats := s.seats.insert s.seatCount { evaluator := e, sandbox }
    names := s.names.insert name s.seatCount
    seatCount := s.seatCount + 1 }

def initial : Session := Session.setEvaluator {} "main" "main" {}

def seat? (s : Session) (name : String) : Option (Nat × Seat) := do
  let n ← s.names.get? name
  let seat ← s.seats.get? n
  return (n, seat)

def liveSeats (s : Session) : List Seat :=
  (s.names.values ++ s.registry.values.map Entry.target).eraseDups.filterMap s.seats.get?

/-- Revokes the programs of a sandbox that were compiled against a context, and counts those that a
live evaluator keeps. -/
def invalidate (s : Session) (sandbox context : String) : Nat × Session :=
  let revoked := (s.liveSeats.filter (·.sandbox = sandbox)).flatMap
    fun seat => seat.cache.unitsAgainst context
  let seats := s.seats.map fun _ seat =>
    if seat.sandbox = sandbox then { seat with cache := seat.cache.invalidate context } else seat
  (revoked.length, { s with seats })

def withSeat {α : Type} (s : Session) (n : Nat) (seat : Seat) (f : EvalState → α × EvalState) :
    α × Session :=
  let (a, t) := f ⟨s.sandbox seat.sandbox, seat.cache⟩
  let s := s.setSandbox seat.sandbox t.sandbox
  (a, { s with seats := s.seats.insert n { seat with cache := t.cache } })

def answer : Runner Nat Request Session Value := fun n r s =>
  match s.seats.get? n with
  | none => (.error (.execution ⟨.host, "no evaluator", none⟩), s)
  | some seat => s.withSeat n seat (seat.evaluator.evaluate r)

def unit (s : Session) (n : Nat) (seat : Seat) (r : Request) :
    Except EvalError CachedUnit × Session :=
  match Evaluator.bindSymbols r with
  | .error e => (.error e, s)
  | .ok env => s.withSeat n seat (seat.evaluator.compiledUnit r env)

def clearCache (s : Session) (n : Nat) (seat : Seat) : Session :=
  (s.withSeat n seat fun t => ((), t.clearCache)).2

def register (s : Session) (module : String) (entry : Entry Nat) : Session :=
  { s with registry := Registry.register s.registry module entry }

def unregister (s : Session) (module : String) : Bool × Session :=
  (s.registry.contains module, { s with registry := s.registry.erase module })

def bridge (s : Session) (n : Nat) (localOnly : Bool) (module : String) (r : Request) :
    Except EvalError Value × Session :=
  let registry := if localOnly then none else some s.registry
  let b : Bridge Nat := { fallback := .direct n, registry }
  b.evaluate answer module r s

end Session

end SnippetEval
