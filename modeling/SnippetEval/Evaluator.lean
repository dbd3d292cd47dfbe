import SnippetEval.Cache
import SnippetEval.Compilation
import SnippetEval.Invocation
import SnippetEval.Resolution

namespace SnippetEval

structure Request where
  source : String
  enclosing : Option String := none
  immediate : Option String := none
  offset : Nat := 0
  receiver : Option Instance := none
  symbols : List Value := []

namespace Request

def fingerprintWith (r : Request) (names : List String) : Fingerprint :=
  (Fingerprint.compute r.source r.enclosing r.immediate r.offset).withExternals names

def namesOf : List Value → List String
  | name :: _ :: rest => name.text?.toList ++ namesOf rest
  | [name] => name.text?.toList
  | [] => []

def fingerprint (r : Request) : Fingerprint := r.fingerprintWith (namesOf r.symbols)

end Request

structure CachedUnit where
  unit : CompiledUnit
  hops : Nat
  context : Option String

structure Evaluator where
  maxDepth : Nat := 64
  caches : Bool := true
  /-- What becomes of every unit that has just been compiled. -/
  adjust : CompiledUnit → Sandbox → CompiledUnit × Sandbox := Prod.mk

structure EvalState where
  sandbox : Sandbox := {}
  cache : Cache CachedUnit := .empty

abbrev Evaluated (α : Type) := Except EvalError α × EvalState

namespace Evaluator

def lookUp (e : Evaluator) (f : Fingerprint) (s : EvalState) : Option CachedUnit × EvalState :=
  if e.caches then
    let (hit, cache) := s.cache.get f s.sandbox.generation
    (hit.filter (·.unit.isValid), { s with cache })
  else (none, s)

def verdict (source : String) (u : CachedUnit) : Except EvalError CachedUnit :=
  if u.unit.isValid then .ok u
  else match u.unit.errors with
    | [] =>
      .error (.compilation [{
        severity := .error, span := ⟨0, source.utf8ByteSize⟩
        message := "compiled unit was invalidated before it could run" }])
    | issues => .error (.compilation issues)

def compileFresh (e : Evaluator) (r : Request) (names : List String) (f : Fingerprint)
    (place : Resolution) (s : EvalState) : Evaluated CachedUnit :=
  let (unit, sandbox) := s.sandbox.compile {
    fingerprint := f
    source := r.source
    context := place.context
    symbols := place.symbols.declareExternals names
    anchor := place.anchor }
  let (unit, sandbox) := e.adjust unit sandbox
  let compiled : CachedUnit := ⟨unit, place.hops, place.context.map TypeDef.name⟩
  let cache := if e.caches then s.cache.put f compiled s.sandbox.generation else s.cache
  (verdict r.source compiled, ⟨sandbox, cache⟩)

def unitIncludingAll (e : Evaluator) (r : Request) (names : List String) (s : EvalState) :
    Evaluated CachedUnit :=
  let f := r.fingerprintWith names
  match e.lookUp f s with
  | (some hit, s) => (.ok hit, s)
  | (none, s) =>
    match s.sandbox.resolve e.maxDepth r.enclosing r.immediate r.offset with
    | .error err => (.error err, s)
    | .ok place => e.compileFresh r names f place s

def compiledUnit (e : Evaluator) (r : Request) (env : RuntimeEnv) (s : EvalState) :
    Evaluated CachedUnit :=
  let (result, s) := e.unitIncludingAll r env.keys { s with sandbox := s.sandbox.enterIncludeAll }
  (result, { s with sandbox := s.sandbox.exitIncludeAll })

def bindSymbols (r : Request) : Except EvalError RuntimeEnv :=
  match RuntimeEnv.ofPairs r.symbols with
  | .ok env => .ok env
  | .error m => .error (.invalidSymbols m.message)

def call (r : Request) (env : RuntimeEnv) (u : CachedUnit) : Except EvalError Value := do
  let receiver ← walkOuter r.receiver u.hops (u.context.getD "<top level>")
  u.unit.invoke receiver env

def evaluate (e : Evaluator) (r : Request) (s : EvalState) : Evaluated Value :=
  match bindSymbols r with
  | .error err => (.error err, s)
  | .ok env =>
    match e.compiledUnit r env s with
    | (.error err, s) => (.error err, s)
    | (.ok u, s) => (call r env u, s)

end Evaluator

def Cache.invalidate (c : Cache CachedUnit) (context : String) : Cache CachedUnit :=
  c.map fun u => if u.unit.isAgainst context then { u with unit := u.unit.revoke } else u

def Cache.unitsAgainst (c : Cache CachedUnit) (context : String) : List CachedUnit :=
  c.entries.values.filter (·.unit.isAgainst context)

namespace EvalState

def define (s : EvalState) (t : TypeDef) : EvalState := { s with sandbox := s.sandbox.define t }

def refresh (s : EvalState) : EvalState := { s with sandbox := s.sandbox.refresh }

def invalidate (s : EvalState) (context : String) : Nat × EvalState :=
  ((s.cache.unitsAgainst context).length, { s with cache := s.cache.invalidate context })

def clearCache (s : EvalState) : EvalState := { s with cache := s.cache.clear }

end EvalState

end SnippetEval
