import SnippetEval.Proofs.Cache.History
import SnippetEval.Proofs.Evaluator.FreshUnit

namespace SnippetEval

inductive Operation
  | evaluate (r : Request)
  | define (t : TypeDef)
  | refresh
  | invalidate (context : String)
  | clearCache

def Operation.request? : Operation → Option Request
  | evaluate r => some r
  | _ => none

namespace Evaluator

def perform (e : Evaluator) (s : EvalState) :
    Operation → Option (Except EvalError Value) × EvalState
  | .evaluate r => ((e.evaluate r s).1, (e.evaluate r s).2)
  | .define t => (none, s.define t)
  | .refresh => (none, s.refresh)
  | .invalidate context => (none, (s.invalidate context).2)
  | .clearCache => (none, s.clearCache)

def answers (e : Evaluator) (s : EvalState) :
    List Operation → List (Option (Except EvalError Value))
  | [] => []
  | op :: ops => (e.perform s op).1 :: e.answers (e.perform s op).2 ops

def after (e : Evaluator) (s : EvalState) (ops : List Operation) : EvalState :=
  ops.foldl (fun s op => (e.perform s op).2) s

theorem after_concat (e : Evaluator) (s : EvalState) (ops : List Operation) (op : Operation) :
    e.after s (ops ++ [op]) = (e.perform (e.after s ops) op).2 := by
  rw [after, List.foldl_append]
  rfl

def Misses (s : EvalState) (f : Fingerprint) : Prop :=
  ∀ u, (s.cache.get f s.sandbox.generation).1 = some u → u.unit.isValid = false

def synced (s : EvalState) : EvalState :=
  { s with cache := s.cache.sync s.sandbox.generation }

def afterCompiling (s : EvalState) (f : Fingerprint) (u : CachedUnit) : EvalState where
  sandbox := { s.sandbox with compiles := s.sandbox.compiles + 1 }
  cache := (synced s).cache.put f u s.sandbox.generation

theorem lookUp_cached (maxDepth : Nat) (f : Fingerprint) (s : EvalState) :
    ({ maxDepth } : Evaluator).lookUp f s =
      ((s.cache.get f s.sandbox.generation).1.filter (·.unit.isValid), synced s) := by
  have hget : s.cache.get f s.sandbox.generation =
      ((s.cache.get f s.sandbox.generation).1, (synced s).cache) := by
    rw [Cache.get_eq_getSynced]
    rfl
  simp only [lookUp, ↓reduceIte]
  rw [hget]
  rfl

theorem compileFresh_cached (maxDepth : Nat) (r : Request) (names : List String)
    (place : Resolution) (s : EvalState) :
    ({ maxDepth } : Evaluator).compileFresh r names (r.fingerprintWith names) place s =
      (verdict r.source (unitIn r names place),
        { sandbox := { s.sandbox with compiles := s.sandbox.compiles + 1 }
          cache := s.cache.put (r.fingerprintWith names) (unitIn r names place)
            s.sandbox.generation }) := rfl

variable (maxDepth : Nat) (r : Request) (env : RuntimeEnv) (s : EvalState)

theorem compiledUnit_cases :
    (∃ u, (s.cache.get (r.fingerprintWith env.keys) s.sandbox.generation).1 = some u ∧
      u.unit.isValid = true ∧
      ({ maxDepth } : Evaluator).compiledUnit r env s = (.ok u, synced s)) ∨
    Misses s (r.fingerprintWith env.keys) ∧
      ((∃ err, freshUnit maxDepth s.sandbox r env.keys = .error err ∧
        ({ maxDepth } : Evaluator).compiledUnit r env s = (.error err, synced s)) ∨
      ∃ u, freshUnit maxDepth s.sandbox r env.keys = .ok u ∧
        ({ maxDepth } : Evaluator).compiledUnit r env s =
          (verdict r.source u, afterCompiling s (r.fingerprintWith env.keys) u)) := by
  have hlook := lookUp_cached maxDepth (r.fingerprintWith env.keys)
    { s with sandbox := s.sandbox.enterIncludeAll }
  have hgen : s.sandbox.enterIncludeAll.generation = s.sandbox.generation := rfl
  rw [hgen] at hlook
  simp only [compiledUnit, unitIncludingAll]
  rw [hlook]
  cases hfound : (s.cache.get (r.fingerprintWith env.keys) s.sandbox.generation).1.filter
      (·.unit.isValid) with
  | some u =>
    obtain ⟨hu, hvalid⟩ := Option.filter_eq_some_iff.mp hfound
    exact .inl ⟨u, hu, hvalid, rfl⟩
  | none =>
    have hmiss : Misses s (r.fingerprintWith env.keys) := fun u hu => by
      simpa using Option.filter_eq_none_iff.mp hfound u hu
    refine .inr ⟨hmiss, ?_⟩
    cases hplace : s.sandbox.enterIncludeAll.resolve maxDepth r.enclosing r.immediate r.offset with
    | error err =>
      refine .inl ⟨err, by simp [freshUnit, hplace, Except.map], ?_⟩
      simp only [synced, hplace]
      rfl
    | ok place =>
      refine .inr ⟨unitIn r env.keys place, by simp [freshUnit, hplace, Except.map], ?_⟩
      simp only [synced, hplace, compileFresh_cached, afterCompiling]
      rfl

end Evaluator

end SnippetEval
