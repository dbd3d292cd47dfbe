import SnippetEval.Proofs.Fingerprint.NameSet
import SnippetEval.Proofs.Symbols
import SnippetEval.Proofs.Typing.Lookup

namespace SnippetEval

namespace Sandbox

variable {s t : Sandbox}

theorem resolveType_congr (h : s.types = t.types) (hs : s.includeAll ≠ 0) (ht : t.includeAll ≠ 0)
    (name : String) : s.resolveType name = t.resolveType name := by
  simp [resolveType, h, hs, ht]

theorem lookup_congr (h : s.types = t.types) (hs : s.includeAll ≠ 0) (ht : t.includeAll ≠ 0)
    (name : String) : s.lookup name = t.lookup name := by
  simp only [lookup, resolveType_congr h hs ht]

theorem nearestFrom_congr (h : s.types = t.types) (hops left : Nat) (d : TypeDef) :
    s.nearestFrom hops left d = t.nearestFrom hops left d := by
  have henc (d : TypeDef) : s.enclosing d = t.enclosing d := by simp only [enclosing, h]
  induction left generalizing hops d with
  | zero => simp only [nearestFrom]
  | succ left ih => simp only [nearestFrom, henc, ih]

theorem resolve_congr (h : s.types = t.types) (hs : s.includeAll ≠ 0) (ht : t.includeAll ≠ 0)
    (maxDepth : Nat) (enclosing immediate : Option String) (offset : Nat) :
    s.resolve maxDepth enclosing immediate offset =
      t.resolve maxDepth enclosing immediate offset := by
  simp only [resolve, lookup_congr h hs ht, nearestWithSource, nearestFrom_congr h]

end Sandbox

structure Request.Alike (r q : Request) : Prop where
  source : r.source = q.source
  enclosing : r.enclosing = q.enclosing
  immediate : r.immediate = q.immediate
  offset : r.offset = q.offset
  names : ∀ n, n ∈ Request.namesOf r.symbols ↔ n ∈ Request.namesOf q.symbols

theorem Request.Alike.refl (r : Request) : r.Alike r := ⟨rfl, rfl, rfl, rfl, fun _ => Iff.rfl⟩

namespace Evaluator

theorem fingerprintWith_keys {r : Request} {env : RuntimeEnv} (h : bindSymbols r = .ok env) :
    r.fingerprintWith env.keys = r.fingerprint :=
  Fingerprint.withExternals_congr _ (mem_keys_bindSymbols h)

def requestIn (r : Request) (names : List String) (place : Resolution) : CompileRequest where
  fingerprint := r.fingerprintWith names
  source := r.source
  context := place.context
  symbols := place.symbols.declareExternals names
  anchor := place.anchor

def unitIn (r : Request) (names : List String) (place : Resolution) : CachedUnit where
  unit := CompileRequest.compile {
    fingerprint := r.fingerprintWith names
    source := r.source
    context := place.context
    symbols := place.symbols.declareExternals names
    anchor := place.anchor }
  hops := place.hops
  context := place.context.map TypeDef.name

theorem unit_unitIn (r : Request) (names : List String) (place : Resolution) :
    (unitIn r names place).unit = (requestIn r names place).compile := rfl

def freshUnit (maxDepth : Nat) (s : Sandbox) (r : Request) (names : List String) :
    Except EvalError CachedUnit :=
  (s.enterIncludeAll.resolve maxDepth r.enclosing r.immediate r.offset).map (unitIn r names)

theorem freshUnit_eq_ok_iff {maxDepth : Nat} {s : Sandbox} {r : Request} {names : List String}
    {u : CachedUnit} : freshUnit maxDepth s r names = .ok u ↔
      ∃ place, s.enterIncludeAll.resolve maxDepth r.enclosing r.immediate r.offset = .ok place ∧
        u = unitIn r names place := by
  unfold freshUnit
  cases s.enterIncludeAll.resolve maxDepth r.enclosing r.immediate r.offset with
  | error err => simp [Except.map]
  | ok place => simp [Except.map, eq_comm]

theorem freshUnit_types {s t : Sandbox} (h : s.types = t.types) (maxDepth : Nat) (r : Request)
    (names : List String) : freshUnit maxDepth s r names = freshUnit maxDepth t r names := by
  have henter : s.enterIncludeAll.types = t.enterIncludeAll.types := h
  have hs : s.enterIncludeAll.includeAll ≠ 0 := Nat.succ_ne_zero _
  have ht : t.enterIncludeAll.includeAll ≠ 0 := Nat.succ_ne_zero _
  rw [freshUnit, freshUnit, Sandbox.resolve_congr henter hs ht]

theorem unitIn_alike {r q : Request} {env env' : RuntimeEnv} (h : r.Alike q)
    (hr : bindSymbols r = .ok env) (hq : bindSymbols q = .ok env') (place : Resolution) :
    unitIn r env.keys place = unitIn q env'.keys place := by
  have hnames (n : String) : n ∈ env.keys ↔ n ∈ env'.keys := by
    rw [mem_keys_bindSymbols hr, mem_keys_bindSymbols hq, h.names]
  have hf : r.fingerprintWith env.keys = q.fingerprintWith env'.keys := by
    simp only [Request.fingerprintWith, h.source, h.enclosing, h.immediate, h.offset]
    exact Fingerprint.withExternals_congr _ hnames
  have hsame := place.symbols.declareExternals_same hnames
  simp only [unitIn, hf, h.source, compile_same hsame]

theorem freshUnit_alike {r q : Request} {env env' : RuntimeEnv} (h : r.Alike q)
    (hr : bindSymbols r = .ok env) (hq : bindSymbols q = .ok env') (maxDepth : Nat) (s : Sandbox) :
    freshUnit maxDepth s r env.keys = freshUnit maxDepth s q env'.keys := by
  have hunit : unitIn r env.keys = unitIn q env'.keys := funext (unitIn_alike h hr hq)
  rw [freshUnit, freshUnit, h.enclosing, h.immediate, h.offset, hunit]

def freshAnswer (maxDepth : Nat) (s : Sandbox) (r : Request) : Except EvalError Value := do
  let env ← bindSymbols r
  let fresh ← freshUnit maxDepth s r env.keys
  let u ← verdict r.source fresh
  call r env u

theorem freshAnswer_of_error {maxDepth : Nat} {s : Sandbox} {r : Request} {env : RuntimeEnv}
    {err : EvalError} (henv : bindSymbols r = .ok env)
    (hplace : s.enterIncludeAll.resolve maxDepth r.enclosing r.immediate r.offset = .error err) :
    freshAnswer maxDepth s r = .error err := by
  simp only [freshAnswer, henv, freshUnit, hplace, bind, Except.bind, Except.map]

theorem freshAnswer_of_place {maxDepth : Nat} {s : Sandbox} {r : Request} {env : RuntimeEnv}
    {place : Resolution} (henv : bindSymbols r = .ok env)
    (hplace : s.enterIncludeAll.resolve maxDepth r.enclosing r.immediate r.offset = .ok place) :
    freshAnswer maxDepth s r =
      verdict r.source (unitIn r env.keys place) >>= fun u => call r env u := by
  simp only [freshAnswer, henv, freshUnit, hplace, bind, Except.bind, Except.map]

theorem verdict_of_isValid {u : CachedUnit} (h : u.unit.isValid = true) (source : String) :
    verdict source u = .ok u := by
  simp [verdict, h]

end Evaluator

end SnippetEval
