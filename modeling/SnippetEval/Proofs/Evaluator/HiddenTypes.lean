import SnippetEval.Proofs.Evaluator.Operations
import SnippetEval.Proofs.Resolution

namespace SnippetEval

def TypeDef.shown (t : TypeDef) : TypeDef := { t with hidden := false }

def Resolution.shown : Resolution → Resolution
  | topLevel => .topLevel
  | within context anchor symbols offset hops => .within context.shown anchor symbols offset hops

namespace Sandbox

def veiled (s : Sandbox) (hidden : String → Bool) (includeAll : Nat) : Sandbox :=
  { s with types := s.types.map fun name t => { t with hidden := hidden name }, includeAll }

def shown (s : Sandbox) : Sandbox := { s with types := s.types.map fun _ => TypeDef.shown }

variable {s : Sandbox}

theorem types_shown_veiled (s : Sandbox) (hidden : String → Bool) (includeAll : Nat) :
    (s.veiled hidden includeAll).shown.types = s.shown.types := by
  simp only [shown, veiled, Table.map, List.map_map]
  rfl

theorem get?_shown (s : Sandbox) (name : String) :
    s.shown.types.get? name = (s.types.get? name).map TypeDef.shown :=
  Table.get?_map _ _ _

theorem lookup_shown (hs : s.includeAll ≠ 0) (name : String) :
    s.shown.lookup name = (s.lookup name).map TypeDef.shown := by
  have hs' : s.shown.includeAll ≠ 0 := hs
  have hget := s.get?_shown name
  cases hname : s.types.get? name with
  | none =>
    rw [hname] at hget
    rw [lookup_of_undefined hname, lookup_of_undefined hget]
    rfl
  | some t =>
    rw [hname] at hget
    rw [lookup_of_defined hs hname, lookup_of_defined hs' hget]
    rfl

theorem enclosing_shown (s : Sandbox) (t : TypeDef) :
    s.shown.enclosing t.shown = (s.enclosing t).map TypeDef.shown := by
  cases henclosing : t.enclosing with
  | none => simp [enclosing, TypeDef.shown, henclosing]
  | some name => simp [enclosing, TypeDef.shown, henclosing, get?_shown]

theorem nearestFrom_shown (s : Sandbox) (hops left : Nat) (t : TypeDef) :
    s.shown.nearestFrom hops left t.shown =
      (s.nearestFrom hops left t).map fun found => (found.1.shown, found.2) := by
  have hsource (t : TypeDef) : t.shown.source = t.source := rfl
  induction left generalizing hops t with
  | zero =>
    simp only [nearestFrom, hsource]
    cases t.source <;> rfl
  | succ left ih =>
    simp only [nearestFrom, hsource, enclosing_shown]
    cases t.source with
    | some root => rfl
    | none =>
      cases s.enclosing t with
      | none => rfl
      | some outer => exact ih _ outer

theorem placeFrom_shown (s : Sandbox) (maxDepth offset : Nat) (t : TypeDef) :
    s.shown.placeFrom maxDepth offset t.shown =
      (s.placeFrom maxDepth offset t).map Resolution.shown := by
  have hnearest : s.shown.nearestWithSource maxDepth t.shown =
      (s.nearestWithSource maxDepth t).map fun found => (found.1.shown, found.2) :=
    s.nearestFrom_shown 0 maxDepth t
  unfold placeFrom
  rw [hnearest]
  cases s.nearestWithSource maxDepth t with
  | error err => rfl
  | ok found =>
    obtain ⟨context, root, hops⟩ := found
    have hname : context.shown.name = context.name := rfl
    simp only [bind, Except.bind, Except.map, hname]
    cases Anchor.locate context.name root offset <;> rfl

theorem resolve_shown (hs : s.includeAll ≠ 0) (maxDepth : Nat) (enclosing immediate : Option String)
    (offset : Nat) :
    s.shown.resolve maxDepth enclosing immediate offset =
      (s.resolve maxDepth enclosing immediate offset).map Resolution.shown := by
  cases enclosing with
  | none =>
    cases immediate with
    | none => rfl
    | some name =>
      simp only [resolve, lookup_shown hs]
      cases s.lookup name <;> rfl
  | some name =>
    rw [resolve_enclosing, resolve_enclosing, lookup_shown hs]
    cases s.lookup name with
    | error err => rfl
    | ok top =>
      cases immediate with
      | none => exact s.placeFrom_shown maxDepth offset top
      | some name =>
        change s.shown.lookup name >>= s.shown.placeFrom maxDepth offset =
          (s.lookup name >>= s.placeFrom maxDepth offset).map Resolution.shown
        rw [lookup_shown hs]
        cases s.lookup name with
        | error err => rfl
        | ok start => exact s.placeFrom_shown maxDepth offset start

end Sandbox

theorem CompileRequest.compile_shown (q : CompileRequest) :
    { q with context := q.context.map TypeDef.shown }.compile = q.compile := by
  obtain ⟨fingerprint, source, context, symbols, anchor⟩ := q
  have hinstance : (CompileRequest.mk fingerprint source (context.map TypeDef.shown) symbols
      anchor).hasInstance =
      (CompileRequest.mk fingerprint source context symbols anchor).hasInstance := by
    cases context <;> cases anchor <;> rfl
  have hname : (context.map TypeDef.shown).map TypeDef.name = context.map TypeDef.name := by
    cases context <;> rfl
  simp only [compile, compileParsed, hinstance, hname]

def EvalState.veiled (s : EvalState) (hidden : String → Bool) (includeAll : Nat) : EvalState :=
  { s with sandbox := s.sandbox.veiled hidden includeAll }

namespace Evaluator

variable {maxDepth : Nat} {caches : Bool} {s : EvalState} {r : Request} {env : RuntimeEnv}

theorem unitIn_shown (r : Request) (names : List String) (place : Resolution) :
    unitIn r names place.shown = unitIn r names place := by
  cases place with
  | topLevel => rfl
  | within context anchor symbols offset hops =>
    have hunit := (requestIn r names (.within context anchor symbols offset hops)).compile_shown
    exact congrArg (CachedUnit.mk · hops (some context.name)) hunit

theorem freshUnit_shown (maxDepth : Nat) (s : Sandbox) (r : Request) (names : List String) :
    freshUnit maxDepth s.shown r names = freshUnit maxDepth s r names := by
  have henter : s.shown.enterIncludeAll = s.enterIncludeAll.shown := rfl
  have hs : s.enterIncludeAll.includeAll ≠ 0 := Nat.succ_ne_zero _
  rw [freshUnit, freshUnit, henter, Sandbox.resolve_shown hs]
  cases s.enterIncludeAll.resolve maxDepth r.enclosing r.immediate r.offset with
  | error err => rfl
  | ok place => exact congrArg Except.ok (unitIn_shown r names place)

theorem freshUnit_veiled (maxDepth : Nat) (s : Sandbox) (r : Request) (names : List String)
    (hidden : String → Bool) (includeAll : Nat) :
    freshUnit maxDepth (s.veiled hidden includeAll) r names = freshUnit maxDepth s r names := by
  rw [← freshUnit_shown maxDepth (s.veiled hidden includeAll), ← freshUnit_shown maxDepth s,
    freshUnit_types (s.types_shown_veiled hidden includeAll)]

end Evaluator

end SnippetEval
