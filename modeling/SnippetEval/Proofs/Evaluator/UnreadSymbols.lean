import SnippetEval.Proofs.Compilation
import SnippetEval.Proofs.Evaluator.Transparency
import SnippetEval.Proofs.Invocation
import SnippetEval.Proofs.Typing.Lookup

namespace SnippetEval

def Request.Reads (r : Request) (n : String) : Prop :=
  ∃ snippet, parse r.source = ⟨some snippet, []⟩ ∧ n ∈ snippet.names

namespace CompileRequest

variable {q q' : CompileRequest}

theorem check_errors_agree {snippet : Snippet} (h : q.scope.AgreesOn q'.scope snippet.names) :
    (snippet.check q.scope).errors = (snippet.check q'.scope).errors :=
  congrArg Findings.issues (check_agrees h)

theorem compile_agrees (hsource : q.source = q'.source)
    (h : ∀ snippet, parse q.source = ⟨some snippet, []⟩ →
      q.scope.AgreesOn q'.scope snippet.names) :
    (q.compile.isValid = false ∧ q'.compile.isValid = false ∧
      q.compile.errors = q'.compile.errors) ∨
    ∃ snippet, parse q.source = ⟨some snippet, []⟩ ∧
      q.compile = q.accepted snippet ∧ q'.compile = q'.accepted snippet ∧
      (q.accepted snippet).isValid = true ∧ (q'.accepted snippet).isValid = true := by
  cases hp : parse q.source with
  | mk parsed errors =>
    have hp' : parse q'.source = ⟨parsed, errors⟩ := hsource ▸ hp
    simp only [compile, hp, hp']
    split
    · next snippet =>
      have hagree := h snippet hp
      have herrors := check_errors_agree hagree
      by_cases hclean : (snippet.check q.scope).errors = []
      · have hclean' : (snippet.check q'.scope).errors = [] := herrors ▸ hclean
        rw [errors_eq_nil_iff] at hclean hclean'
        exact .inr ⟨snippet, rfl, compileParsed_of_clean hclean, compileParsed_of_clean hclean',
          isValid_accepted hclean, isValid_accepted hclean'⟩
      · have hclean' : (snippet.check q'.scope).errors ≠ [] := herrors ▸ hclean
        rw [errors_eq_nil_iff] at hclean
        rw [ne_eq, errors_eq_nil_iff] at hclean'
        rw [compileParsed_of_not_clean hclean, compileParsed_of_not_clean hclean']
        exact .inl ⟨isValid_invalid _ _, isValid_invalid _ _, herrors⟩
    · exact .inl ⟨isValid_invalid _ _, isValid_invalid _ _, rfl⟩

theorem invoke_accepted_agrees {snippet : Snippet}
    (h : q.scope.AgreesOn q'.scope snippet.names) {receiver receiver' : Option Instance}
    (hreceiver : (q.accepted snippet).shape.instanceBound = true → receiver = receiver')
    {env env' : RuntimeEnv} (henv : ∀ n ∈ snippet.names, env.value? n = env'.value? n) :
    (q.accepted snippet).invoke receiver env = (q'.accepted snippet).invoke receiver' env' := by
  have hfound := check_agrees h
  have hinstance := congrArg Findings.usesInstance hfound
  have htakes := congrArg Findings.usesEnv hfound
  have hfields := congrArg Findings.fields hfound
  exact CompiledUnit.invoke_agrees (q.program?_accepted snippet) (q'.program?_accepted snippet)
    (congrArg₂ UnitShape.mk hinstance htakes) rfl hfields hreceiver henv

end CompileRequest

namespace Evaluator

variable {maxDepth : Nat} {r : Request} {env env' : RuntimeEnv}

theorem verdict_of_not_isValid {u v : CachedUnit} (hu : u.unit.isValid = false)
    (hv : v.unit.isValid = false) (h : u.unit.errors = v.unit.errors) (source : String) :
    ∃ err, verdict source u = .error err ∧ verdict source v = .error err := by
  simp only [verdict, hu, hv, h, Bool.false_eq_true, if_false]
  cases v.unit.errors with
  | nil => exact ⟨_, rfl, rfl⟩
  | cons d ds => exact ⟨_, rfl, rfl⟩

theorem scope_agrees {names : List String} (h : ∀ n ∈ names, env.value? n = env'.value? n)
    (place : Resolution) :
    (requestIn r env.keys place).scope.AgreesOn (requestIn r env'.keys place).scope names := by
  refine ⟨?_, rfl, rfl⟩
  intro n hn
  have hkeys : n ∈ env.keys ↔ n ∈ env'.keys := by
    rw [← not_iff_not, ← RuntimeEnv.value?_eq_none_iff, ← RuntimeEnv.value?_eq_none_iff, h n hn]
  simp only [CompileRequest.scope, requestIn, SymbolTable.get?_declareExternals, hkeys]

theorem call_unitIn (w : Option Instance) (vs : List Value) (place : Resolution) :
    call { r with symbols := vs, receiver := w } env (unitIn r env.keys place) = (do
      let o ← walkOuter w place.hops ((place.context.map TypeDef.name).getD "<top level>")
      (requestIn r env.keys place).compile.invoke o env) := rfl

theorem freshAnswer_agrees {P Q : List Value} {w w' : Option Instance}
    (hP : RuntimeEnv.ofPairs P = .ok env) (hQ : RuntimeEnv.ofPairs Q = .ok env')
    (hvalues : ∀ n, r.Reads n → env.value? n = env'.value? n) (s : Sandbox)
    (hreceiver : ∀ place,
      s.enterIncludeAll.resolve maxDepth r.enclosing r.immediate r.offset = .ok place →
      (unitIn r env.keys place).unit.isValid = true → w = w' ∨
        (unitIn r env.keys place).unit.shape.instanceBound = false ∧
        let context := (place.context.map TypeDef.name).getD "<top level>"
        ∃ o o', walkOuter w place.hops context = .ok o ∧ walkOuter w' place.hops context = .ok o') :
    freshAnswer maxDepth s { r with symbols := P, receiver := w } =
      freshAnswer maxDepth s { r with symbols := Q, receiver := w' } := by
  have henv : bindSymbols { r with symbols := P, receiver := w } = .ok env := by
    simp only [bindSymbols, hP]
  have henv' : bindSymbols { r with symbols := Q, receiver := w' } = .ok env' := by
    simp only [bindSymbols, hQ]
  cases hplace : s.enterIncludeAll.resolve maxDepth r.enclosing r.immediate r.offset with
  | error err => rw [freshAnswer_of_error henv hplace, freshAnswer_of_error henv' hplace]
  | ok place =>
    rw [freshAnswer_of_place henv hplace, freshAnswer_of_place henv' hplace]
    -- A unit does not depend on the values of the symbols, nor on the instance.
    change verdict r.source (unitIn r env.keys place) >>= call _ env =
      verdict r.source (unitIn r env'.keys place) >>= call _ env'
    have hagree (snippet : Snippet) (hsnippet : parse r.source = ⟨some snippet, []⟩) :=
      scope_agrees (r := r) (fun n hn => hvalues n ⟨snippet, hsnippet, hn⟩) place
    have hsource : (requestIn r env.keys place).source = (requestIn r env'.keys place).source := rfl
    rcases CompileRequest.compile_agrees hsource hagree with
      ⟨hu, hu', herrors⟩ | ⟨snippet, hsnippet, hu, hu', hvalid, hvalid'⟩
    · obtain ⟨err, hp, hq⟩ := verdict_of_not_isValid (u := unitIn r env.keys place)
        (v := unitIn r env'.keys place) hu hu' herrors r.source
      rw [hp, hq]
      rfl
    · have huvalid : (unitIn r env.keys place).unit.isValid = true := by
        rw [unit_unitIn, hu, hvalid]
      have huvalid' : (unitIn r env'.keys place).unit.isValid = true := by
        rw [unit_unitIn, hu', hvalid']
      rw [verdict_of_isValid huvalid, verdict_of_isValid huvalid']
      change call _ env _ = call _ env' _
      rw [call_unitIn, call_unitIn, hu, hu']
      have hinvoke (o o' : Option Instance)
          (ho : ((requestIn r env.keys place).accepted snippet).shape.instanceBound = true →
            o = o') :
          ((requestIn r env.keys place).accepted snippet).invoke o env =
            ((requestIn r env'.keys place).accepted snippet).invoke o' env' :=
        CompileRequest.invoke_accepted_agrees (hagree snippet hsnippet) ho
          fun n hn => hvalues n ⟨snippet, hsnippet, hn⟩
      rcases hreceiver place hplace huvalid with rfl | ⟨hbound, o, o', ho, ho'⟩
      · exact bind_congr fun o => hinvoke o o fun _ => rfl
      · rw [unit_unitIn, hu] at hbound
        rw [ho, ho']
        exact hinvoke o o' fun htrue => absurd (hbound.symm.trans htrue) Bool.false_ne_true

/-- An answer depends on the symbols that the text reads, and on each only by its last value. -/
theorem evaluate_unread (maxDepth : Nat) (s : EvalState) (r : Request) :
    let answer (vs : List Value) (receiver : Option Instance) :=
      (({ maxDepth, caches := false } : Evaluator).evaluate { r with symbols := vs, receiver } s).1
    (∀ P Q env env', RuntimeEnv.ofPairs P = .ok env → RuntimeEnv.ofPairs Q = .ok env' →
      (∀ n, r.Reads n → RuntimeEnv.lastValue n P = RuntimeEnv.lastValue n Q) →
      answer P r.receiver = answer Q r.receiver) ∧
    (∀ l m (p q : String × Value), p.1 ≠ q.1 →
      answer (RuntimeEnv.flat (l ++ p :: q :: m)) r.receiver =
        answer (RuntimeEnv.flat (l ++ q :: p :: m)) r.receiver) ∧
    (∀ l m (p : String × Value), p.1 ∈ m.map Prod.fst ∨ ¬ r.Reads p.1 →
      answer (RuntimeEnv.flat (l ++ p :: m)) r.receiver =
        answer (RuntimeEnv.flat (l ++ m)) r.receiver) ∧
    ∀ P env place receiver receiver' o o', RuntimeEnv.ofPairs P = .ok env →
      s.sandbox.enterIncludeAll.resolve maxDepth r.enclosing r.immediate r.offset = .ok place →
      (unitIn r env.keys place).unit.isValid = true →
      (unitIn r env.keys place).unit.shape.instanceBound = false →
      let context := (place.context.map TypeDef.name).getD "<top level>"
      walkOuter receiver place.hops context = .ok o →
      walkOuter receiver' place.hops context = .ok o' →
      answer P receiver = answer P receiver' := by
  intro answer
  have hanswer (vs : List Value) (receiver : Option Instance) : answer vs receiver =
      freshAnswer maxDepth s.sandbox { r with symbols := vs, receiver } :=
    (evaluate_uncached maxDepth _ s).1
  have hlists (P Q : List Value) (env env' : RuntimeEnv) (hP : RuntimeEnv.ofPairs P = .ok env)
      (hQ : RuntimeEnv.ofPairs Q = .ok env')
      (h : ∀ n, r.Reads n → RuntimeEnv.lastValue n P = RuntimeEnv.lastValue n Q) :
      answer P r.receiver = answer Q r.receiver := by
    rw [hanswer, hanswer]
    apply freshAnswer_agrees hP hQ _ s.sandbox fun place _ _ => .inl rfl
    intro n hn
    rw [RuntimeEnv.value?_ofPairs hP, RuntimeEnv.value?_ofPairs hQ, h n hn]
  have hflat (l m : List (String × Value))
      (h : ∀ n, r.Reads n →
        RuntimeEnv.lastValue n (RuntimeEnv.flat l) = RuntimeEnv.lastValue n (RuntimeEnv.flat m)) :
      answer (RuntimeEnv.flat l) r.receiver = answer (RuntimeEnv.flat m) r.receiver := by
    obtain ⟨env, hl⟩ := RuntimeEnv.ofPairs_flat l
    obtain ⟨env', hm⟩ := RuntimeEnv.ofPairs_flat m
    exact hlists _ _ env env' hl hm h
  refine ⟨hlists, ?_, ?_, ?_⟩
  · intro l m p q hpq
    exact hflat _ _ fun n _ => RuntimeEnv.lastValue_flat_swap n l m hpq
  · intro l m p hp
    apply hflat
    intro n hn
    apply RuntimeEnv.lastValue_flat_drop
    rintro rfl
    exact hp.resolve_right fun h => h hn
  · intro P env place receiver receiver' o o' hP hplace hvalid hbound context ho ho'
    rw [hanswer, hanswer]
    apply freshAnswer_agrees hP hP (fun _ _ => rfl) s.sandbox
    intro place' hplace' _
    rw [hplace] at hplace'
    cases hplace'
    exact .inr ⟨hbound, o, o', ho, ho'⟩

theorem evaluate_unread_bound :
    let r : Request := { source := "let y = x; x + 1" }
    let P := RuntimeEnv.flat [("y", .int 5), ("x", .int 2)]
    let Q := RuntimeEnv.flat [("x", .text "two"), ("x", .int 2)]
    let e : Evaluator := { caches := false }
    (∀ n, r.Reads n → RuntimeEnv.lastValue n P = RuntimeEnv.lastValue n Q) ∧
      (e.evaluate { r with symbols := P } {}).1 = (e.evaluate { r with symbols := Q } {}).1 := by
  intro r P Q e
  have hnames : (parse r.source).snippet.map Snippet.names = some ["x", "x"] := by
    decide +kernel
  have hvalues : ∀ n, r.Reads n → RuntimeEnv.lastValue n P = RuntimeEnv.lastValue n Q := by
    rintro n ⟨snippet, hsnippet, hn⟩
    rw [hsnippet, Option.map_some, Option.some.injEq] at hnames
    obtain rfl : n = "x" := by simpa [hnames] using hn
    simp [P, Q, RuntimeEnv.lastValue_flat_cons]
  obtain ⟨env, hP⟩ := RuntimeEnv.ofPairs_flat [("y", .int 5), ("x", .int 2)]
  obtain ⟨env', hQ⟩ := RuntimeEnv.ofPairs_flat [("x", .text "two"), ("x", .int 2)]
  exact ⟨hvalues, (evaluate_unread 64 {} r).1 P Q env env' hP hQ hvalues⟩

end Evaluator

end SnippetEval
