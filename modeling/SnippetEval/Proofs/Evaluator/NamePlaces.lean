import SnippetEval.Proofs.Compilation
import SnippetEval.Proofs.Evaluator.Transparency
import SnippetEval.Proofs.Invocation
import SnippetEval.Proofs.Resolution
import SnippetEval.Proofs.Snippet.Reading
import SnippetEval.Proofs.Typing.Reads

namespace SnippetEval

theorem exists_nearest {bs : List Binding} {n : String} (h : ¬ ∀ b ∈ bs, b.name.name ≠ n) :
    ∃ cs b ds, bs = cs ++ b :: ds ∧ b.name.name = n ∧ ∀ d ∈ ds, d.name.name ≠ n := by
  induction bs with
  | nil => exact absurd (fun b hb => by cases hb) h
  | cons c bs ih =>
    by_cases hbs : ∀ b ∈ bs, b.name.name ≠ n
    · have hc : c.name.name = n := by
        by_contra hc
        exact h (List.forall_mem_cons.mpr ⟨hc, hbs⟩)
      exact ⟨[], c, bs, rfl, hc, hbs⟩
    · obtain ⟨cs, b, ds, rfl, hb, hds⟩ := ih hbs
      exact ⟨c :: cs, b, ds, rfl, hb, hds⟩

/-- Where a frame that has run the bindings takes the value of a name from. -/
inductive Frame.Takes (f g : Frame) (symbols : SymbolTable) (receiver : Option Instance)
    (env : RuntimeEnv) (bs : List Binding) (i : Ident) : Prop
  | bound (cs : List Binding) (b : Binding) (ds : List Binding) (f' : Frame) :
      bs = cs ++ b :: ds → b.name.name = i.name → (∀ d ∈ ds, d.name.name ≠ i.name) →
      f.runBindings cs = .ok f' → g.eval (.name i) = f'.eval b.value →
      Takes f g symbols receiver env bs i
  | field (t : ValueType) (o : Instance) : (∀ b ∈ bs, b.name.name ≠ i.name) →
      symbols.get? i.name = some ⟨t, .field⟩ → receiver = some o →
      g.eval (.name i) = o.read i.name → Takes f g symbols receiver env bs i
  | environment (t : ValueType) (k : SymbolKind) : (∀ b ∈ bs, b.name.name ≠ i.name) →
      symbols.get? i.name = some ⟨t, k⟩ → k ≠ .field → g.eval (.name i) = env.read i.name →
      Takes f g symbols receiver env bs i

namespace CompileRequest

variable {q : CompileRequest} {snippet : Snippet} {receiver : Option Instance} {env : RuntimeEnv}

def frame (q : CompileRequest) (snippet : Snippet) (receiver : Option Instance)
    (env : RuntimeEnv) : Frame :=
  (q.accepted snippet).shape.frame (snippet.check q.scope).fields receiver env

theorem frame_receiver (hlacks : ¬ (q.accepted snippet).shape.Lacks receiver)
    (hbound : (q.accepted snippet).shape.instanceBound = true) {bs : List Binding} {g : Frame}
    (hrun : (q.frame snippet receiver env).runBindings bs = .ok g) :
    ∃ o, receiver = some o ∧ g.receiver = some o := by
  obtain ⟨o, rfl⟩ := UnitShape.exists_of_not_lacks hlacks hbound
  refine ⟨o, rfl, ?_⟩
  rw [(Frame.runBindings_kept hrun).1, frame, UnitShape.frame, if_pos hbound]

theorem frame_takes (hclean : ∀ d ∈ (snippet.check q.scope).issues, d.isError = false)
    (hlacks : ¬ (q.accepted snippet).shape.Lacks receiver)
    {bs : List Binding} {e : Expr} {g : Frame} {i : Ident} (hfollows : snippet.Follows bs e)
    (hrun : (q.frame snippet receiver env).runBindings bs = .ok g)
    (hi : Expr.Within (.name i) e) :
    (q.frame snippet receiver env).Takes g q.symbols receiver env bs i := by
  by_cases hfree : ∀ b ∈ bs, b.name.name ≠ i.name
  · have hreads : snippet.ReadsFree i.name := ⟨bs, e, i.span, hfollows, hi, hfree⟩
    obtain ⟨t, k, ht, -⟩ := declared_of_readsFree rfl hclean hreads
    obtain ⟨-, henv, hfields⟩ := Frame.runBindings_kept hrun
    have hb : g.bound.get? i.name = none := Frame.bound_runBindings hrun hfree
    -- The fields are those of the whole snippet, but one table declares the name everywhere.
    have hmem : i.name ∈ g.fields ↔ k = .field := by
      rw [hfields]
      exact mem_fields_iff_of_readsFree rfl hclean hreads ht
    by_cases hk : k = .field
    · subst hk
      have hbound : (q.accepted snippet).shape.instanceBound = true :=
        (usesInstance_check_iff rfl hclean).mpr (.inr ⟨i.name, t, hreads, ht⟩)
      obtain ⟨o, hreceiver, ho⟩ := frame_receiver hlacks hbound hrun
      exact .field t o hfree ht hreceiver (Frame.read_field hb (hmem.mpr rfl) ho)
    · have htakes : (q.accepted snippet).shape.takesEnv = true :=
        (usesEnv_check_iff rfl).mpr ⟨k, i.name, t, hk, hreads, ht⟩
      have he : g.env = some env := by
        rw [henv, frame, UnitShape.frame, if_pos htakes]
      exact .environment t k hfree ht hk (Frame.read_supplied hb (mt hmem.mp hk) he)
  · obtain ⟨cs, b, ds, rfl, hb, hds⟩ := exists_nearest hfree
    rw [← hb] at hds
    obtain ⟨f', hcs, hread⟩ := Frame.read_nearest hrun hds
    rw [hb] at hds hread
    exact .bound cs b ds f' rfl hb hds hcs hread

theorem frame_missing (hclean : ∀ d ∈ (snippet.check q.scope).issues, d.isError = false)
    (hlacks : ¬ (q.accepted snippet).shape.Lacks receiver)
    {x : ExecutionFault} (hx : (q.frame snippet receiver env).run snippet = .error x)
    (hk : x.kind = .host ∨ x.kind = .unboundSymbol) :
    ∃ n t k, snippet.ReadsFree n ∧ q.symbols.get? n = some ⟨t, k⟩ ∧ k ≠ .field ∧
      env.read n = .error x := by
  obtain ⟨bs, d, e, g, hfollows, hrun, hfaults⟩ := Frame.run_eq_error_iff.mp hx
  have hwithin := hfaults.within
  rcases hfaults.missing hk with ⟨span, rfl, hthis⟩ | ⟨i, rfl, hread⟩
  · have hbound : (q.accepted snippet).shape.instanceBound = true :=
      (usesInstance_check_iff rfl hclean).mpr (.inl ⟨bs, e, span, hfollows, hwithin⟩)
    obtain ⟨o, -, ho⟩ := frame_receiver hlacks hbound hrun
    rw [getReceiver_eq_ok_iff.mpr ho] at hthis
    cases hthis
  · cases frame_takes hclean hlacks hfollows hrun hwithin with
    | bound cs b ds f' hbs hb hds hcs hvalue =>
      -- The binding has been run, so its value is there.
      rw [hbs, Frame.runBindings_append, hcs, ok_bind] at hrun
      obtain ⟨v, hv, -⟩ := bind_eq_ok_iff.mp hrun
      rw [hvalue, hv] at hread
      cases hread
    | field t o hfree ht ho hvalue =>
      rw [hvalue] at hread
      rcases hk with hk | hk <;> cases hk.symm.trans (read_instance_error hread)
    | environment t k hfree ht hk hvalue =>
      rw [hvalue] at hread
      exact ⟨i.name, t, k, ⟨bs, e, i.span, hfollows, hwithin, hfree⟩, ht, hk, hread⟩

theorem invoke_accepted (h : ¬ (q.accepted snippet).shape.Lacks receiver) :
    (q.accepted snippet).invoke receiver env =
      ((q.frame snippet receiver env).run snippet).mapError .execution :=
  CompiledUnit.invoke_of_not_lacks (q.program?_accepted snippet) h

theorem invoke_refused_iff : (∃ expected actual,
      (q.accepted snippet).invoke receiver env = .error (.invocationShape expected actual)) ↔
    (q.accepted snippet).shape.Lacks receiver := by
  constructor
  · rintro ⟨expected, actual, h⟩
    by_contra hlacks
    rw [invoke_accepted hlacks] at h
    cases hrun : (q.frame snippet receiver env).run snippet <;> simp [hrun, Except.mapError] at h
  · exact fun h => ⟨_, _, CompiledUnit.invoke_of_lacks h⟩

theorem invoke_missing (hclean : ∀ d ∈ (snippet.check q.scope).issues, d.isError = false)
    {x : ExecutionFault} (hx : (q.accepted snippet).invoke receiver env = .error (.execution x))
    (hk : x.kind = .host ∨ x.kind = .unboundSymbol) :
    ∃ n t k, snippet.ReadsFree n ∧ q.symbols.get? n = some ⟨t, k⟩ ∧ k ≠ .field ∧
      env.value? n = none ∧
      x = { kind := .unboundSymbol, message := "no value for `" ++ n ++ "`" } := by
  have hlacks : ¬ (q.accepted snippet).shape.Lacks receiver := by
    intro h
    rw [CompiledUnit.invoke_of_lacks h] at hx
    cases hx
  rw [invoke_accepted hlacks] at hx
  cases hrun : (q.frame snippet receiver env).run snippet with
  | ok v => simp [hrun, Except.mapError] at hx
  | error y =>
    obtain rfl : y = x := by simpa [hrun, Except.mapError] using hx
    obtain ⟨n, t, k, hreads, ht, hfield, hread⟩ := frame_missing hclean hlacks hrun hk
    exact ⟨n, t, k, hreads, ht, hfield, RuntimeEnv.read_error hread⟩

end CompileRequest

theorem walkOuter_eq_none_iff {receiver o : Option Instance} {hops : Nat} {context : String}
    (h : walkOuter receiver hops context = .ok o) : o = none ↔ receiver = none := by
  cases receiver with
  | none =>
    cases h
    rfl
  | some first =>
    unfold walkOuter at h
    cases hwalk : first.walkFrom context 1 hops with
    | error err => simp [hwalk, Except.map] at h
    | ok last =>
      simp only [hwalk, Except.map] at h
      cases h
      simp

namespace Evaluator

variable {maxDepth : Nat} {s : Sandbox} {r : Request} {env : RuntimeEnv} {place : Resolution}

theorem freshAnswer_accepted (henv : bindSymbols r = .ok env)
    (hplace : s.enterIncludeAll.resolve maxDepth r.enclosing r.immediate r.offset = .ok place)
    (hvalid : (unitIn r env.keys place).unit.isValid = true) {snippet : Snippet}
    (hunit : (requestIn r env.keys place).compile = (requestIn r env.keys place).accepted snippet)
    {receiver : Option Instance} (hwalk : walkOuter r.receiver place.hops
      ((place.context.map TypeDef.name).getD "<top level>") = .ok receiver) :
    freshAnswer maxDepth s r =
      ((requestIn r env.keys place).accepted snippet).invoke receiver env := by
  rw [freshAnswer_of_place henv hplace, verdict_of_isValid hvalid, ← hunit]
  change call r env (unitIn r env.keys place) = _
  simp only [call, unitIn, hwalk, bind, Except.bind]
  rfl

theorem variable_of_missing (henv : bindSymbols r = .ok env)
    (hplace : s.enterIncludeAll.resolve maxDepth r.enclosing r.immediate r.offset = .ok place)
    {n : String} {t : ValueType} {k : SymbolKind} (hnone : env.value? n = none) (hk : k ≠ .field)
    (ht : (place.symbols.declareExternals env.keys).get? n = some ⟨t, k⟩) :
    r.enclosing ≠ none ∧ place.symbols.get? n = some ⟨t, .variable⟩ ∧
      n ∉ Request.namesOf r.symbols := by
  have hkeys : n ∉ env.keys := RuntimeEnv.value?_eq_none_iff.mp hnone
  rw [SymbolTable.get?_declareExternals, if_neg hkeys] at ht
  have hexternal : k ≠ .external := Sandbox.resolve_local hplace n _ ht
  obtain rfl : k = .variable := by
    cases k <;> first | rfl | contradiction
  refine ⟨?_, ht, by rwa [← mem_keys_bindSymbols henv]⟩
  intro htop
  rw [htop] at hplace
  rw [Sandbox.resolve_topLevel hplace] at ht
  cases ht

/-- Checking, the call and the run agree on where each name has its value. -/
theorem evaluate_places (maxDepth : Nat) (caches : Bool) (sandbox : Sandbox) (H : List Operation)
    (r : Request) (env : RuntimeEnv) (place : Resolution)
    (hrs : caches = true → Collisionless (r :: H.filterMap Operation.request?))
    (henv : bindSymbols r = .ok env)
    (hplace : (({ maxDepth, caches } : Evaluator).after ⟨sandbox, .empty⟩
      H).sandbox.enterIncludeAll.resolve maxDepth r.enclosing r.immediate r.offset = .ok place)
    (hvalid : (unitIn r env.keys place).unit.isValid = true) :
    let e : Evaluator := { maxDepth, caches }
    let answer := (e.evaluate r (e.after ⟨sandbox, .empty⟩ H)).1
    let shape := (unitIn r env.keys place).unit.shape
    let symbols := place.symbols.declareExternals env.keys
    ∃ snippet, parse r.source = ⟨some snippet, []⟩ ∧
      (shape.instanceBound = true ↔
        snippet.MentionsThis ∨ ∃ n t, snippet.ReadsFree n ∧ symbols.get? n = some ⟨t, .field⟩) ∧
      (shape.takesEnv = true ↔
        ∃ k n t, k ≠ .field ∧ snippet.ReadsFree n ∧ symbols.get? n = some ⟨t, k⟩) ∧
      ∀ receiver,
        walkOuter r.receiver place.hops ((place.context.map TypeDef.name).getD "<top level>") =
          .ok receiver →
        ((∃ expected actual, answer = .error (.invocationShape expected actual)) ↔
          shape.instanceBound = true ∧ r.receiver = none) ∧
        (¬ (shape.instanceBound = true ∧ r.receiver = none) → ∃ fields,
          let f := shape.frame fields receiver env
          answer = (f.run snippet).mapError .execution ∧
          ∀ bs e g i, snippet.Follows bs e → f.runBindings bs = .ok g →
            Expr.Within (.name i) e → f.Takes g symbols receiver env bs i) ∧
        (∀ x, answer = .error (.execution x) → x.kind ≠ .host) ∧
        (∀ x, answer = .error (.execution x) → x.kind = .unboundSymbol →
          r.enclosing ≠ none ∧ ∃ n t, snippet.ReadsFree n ∧
            place.symbols.get? n = some ⟨t, .variable⟩ ∧ n ∉ Request.namesOf r.symbols ∧
            x.message = "no value for `" ++ n ++ "`") := by
  intro e answer shape symbols
  let q := requestIn r env.keys place
  obtain ⟨snippet, hparse, hclean, hunit⟩ := CompileRequest.compile_of_isValid (q := q) hvalid
  have hshape : shape = (q.accepted snippet).shape := congrArg CompiledUnit.shape hunit
  refine ⟨snippet, hparse, ?_, ?_, ?_⟩
  · rw [hshape]
    exact usesInstance_check_iff rfl hclean
  · rw [hshape]
    exact usesEnv_check_iff rfl
  · intro receiver hwalk
    have hanswer : answer = (q.accepted snippet).invoke receiver env :=
      (evaluate_after maxDepth caches sandbox H r hrs).trans
        (freshAnswer_accepted henv hplace hvalid hunit hwalk)
    have hlacks : shape.instanceBound = true ∧ r.receiver = none ↔
        (q.accepted snippet).shape.Lacks receiver := by
      rw [hshape, UnitShape.Lacks, walkOuter_eq_none_iff hwalk]
    rw [hlacks, hanswer]
    refine ⟨CompileRequest.invoke_refused_iff, ?_, ?_, ?_⟩
    · intro h
      refine ⟨(snippet.check q.scope).fields, ?_⟩
      rw [hshape]
      exact ⟨CompileRequest.invoke_accepted h, fun bs e g i hfollows hrun hi =>
        CompileRequest.frame_takes hclean h hfollows hrun hi⟩
    · intro x hx hk
      obtain ⟨n, t, k, -, -, -, -, rfl⟩ := CompileRequest.invoke_missing hclean hx (.inl hk)
      cases hk
    · intro x hx hk
      obtain ⟨n, t, k, hreads, ht, hfield, hnone, rfl⟩ :=
        CompileRequest.invoke_missing hclean hx (.inr hk)
      obtain ⟨htop, hvariable, hnames⟩ := variable_of_missing henv hplace hnone hfield ht
      exact ⟨htop, n, t, hreads, hvariable, hnames, rfl⟩

def counter : TypeDef where
  name := "app.Counter"
  source := some (.node (.type "app.Counter") ⟨0, 40⟩
    [.node (.declaration "step" .int) ⟨10, 20⟩ []])
  fields := [⟨"count", .int⟩]

def stepRequest : Request where
  source := "let count = count + step; count"
  enclosing := some "app.Counter"
  offset := 30

def counterPlace : Resolution :=
  .within counter ⟨"app.Counter", [], .type "app.Counter", ⟨0, 40⟩⟩ (counter.symbolsAt 30) 30 0

theorem evaluate_places_counter :
    let e : Evaluator := {}
    let s := e.after {} [.define counter]
    Collisionless (stepRequest :: [.define counter].filterMap Operation.request?) ∧
      bindSymbols stepRequest = .ok .empty ∧
      s.sandbox.enterIncludeAll.resolve 64 stepRequest.enclosing stepRequest.immediate
        stepRequest.offset = .ok counterPlace ∧
      (unitIn stepRequest [] counterPlace).unit.isValid = true ∧
      ∃ expected actual,
        (e.evaluate stepRequest s).1 = .error (.invocationShape expected actual) := by
  have hcollisionless :
      Collisionless (stepRequest :: [.define counter].filterMap Operation.request?) := by
    intro r hr q hq _
    obtain rfl := List.mem_singleton.mp hr
    obtain rfl := List.mem_singleton.mp hq
    exact ⟨rfl, rfl, rfl, rfl, fun _ => Iff.rfl⟩
  have hvalid : (unitIn stepRequest [] counterPlace).unit.isValid = true := by decide +kernel
  have hshape : (unitIn stepRequest [] counterPlace).unit.shape.instanceBound = true := by
    decide +kernel
  obtain ⟨snippet, -, -, -, hplaces⟩ := evaluate_places 64 true {} [.define counter] stepRequest
    .empty counterPlace (fun _ => hcollisionless) rfl rfl hvalid
  exact ⟨hcollisionless, rfl, rfl, hvalid, (hplaces none rfl).1.mpr ⟨hshape, rfl⟩⟩

end Evaluator

end SnippetEval
