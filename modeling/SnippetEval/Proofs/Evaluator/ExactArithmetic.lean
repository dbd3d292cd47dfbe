import SnippetEval.Proofs.Evaluator.NamePlaces
import SnippetEval.Proofs.Snippet.Arithmetic

namespace SnippetEval

namespace CompileRequest

variable {q : CompileRequest} {snippet : Snippet} {receiver : Option Instance} {env : RuntimeEnv}

theorem frame_read_free (hclean : ∀ d ∈ (snippet.check q.scope).issues, d.isError = false)
    {n : String} (hn : snippet.ReadsFree n) {t : ValueType} {k : SymbolKind}
    (ht : q.symbols.get? n = some ⟨t, k⟩) (hk : k ≠ .field) :
    (q.frame snippet receiver env).read n = env.read n := by
  have hfields : n ∉ (q.frame snippet receiver env).fields := fun hmem =>
    hk ((mem_fields_iff_of_readsFree rfl hclean hn ht).mp hmem)
  have htakes : (q.accepted snippet).shape.takesEnv = true :=
    (usesEnv_check_iff rfl).mpr ⟨k, n, t, hk, hn, ht⟩
  have henv : (q.frame snippet receiver env).env = some env := by
    rw [frame, UnitShape.frame, if_pos htakes]
  exact Frame.read_supplied rfl hfields henv

theorem not_lacks_of_hasInstance (h : q.hasInstance = false) :
    ¬ (q.accepted snippet).shape.Lacks receiver := by
  rintro ⟨hbound, -⟩
  obtain ⟨bs, e, d, -, -, huses⟩ :=
    (check_own_iff additive_usesInstance fun _ => Bool.false_ne_true).mp hbound
  rw [own_usesInstance_iff, hasInstance_after] at huses
  exact absurd (h.symm.trans huses.1) Bool.false_ne_true

def SuppliesInts (q : CompileRequest) (snippet : Snippet) (env : RuntimeEnv)
    (values : String → Int) : Prop :=
  ∀ n, snippet.ReadsFree n → q.symbols.get? n = some ⟨.any, .external⟩ ∧
    ∃ m : Int64, env.value? n = some (.int m) ∧ m.toInt = values n

variable {values : String → Int}

theorem clean_arithmetic (hsnippet : snippet.isArithmetic = true)
    (hints : q.SuppliesInts snippet env values) :
    ∀ d ∈ (snippet.check q.scope).issues, d.isError = false := by
  apply errors_eq_nil_iff.mp
  apply check_arithmetic hsnippet
  intro n hn
  exact .inr ⟨rfl, .any, .external, (hints n hn).1, by simp, rfl⟩

theorem settles_frame (hsnippet : snippet.isArithmetic = true)
    (hints : q.SuppliesInts snippet env values) :
    Settles (snippet.operations values) (snippet.exact values)
      ((q.frame snippet receiver env).run snippet) := by
  apply Frame.settles_run hsnippet
  intro n hn
  obtain ⟨hsymbol, m, hm, hvalue⟩ := hints n hn
  refine ⟨m, ?_, hvalue⟩
  rw [frame_read_free (clean_arithmetic hsnippet hints) hn hsymbol (by simp), RuntimeEnv.read, hm]

end CompileRequest

namespace Evaluator

variable {maxDepth : Nat} {s : Sandbox} {r : Request} {env : RuntimeEnv} {snippet : Snippet}
  {values : String → Int}

theorem resolve_atTop (maxDepth : Nat) (htop : r.enclosing = none)
    (himmediate : ∀ name, r.immediate = some name → s.types.get? name ≠ none) :
    s.enterIncludeAll.resolve maxDepth r.enclosing r.immediate r.offset = .ok .topLevel := by
  rw [htop]
  cases hname : r.immediate with
  | none => rfl
  | some name =>
    obtain ⟨t, ht⟩ := Option.ne_none_iff_exists'.mp (himmediate name hname)
    have hincluded : s.enterIncludeAll.includeAll ≠ 0 := Nat.succ_ne_zero _
    rw [Sandbox.resolve, Sandbox.lookup_of_defined hincluded ht]
    rfl

theorem suppliesInts_topLevel (hvalues : ∀ n, snippet.ReadsFree n →
      ∃ m : Int64, env.value? n = some (.int m) ∧ m.toInt = values n) :
    (requestIn r env.keys .topLevel).SuppliesInts snippet env values := by
  intro n hn
  obtain ⟨m, hm, hvalue⟩ := hvalues n hn
  refine ⟨?_, m, hm, hvalue⟩
  have hkeys : n ∈ env.keys := by
    by_contra hkeys
    rw [RuntimeEnv.value?_eq_none_iff.mpr hkeys] at hm
    cases hm
  simp only [requestIn, SymbolTable.get?_declareExternals, if_pos hkeys]
  rfl

theorem freshAnswer_arithmetic (henv : bindSymbols r = .ok env)
    (hplace : s.enterIncludeAll.resolve maxDepth r.enclosing r.immediate r.offset = .ok .topLevel)
    (hparse : parse r.source = ⟨some snippet, []⟩) (hsnippet : snippet.isArithmetic = true)
    (hvalues : ∀ n, snippet.ReadsFree n →
      ∃ m : Int64, env.value? n = some (.int m) ∧ m.toInt = values n) :
    ∃ x, Settles (snippet.operations values) (snippet.exact values) x ∧
      freshAnswer maxDepth s r = x.mapError .execution := by
  let q := requestIn r env.keys .topLevel
  have hints : q.SuppliesInts snippet env values := suppliesInts_topLevel hvalues
  have hclean := CompileRequest.clean_arithmetic hsnippet hints
  have hunit : q.compile = q.accepted snippet := by
    have hparsed : parse q.source = ⟨some snippet, []⟩ := hparse
    simp only [CompileRequest.compile, hparsed]
    exact CompileRequest.compileParsed_of_clean hclean
  have hvalid : (unitIn r env.keys .topLevel).unit.isValid = true := by
    rw [unit_unitIn, hunit]
    exact CompileRequest.isValid_accepted hclean
  have hwalk : walkOuter r.receiver 0 "<top level>" = .ok r.receiver := by
    cases r.receiver <;> rfl
  refine ⟨(q.frame snippet r.receiver env).run snippet, CompileRequest.settles_frame hsnippet hints, ?_⟩
  rw [freshAnswer_accepted henv hplace hvalid hunit hwalk]
  exact CompileRequest.invoke_accepted (CompileRequest.not_lacks_of_hasInstance rfl)

def lowRequest : Request where
  source := "let x = x - 1; x % y + 1 / 0"
  symbols := [.text "x", .int (-9223372036854775807), .text "y", .int (-1)]

def lowEnv : RuntimeEnv :=
  .ofList [("x", .int (-9223372036854775807)), ("y", .int (-1))]

def lowValues (n : String) : Int := if n = "x" then -9223372036854775807 else -1

end Evaluator

end SnippetEval
