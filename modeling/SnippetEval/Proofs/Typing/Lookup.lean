import SnippetEval.Compilation
import SnippetEval.Proofs.Table
import SnippetEval.Proofs.Typing.Findings

namespace SnippetEval

structure Scope.AgreesOn (s t : Scope) (names : List String) : Prop where
  symbols : ∀ n ∈ names, s.symbols.get? n = t.symbols.get? n
  hasInstance : s.hasInstance = t.hasInstance
  bound : s.bound = t.bound

structure Scope.Same (s t : Scope) : Prop where
  symbols : s.symbols.Same t.symbols
  hasInstance : s.hasInstance = t.hasInstance
  bound : s.bound = t.bound

variable {s t : Scope} {names : List String}

theorem Scope.AgreesOn.of_subset (h : s.AgreesOn t names) {ns : List String} (hns : ns ⊆ names) :
    s.AgreesOn t ns :=
  ⟨fun n hn => h.symbols n (hns hn), h.hasInstance, h.bound⟩

theorem Scope.Same.agreesOn (h : s.Same t) (names : List String) : s.AgreesOn t names :=
  ⟨fun n _ => h.symbols n, h.hasInstance, h.bound⟩

theorem takeInstance_agrees (h : s.hasInstance = t.hasInstance) (span : Span) (what : String)
    (fields : List String) : s.takeInstance span what fields = t.takeInstance span what fields := by
  simp only [Scope.takeInstance, h]

theorem inferName_agrees (h : s.AgreesOn t names) {i : Ident} (hi : i.name ∈ names) :
    s.inferName i = t.inferName i := by
  simp only [Scope.inferName, takeInstance_agrees h.hasInstance, h.symbols i.name hi, h.bound]

theorem infer_agrees {e : Expr} (h : s.AgreesOn t e.names) : infer s e = infer t e := by
  induction e with
  | literal => rfl
  | name i => exact inferName_agrees h (List.mem_singleton.mpr rfl)
  | this span => simp only [infer, takeInstance_agrees h.hasInstance]
  | field e i span ih => simp only [infer, ih h]
  | unary op e span ih => simp only [infer, ih h]
  | binary op l r span ihl ihr =>
    have hl := ihl (h.of_subset (List.subset_append_left l.names r.names))
    have hr := ihr (h.of_subset (List.subset_append_right l.names r.names))
    simp only [infer, hl, hr]

theorem infer_same (h : s.Same t) (e : Expr) : infer s e = infer t e :=
  infer_agrees (h.agreesOn e.names)

theorem checkBinding_same (h : s.Same t) (b : Binding) :
    (checkBinding s b).1 = (checkBinding t b).1 ∧
      (checkBinding s b).2.Same (checkBinding t b).2 := by
  simp only [checkBinding, infer_same h, h.symbols.contains, h.bound]
  exact ⟨trivial, h.symbols, h.hasInstance, rfl⟩

theorem checkBindings_same (h : s.Same t) (bs : List Binding) :
    (checkBindings s bs).1 = (checkBindings t bs).1 ∧
      (checkBindings s bs).2.Same (checkBindings t bs).2 := by
  induction bs generalizing s t with
  | nil => exact ⟨rfl, h⟩
  | cons b bs ih =>
    obtain ⟨hfound, hscope⟩ := checkBinding_same h b
    obtain ⟨hrest, hend⟩ := ih hscope
    simp only [checkBindings, hfound, hrest]
    exact ⟨trivial, hend⟩

theorem check_same (h : s.Same t) (snippet : Snippet) : snippet.check s = snippet.check t := by
  obtain ⟨hfound, hscope⟩ := checkBindings_same h snippet.bindings
  simp only [Snippet.check, hfound, infer_same hscope]

def Findings.withoutWarnings (found : Findings) : Findings := { found with issues := found.errors }

theorem append_empty (a : Findings) : a ++ ({} : Findings) = a := by
  obtain ⟨issues, usesInstance, usesEnv, fields⟩ := a
  show Findings.append _ _ = _
  simp [Findings.append]

theorem withoutWarnings_append (a b : Findings) :
    (a ++ b).withoutWarnings = a.withoutWarnings ++ b.withoutWarnings := by
  have herrors : (a ++ b).errors = a.errors ++ b.errors := List.filter_append a.issues b.issues
  simp only [Findings.withoutWarnings, herrors]
  rfl

theorem withoutWarnings_shadowing (i : Ident) : (shadowing i).withoutWarnings = {} := by
  simp [Findings.withoutWarnings, Findings.errors, shadowing, Diagnostic.isError]

theorem withoutWarnings_checkBinding (s : Scope) (b : Binding) :
    (checkBinding s b).1.withoutWarnings = (infer s b.value).2.withoutWarnings := by
  simp only [checkBinding]
  split
  · rw [withoutWarnings_append, withoutWarnings_shadowing, append_empty]
  · rfl

theorem checkBindings_agrees {bs : List Binding} (h : s.AgreesOn t names)
    (hbs : ∀ b ∈ bs, b.value.names ⊆ names) :
    (checkBindings s bs).1.withoutWarnings = (checkBindings t bs).1.withoutWarnings ∧
      (checkBindings s bs).2.AgreesOn (checkBindings t bs).2 names := by
  induction bs generalizing s t with
  | nil => exact ⟨rfl, h⟩
  | cons b bs ih =>
    have hvalue := infer_agrees (h.of_subset (hbs b List.mem_cons_self))
    have hscope : (checkBinding s b).2.AgreesOn (checkBinding t b).2 names := by
      refine ⟨h.symbols, h.hasInstance, ?_⟩
      rw [checkBinding_scope, checkBinding_scope, h.bound, hvalue]
    obtain ⟨hrest, hend⟩ := ih hscope fun c hc => hbs c (List.mem_cons_of_mem b hc)
    refine ⟨?_, hend⟩
    simp only [checkBindings, withoutWarnings_append, withoutWarnings_checkBinding, hvalue, hrest]

theorem check_agrees {snippet : Snippet} (h : s.AgreesOn t snippet.names) :
    (snippet.check s).withoutWarnings = (snippet.check t).withoutWarnings := by
  obtain ⟨hfound, hscope⟩ := checkBindings_agrees h names_value_subset
  cases hresult : snippet.result with
  | none => simpa only [Snippet.check, hresult] using hfound
  | some e =>
    have he := infer_agrees (hscope.of_subset (names_result_subset hresult))
    simp only [Snippet.check, hresult, withoutWarnings_append, hfound, he]

theorem compile_same {T U : SymbolTable} (h : T.Same U) (f : Fingerprint) (source : String)
    (context : Option TypeDef) (anchor : Option Anchor) :
    CompileRequest.compile ⟨f, source, context, T, anchor⟩ =
      CompileRequest.compile ⟨f, source, context, U, anchor⟩ := by
  have hparsed (snippet : Snippet) :
      CompileRequest.compileParsed ⟨f, source, context, T, anchor⟩ snippet =
        CompileRequest.compileParsed ⟨f, source, context, U, anchor⟩ snippet := by
    have hscope (b : Bool) : Scope.Same { symbols := T, hasInstance := b }
        { symbols := U, hasInstance := b } := ⟨h, rfl, rfl⟩
    have hcheck (b : Bool) := check_same (hscope b) snippet
    have hinstance : CompileRequest.hasInstance ⟨f, source, context, T, anchor⟩ =
        CompileRequest.hasInstance ⟨f, source, context, U, anchor⟩ := rfl
    simp only [CompileRequest.compileParsed, hinstance, hcheck]
  simp only [CompileRequest.compile, hparsed]

end SnippetEval
