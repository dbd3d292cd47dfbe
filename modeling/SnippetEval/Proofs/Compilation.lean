import Mathlib.Tactic.Common
import SnippetEval.Compilation

namespace SnippetEval

theorem isValid_invalid (f : Fingerprint) (issues : List Diagnostic) :
    (CompiledUnit.invalid f issues).isValid = false := by
  simp [CompiledUnit.invalid, CompiledUnit.isValid]

theorem parsed_of_errors_eq_nil {source : String} (h : (parse source).errors = []) :
    ∃ t, parse source = ⟨some t, []⟩ := by
  simp only [parse] at h ⊢
  split at h
  · next t ht =>
    simp only at h
    exact ⟨t, by simp [h]⟩
  · simp at h

namespace CompileRequest

variable {q : CompileRequest}

theorem compile_of_parsed {t : Snippet} (h : parse q.source = ⟨some t, []⟩) :
    q.compile = q.compileParsed t := by
  simp only [compile, h]

theorem compile_of_unparsed (h : (parse q.source).errors ≠ []) :
    q.compile = .invalid q.fingerprint ((parse q.source).errors.map ParseError.issue) := by
  simp only [compile]
  split
  · next hnil => exact absurd hnil h
  · rfl

def scope (q : CompileRequest) : Scope := { symbols := q.symbols, hasInstance := q.hasInstance }

def program (q : CompileRequest) (snippet : Snippet) : Program where
  snippet := snippet
  instanceFields := (snippet.check q.scope).fields
  context := q.context.map TypeDef.name

def accepted (q : CompileRequest) (snippet : Snippet) : CompiledUnit where
  fingerprint := q.fingerprint
  shape := ⟨(snippet.check q.scope).usesInstance, (snippet.check q.scope).usesEnv⟩
  body := some (.program (q.program snippet))
  issues := (snippet.check q.scope).issues

theorem program?_accepted (q : CompileRequest) (snippet : Snippet) :
    (q.accepted snippet).program? = some (q.program snippet) := rfl

theorem compileParsed_of_clean {snippet : Snippet}
    (h : ∀ d ∈ (snippet.check q.scope).issues, d.isError = false) :
    q.compileParsed snippet = q.accepted snippet := by
  have hany : (snippet.check q.scope).issues.any Diagnostic.isError = false := by
    simpa using h
  rw [scope] at hany
  simp only [compileParsed, hany, Bool.false_eq_true, if_false]
  rfl

theorem compileParsed_of_not_clean {snippet : Snippet}
    (h : ¬ ∀ d ∈ (snippet.check q.scope).issues, d.isError = false) :
    q.compileParsed snippet = .invalid q.fingerprint (snippet.check q.scope).issues := by
  have hany : (snippet.check q.scope).issues.any Diagnostic.isError = true := by
    simpa using h
  rw [scope] at hany
  simp only [compileParsed, hany, if_true]
  rfl

theorem issues_compileParsed (q : CompileRequest) (snippet : Snippet) :
    (q.compileParsed snippet).issues = (snippet.check q.scope).issues := by
  by_cases h : ∀ d ∈ (snippet.check q.scope).issues, d.isError = false
  · rw [compileParsed_of_clean h, accepted]
  · rw [compileParsed_of_not_clean h, CompiledUnit.invalid]

theorem isValid_accepted {snippet : Snippet}
    (h : ∀ d ∈ (snippet.check q.scope).issues, d.isError = false) :
    (q.accepted snippet).isValid = true := by
  have herrors : (q.accepted snippet).errors = [] := by
    simpa [CompiledUnit.errors, accepted] using h
  rw [CompiledUnit.isValid, herrors]
  rfl

theorem clean_of_isValid {snippet : Snippet} (h : (q.compileParsed snippet).isValid = true) :
    ∀ d ∈ (snippet.check q.scope).issues, d.isError = false := by
  simp only [compileParsed] at h
  split at h
  · simp [isValid_invalid] at h
  · next hany => simpa [scope] using hany

theorem isValid_compileParsed_iff {snippet : Snippet} : (q.compileParsed snippet).isValid = true ↔
    ∀ d ∈ (snippet.check q.scope).issues, d.isError = false := by
  refine ⟨clean_of_isValid, fun h => ?_⟩
  rw [compileParsed_of_clean h]
  exact isValid_accepted h

theorem compile_of_isValid (h : q.compile.isValid = true) :
    ∃ snippet, parse q.source = ⟨some snippet, []⟩ ∧
      (∀ d ∈ (snippet.check q.scope).issues, d.isError = false) ∧
      q.compile = q.accepted snippet := by
  cases hp : parse q.source with
  | mk parsed errors =>
    simp only [compile, hp] at h ⊢
    split at h
    · next snippet =>
      have hclean := clean_of_isValid h
      exact ⟨snippet, rfl, hclean, compileParsed_of_clean hclean⟩
    · simp [isValid_invalid] at h

end CompileRequest

end SnippetEval
