import SnippetEval.Proofs.Evaluator.Footprint
import SnippetEval.Proofs.Typing.Issues

namespace SnippetEval

theorem CompileRequest.exists_first_error {q : CompileRequest} (h : q.compile.isValid = false) :
    ∃ d, q.compile.issues.find? Diagnostic.isError = some d ∧ d.code ≠ none := by
  have hfirst : (∃ d ∈ q.compile.issues, d.isError = true) ∧
      ∀ d ∈ q.compile.issues, d.code ≠ none := by
    by_cases herrors : (parse q.source).errors = []
    · obtain ⟨snippet, hparse⟩ := parsed_of_errors_eq_nil herrors
      have herror : ¬ ∀ d ∈ (snippet.check q.scope).issues, d.isError = false := by
        intro hclean
        rw [compile_of_parsed hparse, isValid_compileParsed_iff.mpr hclean] at h
        cases h
      rw [compile_of_parsed hparse, issues_compileParsed]
      refine ⟨by simpa using herror, fun d hd => ?_⟩
      rcases check_issue rfl hd with ⟨c, -, hcode⟩ | ⟨hcode, -⟩
      · rw [hcode.code]
        exact Option.some_ne_none _
      · rw [hcode]
        exact Option.some_ne_none _
    · obtain ⟨err, herr⟩ := List.exists_mem_of_ne_nil _ herrors
      rw [compile_of_unparsed herrors]
      refine ⟨⟨err.issue, List.mem_map_of_mem herr, rfl⟩, ?_⟩
      intro d hd
      obtain ⟨err, -, rfl⟩ := List.mem_map.mp hd
      exact Option.some_ne_none _
  obtain ⟨⟨d, hd, herror⟩, hcodes⟩ := hfirst
  obtain ⟨first, hfirst⟩ := Option.isSome_iff_exists.mp (List.find?_isSome.mpr ⟨d, hd, herror⟩)
  exact ⟨first, hfirst, hcodes first (List.mem_of_find?_eq_some hfirst)⟩

namespace Evaluator.Course

variable {maxDepth : Nat} {caches : Bool} {r : Request} {s s' : EvalState} {err : EvalError}
  {answer : Except EvalError Value}

theorem stage_ne_forwarding (h : Course maxDepth caches r s answer s')
    (hanswer : answer = .error err) : err.stage ≠ .forwarding := by
  rcases h.failed hanswer with ⟨hstage, -⟩ | ⟨hstage, -⟩ | ⟨hstage, -⟩ | ⟨hstage, -⟩ <;>
    simp [hstage]

theorem of_compilation (h : Course maxDepth caches r s answer s') {issues : List Diagnostic}
    (hanswer : answer = .error (.compilation issues)) :
    ∃ env u d, bindSymbols r = .ok env ∧ freshUnit maxDepth s.sandbox r env.keys = .ok u ∧
      issues = u.unit.errors ∧ u.unit.issues.find? Diagnostic.isError = some d ∧ d.code ≠ none := by
  rcases h.failed hanswer with ⟨hstage, -⟩ | ⟨hstage, -⟩ | ⟨-, env, u, henv, hu, hverdict⟩ |
    ⟨hstage, -⟩
  · cases hstage
  · cases hstage
  · obtain ⟨place, -, rfl⟩ := freshUnit_eq_ok_iff.mp hu
    have hinvalid : (unitIn r env.keys place).unit.isValid = false := by
      by_contra hvalid
      rw [verdict_of_isValid (by simpa using hvalid)] at hverdict
      cases hverdict
    obtain ⟨d, hd, hcode⟩ :=
      CompileRequest.exists_first_error (q := requestIn r env.keys place) hinvalid
    refine ⟨env, _, d, henv, hu, ?_, hd, hcode⟩
    have herrors : (unitIn r env.keys place).unit.errors.head? = some d := by
      rw [CompiledUnit.errors, List.head?_filter]
      exact hd
    simp only [verdict, hinvalid, Bool.false_eq_true, if_false] at hverdict
    split at hverdict
    · next hnil =>
      rw [hnil] at herrors
      cases herrors
    · exact (EvalError.compilation.inj (Except.error.inj hverdict)).symm
  · cases hstage

end Evaluator.Course

end SnippetEval
