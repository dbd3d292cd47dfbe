import SnippetEval.Proofs.Evaluator.UnreadSymbols
import SnippetEval.Proofs.Snippet.Erasure
import SnippetEval.Proofs.Snippet.Parsing
import SnippetEval.Proofs.Snippet.Spacing
import SnippetEval.Proofs.Typing.Erasure

namespace SnippetEval

def EvalError.erase : EvalError → EvalError
  | .compilation issues => .compilation (issues.map Diagnostic.erase)
  | .forwarded module source => .forwarded module source.erase
  | e => e

def placeOf (source : String) (i : Nat) : Span :=
  placeAt source.utf8ByteSize (lex source).lexemes i

section reading

variable {source source' : String}

def SameReading (source source' : String) : Prop :=
  (∃ u u', parse source = ⟨some u, []⟩ ∧ parse source' = ⟨some u', []⟩ ∧ u'.erase = u.erase) ∨
  ∃ i found expected, found = (tokensOf source)[i]? ∧
    parse source = ⟨none, [.unexpected found expected (placeOf source i)]⟩ ∧
    parse source' = ⟨none, [.unexpected found expected (placeOf source' i)]⟩

theorem parse_spread (h : (lex source).errors = [])
    (hspread : Spread (wordsOf source) source'.toList) : SameReading source source' := by
  obtain ⟨h', -, htokens⟩ := lex_spread h hspread
  rcases parseLexemes_same htokens.symm source.utf8ByteSize source'.utf8ByteSize with
    ⟨u, u', hu, hu', herase⟩ | ⟨i, found, expected, hfound, he, he'⟩
  · refine .inl ⟨u, u', ?_, ?_, herase⟩
    · simp [parse, h, hu]
    · simp [parse, h', hu']
  · refine .inr ⟨i, found, expected, hfound, ?_, ?_⟩
    · simp [parse, h, he, placeOf]
    · simp [parse, h', he', placeOf]

end reading

structure CompiledUnit.Matches (u v : CompiledUnit) : Prop where
  issues : v.issues.map Diagnostic.erase = u.issues.map Diagnostic.erase
  isValid : v.isValid = u.isValid
  invoke : u.isValid = true → ∀ receiver env, v.invoke receiver env = u.invoke receiver env

namespace CompiledUnit

variable {u v : CompiledUnit} {p p' : Program}

theorem errors_erase (u : CompiledUnit) : u.errors.map Diagnostic.erase =
    (u.issues.map Diagnostic.erase).filter Diagnostic.isError := by
  rw [List.filter_map, errors]
  rfl

theorem Matches.errors (h : u.Matches v) :
    v.errors.map Diagnostic.erase = u.errors.map Diagnostic.erase := by
  rw [errors_erase, errors_erase, h.issues]

theorem matches_invalid {f g : Fingerprint} {ds es : List Diagnostic}
    (h : es.map Diagnostic.erase = ds.map Diagnostic.erase) :
    (invalid f ds).Matches (invalid g es) where
  issues := h
  isValid := by rw [isValid_invalid, isValid_invalid]
  invoke := fun hvalid => by simp [isValid_invalid] at hvalid

theorem invoke_erase (hp : u.program? = some p) (hp' : v.program? = some p')
    (hshape : v.shape = u.shape) (hfields : p'.instanceFields = p.instanceFields)
    (hsnippet : p'.snippet.erase = p.snippet.erase) (receiver : Option Instance)
    (env : RuntimeEnv) : v.invoke receiver env = u.invoke receiver env := by
  by_cases h : u.shape.Lacks receiver
  · rw [invoke_of_lacks h, invoke_of_lacks (hshape ▸ h), hshape]
  · rw [invoke_of_not_lacks hp h, invoke_of_not_lacks hp' (hshape ▸ h), hshape, hfields,
      ← Frame.run_erase, hsnippet, Frame.run_erase]

end CompiledUnit

namespace CompileRequest

variable {q q' : CompileRequest}

theorem clean_erase {ds : List Diagnostic} :
    (∀ d ∈ ds.map Diagnostic.erase, d.isError = false) ↔ ∀ d ∈ ds, d.isError = false :=
  List.forall_mem_map

theorem compileParsed_matches {t t' : Snippet} (hscope : q'.scope = q.scope)
    (herase : t'.erase = t.erase) : (q.compileParsed t).Matches (q'.compileParsed t') := by
  have hcheck : (t'.check q'.scope).erase = (t.check q.scope).erase := by
    rw [← check_erase, ← check_erase, herase, hscope]
  have hissues : (t'.check q'.scope).issues.map Diagnostic.erase =
      (t.check q.scope).issues.map Diagnostic.erase := congrArg Findings.issues hcheck
  have hinstance := congrArg Findings.usesInstance hcheck
  have henv := congrArg Findings.usesEnv hcheck
  have hfields := congrArg Findings.fields hcheck
  have hclean : (∀ d ∈ (t'.check q'.scope).issues, d.isError = false) ↔
      ∀ d ∈ (t.check q.scope).issues, d.isError = false := by
    rw [← clean_erase, hissues, clean_erase]
  by_cases h : ∀ d ∈ (t.check q.scope).issues, d.isError = false
  · rw [compileParsed_of_clean h, compileParsed_of_clean (hclean.mpr h)]
    refine ⟨hissues, ?_, fun _ => ?_⟩
    · rw [isValid_accepted h, isValid_accepted (hclean.mpr h)]
    · exact CompiledUnit.invoke_erase (q.program?_accepted t) (q'.program?_accepted t')
        (congrArg₂ UnitShape.mk hinstance henv) hfields herase
  · rw [compileParsed_of_not_clean h, compileParsed_of_not_clean (mt hclean.mp h)]
    exact CompiledUnit.matches_invalid hissues

theorem compile_matches (h : SameReading q.source q'.source) (hscope : q'.scope = q.scope) :
    q.compile.Matches q'.compile := by
  rcases h with ⟨t, t', ht, ht', herase⟩ | ⟨i, found, expected, -, he, he'⟩
  · rw [compile_of_parsed ht, compile_of_parsed ht']
    exact compileParsed_matches hscope herase
  · rw [compile_of_unparsed (by simp [he]), compile_of_unparsed (by simp [he'])]
    refine CompiledUnit.matches_invalid ?_
    rw [he, he']
    rfl

end CompileRequest

namespace Evaluator

variable {source source' : String}

theorem verdict_erase {u v : CachedUnit} (h : u.unit.Matches v.unit) (hu : u.unit.isValid = false)
    (source source' : String) : ∃ err err', verdict source u = .error err ∧
      verdict source' v = .error err' ∧ err'.erase = err.erase := by
  have herrors := h.errors
  have hv : v.unit.isValid = false := h.isValid.trans hu
  simp only [verdict, hu, hv, Bool.false_eq_true, if_false]
  cases hds : u.unit.errors with
  | nil =>
    have hes : v.unit.errors = [] := by simpa [hds] using herrors
    rw [hes]
    exact ⟨_, _, rfl, rfl, rfl⟩
  | cons d ds =>
    obtain ⟨e, es, hes, -⟩ := List.map_eq_cons_iff.mp (herrors.trans (by rw [hds]; rfl))
    rw [hes, hds] at herrors
    rw [hes]
    exact ⟨_, _, rfl, rfl, congrArg EvalError.compilation herrors⟩

theorem freshAnswer_erase (h : SameReading source source') (maxDepth : Nat) (s : Sandbox)
    (r : Request) :
    (freshAnswer maxDepth s { r with source := source' }).mapError EvalError.erase =
      (freshAnswer maxDepth s { r with source := source }).mapError EvalError.erase := by
  have hbind (text : String) : bindSymbols { r with source := text } = bindSymbols r := rfl
  cases henv : bindSymbols r with
  | error err => simp only [freshAnswer, hbind, henv]; rfl
  | ok env =>
    cases hplace : s.enterIncludeAll.resolve maxDepth r.enclosing r.immediate r.offset with
    | error err =>
      rw [freshAnswer_of_error ((hbind source').trans henv) hplace,
        freshAnswer_of_error ((hbind source).trans henv) hplace]
    | ok place =>
      rw [freshAnswer_of_place ((hbind source').trans henv) hplace,
        freshAnswer_of_place ((hbind source).trans henv) hplace]
      have hmatches : (unitIn { r with source := source } env.keys place).unit.Matches
          (unitIn { r with source := source' } env.keys place).unit := by
        rw [unit_unitIn, unit_unitIn]
        exact CompileRequest.compile_matches h rfl
      cases hvalid : (unitIn { r with source := source } env.keys place).unit.isValid with
      | true =>
        rw [verdict_of_isValid hvalid, verdict_of_isValid (hmatches.isValid.trans hvalid)]
        exact congrArg (Except.mapError EvalError.erase)
          (bind_congr fun receiver => hmatches.invoke hvalid receiver env)
      | false =>
        obtain ⟨err, err', herr, herr', herase⟩ := verdict_erase hmatches hvalid source source'
        rw [herr, herr']
        exact congrArg Except.error herase

theorem evaluate_spread (herrors : (lex source).errors = [])
    (hspread : Spread (wordsOf source) source'.toList) :
    ((lex source').errors = [] ∧ tokensOf source' = tokensOf source ∧
      List.Forall₂ (Stands source.toList) (lex source).lexemes (wordsOf source) ∧
      List.Forall₂ (Stands source'.toList) (lex source').lexemes (wordsOf source)) ∧
    SameReading source source' ∧
    (∀ (q : CompileRequest) (f : Fingerprint),
      { q with source := source', fingerprint := f }.compile.issues.map Diagnostic.erase =
        { q with source := source }.compile.issues.map Diagnostic.erase) ∧
    ∀ (maxDepth : Nat) (caches : Bool) (sandbox : Sandbox) (H : List Operation) (r : Request),
      (caches = true → ∀ text ∈ [source, source'],
        Collisionless ({ r with source := text } :: H.filterMap Operation.request?)) →
      let e : Evaluator := { maxDepth, caches }
      let answer (text : String) :=
        (e.evaluate { r with source := text } (e.after ⟨sandbox, .empty⟩ H)).1
      (answer source').mapError EvalError.erase = (answer source).mapError EvalError.erase := by
  obtain ⟨herrors', hwords, htokens⟩ := lex_spread herrors hspread
  have hreading := parse_spread herrors hspread
  refine ⟨⟨herrors', htokens, lexemes_stand herrors, hwords ▸ lexemes_stand herrors'⟩, hreading,
    ?_, ?_⟩
  · intro q f
    have hmatches : { q with source := source }.compile.Matches
        { q with source := source', fingerprint := f }.compile :=
      CompileRequest.compile_matches hreading rfl
    exact hmatches.issues
  · intro maxDepth caches sandbox H r hcollisions e answer
    have hanswer (text : String) (htext : text ∈ [source, source']) : answer text =
        freshAnswer maxDepth (e.after ⟨sandbox, .empty⟩ H).sandbox { r with source := text } :=
      evaluate_after maxDepth caches sandbox H _ fun hcaches => hcollisions hcaches text htext
    rw [hanswer source' (by simp), hanswer source (by simp)]
    exact freshAnswer_erase hreading maxDepth _ r

theorem collisionless_pair {r q : Request} (h : r = q ∨ r.fingerprint ≠ q.fingerprint) :
    Collisionless [r, q] := by
  intro p hp p' hp' hf
  simp only [List.mem_cons, List.not_mem_nil, or_false] at hp hp'
  rcases h with rfl | hne
  · rw [or_self] at hp hp'
    rw [hp, hp']
    exact .refl r
  · rcases hp with rfl | rfl <;> rcases hp' with rfl | rfl
    · exact .refl _
    · exact absurd hf hne
    · exact absurd hf.symm hne
    · exact .refl _

theorem spread_sum : Spread (wordsOf "1+x") "\t1 // one\n+ x".toList := by
  have hwords : wordsOf "1+x" = [['1'], ['+'], ['x']] := by decide +kernel
  have htext : "\t1 // one\n+ x".toList =
      ['\t', '1', ' ', '/', '/', ' ', 'o', 'n', 'e', '\n', '+', ' ', 'x'] := rfl
  have hlast : Spread [['x']] [' ', 'x'] :=
    @Spread.next [' '] ['x'] [] [] (Gap.blank rfl .nil) nofun (.last .nil)
  have hcomment : Gap ['+', ' ', 'x'] [' ', '/', '/', ' ', 'o', 'n', 'e', '\n'] :=
    Gap.blank rfl (@Gap.append _ ['/', '/', ' ', 'o', 'n', 'e'] _
      (.comment (by decide) (by simp)) (Gap.blank rfl .nil))
  have hsum := @Spread.next _ ['+'] _ _ hcomment (by rintro c ⟨⟩; rfl) hlast
  rw [hwords, htext]
  exact @Spread.next ['\t'] ['1'] _ _ (Gap.blank rfl .nil) (by rintro c ⟨⟩; rfl) hsum

theorem evaluate_spread_sum :
    let source := "1+x"
    let source' := "\t1 // one\n+ x"
    let r : Request := { source := source, symbols := [.text "x", .int 2] }
    let e : Evaluator := {}
    let s := e.after {} [.evaluate r]
    (lex source).errors = [] ∧ Spread (wordsOf source) source'.toList ∧
      Collisionless [{ r with source := source' }, r] ∧
      (e.evaluate { r with source := source' } s).1.mapError EvalError.erase =
        (e.evaluate r s).1.mapError EvalError.erase := by
  intro source source' r e s
  have herrors : (lex source).errors = [] := List.isEmpty_iff.mp (by decide +kernel)
  have hspread : Spread (wordsOf source) source'.toList := spread_sum
  have hne : ({ r with source := source' } : Request).fingerprint ≠ r.fingerprint := by
    decide +kernel
  have hcollisions := collisionless_pair (.inr hne)
  refine ⟨herrors, hspread, hcollisions, ?_⟩
  obtain ⟨-, -, -, hanswers⟩ := evaluate_spread herrors hspread
  refine hanswers 64 true {} [.evaluate r] r fun _ text htext => ?_
  simp only [List.mem_cons, List.not_mem_nil, or_false] at htext
  rcases htext with rfl | rfl
  · exact collisionless_pair (.inl rfl)
  · exact hcollisions

end Evaluator

end SnippetEval
