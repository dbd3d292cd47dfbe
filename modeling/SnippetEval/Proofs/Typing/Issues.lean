import SnippetEval.Proofs.Compilation
import SnippetEval.Proofs.Snippet.Parts
import SnippetEval.Proofs.Typing.Reads

namespace SnippetEval

section checking

def Scope.hiding (s : Scope) (b : Binding) : List Diagnostic :=
  if s.symbols.contains b.name.name || s.bound.contains b.name.name then
    (shadowing b.name).issues
  else []

variable {s : Scope}

theorem issues_infer (s : Scope) (e : Expr) :
    (infer s e).2.issues = e.parts.flatMap fun d => (s.own d).issues := by
  -- `infer` looks at the operands first, and what it adds for the expression itself comes last.
  have hstep (e : Expr) : (infer s e).2.issues =
      (e.operands.flatMap fun p => (infer s p).2.issues) ++ (s.own e).issues := by
    cases e with
    | literal | name | this => rfl
    | field e i span =>
      simp only [infer, Scope.own, Expr.operands, List.flatMap_singleton]
      split <;> simp
    | unary op e span =>
      simp only [infer, Scope.own, Expr.operands, List.flatMap_singleton]
      cases op.resultType (infer s e).1 <;> simp
    | binary op l r span =>
      simp only [infer, Scope.own, Expr.operands, List.flatMap_cons, List.flatMap_nil,
        List.append_nil]
      cases op.resultType (infer s l).1 (infer s r).1 <;> simp
  induction e using Expr.operands_induction with
  | step e ih =>
    rw [hstep, Expr.parts_eq, List.flatMap_append, List.flatMap_singleton, List.flatMap_assoc,
      List.flatMap_congr ih]

theorem after_append (s : Scope) (bs cs : List Binding) :
    s.after (bs ++ cs) = (s.after bs).after cs := by
  induction bs generalizing s with
  | nil => rfl
  | cons b bs ih => exact ih _

theorem issues_checkBinding (s : Scope) (b : Binding) :
    (checkBinding s b).1.issues = (infer s b.value).2.issues ++ s.hiding b := by
  simp only [checkBinding, Scope.hiding]
  split <;> simp

theorem issues_checkBindings (s : Scope) (front bs : List Binding) :
    (checkBindings (s.after front) bs).1.issues = (Snippet.stepsFrom front bs).flatMap fun q =>
      (infer (s.after q.1) q.2.value).2.issues ++ (s.after q.1).hiding q.2 := by
  induction bs generalizing front with
  | nil => rfl
  | cons b bs ih =>
    have hrest : (checkBinding (s.after front) b).2 = s.after (front ++ [b]) :=
      (after_append s front [b]).symm
    rw [Snippet.stepsFrom, List.flatMap_cons, ← issues_checkBinding, ← ih, ← hrest]
    rfl

theorem issues_check (s : Scope) (t : Snippet) : (t.check s).issues =
    (t.steps.flatMap fun q =>
      (infer (s.after q.1) q.2.value).2.issues ++ (s.after q.1).hiding q.2) ++
    t.result.toList.flatMap fun e => (infer (s.after t.bindings) e).2.issues := by
  rw [Snippet.steps, ← issues_checkBindings s [] t.bindings]
  simp only [Snippet.check, Scope.after]
  cases t.result <;> simp [checkBindings]

section

variable {p : Diagnostic → Bool} {t : Snippet}

theorem mem_issues_check {d : Diagnostic} (h : d ∈ (t.check s).issues) :
    (∃ q ∈ t.parts, d ∈ ((s.after q.1).own q.2).issues) ∨
      ∃ q ∈ t.steps, d ∈ (s.after q.1).hiding q.2 := by
  have hpart {bs : List Binding} {e : Expr} (he : (bs, e) ∈ t.values)
      (hd : d ∈ (infer (s.after bs) e).2.issues) :
      ∃ q ∈ t.parts, d ∈ ((s.after q.1).own q.2).issues := by
    rw [issues_infer] at hd
    obtain ⟨e', he', hd⟩ := List.mem_flatMap.mp hd
    exact ⟨(bs, e'), List.mem_flatMap.mpr ⟨_, he, List.mem_map_of_mem he'⟩, hd⟩
  rw [issues_check, List.mem_append, List.mem_flatMap, List.mem_flatMap] at h
  rcases h with ⟨q, hq, hd⟩ | ⟨e, he, hd⟩
  · rcases List.mem_append.mp hd with hd | hd
    · exact .inl (hpart (List.mem_append_left _ (List.mem_map_of_mem hq)) hd)
    · exact .inr ⟨q, hq, hd⟩
  · exact .inl (hpart (List.mem_append_right _ (List.mem_map_of_mem he)) hd)

theorem filter_check (hp : ∀ i, (shadowing i).issues.filter p = []) :
    (t.check s).issues.filter p =
      t.parts.flatMap fun q => ((s.after q.1).own q.2).issues.filter p := by
  have hhiding (s : Scope) (b : Binding) : (s.hiding b).filter p = [] := by
    rw [Scope.hiding]
    split
    · exact hp b.name
    · rfl
  have hvalues : (t.check s).issues.filter p =
      t.values.flatMap fun q => (infer (s.after q.1) q.2).2.issues.filter p := by
    simp [issues_check, Snippet.values, List.filter_flatMap, hhiding, List.flatMap_map]
  simp only [hvalues, Snippet.parts, List.flatMap_assoc, List.flatMap_map, issues_infer,
    List.filter_flatMap]

theorem filter_check_hiding (hp : ∀ bs d, ((s.after bs).own d).issues.filter p = []) :
    (t.check s).issues.filter p = t.steps.flatMap fun q => ((s.after q.1).hiding q.2).filter p := by
  have hinfer (bs : List Binding) (e : Expr) : (infer (s.after bs) e).2.issues.filter p = [] := by
    rw [issues_infer, List.filter_flatMap]
    exact List.flatMap_eq_nil_iff.mpr fun d _ => hp bs d
  simp [issues_check, List.filter_flatMap, hinfer]

end

end checking

def binds (bs : List Binding) (n : String) : Bool := bs.any (·.name.name = n)

namespace SymbolTable

def isUnknown (T : SymbolTable) : List Binding × Expr → Bool
  | (bs, .name i) => !binds bs i.name && !T.contains i.name
  | _ => false

def needsInstance (T : SymbolTable) : List Binding × Expr → Bool
  | (bs, .name i) => !binds bs i.name && (T.get? i.name).any (·.kind = .field)
  | (_, .this _) => true
  | _ => false

def isHidden (T : SymbolTable) (q : List Binding × Binding) : Bool :=
  T.contains q.2.name.name || binds q.1 q.2.name.name

end SymbolTable

structure Diagnostic.IsErrorOf (d : Diagnostic) (code : String) : Prop where
  code : d.code = some code
  isError : d.isError = true

/-- What may be reported at a part behind some bindings, apart from what is reported at its
operands. -/
inductive IssuesAt (T : SymbolTable) (hasInstance : Bool) (q : List Binding × Expr) :
    List Diagnostic → Prop
  | unknownName {d : Diagnostic} : T.isUnknown q = true → T.needsInstance q = false →
      d.IsErrorOf Code.unknownName → d.span = q.2.span → IssuesAt T hasInstance q [d]
  | noInstance {d : Diagnostic} : T.isUnknown q = false → T.needsInstance q = true →
      hasInstance = false → d.IsErrorOf Code.noInstance → d.span = q.2.span →
      IssuesAt T hasInstance q [d]
  | typeErrors {ds : List Diagnostic} : T.isUnknown q = false →
      (hasInstance = true ∨ T.needsInstance q = false) →
      (∀ d ∈ ds, d.IsErrorOf Code.typeError ∧
        (d.span = q.2.span ∨ ∃ e i span, q.2 = .field e i span ∧ d.span = i.span)) →
      IssuesAt T hasInstance q ds

theorem IssuesAt.exists_isErrorOf {T : SymbolTable} {hasInstance : Bool} {q : List Binding × Expr}
    {ds : List Diagnostic} (h : IssuesAt T hasInstance q ds) {d : Diagnostic} (hd : d ∈ ds) :
    ∃ c ∈ [Code.unknownName, Code.noInstance, Code.typeError], d.IsErrorOf c := by
  cases h with
  | unknownName _ _ hcode | noInstance _ _ _ hcode =>
    obtain rfl := List.mem_singleton.mp hd
    exact ⟨_, by simp, hcode⟩
  | typeErrors _ _ hds => exact ⟨_, by simp, (hds d hd).1⟩

section own

variable {s : Scope} {bs : List Binding}

theorem bound_after_contains (hbound : s.bound = .empty) (n : String) :
    (s.after bs).bound.contains n = binds bs n := by
  have hnone : s.bound.get? n = none := by rw [hbound]; rfl
  rw [Bool.eq_iff_iff, ← not_iff_not]
  simp [Table.contains, bound_after_eq_none_iff, hnone, binds]

theorem hiding_after (hbound : s.bound = .empty) (b : Binding) :
    (s.after bs).hiding b =
      if s.symbols.isHidden (bs, b) then (shadowing b.name).issues else [] := by
  rw [Scope.hiding, bound_after_contains hbound, symbols_after]
  rfl

theorem issuesAt_typeError {T : SymbolTable} {hasInstance : Bool} {q : List Binding × Expr}
    {span : Span} {message : String} (hunknown : T.isUnknown q = false)
    (hneeds : T.needsInstance q = false)
    (hspan : span = q.2.span ∨ ∃ e i s, q.2 = .field e i s ∧ span = i.span) :
    IssuesAt T hasInstance q (typeError span message).issues := by
  refine .typeErrors hunknown (.inr hneeds) ?_
  intro d hd
  obtain rfl := List.mem_singleton.mp hd
  exact ⟨⟨rfl, rfl⟩, hspan⟩

theorem issuesAt_takeInstance {T : SymbolTable} {q : List Binding × Expr} {what : String}
    {fields : List String} (hunknown : T.isUnknown q = false) (hneeds : T.needsInstance q = true) :
    IssuesAt T s.hasInstance q (s.takeInstance q.2.span what fields).issues := by
  unfold Scope.takeInstance
  split
  · next h => exact .typeErrors hunknown (.inl h) nofun
  · next h => exact .noInstance hunknown hneeds (by simpa using h) ⟨rfl, rfl⟩ rfl

theorem issuesAt_inferName (hbound : s.bound = .empty) (bs : List Binding) (i : Ident) :
    IssuesAt s.symbols s.hasInstance (bs, .name i) ((s.after bs).inferName i).2.issues := by
  have hcontains : (s.after bs).bound.contains i.name = binds bs i.name :=
    bound_after_contains hbound i.name
  unfold Scope.inferName
  rw [symbols_after]
  cases hb : (s.after bs).bound.get? i.name with
  | some t =>
    have hbinds : binds bs i.name = true := by simp [← hcontains, Table.contains, hb]
    exact .typeErrors (by simp [SymbolTable.isUnknown, hbinds])
      (.inr (by simp [SymbolTable.needsInstance, hbinds])) (List.forall_mem_nil _)
  | none =>
    have hbinds : binds bs i.name = false := by simp [← hcontains, Table.contains, hb]
    cases hi : s.symbols.get? i.name with
    | none =>
      exact .unknownName (by simp [SymbolTable.isUnknown, hbinds, Table.contains, hi])
        (by simp [SymbolTable.needsInstance, hi]) ⟨rfl, rfl⟩ rfl
    | some info =>
      obtain ⟨t, k⟩ := info
      have hunknown : s.symbols.isUnknown (bs, .name i) = false := by
        simp [SymbolTable.isUnknown, Table.contains, hi]
      have hneeds : s.symbols.needsInstance (bs, .name i) = decide (k = .field) := by
        simp [SymbolTable.needsInstance, hbinds, hi]
      cases k with
      | field =>
        rw [← hasInstance_after s bs]
        exact issuesAt_takeInstance hunknown hneeds
      | _ => exact .typeErrors hunknown (.inr hneeds) (List.forall_mem_nil _)

theorem own_issuesAt (hbound : s.bound = .empty) (bs : List Binding) (e : Expr) :
    IssuesAt s.symbols s.hasInstance (bs, e) ((s.after bs).own e).issues := by
  cases e with
  | literal l span => exact .typeErrors rfl (.inr rfl) (List.forall_mem_nil _)
  | name i => exact issuesAt_inferName hbound bs i
  | this span =>
    rw [← hasInstance_after s bs]
    exact issuesAt_takeInstance rfl rfl
  | field e i span =>
    simp only [Scope.own]
    split
    · exact .typeErrors rfl (.inr rfl) (List.forall_mem_nil _)
    · exact issuesAt_typeError rfl rfl (.inr ⟨e, i, span, rfl, rfl⟩)
  | unary | binary =>
    simp only [Scope.own]
    split
    · exact .typeErrors rfl (.inr rfl) (List.forall_mem_nil _)
    · exact issuesAt_typeError rfl rfl (.inl rfl)

end own

def spansWith (codes : List String) (ds : List Diagnostic) : List Span :=
  (ds.filter fun d => d.code.any (· ∈ codes)).map (·.span)

theorem IssuesAt.spansWith {T : SymbolTable} {hasInstance : Bool} {q : List Binding × Expr}
    {ds : List Diagnostic} (h : IssuesAt T hasInstance q ds) {codes : List String}
    (hcodes : Code.typeError ∉ codes) :
    spansWith codes ds =
      if Code.unknownName ∈ codes && T.isUnknown q ||
        Code.noInstance ∈ codes && (!hasInstance && T.needsInstance q) then [q.2.span]
      else [] := by
  cases h with
  | unknownName hunknown hneeds hd hspan =>
    simp only [SnippetEval.spansWith, List.filter_cons, List.filter_nil, hd.code, Option.any_some,
      hunknown, hneeds, Bool.and_true, Bool.and_false, Bool.or_false]
    split <;> simp [hspan]
  | noInstance hunknown hneeds hinstance hd hspan =>
    simp only [SnippetEval.spansWith, List.filter_cons, List.filter_nil, hd.code, Option.any_some,
      hunknown, hneeds, hinstance, Bool.and_true, Bool.and_false, Bool.false_or, Bool.not_false]
    split <;> simp [hspan]
  | typeErrors hunknown hneeds hds =>
    have hnil : ds.filter (fun d => d.code.any (· ∈ codes)) = [] := by
      refine List.filter_eq_nil_iff.mpr fun d hd => ?_
      rw [(hds d hd).1.code, Option.any_some, decide_eq_true_iff]
      exact hcodes
    have hfalse : (!hasInstance && T.needsInstance q) = false := by
      rcases hneeds with h | h <;> simp [h]
    rw [SnippetEval.spansWith, hnil, hunknown, hfalse]
    simp

theorem flatMap_ite {α β : Type} (p : α → Bool) (f : α → List β) (l : List α) :
    (l.flatMap fun a => if p a then f a else []) = (l.filter p).flatMap f := by
  induction l with
  | nil => rfl
  | cons a l ih =>
    rw [List.flatMap_cons, ih, List.filter_cons]
    split <;> rfl

section check

variable {s : Scope} {t : Snippet}

theorem spansWith_check (hbound : s.bound = .empty) {codes : List String}
    (htype : Code.typeError ∉ codes)
    (hshadowing : Code.shadowing ∉ codes) :
    spansWith codes (t.check s).issues = (t.parts.filter fun q =>
      Code.unknownName ∈ codes && s.symbols.isUnknown q ||
        Code.noInstance ∈ codes && (!s.hasInstance && s.symbols.needsInstance q)).map
      (·.2.span) := by
  have hnames (i : Ident) : (shadowing i).issues.filter
      (fun d => d.code.any (· ∈ codes)) = [] := by
    simp [shadowing, hshadowing]
  have hparts (q : List Binding × Expr) (_ : q ∈ t.parts) :=
    (own_issuesAt hbound q.1 q.2).spansWith htype
  simp only [spansWith] at hparts
  rw [spansWith, filter_check hnames, List.map_flatMap, List.flatMap_congr hparts, flatMap_ite,
    ← List.map_eq_flatMap]

theorem spansWith_shadowing_check (hbound : s.bound = .empty) :
    spansWith [Code.shadowing] (t.check s).issues =
      (t.steps.filter s.symbols.isHidden).map (·.2.name.span) := by
  have hparts (bs : List Binding) (e : Expr) :
      ((s.after bs).own e).issues.filter (fun d => d.code.any (· ∈ [Code.shadowing])) = [] := by
    have hother : ∀ c ∈ [Code.unknownName, Code.noInstance, Code.typeError],
        c ∉ [Code.shadowing] := by decide
    refine List.filter_eq_nil_iff.mpr fun d hd => ?_
    obtain ⟨c, hc, hcode⟩ := (own_issuesAt hbound bs e).exists_isErrorOf hd
    rw [hcode.code, Option.any_some, decide_eq_true_iff]
    exact hother c hc
  have hsteps (q : List Binding × Binding) : ((s.after q.1).hiding q.2).filter
      (fun d => d.code.any (· ∈ [Code.shadowing])) =
        if s.symbols.isHidden q then (shadowing q.2.name).issues else [] := by
    rw [hiding_after hbound]
    split
    · simp [shadowing]
    · rfl
  rw [spansWith, filter_check_hiding hparts, List.map_flatMap]
  simp only [hsteps, apply_ite (List.map _), List.map_nil]
  rw [flatMap_ite, List.map_eq_flatMap]
  rfl

theorem check_issue (hbound : s.bound = .empty) {d : Diagnostic} (hd : d ∈ (t.check s).issues) :
    (∃ c ∈ [Code.unknownName, Code.noInstance, Code.typeError], d.IsErrorOf c) ∨
      d.code = some Code.shadowing ∧ d.isError = false := by
  rcases mem_issues_check hd with ⟨q, -, hd⟩ | ⟨q, -, hd⟩
  · exact .inl ((own_issuesAt hbound q.1 q.2).exists_isErrorOf hd)
  · right
    rw [hiding_after hbound] at hd
    split at hd
    · obtain rfl := List.mem_singleton.mp hd
      exact ⟨rfl, rfl⟩
    · cases hd

end check

section placed

variable {source : String} {s : Scope} {t : Snippet}

theorem IssuesAt.lies {T : SymbolTable} {hasInstance : Bool} {q : List Binding × Expr}
    {ds : List Diagnostic} (h : IssuesAt T hasInstance q ds) (hq : q.2.Placed source)
    {d : Diagnostic} (hd : d ∈ ds) : d.span.Lies source := by
  have hpart : q.2.span.Lies source := hq.marks.toLies
  cases h with
  | unknownName _ _ _ hspan | noInstance _ _ _ _ hspan =>
    obtain rfl := List.mem_singleton.mp hd
    exact hspan ▸ hpart
  | typeErrors _ _ hds =>
    rcases (hds d hd).2 with hspan | ⟨e, i, span, hfield, hspan⟩
    · exact hspan ▸ hpart
    · rw [hfield] at hq
      cases hq with
      | field _ hi => exact hspan ▸ hi.marks.toLies

theorem check_lies (ht : t.Placed source) (hbound : s.bound = .empty) {d : Diagnostic}
    (hd : d ∈ (t.check s).issues) : d.span.Lies source := by
  rcases mem_issues_check hd with ⟨q, hq, hd⟩ | ⟨q, hq, hd⟩
  · exact (own_issuesAt hbound q.1 q.2).lies (ht.mem_parts hq) hd
  · rw [hiding_after hbound] at hd
    split at hd
    · obtain rfl := List.mem_singleton.mp hd
      exact (ht.mem_steps hq).1.name.marks.toLies
    · cases hd

theorem parse_placed (source : String) :
    (∀ t, (parse source).snippet = some t → t.Placed source) ∧
      ∀ q : CompileRequest, q.source = source → ∀ d ∈ q.compile.issues, d.span.Lies source := by
  refine ⟨fun t ht => placed_of_parse ht, ?_⟩
  rintro q rfl d hd
  by_cases herrors : (parse q.source).errors = []
  · obtain ⟨t, ht⟩ := parsed_of_errors_eq_nil herrors
    rw [CompileRequest.compile_of_parsed ht, CompileRequest.issues_compileParsed] at hd
    exact check_lies (placed_of_parse (by rw [ht])) rfl hd
  · rw [CompileRequest.compile_of_unparsed herrors] at hd
    obtain ⟨err, herr, rfl⟩ := List.mem_map.mp hd
    exact lies_of_mem_errors herr

theorem parse_placed_unreadable :
    let source := "let n = 1; \"é\" + # (a.b)"
    (parse source).errors ≠ [] ∧
      ∃ t, (parse source).snippet = some t ∧ t.spans = [⟨0, 10⟩, ⟨11, 24⟩] ∧ t.Placed source := by
  intro source
  have hspans : (parse source).snippet.map Snippet.spans = some [⟨0, 10⟩, ⟨11, 24⟩] := by
    decide +kernel
  obtain ⟨t, ht, hspans⟩ := Option.map_eq_some_iff.mp hspans
  exact ⟨by decide +kernel, t, ht, hspans, (parse_placed source).1 t ht⟩

theorem isLeaf_of_reported {T : SymbolTable} {q : List Binding × Expr}
    (h : T.isUnknown q = true ∨ T.needsInstance q = true) : q.2.isLeaf = true := by
  obtain ⟨bs, e⟩ := q
  cases e with
  | literal | name | this => rfl
  | _ => simp [SymbolTable.isUnknown, SymbolTable.needsInstance] at h

structure CompileRequest.Exact (q : CompileRequest) (t : Snippet) : Prop where
  unknownNames : spansWith [Code.unknownName] q.compile.issues =
    (t.parts.filter q.symbols.isUnknown).map (·.2.span)
  noInstance : spansWith [Code.noInstance] q.compile.issues =
    if q.hasInstance then [] else (t.parts.filter q.symbols.needsInstance).map (·.2.span)
  ordered : (spansWith [Code.unknownName, Code.noInstance] q.compile.issues).Pairwise Span.Before
  hidden : spansWith [Code.shadowing] q.compile.issues =
    (t.steps.filter q.symbols.isHidden).map (·.2.name.span)
  ordered_hidden : (spansWith [Code.shadowing] q.compile.issues).Pairwise Span.Before
  codes : ∀ d ∈ q.compile.issues,
    ∃ c ∈ [Code.unknownName, Code.noInstance, Code.typeError, Code.shadowing], d.code = some c
  valid : q.compile.isValid = true ↔
    spansWith [Code.unknownName, Code.noInstance, Code.typeError] q.compile.issues = []

theorem spansWith_eq_nil_iff {codes : List String} {ds : List Diagnostic} :
    spansWith codes ds = [] ↔ ∀ d ∈ ds, ∀ c ∈ codes, d.code ≠ some c := by
  simp only [spansWith, List.map_eq_nil_iff, List.filter_eq_nil_iff, Option.any_eq_true,
    decide_eq_true_eq, not_exists, not_and]
  exact forall₂_congr fun d _ => ⟨fun h c hc hd => h c hd hc, fun h c hd hc => h c hc hd⟩

theorem valid_iff_spansWith (hbound : s.bound = .empty) :
    (∀ d ∈ (t.check s).issues, d.isError = false) ↔
      spansWith [Code.unknownName, Code.noInstance, Code.typeError] (t.check s).issues = [] := by
  rw [spansWith_eq_nil_iff]
  refine forall₂_congr fun d hd => ?_
  have hother : ∀ c ∈ [Code.unknownName, Code.noInstance, Code.typeError], Code.shadowing ≠ c := by
    decide
  rcases check_issue hbound hd with ⟨c, hc, hcode⟩ | ⟨hcode, hwarning⟩
  · simp only [hcode.isError, Bool.true_eq_false, false_iff, not_forall]
    exact ⟨c, hc, not_not_intro hcode.code⟩
  · simp only [hwarning, hcode, true_iff]
    exact fun c hc h => hother c hc (Option.some.inj h)

theorem exact_of_parsed {q : CompileRequest} (hparse : parse q.source = ⟨some t, []⟩) :
    q.Exact t := by
  have ht : t.Placed q.source := placed_of_parse (by rw [hparse])
  have hissues : q.compile.issues = (t.check q.scope).issues := by
    rw [CompileRequest.compile_of_parsed hparse, CompileRequest.issues_compileParsed]
  have hbound : q.scope.bound = .empty := rfl
  have hhidden := spansWith_shadowing_check (t := t) hbound
  constructor
  · rw [hissues, spansWith_check hbound (by decide) (by decide)]
    simp [CompileRequest.scope, Code.unknownName, Code.noInstance]
  · rw [hissues, spansWith_check hbound (by decide) (by decide)]
    cases hinstance : q.hasInstance <;>
      simp [CompileRequest.scope, hinstance, Code.unknownName, Code.noInstance]
  · rw [hissues, spansWith_check hbound (by decide) (by decide)]
    refine ht.ordered_filter fun p hp => isLeaf_of_reported (T := q.symbols) ?_
    simp only [Bool.or_eq_true, Bool.and_eq_true] at hp
    exact hp.imp And.right fun h => h.2.2
  · rw [hissues]
    exact hhidden
  · rw [hissues, hhidden]
    exact ht.ordered_names _
  · intro d hd
    rw [hissues] at hd
    rcases check_issue hbound hd with ⟨c, hc, hcode⟩ | ⟨hcode, -⟩
    · exact ⟨c, List.mem_append_left [Code.shadowing] hc, hcode.code⟩
    · exact ⟨Code.shadowing, by simp, hcode⟩
  · rw [hissues, CompileRequest.compile_of_parsed hparse, CompileRequest.isValid_compileParsed_iff]
    exact valid_iff_spansWith hbound

theorem compile_exact (q : CompileRequest) :
    ((parse q.source).errors = [] → ∃ t, (parse q.source).snippet = some t ∧ q.Exact t) ∧
      ((parse q.source).errors ≠ [] → q.compile.issues ≠ [] ∧
        (∀ d ∈ q.compile.issues, d.code = some Code.unparsable) ∧ q.compile.isValid = false) := by
  constructor
  · intro herrors
    obtain ⟨t, ht⟩ := parsed_of_errors_eq_nil herrors
    exact ⟨t, by rw [ht], exact_of_parsed ht⟩
  · intro herrors
    rw [CompileRequest.compile_of_unparsed herrors]
    refine ⟨by simpa [CompiledUnit.invalid] using herrors, ?_, isValid_invalid _ _⟩
    intro d hd
    obtain ⟨err, -, rfl⟩ := List.mem_map.mp hd
    rfl

def topLevelRequest (source : String) : CompileRequest :=
  { fingerprint := ⟨[]⟩, source, context := none, anchor := none
    symbols := .ofList [("a", ⟨.any, .external⟩), ("n", ⟨.int, .field⟩)] }

theorem compile_exact_topLevel :
    (∃ t, (topLevelRequest "let a = n; a + b == this").Exact t) ∧
      (topLevelRequest "let a = n; a + b == this").compile.issues.map (fun d => (d.code, d.span)) =
        [(some Code.noInstance, ⟨8, 9⟩), (some Code.shadowing, ⟨4, 5⟩),
          (some Code.unknownName, ⟨15, 16⟩), (some Code.noInstance, ⟨20, 24⟩)] ∧
      (topLevelRequest "let a =").compile.isValid = false := by
  refine ⟨?_, by decide +kernel, ?_⟩
  · obtain ⟨t, -, ht⟩ :=
      (compile_exact (topLevelRequest "let a = n; a + b == this")).1 (by decide +kernel)
    exact ⟨t, ht⟩
  · exact ((compile_exact (topLevelRequest "let a =")).2 (by decide +kernel)).2.2

end placed

end SnippetEval
