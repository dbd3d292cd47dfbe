import SnippetEval.Proofs.Symbols
import SnippetEval.Proofs.Typing.Issues
import SnippetEval.Proofs.Typing.Rejection

namespace SnippetEval

def Scope.typeOf (s : Scope) (n : String) : ValueType :=
  (s.bound.get? n).getD ((s.symbols.get? n).elim .any (·.type))

section types

variable {s u : Scope}

theorem inferName_type (s : Scope) (i : Ident) : (s.inferName i).1 = s.typeOf i.name := by
  unfold Scope.inferName Scope.typeOf
  cases s.bound.get? i.name with
  | some t => rfl
  | none =>
    cases s.symbols.get? i.name with
    | none => rfl
    | some info =>
      obtain ⟨t, k⟩ := info
      cases k <;> rfl

theorem infer_typeOf (h : ∀ n, s.typeOf n = u.typeOf n) (e : Expr) :
    (infer s e).1 = (infer u e).1 := by
  induction e with
  | literal | this => rfl
  | name i =>
    have hname := h i.name
    rw [← inferName_type, ← inferName_type] at hname
    exact hname
  | field e i span => rw [infer_field_type, infer_field_type]
  | unary op e span ih => rw [infer_unary_type, infer_unary_type, ih]
  | binary op l r span ihl ihr => rw [infer_binary_type, infer_binary_type, ihl, ihr]

theorem typeOf_after (h : ∀ n, s.typeOf n = u.typeOf n) (bs : List Binding) (n : String) :
    (s.after bs).typeOf n = (u.after bs).typeOf n := by
  induction bs generalizing s u with
  | nil => exact h n
  | cons b bs ih =>
    refine ih (s := (checkBinding s b).2) (u := (checkBinding u b).2) fun m => ?_
    simp only [checkBinding_scope, Scope.typeOf, Table.get?_insert]
    split
    · exact infer_typeOf h b.value
    · exact h m

theorem own_congr (htypes : ∀ e, (infer s e).1 = (infer u e).1)
    (hinstance : s.hasInstance = u.hasInstance) {d : Expr} (hd : ∀ i, d ≠ .name i) :
    s.own d = u.own d := by
  cases d with
  | name i => exact absurd rfl (hd i)
  | _ => simp only [Scope.own, Scope.takeInstance, htypes, hinstance]

end types

theorem inferName_span {s : Scope} {i : Ident} {d : Diagnostic}
    (hd : d ∈ (s.inferName i).2.issues) : d.span = i.span := by
  have htake (what : String) (fields : List String)
      (hd : d ∈ (s.takeInstance i.span what fields).issues) : d.span = i.span := by
    unfold Scope.takeInstance at hd
    split at hd
    · cases hd
    · obtain rfl := List.mem_singleton.mp hd
      rfl
  unfold Scope.inferName at hd
  split at hd
  · cases hd
  · obtain rfl := List.mem_singleton.mp hd
    rfl
  · exact htake _ _ hd
  · cases hd
  · cases hd

section names

variable {s u : Scope} {i : Ident}

theorem issues_inferName_of_bound (h : s.bound.contains i.name = true) :
    (s.inferName i).2.issues = [] := by
  obtain ⟨t, ht⟩ := Option.isSome_iff_exists.mp h
  simp only [Scope.inferName, ht]

theorem issues_inferName_of_external {info : SymbolInfo} (h : s.symbols.get? i.name = some info)
    (hkind : info.kind = .external) : (s.inferName i).2.issues = [] := by
  obtain ⟨t, k⟩ := info
  cases hkind
  unfold Scope.inferName
  rw [h]
  cases s.bound.get? i.name <;> rfl

theorem issues_inferName_congr (hbound : s.bound.contains i.name = u.bound.contains i.name)
    (hsymbols : s.symbols.get? i.name = u.symbols.get? i.name)
    (hinstance : s.hasInstance = u.hasInstance) :
    (s.inferName i).2.issues = (u.inferName i).2.issues := by
  cases hb : u.bound.contains i.name with
  | true => rw [issues_inferName_of_bound hb, issues_inferName_of_bound (hbound.trans hb)]
  | false =>
    have hu : u.bound.get? i.name = none := by simpa [Table.contains] using hb
    have hs : s.bound.get? i.name = none := by simpa [Table.contains] using hbound.trans hb
    simp only [Scope.inferName, Scope.takeInstance, hs, hu, hsymbols, hinstance]

end names

section supplied

variable {T : SymbolTable} {hasInstance : Bool} {N M : List String} {t : Snippet}

def SymbolTable.supplying (T : SymbolTable) (hasInstance : Bool) (names : List String) : Scope :=
  { symbols := T.declareExternals names, hasInstance }

def isAdded (N M : List String) : List Binding × Expr → Bool
  | (bs, .name i) => !binds bs i.name && i.name ∈ M && i.name ∉ N
  | _ => false

theorem typeOf_supplying (names : List String) (n : String) :
    (T.supplying hasInstance names).typeOf n = (T.get? n).elim .any (·.type) := by
  have hget := T.get?_declareExternals names n
  simp only [SymbolTable.supplying, Scope.typeOf, hget]
  split
  · rfl
  · rfl

theorem infer_supplying (bs : List Binding) (e : Expr) :
    (infer ((T.supplying hasInstance M).after bs) e).1 =
      (infer ((T.supplying hasInstance N).after bs) e).1 := by
  refine infer_typeOf (typeOf_after (fun n => ?_) bs) e
  rw [typeOf_supplying, typeOf_supplying]

theorem own_supplying (h : N ⊆ M) (q : List Binding × Expr) :
    (((T.supplying hasInstance M).after q.1).own q.2).issues =
      if !isAdded N M q then (((T.supplying hasInstance N).after q.1).own q.2).issues else [] := by
  obtain ⟨bs, d⟩ := q
  have hinstance (names : List String) :
      ((T.supplying hasInstance names).after bs).hasInstance = hasInstance := hasInstance_after _ _
  cases d with
  | name i =>
    have hget (names : List String) :
        ((T.supplying hasInstance names).after bs).symbols.get? i.name =
          if i.name ∈ names then some (SymbolTable.supplied (T.get? i.name)) else T.get? i.name := by
      rw [symbols_after]
      exact T.get?_declareExternals names i.name
    have hbound (names : List String) :
        ((T.supplying hasInstance names).after bs).bound.contains i.name = binds bs i.name :=
      bound_after_contains rfl i.name
    have hsupplied (names : List String) (hi : i.name ∈ names) :
        (((T.supplying hasInstance names).after bs).inferName i).2.issues = [] :=
      issues_inferName_of_external ((hget names).trans (if_pos hi)) rfl
    simp only [Scope.own, isAdded]
    -- A name that is supplied is right wherever it stands, so the second names decide first.
    by_cases hM : i.name ∈ M
    · rw [hsupplied M hM]
      by_cases hN : i.name ∈ N
      · simp [hsupplied N hN]
      · by_cases hb : binds bs i.name = true
        · simp [issues_inferName_of_bound ((hbound N).trans hb)]
        · simp [hb, hM, hN]
    · have hN : i.name ∉ N := fun hi => hM (h hi)
      rw [issues_inferName_congr ((hbound M).trans (hbound N).symm)
        (by rw [hget, hget, if_neg hM, if_neg hN]) ((hinstance M).trans (hinstance N).symm)]
      simp [hM]
  | _ =>
    exact congrArg Findings.issues
      (own_congr (infer_supplying bs) ((hinstance M).trans (hinstance N).symm) (by simp))

theorem added_issue {q : List Binding × Expr} (hq : isAdded N M q = true) {s : Scope}
    {d : Diagnostic} (hd : d ∈ (s.own q.2).issues) :
    (d.code = some Code.unknownName ∨ d.code = some Code.noInstance) ∧
      ∃ bs i, q = (bs, .name i) ∧ i.name ∈ M ∧ i.name ∉ N ∧ d.span = i.span := by
  obtain ⟨bs, e⟩ := q
  cases e with
  | name i =>
    simp only [isAdded, Bool.and_eq_true, decide_eq_true_eq] at hq
    exact ⟨inferName_code hd, bs, i, rfl, hq.1.2, hq.2, inferName_span hd⟩
  | _ => cases hq

theorem errors_check (s : Scope) (t : Snippet) :
    (t.check s).errors = t.parts.flatMap fun q => ((s.after q.1).own q.2).errors :=
  filter_check fun i => by simp [shadowing, Diagnostic.isError]

theorem errors_supplying (h : N ⊆ M) :
    (t.check (T.supplying hasInstance M)).errors =
      (t.parts.filter (!isAdded N M ·)).flatMap fun q =>
        (((T.supplying hasInstance N).after q.1).own q.2).errors := by
  rw [errors_check, ← flatMap_ite]
  refine List.flatMap_congr fun q _ => ?_
  rw [Findings.errors, own_supplying h]
  split
  · rfl
  · rfl

theorem typeErrors_supplying (h : N ⊆ M) :
    (t.check (T.supplying hasInstance M)).issues.filter (·.code = some Code.typeError) =
      (t.check (T.supplying hasInstance N)).issues.filter (·.code = some Code.typeError) := by
  have hnames (i : Ident) :
      (shadowing i).issues.filter (·.code = some Code.typeError) = [] := by
    simp [shadowing, Code.shadowing, Code.typeError]
  rw [filter_check hnames, filter_check hnames]
  refine List.flatMap_congr fun q _ => ?_
  rw [own_supplying h]
  cases hq : isAdded N M q with
  | false => rfl
  | true =>
    refine (List.filter_eq_nil_iff.mpr fun d hd => ?_).symm
    have hne : Code.unknownName ≠ Code.typeError ∧ Code.noInstance ≠ Code.typeError := by decide
    rcases (added_issue hq hd).1 with hcode | hcode
    · simp [hcode, hne.1]
    · simp [hcode, hne.2]

def CompileRequest.supplying (q : CompileRequest) (names : List String) : CompileRequest :=
  { q with symbols := q.symbols.declareExternals names }

theorem isValid_supplying (q : CompileRequest) (h : N ⊆ M)
    (hvalid : (q.supplying N).compile.isValid = true) :
    (q.supplying M).compile.isValid = true := by
  obtain ⟨t, hparse, hclean, -⟩ := CompileRequest.compile_of_isValid hvalid
  have hnarrow : (t.check (q.symbols.supplying q.hasInstance N)).errors = [] :=
    errors_eq_nil_iff.mpr hclean
  have hwide : (t.check (q.symbols.supplying q.hasInstance M)).errors = [] := by
    rw [errors_check] at hnarrow
    rw [errors_supplying h]
    exact List.sublist_nil.mp (hnarrow ▸ List.filter_sublist.flatMap _)
  have hparse : parse (q.supplying M).source = ⟨some t, []⟩ := hparse
  rw [CompileRequest.compile_of_parsed hparse]
  exact CompileRequest.isValid_compileParsed_iff.mpr (errors_eq_nil_iff.mp hwide)

theorem check_supplying (t : Snippet) (T : SymbolTable) (hasInstance : Bool) (h : N ⊆ M) :
    (t.check (T.supplying hasInstance M)).errors.Sublist
        (t.check (T.supplying hasInstance N)).errors ∧
      (∃ removed, (t.check (T.supplying hasInstance N)).errors.Perm
          ((t.check (T.supplying hasInstance M)).errors ++ removed) ∧
        ∀ d ∈ removed, (d.code = some Code.unknownName ∨ d.code = some Code.noInstance) ∧
          ∃ bs i, (bs, .name i) ∈ t.parts ∧ i.name ∈ M ∧ i.name ∉ N ∧ d.span = i.span) ∧
      (t.check (T.supplying hasInstance M)).issues.filter (·.code = some Code.typeError) =
        (t.check (T.supplying hasInstance N)).issues.filter (·.code = some Code.typeError) ∧
      (∀ q ∈ t.parts, (infer ((T.supplying hasInstance M).after q.1) q.2).1 =
        (infer ((T.supplying hasInstance N).after q.1) q.2).1) ∧
      ∀ q : CompileRequest, (q.supplying N).compile.isValid = true →
        (q.supplying M).compile.isValid = true := by
  refine ⟨?_, ?_, typeErrors_supplying h, fun q _ => infer_supplying q.1 q.2,
    fun q hq => isValid_supplying q h hq⟩
  · rw [errors_supplying h, errors_check]
    exact List.filter_sublist.flatMap _
  · refine ⟨(t.parts.filter (isAdded N M)).flatMap fun q =>
      (((T.supplying hasInstance N).after q.1).own q.2).errors, ?_, ?_⟩
    · rw [errors_supplying h, errors_check, ← List.flatMap_append]
      refine List.Perm.flatMap_right _ ?_
      exact (List.perm_append_comm.trans (List.filter_append_perm (isAdded N M) t.parts)).symm
    · intro d hd
      obtain ⟨q, hq, hd⟩ := List.mem_flatMap.mp hd
      obtain ⟨hmem, hadded⟩ := List.mem_filter.mp hq
      obtain ⟨hcode, bs, i, rfl, hrest⟩ := added_issue hadded (List.mem_of_mem_filter hd)
      exact ⟨hcode, bs, i, hmem, hrest⟩

theorem check_supplying_topLevel :
    let T := (topLevelRequest "let y = x; n + y").symbols
    ∃ t, (parse "let y = x; n + y").snippet = some t ∧
      (t.check (T.supplying false [])).errors.map (·.span) = [⟨8, 9⟩, ⟨11, 12⟩] ∧
      (t.check (T.supplying false ["n"])).errors.map (·.span) = [⟨8, 9⟩] ∧
      (t.check (T.supplying false ["n"])).errors.Sublist
        (t.check (T.supplying false [])).errors := by
  intro T
  have hspans : (parse "let y = x; n + y").snippet.map (fun t =>
      ((t.check (T.supplying false [])).errors.map (·.span),
        (t.check (T.supplying false ["n"])).errors.map (·.span))) =
      some ([⟨8, 9⟩, ⟨11, 12⟩], [⟨8, 9⟩]) := by
    decide +kernel
  obtain ⟨t, ht, hspans⟩ := Option.map_eq_some_iff.mp hspans
  obtain ⟨hnarrow, hwide⟩ := Prod.mk.inj hspans
  exact ⟨t, ht, hnarrow, hwide, (check_supplying t T false (List.nil_subset ["n"])).1⟩

end supplied

end SnippetEval
