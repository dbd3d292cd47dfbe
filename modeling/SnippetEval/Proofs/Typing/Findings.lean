import SnippetEval.Proofs.Typing.Conformance

namespace SnippetEval

def Scope.own (s : Scope) : Expr → Findings
  | .literal _ _ => {}
  | .name i => (s.inferName i).2
  | .this span => s.takeInstance span "`this`" []
  | .field e i _ =>
    if (infer s e).1.mayBe .object then {}
    else typeError i.span
      ("no field `" ++ i.name ++ "` on a value of type " ++ (infer s e).1.name)
  | .unary op e span =>
    if (op.resultType (infer s e).1).isSome then {}
    else typeError span ("cannot apply `" ++ op.symbol ++ "` to " ++ (infer s e).1.name)
  | .binary op l r span =>
    if (op.resultType (infer s l).1 (infer s r).1).isSome then {}
    else typeError span ("cannot apply `" ++ op.symbol ++ "` to " ++ (infer s l).1.name ++
      " and " ++ (infer s r).1.name)

@[simp] theorem issues_append (a b : Findings) : (a ++ b).issues = a.issues ++ b.issues := rfl

/-- A property that findings put together have where one of them has it. -/
structure Findings.Additive (P : Findings → Prop) : Prop where
  empty : ¬ P {}
  append : ∀ a b, P (a ++ b) ↔ P a ∨ P b

theorem additive_issues (d : Diagnostic) : Findings.Additive (d ∈ ·.issues) :=
  ⟨List.not_mem_nil, fun _ _ => List.mem_append⟩

theorem additive_fields (n : String) : Findings.Additive (n ∈ ·.fields) :=
  ⟨List.not_mem_nil, fun _ _ => List.mem_append⟩

section

variable {P : Findings → Prop} {s : Scope} {d e : Expr}

theorem infer_found_iff (hP : Findings.Additive P) :
    P (infer s e).2 ↔ (∃ p ∈ e.operands, P (infer s p).2) ∨ P (s.own e) := by
  cases e with
  | literal l span => simp [infer, Scope.own, Expr.operands]
  | name i => simp [infer, Scope.own, Expr.operands]
  | this span => simp [infer, Scope.own, Expr.operands]
  | field e i span =>
    simp only [infer, Scope.own, Expr.operands, List.mem_singleton, exists_eq_left]
    split
    · simp [hP.empty]
    · simp [hP.append]
  | unary op e span =>
    simp only [infer, Scope.own, Expr.operands, List.mem_singleton, exists_eq_left]
    cases op.resultType (infer s e).1 with
    | some t => simp [hP.empty]
    | none => simp [hP.append]
  | binary op l r span =>
    simp only [infer, Scope.own, Expr.operands, List.mem_cons, List.not_mem_nil, or_false,
      exists_eq_or_imp, exists_eq_left]
    cases op.resultType (infer s l).1 (infer s r).1 with
    | some t => simp [hP.append, hP.empty]
    | none => simp [hP.append]

theorem found_of_within (hP : Findings.Additive P) (hd : Expr.Within d e) (h : P (infer s d).2) :
    P (infer s e).2 := by
  induction hd with
  | self => exact h
  | operand hp _ ih => exact (infer_found_iff hP).mpr (.inl ⟨_, hp, ih⟩)

theorem infer_own_iff (hP : Findings.Additive P) :
    P (infer s e).2 ↔ ∃ d, Expr.Within d e ∧ P (s.own d) := by
  constructor
  · intro h
    induction e using Expr.operands_induction with
    | step e ih =>
      rcases (infer_found_iff hP).mp h with ⟨p, hp, hfound⟩ | hown
      · obtain ⟨d, hd, hown⟩ := ih p hp hfound
        exact ⟨d, .operand hp hd, hown⟩
      · exact ⟨e, .self, hown⟩
  · rintro ⟨d, hd, hown⟩
    exact found_of_within hP hd ((infer_found_iff hP).mpr (.inr hown))

end

def Scope.Accepts (s : Scope) (e : Expr) : Prop := ∀ d ∈ (infer s e).2.issues, d.isError = false

variable {f : Frame} {s : Scope}

theorem accepts_iff {e : Expr} :
    s.Accepts e ↔ (∀ p ∈ e.operands, s.Accepts p) ∧ ∀ d ∈ (s.own e).issues, d.isError = false := by
  have hparts (d : Diagnostic) := infer_found_iff (s := s) (e := e) (additive_issues d)
  constructor
  · intro h
    exact ⟨fun p hp d hd => h d ((hparts d).mpr (.inl ⟨p, hp, hd⟩)),
      fun d hd => h d ((hparts d).mpr (.inr hd))⟩
  · rintro ⟨hops, hown⟩ d hd
    rcases (hparts d).mp hd with ⟨p, hp, hd⟩ | hd
    · exact hops p hp d hd
    · exact hown d hd

theorem Scope.Accepts.within {d e : Expr} (h : s.Accepts e) (hd : Expr.Within d e) :
    s.Accepts d := by
  induction hd with
  | self => exact h
  | operand hp _ ih => exact ih ((accepts_iff.mp h).1 _ hp)

theorem not_accepts_typeError {span : Span} {message : String}
    (h : ∀ d ∈ (typeError span message).issues, d.isError = false) : False := by
  simp [typeError, Diagnostic.isError] at h

theorem accepts_field {e : Expr} {i : Ident} {span : Span} (h : s.Accepts (.field e i span)) :
    (infer s e).1.mayBe .object = true := by
  have hown := (accepts_iff.mp h).2
  simp only [Scope.own] at hown
  split at hown
  · assumption
  · exact (not_accepts_typeError hown).elim

theorem accepts_unary {op : UnaryOp} {e : Expr} {span : Span} (h : s.Accepts (.unary op e span)) :
    ∃ t, op.resultType (infer s e).1 = some t := by
  have hown := (accepts_iff.mp h).2
  simp only [Scope.own] at hown
  split at hown
  · next hsome => exact Option.isSome_iff_exists.mp hsome
  · exact (not_accepts_typeError hown).elim

theorem accepts_binary {op : BinaryOp} {l r : Expr} {span : Span}
    (h : s.Accepts (.binary op l r span)) :
    ∃ t, op.resultType (infer s l).1 (infer s r).1 = some t := by
  have hown := (accepts_iff.mp h).2
  simp only [Scope.own] at hown
  split at hown
  · next hsome => exact Option.isSome_iff_exists.mp hsome
  · exact (not_accepts_typeError hown).elim

theorem accepts_takeInstance {span : Span} {what : String} {fields : List String}
    (h : ∀ d ∈ (s.takeInstance span what fields).issues, d.isError = false) :
    s.hasInstance = true := by
  unfold Scope.takeInstance at h
  split at h
  · assumption
  · simp [Diagnostic.isError] at h

theorem accepts_name {i : Ident} (h : s.Accepts (.name i)) (hb : s.bound.get? i.name = none) :
    ∃ t k, s.symbols.get? i.name = some ⟨t, k⟩ ∧ (k = .field → s.hasInstance = true) := by
  have hown := (accepts_iff.mp h).2
  simp only [Scope.own, Scope.inferName, hb] at hown
  cases hi : s.symbols.get? i.name with
  | none => simp [hi, unknownName, Diagnostic.isError] at hown
  | some info =>
    obtain ⟨t, k⟩ := info
    refine ⟨t, k, rfl, ?_⟩
    rintro rfl
    simp only [hi] at hown
    exact accepts_takeInstance hown

def Findings.errors (found : Findings) : List Diagnostic := found.issues.filter Diagnostic.isError

theorem errors_eq_nil_iff {found : Findings} :
    found.errors = [] ↔ ∀ d ∈ found.issues, d.isError = false := by
  simp [Findings.errors]

theorem additive_errors (d : Diagnostic) : Findings.Additive (d ∈ ·.errors) :=
  ⟨List.not_mem_nil, fun _ _ => by simp [Findings.errors]⟩

section

variable {P : Findings → Prop}

theorem checkBinding_found_iff (hP : Findings.Additive P) (hshadowing : ∀ i, ¬ P (shadowing i))
    (s : Scope) (b : Binding) : P (checkBinding s b).1 ↔ P (infer s b.value).2 := by
  simp only [checkBinding]
  split
  · rw [hP.append, or_iff_left (hshadowing b.name)]
  · rfl

theorem checkBindings_found_iff (hP : Findings.Additive P) (hshadowing : ∀ i, ¬ P (shadowing i))
    {bs : List Binding} : P (checkBindings s bs).1 ↔
      ∃ cs b rest, bs = cs ++ b :: rest ∧ P (infer (s.after cs) b.value).2 := by
  induction bs generalizing s with
  | nil => simp [checkBindings, hP.empty]
  | cons c bs ih =>
    have hcons : (checkBindings s (c :: bs)).1 =
        (checkBinding s c).1 ++ (checkBindings (checkBinding s c).2 bs).1 := rfl
    rw [hcons, hP.append, checkBinding_found_iff hP hshadowing, ih]
    constructor
    · rintro (h | ⟨cs, b, rest, rfl, h⟩)
      · exact ⟨[], c, bs, rfl, h⟩
      · exact ⟨c :: cs, b, rest, rfl, h⟩
    · rintro ⟨cs, b, rest, hcs, h⟩
      cases cs with
      | nil =>
        obtain ⟨rfl, rfl⟩ := List.cons.inj hcs
        exact .inl h
      | cons d cs =>
        obtain ⟨rfl, rfl⟩ := List.cons.inj hcs
        exact .inr ⟨cs, b, rest, rfl, h⟩

theorem check_found_iff (hP : Findings.Additive P) (hshadowing : ∀ i, ¬ P (shadowing i))
    {snippet : Snippet} : P (snippet.check s) ↔
      ∃ bs e, snippet.Follows bs e ∧ P (infer (s.after bs) e).2 := by
  have hcheck : P (snippet.check s) ↔ P (checkBindings s snippet.bindings).1 ∨
      ∃ e, snippet.result = some e ∧ P (infer (s.after snippet.bindings) e).2 := by
    simp only [Snippet.check, Scope.after]
    cases snippet.result <;> simp [hP.append]
  rw [hcheck, checkBindings_found_iff hP hshadowing]
  constructor
  · rintro (⟨cs, b, rest, hcs, h⟩ | ⟨e, he, h⟩)
    · exact ⟨cs, b.value, .inl ⟨b, rest, hcs, rfl⟩, h⟩
    · exact ⟨snippet.bindings, e, .inr ⟨rfl, he⟩, h⟩
  · rintro ⟨bs, e, ⟨b, rest, hbs, rfl⟩ | ⟨rfl, he⟩, h⟩
    · exact .inl ⟨bs, b, rest, hbs, h⟩
    · exact .inr ⟨e, he, h⟩

theorem check_own_iff (hP : Findings.Additive P) (hshadowing : ∀ i, ¬ P (shadowing i))
    {snippet : Snippet} : P (snippet.check s) ↔
      ∃ bs e d, snippet.Follows bs e ∧ Expr.Within d e ∧ P ((s.after bs).own d) := by
  rw [check_found_iff hP hshadowing]
  constructor
  · rintro ⟨bs, e, h, hfound⟩
    obtain ⟨d, hd, hown⟩ := (infer_own_iff hP).mp hfound
    exact ⟨bs, e, d, h, hd, hown⟩
  · rintro ⟨bs, e, d, h, hd, hown⟩
    exact ⟨bs, e, h, (infer_own_iff hP).mpr ⟨d, hd, hown⟩⟩

end

theorem mem_check_errors_iff {snippet : Snippet} {d : Diagnostic} :
    d ∈ (snippet.check s).errors ↔
      ∃ bs e, snippet.Follows bs e ∧ d ∈ (infer (s.after bs) e).2.errors :=
  check_found_iff (additive_errors d)
    (by simp [shadowing, Findings.errors, Diagnostic.isError])

theorem mem_check_fields_iff {snippet : Snippet} {n : String} :
    n ∈ (snippet.check s).fields ↔
      ∃ bs e, snippet.Follows bs e ∧ n ∈ (infer (s.after bs) e).2.fields :=
  check_found_iff (additive_fields n) fun _ => List.not_mem_nil

theorem own_fields_declared {e : Expr} {n : String} (h : n ∈ (s.own e).fields) :
    ∃ t, s.symbols.get? n = some ⟨t, .field⟩ := by
  cases e with
  | literal l span => cases h
  | name i =>
    simp only [Scope.own, Scope.inferName] at h
    split at h
    · cases h
    · cases h
    · next t _ hi =>
      simp only [Scope.takeInstance] at h
      split at h
      · obtain rfl := List.mem_singleton.mp h
        exact ⟨t, hi⟩
      · cases h
    · cases h
    · cases h
  | this span =>
    simp only [Scope.own, Scope.takeInstance] at h
    split at h <;> cases h
  | _ =>
    simp only [Scope.own] at h
    split at h <;> cases h

theorem fields_declared {e : Expr} {n : String} (h : n ∈ (infer s e).2.fields) :
    ∃ t, s.symbols.get? n = some ⟨t, .field⟩ := by
  obtain ⟨d, -, hd⟩ := (infer_own_iff (additive_fields n)).mp h
  exact own_fields_declared hd

theorem conforms_of_checked {snippet : Snippet} (hfits : f.Fits s)
    (hfields : f.fields = (snippet.check s).fields)
    (hinstance : ∀ bs e, snippet.Follows bs e → ∀ i, Expr.Within (.name i) e →
      (s.after bs).bound.get? i.name = none → ∀ t, s.symbols.get? i.name = some ⟨t, .field⟩ →
        s.hasInstance = true) : f.Conforms s snippet := by
  refine ⟨hfits, ?_⟩
  intro bs e h n hn hb info hinfo
  obtain ⟨i, rfl, hi⟩ := within_of_mem_names hn
  rw [hfields]
  rw [symbols_after] at hinfo
  constructor
  · intro hmem
    obtain ⟨cs, d, -, hd⟩ := mem_check_fields_iff.mp hmem
    obtain ⟨t, ht⟩ := fields_declared hd
    rw [symbols_after, hinfo] at ht
    cases ht
    rfl
  · intro hk
    obtain ⟨t, k⟩ := info
    obtain rfl : k = .field := hk
    have hinst := hinstance bs e h i hi hb t hinfo
    have hname : i.name ∈ (infer (s.after bs) (.name i)).2.fields := by
      simp [infer, Scope.inferName, hb, hinfo, Scope.takeInstance, hinst]
    exact mem_check_fields_iff.mpr ⟨bs, e, h, found_of_within (additive_fields _) hi hname⟩

end SnippetEval
