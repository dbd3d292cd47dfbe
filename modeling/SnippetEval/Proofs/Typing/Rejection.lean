import SnippetEval.Proofs.Typing.Findings

namespace SnippetEval

variable {f : Frame} {s : Scope}

def Scope.Rejects (s : Scope) (e : Expr) : Prop :=
  (∃ d ∈ (infer s e).2.issues, d.isError = true ∧ d.code = some Code.typeError) ∧
    ∀ p ∈ e.operands, s.Accepts p

theorem Scope.Rejects.own {e : Expr} (h : s.Rejects e) :
    ∃ d ∈ (s.own e).issues, d.code = some Code.typeError := by
  obtain ⟨⟨d, hd, herror, hcode⟩, hops⟩ := h
  rcases (infer_found_iff (additive_issues d)).mp hd with ⟨p, hp, hd⟩ | hd
  · have hclean := hops p hp d hd
    rw [herror] at hclean
    cases hclean
  · exact ⟨d, hd, hcode⟩

theorem takeInstance_code {span : Span} {what : String} {fields : List String} {d : Diagnostic}
    (hd : d ∈ (s.takeInstance span what fields).issues) : d.code = some Code.noInstance := by
  unfold Scope.takeInstance at hd
  split at hd
  · cases hd
  · obtain rfl := List.mem_singleton.mp hd
    rfl

theorem inferName_code {i : Ident} {d : Diagnostic} (hd : d ∈ (s.inferName i).2.issues) :
    d.code = some Code.unknownName ∨ d.code = some Code.noInstance := by
  unfold Scope.inferName at hd
  split at hd
  · cases hd
  · obtain rfl := List.mem_singleton.mp hd
    exact .inl rfl
  · exact .inr (takeInstance_code hd)
  · cases hd
  · cases hd

theorem not_rejects_literal {l : Literal} {span : Span} : ¬ s.Rejects (.literal l span) := by
  intro h
  obtain ⟨d, hd, -⟩ := h.own
  cases hd

theorem not_rejects_name {i : Ident} : ¬ s.Rejects (.name i) := by
  intro h
  obtain ⟨d, hd, hcode⟩ := h.own
  rcases inferName_code hd with hd | hd
  · exact absurd (hcode.symm.trans hd) (by decide)
  · exact absurd (hcode.symm.trans hd) (by decide)

theorem not_rejects_this {span : Span} : ¬ s.Rejects (.this span) := by
  intro h
  obtain ⟨d, hd, hcode⟩ := h.own
  exact absurd (hcode.symm.trans (takeInstance_code hd)) (by decide)

theorem rejects_field {e : Expr} {i : Ident} {span : Span} (h : s.Rejects (.field e i span)) :
    (infer s e).1.mayBe .object = false := by
  obtain ⟨d, hd, -⟩ := h.own
  simp only [Scope.own] at hd
  split at hd
  · cases hd
  · next hobject => exact Bool.eq_false_iff.mpr hobject

theorem rejects_unary {op : UnaryOp} {e : Expr} {span : Span} (h : s.Rejects (.unary op e span)) :
    op.resultType (infer s e).1 = none := by
  obtain ⟨d, hd, -⟩ := h.own
  simp only [Scope.own] at hd
  split at hd
  · cases hd
  · next hnone => exact Option.not_isSome_iff_eq_none.mp hnone

theorem rejects_binary {op : BinaryOp} {l r : Expr} {span : Span}
    (h : s.Rejects (.binary op l r span)) :
    op.resultType (infer s l).1 (infer s r).1 = none := by
  obtain ⟨d, hd, -⟩ := h.own
  simp only [Scope.own] at hd
  split at hd
  · cases hd
  · next hnone => exact Option.not_isSome_iff_eq_none.mp hnone

def ValueType.NotAddable (t : ValueType) : Prop := t = .null ∨ t = .bool ∨ t = .object

theorem add_any_eq_none_iff {t : ValueType} :
    (BinaryOp.add.resultType .any t = none ↔ t.NotAddable) ∧
      (BinaryOp.add.resultType t .any = none ↔ t.NotAddable) := by
  cases t <;>
    simp [BinaryOp.resultType, arithmeticType, ValueType.isNumeric, ValueType.NotAddable]

theorem add_string_ne_none (t : ValueType) :
    BinaryOp.add.resultType .string t ≠ none ∧ BinaryOp.add.resultType t .string ≠ none := by
  simp [BinaryOp.resultType]

/-- The value is a text whose type is not known, and the other type is not one that `+` takes. -/
def HidesText (t u : ValueType) (v : Value) : Prop := t = .any ∧ v.type = .string ∧ u.NotAddable

theorem hidesText_left {t u : ValueType} {a : Value} (ha : a.HasType t) (hs : a.type = .string)
    (hnone : BinaryOp.add.resultType t u = none) : HidesText t u a := by
  have ht : t = .any := by
    by_contra hany
    rw [← ha.type_eq hany, hs] at hnone
    exact (add_string_ne_none u).1 hnone
  subst ht
  exact ⟨rfl, hs, add_any_eq_none_iff.1.mp hnone⟩

theorem hidesText_right {t u : ValueType} {b : Value} (hb : b.HasType u) (hs : b.type = .string)
    (hnone : BinaryOp.add.resultType t u = none) : HidesText u t b := by
  have hu : u = .any := by
    by_contra hany
    rw [← hb.type_eq hany, hs] at hnone
    exact (add_string_ne_none t).2 hnone
  subst hu
  exact ⟨rfl, hs, add_any_eq_none_iff.2.mp hnone⟩

theorem add_text {a b : Value} (h : a.type = .string ∨ b.type = .string) :
    BinaryOp.add.apply a b = .ok (.text (a.display ++ b.display)) := by
  simp only [BinaryOp.apply, if_pos h]

theorem apply_rejected {op : BinaryOp} {a b v : Value} {t u : ValueType} (ha : a.HasType t)
    (hb : b.HasType u) (hnone : op.resultType t u = none) :
    op.apply a b = .ok v ↔ op = .add ∧ (HidesText t u a ∨ HidesText u t b) ∧
      v = .text (a.display ++ b.display) := by
  constructor
  · intro h
    rcases BinaryOp.resultType_mono ha hb (BinaryOp.apply_ok h) with
      ⟨w, hw, -⟩ | ⟨rfl, -, hs, -⟩
    · rw [hnone] at hw
      cases hw
    · rw [add_text hs] at h
      refine ⟨rfl, ?_, (Except.ok.inj h).symm⟩
      rcases hs with hs | hs
      · exact .inl (hidesText_left ha hs hnone)
      · exact .inr (hidesText_right hb hs hnone)
  · rintro ⟨rfl, h, rfl⟩
    rcases h with ⟨-, hs, -⟩ | ⟨-, hs, -⟩
    · exact add_text (.inl hs)
    · exact add_text (.inr hs)

/-- A rejected operation fails, unless it adds a text hidden behind `any` to what is neither a number
nor a text. -/
theorem eval_rejected {snippet : Snippet} {bs : List Binding} {d e : Expr} {f' : Frame}
    (hconforms : f.Conforms s snippet) (hfollows : snippet.Follows bs e)
    (hrun : f.runBindings bs = .ok f') (hd : Expr.Within d e) (hrejects : (s.after bs).Rejects d)
    (hlogical : ∀ op l r span, d = .binary op l r span → op.isLogical = false) (v : Value) :
    f'.eval d = .ok v ↔ ∃ l r span a b, d = .binary .add l r span ∧
      f'.eval l = .ok a ∧ f'.eval r = .ok b ∧
      (HidesText (infer (s.after bs) l).1 (infer (s.after bs) r).1 a ∨
        HidesText (infer (s.after bs) r).1 (infer (s.after bs) l).1 b) ∧
      v = .text (a.display ++ b.display) := by
  obtain ⟨hfits, hplaces⟩ := hconforms.after hfollows hrun
  have htype (p : Expr) (hp : p ∈ d.operands) (w : Value) (hw : f'.eval p = .ok w) :
      w.HasType (infer (s.after bs) p).1 :=
    eval_hasType hfits p (hplaces.within (Expr.Within.trans (.operand hp .self) hd)) hw
  cases d with
  | literal l span => exact absurd hrejects not_rejects_literal
  | name i => exact absurd hrejects not_rejects_name
  | this span => exact absurd hrejects not_rejects_this
  | field p i span =>
    refine iff_of_false ?_ (by rintro ⟨l, r, span', a, b, h, -⟩; cases h)
    intro hv
    obtain ⟨w, hw, hv⟩ := bind_eq_ok_iff.mp hv
    have hobject := rejects_field hrejects
    split at hv
    · have hwt := htype p (List.mem_singleton.mpr rfl) _ hw
      exact absurd hwt (Bool.eq_false_iff.mp hobject)
    · cases hv
  | unary op p span =>
    refine iff_of_false ?_ (by rintro ⟨l, r, span', a, b, h, -⟩; cases h)
    intro hv
    obtain ⟨a, ha, hv⟩ := bind_eq_ok_iff.mp hv
    have hmem : p ∈ (Expr.unary op p span).operands := List.mem_singleton.mpr rfl
    obtain ⟨w, hw, -⟩ := UnaryOp.resultType_mono (htype p hmem a ha) (UnaryOp.apply_ok hv)
    rw [rejects_unary hrejects] at hw
    cases hw
  | binary op l r span =>
    have hl : l ∈ (Expr.binary op l r span).operands := List.mem_cons_self
    have hr : r ∈ (Expr.binary op l r span).operands := List.mem_cons_of_mem _ List.mem_cons_self
    have hnone := rejects_binary hrejects
    rw [eval_binary_ok_iff (hlogical op l r span rfl)]
    constructor
    · rintro ⟨a, b, ha, hb, hv⟩
      obtain ⟨rfl, hhides, rfl⟩ := (apply_rejected (htype l hl a ha) (htype r hr b hb) hnone).mp hv
      exact ⟨l, r, span, a, b, rfl, ha, hb, hhides, rfl⟩
    · rintro ⟨l', r', span', a, b, h, ha, hb, hhides, rfl⟩
      cases h
      have hab := apply_rejected (v := .text (a.display ++ b.display)) (htype l hl a ha)
        (htype r hr b hb) hnone
      exact ⟨a, b, ha, hb, hab.mpr ⟨rfl, hhides, rfl⟩⟩

def nullPlus : Expr :=
  .binary .add (.literal .null ⟨0, 4⟩) (.name ⟨"x", ⟨7, 8⟩⟩) ⟨0, 8⟩

def nullPlusSymbols : SymbolTable := SymbolTable.declareExternal .empty "x"

theorem nullPlusSymbols_get? (n : String) :
    nullPlusSymbols.get? n = if n = "x" then some ⟨.any, .external⟩ else none := by
  simp [nullPlusSymbols, SymbolTable.declareExternal, Table.get?_insert]

theorem rejects_nullPlus : Scope.Rejects { symbols := nullPlusSymbols, hasInstance := false }
    nullPlus := by
  refine ⟨⟨_, List.mem_singleton.mpr rfl, rfl, rfl⟩, ?_⟩
  intro p hp
  simp only [nullPlus, Expr.operands, List.mem_cons, List.not_mem_nil, or_false] at hp
  intro d hd
  rcases hp with rfl | rfl <;> cases hd

theorem conforms_nullPlus :
    Frame.Conforms { receiver := none, env := some (.ofList [("x", .text "abc")]), fields := [] }
      { symbols := nullPlusSymbols, hasInstance := false } ⟨[], some nullPlus, ⟨0, 8⟩⟩ := by
  apply conforms_of_declared
  · refine ⟨⟨nofun, ?_, ?_⟩, fun n => .inl ⟨rfl, rfl⟩⟩
    · intro n t _ o ho
      cases ho
    · intro n t k hn _
      rw [nullPlusSymbols_get?] at hn
      split at hn
      · next hx =>
        cases hn
        exact ⟨.text "abc", by rw [hx]; rfl, rfl⟩
      · cases hn
  · intro n i hi
    rw [nullPlusSymbols_get?] at hi
    split at hi
    · cases hi
      simp
    · cases hi

theorem eval_rejected_nullPlus :
    let s : Scope := { symbols := nullPlusSymbols, hasInstance := false }
    let f : Frame :=
      { receiver := none, env := some (.ofList [("x", .text "abc")]), fields := [] }
    f.Conforms s ⟨[], some nullPlus, ⟨0, 8⟩⟩ ∧ s.Rejects nullPlus ∧
      f.eval nullPlus = .ok (.text "nullabc") := by
  refine ⟨conforms_nullPlus, rejects_nullPlus, ?_⟩
  have hlogical (op : BinaryOp) (l r : Expr) (span : Span)
      (h : nullPlus = .binary op l r span) : op.isLogical = false := by
    cases h
    rfl
  have hrejected := eval_rejected conforms_nullPlus (.inr ⟨rfl, rfl⟩) rfl .self rejects_nullPlus
    hlogical (.text "nullabc")
  apply hrejected.mpr
  exact ⟨_, _, _, .null, .text "abc", rfl, rfl, rfl, .inr ⟨rfl, rfl, .inl rfl⟩, rfl⟩

end SnippetEval
