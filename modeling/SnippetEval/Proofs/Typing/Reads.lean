import SnippetEval.Proofs.Typing.Soundness

namespace SnippetEval

namespace Snippet

def MentionsThis (snippet : Snippet) : Prop :=
  ∃ bs e span, snippet.Follows bs e ∧ Expr.Within (.this span) e

def ReadsFree (snippet : Snippet) (n : String) : Prop :=
  ∃ bs e span, snippet.Follows bs e ∧ Expr.Within (.name ⟨n, span⟩) e ∧ ∀ b ∈ bs, b.name.name ≠ n

end Snippet

theorem mem_names_of_within {i : Ident} {e : Expr} (h : Expr.Within (.name i) e) :
    i.name ∈ e.names := by
  induction h with
  | self => exact List.mem_singleton.mpr rfl
  | operand hp _ ih => exact mem_names_iff.mpr (.inr ⟨_, hp, ih⟩)

theorem mem_names_of_readsFree {snippet : Snippet} {n : String} (h : snippet.ReadsFree n) :
    n ∈ snippet.names := by
  obtain ⟨bs, e, span, hfollows, hn, -⟩ := h
  have he := mem_names_of_within hn
  rcases hfollows with ⟨b, rest, hbs, rfl⟩ | ⟨-, hresult⟩
  · exact names_value_subset b (by simp [hbs]) he
  · exact names_result_subset hresult he

variable {s : Scope}

theorem bound_after_eq_none_iff {bs : List Binding} {n : String} :
    (s.after bs).bound.get? n = none ↔ s.bound.get? n = none ∧ ∀ b ∈ bs, b.name.name ≠ n := by
  induction bs generalizing s with
  | nil => simp [Scope.after, checkBindings]
  | cons b bs ih =>
    have hcons : s.after (b :: bs) = (checkBinding s b).2.after bs := rfl
    rw [hcons, ih, checkBinding_scope, Table.get?_insert]
    by_cases hb : n = b.name.name
    · simp [hb]
    · simp [hb, Ne.symm hb]

theorem additive_usesInstance : Findings.Additive (·.usesInstance = true) :=
  ⟨Bool.false_ne_true, fun _ _ => Bool.or_eq_true_iff⟩

theorem additive_usesEnv : Findings.Additive (·.usesEnv = true) :=
  ⟨Bool.false_ne_true, fun _ _ => Bool.or_eq_true_iff⟩

def Scope.Declares (s : Scope) (i : Ident) (k : SymbolKind) : Prop :=
  s.bound.get? i.name = none ∧ ∃ t, s.symbols.get? i.name = some ⟨t, k⟩

theorem takeInstance_uses (span : Span) (what : String) (fields : List String) :
    (s.takeInstance span what fields).usesInstance = s.hasInstance ∧
      (s.takeInstance span what fields).usesEnv = false := by
  unfold Scope.takeInstance
  split
  · next h => exact ⟨h.symm, rfl⟩
  · next h => exact ⟨(Bool.not_eq_true _).mp h |>.symm, rfl⟩

theorem inferName_usesInstance_iff {i : Ident} : (s.inferName i).2.usesInstance = true ↔
    s.hasInstance = true ∧ s.Declares i .field := by
  unfold Scope.inferName Scope.Declares
  cases s.bound.get? i.name with
  | some t => simp
  | none =>
    cases s.symbols.get? i.name with
    | none => simp [unknownName]
    | some info =>
      obtain ⟨t, k⟩ := info
      cases k <;> simp [takeInstance_uses]

theorem inferName_usesEnv_iff {i : Ident} : (s.inferName i).2.usesEnv = true ↔
    ∃ k, k ≠ .field ∧ s.Declares i k := by
  unfold Scope.inferName Scope.Declares
  cases s.bound.get? i.name with
  | some t => simp
  | none =>
    cases s.symbols.get? i.name with
    | none => simp [unknownName]
    | some info =>
      obtain ⟨t, k⟩ := info
      cases k <;> simp [takeInstance_uses]

theorem own_usesInstance_iff {d : Expr} : (s.own d).usesInstance = true ↔ s.hasInstance = true ∧
    ((∃ span, d = .this span) ∨ ∃ i, d = .name i ∧ s.Declares i .field) := by
  cases d with
  | literal l span => simp [Scope.own]
  | name i => simp [Scope.own, inferName_usesInstance_iff]
  | this span => simp [Scope.own, takeInstance_uses]
  | _ =>
    simp only [Scope.own]
    split <;> simp [typeError]

theorem own_usesEnv_iff {d : Expr} : (s.own d).usesEnv = true ↔
    ∃ i k, d = .name i ∧ k ≠ .field ∧ s.Declares i k := by
  cases d with
  | literal l span => simp [Scope.own]
  | name i => simp [Scope.own, inferName_usesEnv_iff]
  | this span => simp [Scope.own, takeInstance_uses]
  | _ =>
    simp only [Scope.own]
    split <;> simp [typeError]

section

variable {snippet : Snippet} {n : String} (hbound : s.bound = .empty)

include hbound

theorem declares_after_iff {bs : List Binding} {i : Ident} {k : SymbolKind} :
    (s.after bs).Declares i k ↔
      (∀ b ∈ bs, b.name.name ≠ i.name) ∧ ∃ t, s.symbols.get? i.name = some ⟨t, k⟩ := by
  simp [Scope.Declares, bound_after_eq_none_iff, hbound]

theorem readsFree_declared_iff {k : SymbolKind} :
    (∃ bs e i, snippet.Follows bs e ∧ Expr.Within (.name i) e ∧ (s.after bs).Declares i k) ↔
      ∃ n t, snippet.ReadsFree n ∧ s.symbols.get? n = some ⟨t, k⟩ := by
  simp only [declares_after_iff hbound]
  constructor
  · rintro ⟨bs, e, i, h, hi, hfree, t, ht⟩
    exact ⟨i.name, t, ⟨bs, e, i.span, h, hi, hfree⟩, ht⟩
  · rintro ⟨n, t, ⟨bs, e, span, h, hi, hfree⟩, ht⟩
    exact ⟨bs, e, ⟨n, span⟩, h, hi, hfree, t, ht⟩

theorem usesEnv_check_iff : (snippet.check s).usesEnv = true ↔
    ∃ k n t, k ≠ .field ∧ snippet.ReadsFree n ∧ s.symbols.get? n = some ⟨t, k⟩ := by
  rw [check_own_iff additive_usesEnv fun _ => Bool.false_ne_true]
  simp only [own_usesEnv_iff]
  constructor
  · rintro ⟨bs, e, d, h, hd, i, k, rfl, hk, hi⟩
    obtain ⟨n, t, hn⟩ := (readsFree_declared_iff hbound).mp ⟨bs, e, i, h, hd, hi⟩
    exact ⟨k, n, t, hk, hn⟩
  · rintro ⟨k, n, t, hk, hn⟩
    obtain ⟨bs, e, i, h, hd, hi⟩ := (readsFree_declared_iff hbound).mpr ⟨n, t, hn⟩
    exact ⟨bs, e, _, h, hd, i, k, rfl, hk, hi⟩

variable (hclean : ∀ d ∈ (snippet.check s).issues, d.isError = false)

include hclean

theorem declared_of_readsFree (h : snippet.ReadsFree n) :
    ∃ t k, s.symbols.get? n = some ⟨t, k⟩ ∧ (k = .field → s.hasInstance = true) := by
  obtain ⟨bs, e, span, hfollows, hwithin, hfree⟩ := h
  have hnone : (s.after bs).bound.get? n = none :=
    bound_after_eq_none_iff.mpr ⟨by rw [hbound]; rfl, hfree⟩
  have haccepts := (accepts_of_follows hclean hfollows).within hwithin
  obtain ⟨t, k, ht, hfield⟩ := accepts_name haccepts hnone
  rw [symbols_after] at ht
  rw [hasInstance_after] at hfield
  exact ⟨t, k, ht, hfield⟩

theorem usesInstance_check_iff : (snippet.check s).usesInstance = true ↔
    snippet.MentionsThis ∨ ∃ n t, snippet.ReadsFree n ∧ s.symbols.get? n = some ⟨t, .field⟩ := by
  rw [check_own_iff additive_usesInstance fun _ => Bool.false_ne_true,
    ← readsFree_declared_iff hbound]
  simp only [own_usesInstance_iff, hasInstance_after]
  constructor
  · rintro ⟨bs, e, d, h, hd, -, ⟨span, rfl⟩ | ⟨i, rfl, hi⟩⟩
    · exact .inl ⟨bs, e, span, h, hd⟩
    · exact .inr ⟨bs, e, i, h, hd, hi⟩
  · rintro (⟨bs, e, span, h, hd⟩ | ⟨bs, e, i, h, hd, hi⟩)
    · have haccepts := (accepts_of_follows hclean h).within hd
      have hinstance := accepts_takeInstance (accepts_iff.mp haccepts).2
      rw [hasInstance_after] at hinstance
      exact ⟨bs, e, _, h, hd, hinstance, .inl ⟨span, rfl⟩⟩
    · obtain ⟨hfree, t, ht⟩ := (declares_after_iff hbound).mp hi
      obtain ⟨u, k, hu, hfield⟩ := declared_of_readsFree hbound hclean ⟨bs, e, i.span, h, hd, hfree⟩
      rw [ht] at hu
      cases hu
      exact ⟨bs, e, _, h, hd, hfield rfl, .inr ⟨i, rfl, hi⟩⟩

theorem mem_fields_iff_of_readsFree (h : snippet.ReadsFree n) {t : ValueType} {k : SymbolKind}
    (ht : s.symbols.get? n = some ⟨t, k⟩) : n ∈ (snippet.check s).fields ↔ k = .field := by
  rw [mem_check_fields_iff]
  constructor
  · rintro ⟨bs, e, -, hfield⟩
    obtain ⟨u, hu⟩ := fields_declared hfield
    rw [symbols_after, ht] at hu
    cases hu
    rfl
  · rintro rfl
    obtain ⟨u, k, hu, hfield⟩ := declared_of_readsFree hbound hclean h
    rw [ht] at hu
    cases hu
    obtain ⟨bs, e, span, hfollows, hwithin, hfree⟩ := h
    have hnone : (s.after bs).bound.get? n = none :=
      bound_after_eq_none_iff.mpr ⟨by rw [hbound]; rfl, hfree⟩
    have hname : n ∈ (infer (s.after bs) (.name ⟨n, span⟩)).2.fields := by
      simp [infer, Scope.inferName, hnone, ht, Scope.takeInstance, hfield rfl]
    exact ⟨bs, e, hfollows, found_of_within (additive_fields n) hwithin hname⟩

end

end SnippetEval
