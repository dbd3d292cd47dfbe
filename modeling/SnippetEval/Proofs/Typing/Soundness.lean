import SnippetEval.Proofs.Typing.Findings

namespace SnippetEval

variable {f : Frame} {s : Scope}

theorem read_ok (h : f.Fits s) {i : Ident} (ha : s.Accepts (.name i))
    (hp : f.PlacesIn s (.name i)) : ∃ v, f.read i.name = .ok v := by
  rcases h.bound i.name with ⟨ht, hb⟩ | ⟨-, v, -, hb, -⟩
  · obtain ⟨t, k, hi, hfield⟩ := accepts_name ha ht
    have hplaces := hp i.name (List.mem_singleton.mpr rfl) ht
    exact (read_declared h hb hi hplaces).2 hfield
  · exact ⟨v, read_bound hb⟩

theorem getReceiver_ok (h : f.Fits s) {span : Span} (ha : s.Accepts (.this span)) :
    ∃ o, f.getReceiver = .ok o := by
  obtain ⟨o, ho⟩ := h.supplied.present (accepts_takeInstance (accepts_iff.mp ha).2)
  exact ⟨o, getReceiver_eq_ok_iff.mpr ho⟩

theorem Value.HasType.eq_any {v : Value} {t u : ValueType} (h : v.HasType t)
    (ht : t.mayBe u = true) (hv : v.type ≠ u) : t = .any := by
  by_contra hany
  rcases ValueType.mayBe_iff.mp ht with rfl | rfl
  · exact hv (h.type_eq hany)
  · exact hany rfl

theorem logical_mayBe {op : BinaryOp} (hop : op.isLogical = true) {t u w : ValueType}
    (h : op.resultType t u = some w) : t.mayBe .bool = true ∧ u.mayBe .bool = true := by
  rcases isLogical_iff.mp hop with rfl | rfl
  all_goals
    simp only [BinaryOp.resultType] at h
    split at h
    · next hb => simpa using hb
    · cases h

theorem field_fault {v : Value} {t : ValueType} (hv : v.HasType t) (ht : t.mayBe .object = true)
    {e : Expr} {i : Ident} {span : Span} (he : f.eval e = .ok v) {x : ExecutionFault}
    (hx : f.eval (.field e i span) = .error x) :
    x.kind = .missingField ∨ x.kind = .typeMismatch ∧ t = .any := by
  rcases Frame.field_error he hx with hk | ⟨hk, hobject⟩
  · exact .inl hk
  · exact .inr ⟨hk, hv.eq_any ht hobject⟩

theorem unary_fault {op : UnaryOp} {v : Value} {t w : ValueType} (hv : v.HasType t)
    (ht : op.resultType t = some w) {x : ExecutionFault} (hx : op.apply v = .error x) :
    x.kind = .overflow ∨ x.kind = .typeMismatch ∧ t = .any := by
  rcases UnaryOp.apply_error hx with hk | ⟨hk, hnone⟩
  · exact .inl hk
  · right
    refine ⟨hk, ?_⟩
    by_contra hany
    rw [hv.type_eq hany, ht] at hnone
    cases hnone

theorem binary_fault {op : BinaryOp} (hop : op.isLogical = false) {a b : Value}
    {t u w : ValueType} (ha : a.HasType t) (hb : b.HasType u) (ht : op.resultType t u = some w)
    {x : ExecutionFault} (hx : op.apply a b = .error x) :
    x.kind = .divisionByZero ∨ x.kind = .overflow ∨
      x.kind = .typeMismatch ∧ (t = .any ∨ u = .any) := by
  have hand : op ≠ .and := by rintro rfl; cases hop
  have hor : op ≠ .or := by rintro rfl; cases hop
  rcases BinaryOp.apply_error hand hor hx with hk | hk | ⟨hk, hnone⟩
  · exact .inl hk
  · exact .inr (.inl hk)
  · refine .inr (.inr ⟨hk, ?_⟩)
    by_contra hany
    obtain ⟨hta, hua⟩ := not_or.mp hany
    rw [ha.type_eq hta, hb.type_eq hua, ht] at hnone
    cases hnone

theorem logical_fault {op : BinaryOp} (hop : op.isLogical = true) {l r : Expr} {span : Span}
    {t u w : ValueType} (ht : op.resultType t u = some w)
    (hl : ∀ v, f.eval l = .ok v → v.HasType t) (hr : ∀ v, f.eval r = .ok v → v.HasType u)
    {x : ExecutionFault} (hx : f.eval (.binary op l r span) = .error x)
    (hops : ∀ p, f.Evaluates p (.binary op l r span) → ∃ v, f.eval p = .ok v) :
    x.kind = .typeMismatch ∧ (t = .any ∨ u = .any) := by
  obtain ⟨htb, hub⟩ := logical_mayBe hop ht
  obtain ⟨hk, ⟨a, ha, hbool⟩ | ⟨b, hb, hbool⟩⟩ := Frame.logical_error hop hx hops
  · exact ⟨hk, .inl ((hl a ha).eq_any htb hbool)⟩
  · exact ⟨hk, .inr ((hr b hb).eq_any hub hbool)⟩

/-- What an accepted expression itself may raise: the faults of its operator, a missing field, or a
type mismatch on an operand of type `any`. -/
theorem own_fault (h : f.Fits s) {e : Expr} (ha : s.Accepts e) (hp : f.PlacesIn s e)
    {x : ExecutionFault} (hx : f.eval e = .error x)
    (hops : ∀ p, f.Evaluates p e → ∃ v, f.eval p = .ok v) :
    x.kind = .divisionByZero ∨ x.kind = .overflow ∨
      x.kind = .missingField ∧ (∃ o i span, e = .field o i span) ∨
      x.kind = .typeMismatch ∧ ∃ o ∈ e.operands, (infer s o).1 = .any := by
  have htype (p : Expr) (hmem : p ∈ e.operands) (v : Value) (hv : f.eval p = .ok v) :
      v.HasType (infer s p).1 :=
    eval_hasType h p (hp.within (.operand hmem .self)) hv
  cases e with
  | literal l span => cases hx
  | name i =>
    obtain ⟨v, hv⟩ := read_ok h ha hp
    rw [Frame.eval, hv] at hx
    cases hx
  | this span =>
    obtain ⟨o, ho⟩ := getReceiver_ok h ha
    rw [Frame.eval, ho] at hx
    cases hx
  | field p i span =>
    obtain ⟨v, hv⟩ := hops p .field
    have hmem : p ∈ (Expr.field p i span).operands := List.mem_singleton.mpr rfl
    rcases field_fault (htype p hmem v hv) (accepts_field ha) hv hx with hk | ⟨hk, hany⟩
    · exact .inr (.inr (.inl ⟨hk, p, i, span, rfl⟩))
    · exact .inr (.inr (.inr ⟨hk, p, hmem, hany⟩))
  | unary op p span =>
    obtain ⟨v, hv⟩ := hops p .unary
    have hmem : p ∈ (Expr.unary op p span).operands := List.mem_singleton.mpr rfl
    obtain ⟨w, hw⟩ := accepts_unary ha
    have happly : op.apply v = .error x := by simpa [Frame.eval, hv] using hx
    rcases unary_fault (htype p hmem v hv) hw happly with hk | ⟨hk, hany⟩
    · exact .inr (.inl hk)
    · exact .inr (.inr (.inr ⟨hk, p, hmem, hany⟩))
  | binary op l r span =>
    have hl : l ∈ (Expr.binary op l r span).operands := List.mem_cons_self
    have hr : r ∈ (Expr.binary op l r span).operands := List.mem_cons_of_mem _ List.mem_cons_self
    obtain ⟨w, hw⟩ := accepts_binary ha
    have hoperand (hany : (infer s l).1 = .any ∨ (infer s r).1 = .any) :
        ∃ o ∈ (Expr.binary op l r span).operands, (infer s o).1 = .any := by
      rcases hany with hany | hany
      · exact ⟨l, hl, hany⟩
      · exact ⟨r, hr, hany⟩
    cases hop : op.isLogical with
    | true =>
      obtain ⟨hk, hany⟩ := logical_fault hop hw (htype l hl) (htype r hr) hx hops
      exact .inr (.inr (.inr ⟨hk, hoperand hany⟩))
    | false =>
      obtain ⟨a, hva⟩ := hops l .left
      obtain ⟨b, hvb⟩ := hops r (.right hva fun h => absurd (hop.symm.trans h) Bool.false_ne_true)
      rw [eval_binary hop, hva, ok_bind, hvb, ok_bind] at hx
      rcases binary_fault hop (htype l hl a hva) (htype r hr b hvb) hw hx with hk | hk | ⟨hk, hany⟩
      · exact .inl hk
      · exact .inr (.inl hk)
      · exact .inr (.inr (.inr ⟨hk, hoperand hany⟩))

theorem accepts_of_follows {snippet : Snippet} {bs : List Binding} {e : Expr}
    (hclean : ∀ d ∈ (snippet.check s).issues, d.isError = false) (h : snippet.Follows bs e) :
    (s.after bs).Accepts e := by
  apply errors_eq_nil_iff.mp
  apply List.eq_nil_iff_forall_not_mem.mpr
  intro d hd
  have hmem := mem_check_errors_iff.mpr ⟨bs, e, h, hd⟩
  rw [errors_eq_nil_iff.mpr hclean] at hmem
  cases hmem

theorem conforms_of_clean {snippet : Snippet}
    (hclean : ∀ d ∈ (snippet.check s).issues, d.isError = false)
    (hfields : f.fields = (snippet.check s).fields) (hfits : f.Fits s) :
    f.Conforms s snippet := by
  apply conforms_of_checked hfits hfields
  intro bs e h i hi hb t ht
  obtain ⟨u, k, hu, hfield⟩ := accepts_name ((accepts_of_follows hclean h).within hi) hb
  rw [symbols_after, ht] at hu
  cases hu
  rw [← hasInstance_after s bs]
  exact hfield rfl

def Scope.Definite (s : Scope) : Prop :=
  (∀ n i, s.symbols.get? n = some i → i.type ≠ .any) ∧ ∀ n t, s.bound.get? n = some t → t ≠ .any

theorem Scope.Definite.infer_ne_any (hs : s.Definite) {e : Expr} (ha : s.Accepts e)
    (hfield : ∀ o i span, ¬ Expr.Within (.field o i span) e) : (infer s e).1 ≠ .any := by
  induction e with
  | literal l span => cases l <;> simp [infer, Literal.type]
  | name i =>
    cases hb : s.bound.get? i.name with
    | none =>
      obtain ⟨t, k, hi, -⟩ := accepts_name ha hb
      simp only [infer, inferName_declared hb hi]
      exact hs.1 _ _ hi
    | some t =>
      simp only [infer, Scope.inferName, hb]
      exact hs.2 _ _ hb
  | this span => simp [infer]
  | field e i span ih => exact absurd .self (hfield e i span)
  | unary op e span ih =>
    have hmem : e ∈ (Expr.unary op e span).operands := List.mem_singleton.mpr rfl
    obtain ⟨w, hw⟩ := accepts_unary ha
    have he := ih ((accepts_iff.mp ha).1 e hmem) fun o i span h =>
      hfield o i span (.operand hmem h)
    rw [infer_unary_type, hw]
    exact UnaryOp.resultType_ne_any he hw
  | binary op l r span ihl ihr =>
    have hl : l ∈ (Expr.binary op l r span).operands := List.mem_cons_self
    have hr : r ∈ (Expr.binary op l r span).operands := List.mem_cons_of_mem _ List.mem_cons_self
    obtain ⟨w, hw⟩ := accepts_binary ha
    have htl := ihl ((accepts_iff.mp ha).1 l hl) fun o i span h => hfield o i span (.operand hl h)
    have htr := ihr ((accepts_iff.mp ha).1 r hr) fun o i span h => hfield o i span (.operand hr h)
    rw [infer_binary_type, hw]
    exact BinaryOp.resultType_ne_any htl htr hw

theorem Scope.Definite.after {bs : List Binding} (hs : s.Definite)
    (hvalue : ∀ cs b rest, bs = cs ++ b :: rest → (s.after cs).Accepts b.value ∧
      ∀ o i span, ¬ Expr.Within (.field o i span) b.value) : (s.after bs).Definite := by
  induction bs generalizing s with
  | nil => exact hs
  | cons b bs ih =>
    obtain ⟨ha, hfield⟩ := hvalue [] b bs rfl
    have hstep : (checkBinding s b).2.Definite := by
      refine ⟨hs.1, ?_⟩
      intro n t ht
      rw [checkBinding_scope, Table.get?_insert] at ht
      split at ht
      · rw [← Option.some.inj ht]
        exact hs.infer_ne_any ha hfield
      · exact hs.2 n t ht
    exact ih hstep fun cs c rest hcs => hvalue (b :: cs) c rest (by rw [hcs]; rfl)

theorem definite_after_of_follows {snippet : Snippet} {bs : List Binding} {e : Expr}
    (hclean : ∀ d ∈ (snippet.check s).issues, d.isError = false) (hs : s.Definite)
    (hfield : ∀ cs d, snippet.Follows cs d → ∀ o i span, ¬ Expr.Within (.field o i span) d)
    (h : snippet.Follows bs e) : (s.after bs).Definite := by
  apply hs.after
  intro cs b rest hbs
  have hb := h.earlier hbs
  exact ⟨accepts_of_follows hclean hb, hfield _ _ hb⟩

theorem fault_of_raisesAt {snippet : Snippet} {bs : List Binding} {d : Expr} {x : ExecutionFault}
    (hclean : ∀ d ∈ (snippet.check s).issues, d.isError = false)
    (hconforms : f.Conforms s snippet) (h : f.RaisesAt snippet x bs d) :
    x.kind = .divisionByZero ∨ x.kind = .overflow ∨
      x.kind = .missingField ∧ (∃ o i span, d = .field o i span) ∨
      x.kind = .typeMismatch ∧ ∃ o ∈ d.operands, (infer (s.after bs) o).1 = .any := by
  obtain ⟨e, f', hfollows, hrun, hfaults⟩ := h
  obtain ⟨hfits, hplaces⟩ := hconforms.after hfollows hrun
  obtain ⟨hd, hops⟩ := hfaults.raised
  have haccepts := (accepts_of_follows hclean hfollows).within hfaults.within
  exact own_fault hfits haccepts (hplaces.within hfaults.within) hd hops

theorem run_sound (snippet : Snippet) (symbols : SymbolTable) (hasInstance : Bool)
    (receiver : Option Instance) (env : Option RuntimeEnv)
    (hclean : ∀ d ∈ (snippet.check { symbols, hasInstance }).issues, d.isError = false)
    (hsupplied : Scope.Supplied { symbols, hasInstance } receiver env) :
    let s : Scope := { symbols, hasInstance }
    let f : Frame := { receiver, env, fields := (snippet.check s).fields }
    (∀ bs e f', snippet.Follows bs e → f.runBindings bs = .ok f' →
      BoundTyped (s.after bs).bound f'.bound ∧
        ∀ d v, Expr.Within d e → f'.eval d = .ok v → (infer (s.after bs) d).1 ≠ .any →
          v.type = (infer (s.after bs) d).1) ∧
    (∀ x, f.run snippet = .error x → (∃ bs d, f.RaisesAt snippet x bs d) ∧
      ∀ bs d, f.RaisesAt snippet x bs d → x.kind = .typeMismatch →
        ∃ o ∈ d.operands, (infer (s.after bs) o).1 = .any) ∧
    ((∀ n i, symbols.get? n = some i → i.type ≠ .any) →
      (∀ bs e, snippet.Follows bs e → ∀ o i span, ¬ Expr.Within (.field o i span) e) →
      (∃ v, f.run snippet = .ok v) ∨
        ∃ x, f.run snippet = .error x ∧ (x.kind = .divisionByZero ∨ x.kind = .overflow)) := by
  intro s f
  have hfits : f.Fits s := ⟨hsupplied, fun n => .inl ⟨rfl, rfl⟩⟩
  have hconforms : f.Conforms s snippet := conforms_of_clean hclean rfl hfits
  refine ⟨?_, ?_, ?_⟩
  · intro bs e f' hfollows hrun
    obtain ⟨hfits', hplaces⟩ := hconforms.after hfollows hrun
    refine ⟨hfits'.bound, ?_⟩
    intro d v hd hv hany
    exact (eval_hasType hfits' d (hplaces.within hd) hv).type_eq hany
  · intro x hx
    refine ⟨Frame.run_eq_error_iff.mp hx, ?_⟩
    intro bs d hd hk
    rcases fault_of_raisesAt hclean hconforms hd with h | h | ⟨h, -⟩ | ⟨-, h⟩
    · cases hk.symm.trans h
    · cases hk.symm.trans h
    · cases hk.symm.trans h
    · exact h
  · intro hsymbols hfield
    cases hrun : f.run snippet with
    | ok v => exact .inl ⟨v, rfl⟩
    | error x =>
      obtain ⟨bs, d, hd⟩ := Frame.run_eq_error_iff.mp hrun
      obtain ⟨e, f', hfollows, -, hfaults⟩ := id hd
      -- Without names of type `any` no operand of the raising expression can have that type.
      have hdefinite : s.Definite := ⟨hsymbols, fun n t h => by cases h⟩
      have hafter := definite_after_of_follows hclean hdefinite hfield hfollows
      right
      refine ⟨x, rfl, ?_⟩
      rcases fault_of_raisesAt hclean hconforms hd with h | h | ⟨-, o, i, span, rfl⟩ | ⟨-, o, ho, hany⟩
      · exact .inl h
      · exact .inr h
      · exact absurd hfaults.within (hfield _ _ hfollows o i span)
      · have hwithin : Expr.Within o e := Expr.Within.trans (.operand ho .self) hfaults.within
        have haccepts := (accepts_of_follows hclean hfollows).within hwithin
        have hne := hafter.infer_ne_any haccepts fun o' i span h =>
          hfield _ _ hfollows o' i span (h.trans hwithin)
        exact absurd hany hne

def share : Snippet where
  bindings := [⟨⟨"a", ⟨4, 5⟩⟩,
    .binary .add (.name ⟨"count", ⟨8, 13⟩⟩) (.literal (.int 1) ⟨16, 17⟩) ⟨8, 17⟩, ⟨0, 18⟩⟩]
  result := some (.binary .div (.name ⟨"x", ⟨19, 20⟩⟩) (.name ⟨"a", ⟨23, 24⟩⟩) ⟨19, 24⟩)
  span := ⟨0, 24⟩

def shareSymbols : SymbolTable := .ofList [("count", ⟨.int, .field⟩), ("x", ⟨.int, .external⟩)]

def shareReceiver : Instance := .mk ⟨0, "counter"⟩ "app.Counter" [("count", .int (-1))] none

def shareEnv : RuntimeEnv := .ofList [("x", .int 7)]

theorem shareSymbols_get? (n : String) : shareSymbols.get? n =
    if n = "x" then some ⟨.int, .external⟩
    else if n = "count" then some ⟨.int, .field⟩ else none := by
  simp [shareSymbols, Table.ofList, Table.get?_insert]

theorem supplied_share : Scope.Supplied { symbols := shareSymbols, hasInstance := true }
    (some shareReceiver) (some shareEnv) := by
  refine ⟨fun _ => ⟨shareReceiver, rfl⟩, ?_, ?_⟩
  · intro n t hn o ho
    obtain rfl := Option.some.inj ho
    rw [shareSymbols_get?] at hn
    split at hn
    · cases hn
    · split at hn
      · next hcount =>
        cases hn
        exact ⟨.int (-1), by rw [hcount]; rfl, rfl⟩
      · cases hn
  · intro n t k hn hk
    rw [shareSymbols_get?] at hn
    split at hn
    · next hx =>
      cases hn
      exact ⟨.int 7, by rw [hx]; rfl, rfl⟩
    · split at hn
      · cases hn
        exact absurd rfl hk
      · cases hn

theorem share_access_free (bs : List Binding) (e : Expr) (h : share.Follows bs e) (o : Expr)
    (i : Ident) (span : Span) : ¬ Expr.Within (.field o i span) e := by
  intro hw
  rcases h with ⟨b, rest, hb, rfl⟩ | ⟨-, he⟩
  · have hmem : b ∈ share.bindings := by rw [hb]; simp
    obtain rfl := List.mem_singleton.mp hmem
    cases hw with
    | operand hp hw =>
      simp only [Expr.operands, List.mem_cons, List.not_mem_nil, or_false] at hp
      rcases hp with rfl | rfl <;> cases hw <;> contradiction
  · obtain rfl := Option.some.inj he
    cases hw with
    | operand hp hw =>
      simp only [Expr.operands, List.mem_cons, List.not_mem_nil, or_false] at hp
      rcases hp with rfl | rfl <;> cases hw <;> contradiction

theorem run_sound_share :
    let s : Scope := { symbols := shareSymbols, hasInstance := true }
    let f : Frame := { receiver := some shareReceiver, env := some shareEnv, fields := ["count"] }
    (share.check s).issues = [] ∧ s.Supplied (some shareReceiver) (some shareEnv) ∧
      ((∃ v, f.run share = .ok v) ∨
        ∃ x, f.run share = .error x ∧ (x.kind = .divisionByZero ∨ x.kind = .overflow)) := by
  have hclean : ∀ d ∈ (share.check { symbols := shareSymbols, hasInstance := true }).issues,
      d.isError = false := by decide
  have hsound := run_sound share shareSymbols true (some shareReceiver) (some shareEnv) hclean
    supplied_share
  refine ⟨rfl, supplied_share, ?_⟩
  apply hsound.2.2
  · intro n i hn
    rw [shareSymbols_get?] at hn
    split at hn
    · cases hn; simp
    · split at hn
      · cases hn; simp
      · cases hn
  · exact share_access_free

end SnippetEval
