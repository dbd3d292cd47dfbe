import SnippetEval.Proofs.Snippet.Faults
import SnippetEval.Proofs.Typing.Operators

namespace SnippetEval

def Value.HasType (v : Value) (t : ValueType) : Prop := t.mayBe v.type = true

theorem Value.hasType_any (v : Value) : v.HasType .any := v.type.any_mayBe

theorem Value.hasType_type (v : Value) : v.HasType v.type := v.type.mayBe_refl

theorem Value.HasType.type_eq {v : Value} {t : ValueType} (h : v.HasType t) (ht : t ≠ .any) :
    v.type = t := by
  rcases ValueType.mayBe_iff.mp h with h | h
  · exact h.symm
  · exact absurd h ht

def Expr.names : Expr → List String
  | .literal _ _ | .this _ => []
  | .name i => [i.name]
  | .field e _ _ => e.names
  | .unary _ e _ => e.names
  | .binary _ l r _ => l.names ++ r.names

def Snippet.names (snippet : Snippet) : List String :=
  snippet.bindings.flatMap (·.value.names) ++ (snippet.result.map Expr.names).getD []

theorem names_value_subset {snippet : Snippet} (b : Binding) (hb : b ∈ snippet.bindings) :
    b.value.names ⊆ snippet.names := by
  intro n hn
  exact List.mem_append_left _ (List.mem_flatMap.mpr ⟨b, hb, hn⟩)

theorem names_result_subset {snippet : Snippet} {e : Expr} (he : snippet.result = some e) :
    e.names ⊆ snippet.names := by
  simp [Snippet.names, he]

/-- The instance is there where there must be one, it has the fields that are declared, and the
environment has the other names, each with a value of the declared type. -/
structure Scope.Supplied (s : Scope) (receiver : Option Instance) (env : Option RuntimeEnv) :
    Prop where
  present : s.hasInstance = true → ∃ o, receiver = some o
  field : ∀ n t, s.symbols.get? n = some ⟨t, .field⟩ → ∀ o, receiver = some o →
    ∃ v, o.field? n = some v ∧ v.HasType t
  environment : ∀ n t k, s.symbols.get? n = some ⟨t, k⟩ → k ≠ .field →
    ∃ v, env.bind (·.value? n) = some v ∧ v.HasType t

def BoundTyped (types : Table String ValueType) (values : Table String Value) : Prop :=
  ∀ n, types.get? n = none ∧ values.get? n = none ∨
    ∃ t v, types.get? n = some t ∧ values.get? n = some v ∧ v.HasType t

theorem BoundTyped.insert {types : Table String ValueType} {values : Table String Value}
    (h : BoundTyped types values) (n : String) {t : ValueType} {v : Value} (hv : v.HasType t) :
    BoundTyped (types.insert n t) (values.insert n v) := by
  intro m
  rw [Table.get?_insert, Table.get?_insert]
  by_cases hm : m = n
  · simp [hm, hv]
  · simpa [hm] using h m

structure Frame.Fits (f : Frame) (s : Scope) : Prop where
  supplied : s.Supplied f.receiver f.env
  bound : BoundTyped s.bound f.bound

/-- The frame reads a name from the instance where it is declared as a field, and only there. -/
def Frame.Places (f : Frame) (s : Scope) (n : String) : Prop :=
  ∀ i, s.symbols.get? n = some i → (n ∈ f.fields ↔ i.kind = .field)

def Frame.PlacesIn (f : Frame) (s : Scope) (e : Expr) : Prop :=
  ∀ n ∈ e.names, s.bound.get? n = none → f.Places s n

variable {f : Frame} {s : Scope}

theorem mem_names_iff {n : String} {e : Expr} :
    n ∈ e.names ↔ (∃ i, e = .name i ∧ n = i.name) ∨ ∃ p ∈ e.operands, n ∈ p.names := by
  cases e <;> simp [Expr.names, Expr.operands]

theorem within_of_mem_names {n : String} {e : Expr} (h : n ∈ e.names) :
    ∃ i, n = i.name ∧ Expr.Within (.name i) e := by
  induction e using Expr.operands_induction with
  | step e ih =>
    rcases mem_names_iff.mp h with ⟨i, rfl, rfl⟩ | ⟨p, hp, hn⟩
    · exact ⟨i, rfl, .self⟩
    · obtain ⟨i, hi, hwithin⟩ := ih p hp hn
      exact ⟨i, hi, .operand hp hwithin⟩

theorem Frame.PlacesIn.within {d e : Expr} (h : f.PlacesIn s e) (hd : Expr.Within d e) :
    f.PlacesIn s d := by
  induction hd with
  | self => exact h
  | operand hp _ ih => exact ih fun n hn => h n (mem_names_iff.mpr (.inr ⟨_, hp, hn⟩))

theorem getReceiver_eq_ok_iff {o : Instance} : f.getReceiver = .ok o ↔ f.receiver = some o := by
  unfold Frame.getReceiver
  cases f.receiver <;> simp [fault]

theorem read_instance_eq_ok_iff {o : Instance} {n : String} {v : Value} :
    o.read n = .ok v ↔ o.field? n = some v := by
  unfold Instance.read
  cases o.field? n <;> simp [fault]

theorem read_bound {n : String} {v : Value} (hb : f.bound.get? n = some v) :
    f.read n = .ok v := by
  unfold Frame.read
  rw [hb]

theorem read_field_eq_ok_iff {n : String} {v : Value} (hb : f.bound.get? n = none)
    (hn : n ∈ f.fields) :
    f.read n = .ok v ↔ ∃ o, f.receiver = some o ∧ o.field? n = some v := by
  unfold Frame.read
  rw [hb]
  simp only [List.contains_iff_mem.mpr hn, ↓reduceIte, bind_eq_ok_iff, getReceiver_eq_ok_iff,
    read_instance_eq_ok_iff]

theorem read_environment {n : String} {v : Value} (hb : f.bound.get? n = none)
    (hn : n ∉ f.fields) (hv : f.env.bind (·.value? n) = some v) : f.read n = .ok v := by
  unfold Frame.read
  rw [hb]
  simp [hn, hv]

theorem read_declared (h : f.Fits s) {n : String} {t : ValueType} {k : SymbolKind}
    (hb : f.bound.get? n = none) (hi : s.symbols.get? n = some ⟨t, k⟩) (hp : f.Places s n) :
    (∀ v, f.read n = .ok v → v.HasType t) ∧
      ((k = .field → s.hasInstance = true) → ∃ v, f.read n = .ok v) := by
  have hplace : n ∈ f.fields ↔ k = .field := hp _ hi
  by_cases hk : k = .field
  · subst hk
    have hmem : n ∈ f.fields := hplace.mpr rfl
    constructor
    · intro v hv
      obtain ⟨o, ho, hfield⟩ := (read_field_eq_ok_iff hb hmem).mp hv
      obtain ⟨w, hw, hwt⟩ := h.supplied.field n t hi o ho
      obtain rfl := Option.some.inj (hw.symm.trans hfield)
      exact hwt
    · intro hinstance
      obtain ⟨o, ho⟩ := h.supplied.present (hinstance rfl)
      obtain ⟨v, hv, -⟩ := h.supplied.field n t hi o ho
      exact ⟨v, (read_field_eq_ok_iff hb hmem).mpr ⟨o, ho, hv⟩⟩
  · have hmem : n ∉ f.fields := fun hn => hk (hplace.mp hn)
    obtain ⟨w, hw, hwt⟩ := h.supplied.environment n t k hi hk
    have hread : f.read n = .ok w := read_environment hb hmem hw
    constructor
    · intro v hv
      obtain rfl := Except.ok.inj (hread.symm.trans hv)
      exact hwt
    · exact fun _ => ⟨w, hread⟩

theorem inferName_declared {i : Ident} {t : ValueType} {k : SymbolKind}
    (hb : s.bound.get? i.name = none) (hi : s.symbols.get? i.name = some ⟨t, k⟩) :
    (s.inferName i).1 = t := by
  simp only [Scope.inferName, hb, hi]
  cases k <;> rfl

theorem read_hasType (h : f.Fits s) (i : Ident)
    (hp : s.bound.get? i.name = none → f.Places s i.name) {v : Value}
    (hv : f.read i.name = .ok v) : v.HasType (s.inferName i).1 := by
  rcases h.bound i.name with ⟨ht, hb⟩ | ⟨t, w, ht, hb, hw⟩
  · cases hi : s.symbols.get? i.name with
    | none =>
      simp only [Scope.inferName, ht, hi]
      exact v.hasType_any
    | some info =>
      rw [inferName_declared ht hi]
      exact (read_declared h hb hi (hp ht)).1 v hv
  · simp only [Scope.inferName, ht]
    obtain rfl := Except.ok.inj ((read_bound hb).symm.trans hv)
    exact hw

theorem infer_field_type (s : Scope) (e : Expr) (i : Ident) (span : Span) :
    (infer s (.field e i span)).1 = .any := by
  simp only [infer]
  split <;> rfl

theorem infer_unary_type (s : Scope) (op : UnaryOp) (e : Expr) (span : Span) :
    (infer s (.unary op e span)).1 = (op.resultType (infer s e).1).getD .any := by
  simp only [infer]
  split <;> simp_all

theorem infer_binary_type (s : Scope) (op : BinaryOp) (l r : Expr) (span : Span) :
    (infer s (.binary op l r span)).1 =
      (op.resultType (infer s l).1 (infer s r).1).getD .any := by
  simp only [infer]
  split <;> simp_all

theorem bool_hasType_logical {op : BinaryOp} (hop : op.isLogical = true) (t u : ValueType)
    (b : Bool) : (Value.bool b).HasType ((op.resultType t u).getD .any) := by
  have hcases : op.resultType t u = some .bool ∨ op.resultType t u = none := by
    rcases isLogical_iff.mp hop with rfl | rfl
    all_goals
      simp only [BinaryOp.resultType]
      split <;> simp
  rcases hcases with h | h
  · rw [h]; exact Value.hasType_type _
  · rw [h]; exact Value.hasType_any _

theorem eval_logical_ok {op : BinaryOp} (hop : op.isLogical = true) {l r : Expr} {span : Span}
    {v : Value} (h : f.eval (.binary op l r span) = .ok v) : ∃ b, v = .bool b := by
  rw [eval_logical hop] at h
  obtain ⟨a, -, h⟩ := bind_eq_ok_iff.mp h
  obtain ⟨left, -, h⟩ := bind_eq_ok_iff.mp h
  split at h
  · obtain ⟨b, -, h⟩ := bind_eq_ok_iff.mp h
    obtain ⟨right, -, h⟩ := bind_eq_ok_iff.mp h
    exact ⟨right, (Except.ok.inj h).symm⟩
  · exact ⟨left, (Except.ok.inj h).symm⟩

theorem eval_binary_ok_iff {op : BinaryOp} (hop : op.isLogical = false) {l r : Expr} {span : Span}
    {v : Value} : f.eval (.binary op l r span) = .ok v ↔
      ∃ a b, f.eval l = .ok a ∧ f.eval r = .ok b ∧ op.apply a b = .ok v := by
  simp only [eval_binary hop, bind_eq_ok_iff]
  constructor
  · rintro ⟨a, ha, b, hb, h⟩
    exact ⟨a, b, ha, hb, h⟩
  · rintro ⟨a, b, ha, hb, h⟩
    exact ⟨a, ha, b, hb, h⟩

theorem hasType_of_resultType {v : Value} {r : Option ValueType}
    (h : r = none ∨ ∃ w, r = some w ∧ w.mayBe v.type = true) : v.HasType (r.getD .any) := by
  rcases h with rfl | ⟨w, rfl, hw⟩
  · exact v.hasType_any
  · exact hw

theorem eval_hasType (h : f.Fits s) (e : Expr) (hp : f.PlacesIn s e) {v : Value}
    (hv : f.eval e = .ok v) : v.HasType (infer s e).1 := by
  induction e generalizing v with
  | literal l span =>
    cases hv
    cases l <;> exact Value.hasType_type _
  | name i => exact read_hasType h i (hp i.name (List.mem_singleton.mpr rfl)) hv
  | this span =>
    obtain ⟨o, -, hv⟩ := bind_eq_ok_iff.mp hv
    cases hv
    exact Value.hasType_type _
  | field e i span ih =>
    rw [infer_field_type]
    exact v.hasType_any
  | unary op e span ih =>
    rw [infer_unary_type]
    obtain ⟨a, ha, hv⟩ := bind_eq_ok_iff.mp hv
    exact hasType_of_resultType (.inr (UnaryOp.resultType_mono (ih hp ha) (UnaryOp.apply_ok hv)))
  | binary op l r span ihl ihr =>
    rw [infer_binary_type]
    have hpl : f.PlacesIn s l := fun n hn => hp n (List.mem_append_left _ hn)
    have hpr : f.PlacesIn s r := fun n hn => hp n (List.mem_append_right _ hn)
    cases hop : op.isLogical with
    | true =>
      obtain ⟨b, rfl⟩ := eval_logical_ok hop hv
      exact bool_hasType_logical hop _ _ b
    | false =>
      obtain ⟨a, b, ha, hb, hab⟩ := (eval_binary_ok_iff hop).mp hv
      have hmono := BinaryOp.resultType_mono (ihl hpl ha) (ihr hpr hb) (BinaryOp.apply_ok hab)
      rcases hmono with hw | ⟨-, -, -, hnone⟩
      · exact hasType_of_resultType (.inr hw)
      · exact hasType_of_resultType (.inl hnone)

def Scope.after (s : Scope) (bs : List Binding) : Scope := (checkBindings s bs).2

@[simp] theorem symbols_after (s : Scope) (bs : List Binding) :
    (s.after bs).symbols = s.symbols := by
  induction bs generalizing s with
  | nil => rfl
  | cons b bs ih => exact ih _

@[simp] theorem hasInstance_after (s : Scope) (bs : List Binding) :
    (s.after bs).hasInstance = s.hasInstance := by
  induction bs generalizing s with
  | nil => rfl
  | cons b bs ih => exact ih _

theorem checkBinding_scope (s : Scope) (b : Binding) :
    (checkBinding s b).2 = { s with bound := s.bound.insert b.name.name (infer s b.value).1 } := rfl

theorem runBindings_fits {bs : List Binding} {f' : Frame} (h : f.Fits s)
    (hp : ∀ cs b rest, bs = cs ++ b :: rest → f.PlacesIn (s.after cs) b.value)
    (hrun : f.runBindings bs = .ok f') :
    f'.Fits (s.after bs) ∧ f'.fields = f.fields := by
  induction bs generalizing f s with
  | nil =>
    cases hrun
    exact ⟨h, rfl⟩
  | cons b bs ih =>
    obtain ⟨v, hv, hrest⟩ := bind_eq_ok_iff.mp hrun
    have hvt := eval_hasType h b.value (hp [] b bs rfl) hv
    have hfits : Frame.Fits { f with bound := f.bound.insert b.name.name v }
        (checkBinding s b).2 := ⟨⟨h.supplied.present, h.supplied.field, h.supplied.environment⟩,
          h.bound.insert b.name.name hvt⟩
    have hplaces (cs : List Binding) (c : Binding) (rest : List Binding)
        (hcs : bs = cs ++ c :: rest) : f.PlacesIn (s.after (b :: cs)) c.value :=
      hp (b :: cs) c rest (by rw [hcs]; rfl)
    have hlast := ih hfits hplaces hrest
    exact hlast

structure Frame.Conforms (f : Frame) (s : Scope) (snippet : Snippet) : Prop where
  fits : f.Fits s
  places : ∀ bs e, snippet.Follows bs e → f.PlacesIn (s.after bs) e

theorem conforms_of_declared {snippet : Snippet} (h : f.Fits s)
    (hfields : ∀ n i, s.symbols.get? n = some i → (n ∈ f.fields ↔ i.kind = .field)) :
    f.Conforms s snippet := by
  refine ⟨h, ?_⟩
  intro bs e _ n _ _ i hi
  rw [symbols_after] at hi
  exact hfields n i hi

theorem placesIn_of_fields {f' : Frame} {e : Expr} (hfields : f'.fields = f.fields)
    (h : f.PlacesIn s e) : f'.PlacesIn s e := by
  intro n hn hb i hi
  rw [hfields]
  exact h n hn hb i hi

theorem Frame.Conforms.after {snippet : Snippet} {bs : List Binding} {e : Expr} {f' : Frame}
    (h : f.Conforms s snippet) (hfollows : snippet.Follows bs e)
    (hrun : f.runBindings bs = .ok f') :
    f'.Fits (s.after bs) ∧ f'.PlacesIn (s.after bs) e := by
  have hvalues (cs : List Binding) (b : Binding) (rest : List Binding)
      (hbs : bs = cs ++ b :: rest) : f.PlacesIn (s.after cs) b.value :=
    h.places _ _ (hfollows.earlier hbs)
  obtain ⟨hfits, hfields⟩ := runBindings_fits h.fits hvalues hrun
  exact ⟨hfits, placesIn_of_fields hfields (h.places _ _ hfollows)⟩

end SnippetEval
