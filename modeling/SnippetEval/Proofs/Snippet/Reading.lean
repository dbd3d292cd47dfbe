import SnippetEval.Proofs.Typing.Conformance

namespace SnippetEval

def RuntimeEnv.read (env : RuntimeEnv) (name : String) : Run Value :=
  match env.value? name with
  | some v => .ok v
  | none => fault .unboundSymbol ("no value for `" ++ name ++ "`")

theorem RuntimeEnv.read_error {env : RuntimeEnv} {n : String} {x : ExecutionFault}
    (h : env.read n = .error x) : env.value? n = none ∧
      x = { kind := .unboundSymbol, message := "no value for `" ++ n ++ "`" } := by
  unfold RuntimeEnv.read at h
  split at h
  · cases h
  · next hnone =>
    cases h
    exact ⟨hnone, rfl⟩

namespace Frame

variable {f g : Frame} {bs cs ds : List Binding} {b : Binding} {n : String}

theorem runBindings_kept (h : f.runBindings bs = .ok g) :
    g.receiver = f.receiver ∧ g.env = f.env ∧ g.fields = f.fields := by
  induction bs generalizing f with
  | nil =>
    cases h
    exact ⟨rfl, rfl, rfl⟩
  | cons b bs ih =>
    obtain ⟨v, -, hrest⟩ := bind_eq_ok_iff.mp h
    have hkept := ih hrest
    exact hkept

theorem bound_runBindings (h : f.runBindings bs = .ok g) (hn : ∀ b ∈ bs, b.name.name ≠ n) :
    g.bound.get? n = f.bound.get? n := by
  induction bs generalizing f with
  | nil =>
    cases h
    rfl
  | cons b bs ih =>
    obtain ⟨v, -, hrest⟩ := bind_eq_ok_iff.mp h
    have hb : n ≠ b.name.name := (hn b List.mem_cons_self).symm
    rw [ih hrest fun c hc => hn c (List.mem_cons_of_mem b hc), Table.get?_insert, if_neg hb]

theorem read_nearest (h : f.runBindings (cs ++ b :: ds) = .ok g)
    (hds : ∀ d ∈ ds, d.name.name ≠ b.name.name) :
    ∃ f', f.runBindings cs = .ok f' ∧ g.read b.name.name = f'.eval b.value := by
  rw [runBindings_append] at h
  obtain ⟨f', hcs, hrest⟩ := bind_eq_ok_iff.mp h
  obtain ⟨v, hv, hds'⟩ := bind_eq_ok_iff.mp hrest
  have hbound := bound_runBindings hds' hds
  rw [Table.get?_insert, if_pos rfl] at hbound
  refine ⟨f', hcs, ?_⟩
  rw [hv, read, hbound]

theorem read_field {o : Instance} (hb : f.bound.get? n = none) (hn : n ∈ f.fields)
    (ho : f.receiver = some o) : f.read n = o.read n := by
  simp [read, hb, hn, getReceiver, ho]

theorem read_supplied {env : RuntimeEnv} (hb : f.bound.get? n = none) (hn : n ∉ f.fields)
    (he : f.env = some env) : f.read n = env.read n := by
  have hcontains : ¬ f.fields.contains n = true := by simpa using hn
  simp only [read, hb, he, Option.bind_some, if_neg hcontains]
  cases hv : env.value? n <;> simp [RuntimeEnv.read, hv]

theorem FaultsAt.missing {x : ExecutionFault} {d e : Expr} (h : f.FaultsAt x d e)
    (hk : x.kind = .host ∨ x.kind = .unboundSymbol) :
    (∃ span, d = .this span ∧ f.getReceiver = .error x) ∨
      ∃ i, d = .name i ∧ f.eval (.name i) = .error x := by
  obtain ⟨hx, hops⟩ := h.raised
  have hmismatch : x.kind ≠ .typeMismatch := by rcases hk with hk | hk <;> simp [hk]
  cases d with
  | literal l span => cases hx
  | name i => exact .inr ⟨i, rfl, hx⟩
  | this span =>
    rcases bind_eq_error_iff.mp hx with hx | ⟨o, -, hx⟩
    · exact .inl ⟨span, rfl, hx⟩
    · cases hx
  | field p i span =>
    obtain ⟨v, hv⟩ := hops p .field
    rcases field_error hv hx with h | ⟨h, -⟩
    · rcases hk with hk | hk <;> cases hk.symm.trans h
    · exact absurd h hmismatch
  | unary op p span =>
    obtain ⟨v, hv⟩ := hops p .unary
    have happly : op.apply v = .error x := by simpa [eval, hv] using hx
    rcases UnaryOp.apply_error happly with h | ⟨h, -⟩
    · rcases hk with hk | hk <;> cases hk.symm.trans h
    · exact absurd h hmismatch
  | binary op l r span =>
    cases hop : op.isLogical with
    | true => exact absurd (logical_error hop hx hops).1 hmismatch
    | false =>
      obtain ⟨a, ha⟩ := hops l .left
      obtain ⟨b, hb⟩ := hops r (.right ha fun h => absurd (hop.symm.trans h) Bool.false_ne_true)
      rw [eval_binary hop, ha, ok_bind, hb, ok_bind] at hx
      have hand : op ≠ .and := by rintro rfl; cases hop
      have hor : op ≠ .or := by rintro rfl; cases hop
      rcases BinaryOp.apply_error hand hor hx with h | h | ⟨h, -⟩
      · rcases hk with hk | hk <;> cases hk.symm.trans h
      · rcases hk with hk | hk <;> cases hk.symm.trans h
      · exact absurd h hmismatch

structure AgreesOn (f g : Frame) (names : List String) : Prop where
  receiver : f.receiver = g.receiver
  fields : f.fields = g.fields
  bound : f.bound = g.bound
  env : ∀ n ∈ names, f.env.bind (·.value? n) = g.env.bind (·.value? n)

variable {names : List String}

theorem AgreesOn.of_subset (h : f.AgreesOn g names) {ns : List String} (hns : ns ⊆ names) :
    f.AgreesOn g ns :=
  ⟨h.receiver, h.fields, h.bound, fun n hn => h.env n (hns hn)⟩

theorem getReceiver_agrees (h : f.receiver = g.receiver) : f.getReceiver = g.getReceiver := by
  simp only [getReceiver, h]

theorem read_agrees (h : f.AgreesOn g names) (hn : n ∈ names) : f.read n = g.read n := by
  simp only [read, getReceiver_agrees h.receiver, h.fields, h.bound, h.env n hn]

theorem eval_agrees {e : Expr} (h : f.AgreesOn g e.names) : f.eval e = g.eval e := by
  induction e with
  | literal l span => rfl
  | name i => exact read_agrees h (List.mem_singleton.mpr rfl)
  | this span => simp only [eval, getReceiver_agrees h.receiver]
  | field e i span ih => simp only [eval, ih h]
  | unary op e span ih => simp only [eval, ih h]
  | binary op l r span ihl ihr =>
    have hl := ihl (h.of_subset (List.subset_append_left l.names r.names))
    have hr := ihr (h.of_subset (List.subset_append_right l.names r.names))
    cases hop : op.isLogical with
    | true => rw [eval_logical hop, eval_logical hop, hl, hr]
    | false => rw [eval_binary hop, eval_binary hop, hl, hr]

theorem runBindings_agrees (h : f.AgreesOn g names) (hbs : ∀ b ∈ bs, b.value.names ⊆ names) :
    (∃ x, f.runBindings bs = .error x ∧ g.runBindings bs = .error x) ∨
      ∃ f' g', f.runBindings bs = .ok f' ∧ g.runBindings bs = .ok g' ∧ f'.AgreesOn g' names := by
  induction bs generalizing f g with
  | nil => exact .inr ⟨f, g, rfl, rfl, h⟩
  | cons b bs ih =>
    have hvalue := eval_agrees (h.of_subset (hbs b List.mem_cons_self))
    cases hv : g.eval b.value with
    | error x =>
      rw [hv] at hvalue
      exact .inl ⟨x, by simp [runBindings, hvalue], by simp [runBindings, hv]⟩
    | ok v =>
      rw [hv] at hvalue
      have hnext : AgreesOn { f with bound := f.bound.insert b.name.name v }
          { g with bound := g.bound.insert b.name.name v } names :=
        ⟨h.receiver, h.fields, by rw [h.bound], h.env⟩
      simp only [runBindings, hvalue, hv, ok_bind]
      exact ih hnext fun c hc => hbs c (List.mem_cons_of_mem b hc)

theorem run_agrees {snippet : Snippet} (h : f.AgreesOn g snippet.names) :
    f.run snippet = g.run snippet := by
  rcases runBindings_agrees h names_value_subset with ⟨x, hf, hg⟩ | ⟨f', g', hf, hg, hagree⟩
  · simp only [run, hf, hg, error_bind]
  · simp only [run, hf, hg, ok_bind]
    cases hresult : snippet.result with
    | none => rfl
    | some e => exact eval_agrees (hagree.of_subset (names_result_subset hresult))

end Frame

end SnippetEval
