import SnippetEval.Proofs.Except
import SnippetEval.Snippet.Running

namespace SnippetEval

namespace Expr

def operands : Expr → List Expr
  | .field e _ _ => [e]
  | .unary _ e _ => [e]
  | .binary _ l r _ => [l, r]
  | _ => []

theorem operands_induction {motive : Expr → Prop}
    (step : ∀ e, (∀ p ∈ e.operands, motive p) → motive e) (e : Expr) : motive e := by
  induction e with
  | literal l span => exact step _ (by simp [operands])
  | name i => exact step _ (by simp [operands])
  | this span => exact step _ (by simp [operands])
  | field e i span ih => exact step _ (by simpa [operands] using ih)
  | unary op e span ih => exact step _ (by simpa [operands] using ih)
  | binary op l r span ihl ihr => exact step _ (by simpa [operands] using ⟨ihl, ihr⟩)

inductive Within : Expr → Expr → Prop
  | self {e : Expr} : Within e e
  | operand {d p e : Expr} : p ∈ e.operands → Within d p → Within d e

theorem Within.trans {c d e : Expr} (hcd : Within c d) (hde : Within d e) : Within c e := by
  induction hde with
  | self => exact hcd
  | operand hp _ ih => exact .operand hp ih

end Expr

/-- `&&` needs its right operand after `true`, `||` after `false`. -/
def BinaryOp.goesOn (op : BinaryOp) (left : Bool) : Bool :=
  if op = .and then left else !left

def BinaryOp.isLogical (op : BinaryOp) : Bool := op = .and || op = .or

theorem isLogical_iff {op : BinaryOp} : op.isLogical = true ↔ op = .and ∨ op = .or := by
  simp [BinaryOp.isLogical]

variable {f : Frame}

theorem eval_logical {op : BinaryOp} (hop : op.isLogical = true) (l r : Expr) (span : Span) :
    f.eval (.binary op l r span) = (do
      let left ← op.truth (← f.eval l)
      if op.goesOn left then return .bool (← op.truth (← f.eval r)) else return .bool left) := by
  rcases isLogical_iff.mp hop with rfl | rfl
  all_goals
    simp only [Frame.eval]
    apply bind_congr
    intro a
    apply bind_congr
    intro left
    cases left <;> rfl

theorem eval_binary {op : BinaryOp} (hop : op.isLogical = false) (l r : Expr) (span : Span) :
    f.eval (.binary op l r span) = (do
      let a ← f.eval l
      let b ← f.eval r
      op.apply a b) := by
  cases op <;> first | rfl | cases hop

theorem truth_ok_iff {op : BinaryOp} {v : Value} {b : Bool} :
    op.truth v = .ok b ↔ v = .bool b := by
  cases v <;> simp [BinaryOp.truth, fault]

theorem truth_error {op : BinaryOp} {v : Value} {x : ExecutionFault} (h : op.truth v = .error x) :
    x.kind = .typeMismatch ∧ v.type ≠ .bool := by
  cases v with
  | bool b => cases h
  | _ => cases h; exact ⟨rfl, by simp [Value.type]⟩

theorem read_instance_error {o : Instance} {n : String} {x : ExecutionFault}
    (h : o.read n = .error x) : x.kind = .missingField := by
  unfold Instance.read at h
  split at h
  · cases h
  · cases h
    rfl

namespace Frame

inductive Evaluates (f : Frame) : Expr → Expr → Prop
  | field {e : Expr} {i : Ident} {span : Span} : Evaluates f e (.field e i span)
  | unary {op : UnaryOp} {e : Expr} {span : Span} : Evaluates f e (.unary op e span)
  | left {op : BinaryOp} {l r : Expr} {span : Span} : Evaluates f l (.binary op l r span)
  | right {op : BinaryOp} {l r : Expr} {span : Span} {a : Value} : f.eval l = .ok a →
      (op.isLogical = true → ∃ b, a = .bool b ∧ op.goesOn b = true) →
      Evaluates f r (.binary op l r span)

/-- Evaluating the second faults with `x`, and the first is what raises it: whatever it evaluates
has a value. -/
inductive FaultsAt (f : Frame) (x : ExecutionFault) : Expr → Expr → Prop
  | own {e : Expr} : f.eval e = .error x → (∀ p, f.Evaluates p e → ∃ v, f.eval p = .ok v) →
      FaultsAt f x e e
  | operand {d p e : Expr} : f.Evaluates p e → FaultsAt f x d p → FaultsAt f x d e

theorem Evaluates.mem_operands {p e : Expr} (h : f.Evaluates p e) : p ∈ e.operands := by
  cases h <;> simp [Expr.operands]

theorem Evaluates.error {p e : Expr} {x : ExecutionFault} (h : f.Evaluates p e)
    (hp : f.eval p = .error x) : f.eval e = .error x := by
  cases h with
  | field => simp [eval, hp]
  | unary => simp [eval, hp]
  | @left op l r span =>
    cases hop : op.isLogical with
    | true => simp [eval_logical hop, hp]
    | false => simp [eval_binary hop, hp]
  | @right op l r span a ha hgoes =>
    cases hop : op.isLogical with
    | true =>
      obtain ⟨b, rfl, hb⟩ := hgoes hop
      have ht : op.truth (.bool b) = .ok b := truth_ok_iff.mpr rfl
      simp [eval_logical hop, ha, ht, hb, hp]
    | false => simp [eval_binary hop, ha, hp]

theorem FaultsAt.within {x : ExecutionFault} {d e : Expr} (h : f.FaultsAt x d e) :
    Expr.Within d e := by
  induction h with
  | own => exact .self
  | operand hp _ ih => exact .operand hp.mem_operands ih

theorem FaultsAt.eval_eq {x : ExecutionFault} {d e : Expr} (h : f.FaultsAt x d e) :
    f.eval e = .error x := by
  induction h with
  | own he _ => exact he
  | operand hp _ ih => exact hp.error ih

theorem exists_faultsAt_of_operands {x : ExecutionFault} {e : Expr} (h : f.eval e = .error x)
    (hp : ∀ p, f.Evaluates p e → f.eval p = .error x → ∃ d, f.FaultsAt x d p) :
    ∃ d, f.FaultsAt x d e := by
  by_cases hops : ∀ p, f.Evaluates p e → ∃ v, f.eval p = .ok v
  · exact ⟨e, .own h hops⟩
  · obtain ⟨p, hp'⟩ := not_forall.mp hops
    obtain ⟨hpe, hfaults⟩ := Classical.not_imp.mp hp'
    have hpx : f.eval p = .error x := by
      cases hv : f.eval p with
      | ok v => exact absurd ⟨v, hv⟩ hfaults
      | error y => rw [← hpe.error hv, h]
    obtain ⟨d, hd⟩ := hp p hpe hpx
    exact ⟨d, .operand hpe hd⟩

theorem eval_eq_error_iff {x : ExecutionFault} {e : Expr} :
    f.eval e = .error x ↔ ∃ d, f.FaultsAt x d e := by
  constructor
  · intro h
    induction e using Expr.operands_induction with
    | step e ih => exact exists_faultsAt_of_operands h fun p hp => ih p hp.mem_operands
  · rintro ⟨d, hd⟩
    exact hd.eval_eq

theorem FaultsAt.raised {x : ExecutionFault} {d e : Expr} (h : f.FaultsAt x d e) :
    f.eval d = .error x ∧ ∀ p, f.Evaluates p d → ∃ v, f.eval p = .ok v := by
  induction h with
  | own he hops => exact ⟨he, hops⟩
  | operand _ _ ih => exact ih

theorem field_error {e : Expr} {i : Ident} {span : Span} {v : Value} {x : ExecutionFault}
    (hv : f.eval e = .ok v) (hx : f.eval (.field e i span) = .error x) :
    x.kind = .missingField ∨ x.kind = .typeMismatch ∧ v.type ≠ .object := by
  simp only [eval, hv, ok_bind] at hx
  split at hx
  · exact .inl (read_instance_error hx)
  · next hno =>
    right
    have hobject : v.type ≠ .object := by
      cases v with
      | object o => exact absurd rfl (hno o)
      | _ => simp [Value.type]
    cases hx
    exact ⟨rfl, hobject⟩

theorem logical_error {op : BinaryOp} (hop : op.isLogical = true) {l r : Expr} {span : Span}
    {x : ExecutionFault} (hx : f.eval (.binary op l r span) = .error x)
    (hops : ∀ p, f.Evaluates p (.binary op l r span) → ∃ v, f.eval p = .ok v) :
    x.kind = .typeMismatch ∧ ((∃ v, f.eval l = .ok v ∧ v.type ≠ .bool) ∨
      ∃ v, f.eval r = .ok v ∧ v.type ≠ .bool) := by
  obtain ⟨a, ha⟩ := hops l .left
  rw [eval_logical hop, ha, ok_bind] at hx
  rcases bind_eq_error_iff.mp hx with hx | ⟨left, hleft, hx⟩
  · obtain ⟨hk, hbool⟩ := truth_error hx
    exact ⟨hk, .inl ⟨a, ha, hbool⟩⟩
  · split at hx
    · next hgoes =>
      obtain ⟨b, hb⟩ := hops r (.right ha fun _ => ⟨left, truth_ok_iff.mp hleft, hgoes⟩)
      rw [hb, ok_bind] at hx
      rcases bind_eq_error_iff.mp hx with hx | ⟨right, -, hx⟩
      · obtain ⟨hk, hbool⟩ := truth_error hx
        exact ⟨hk, .inr ⟨b, hb, hbool⟩⟩
      · cases hx
    · cases hx

end Frame

/-- The expression comes next after the bindings: the value of one more, or the result. -/
def Snippet.Follows (snippet : Snippet) (bs : List Binding) (e : Expr) : Prop :=
  (∃ b rest, snippet.bindings = bs ++ b :: rest ∧ e = b.value) ∨
    bs = snippet.bindings ∧ snippet.result = some e

theorem Snippet.Follows.earlier {snippet : Snippet} {bs cs rest : List Binding} {b : Binding}
    {e : Expr} (h : snippet.Follows bs e) (hbs : bs = cs ++ b :: rest) :
    snippet.Follows cs b.value := by
  rcases h with ⟨c, rest', hall, -⟩ | ⟨hall, -⟩
  · exact .inl ⟨b, rest ++ c :: rest', by rw [hall, hbs]; simp, rfl⟩
  · exact .inl ⟨b, rest, by rw [← hall, hbs], rfl⟩

namespace Frame

def RaisesAt (f : Frame) (snippet : Snippet) (x : ExecutionFault) (bs : List Binding)
    (d : Expr) : Prop :=
  ∃ e f', snippet.Follows bs e ∧ f.runBindings bs = .ok f' ∧ f'.FaultsAt x d e

theorem runBindings_append (f : Frame) (bs cs : List Binding) :
    f.runBindings (bs ++ cs) = f.runBindings bs >>= fun f => f.runBindings cs := by
  induction bs generalizing f with
  | nil => rfl
  | cons b bs ih =>
    simp only [List.cons_append, runBindings, bind_assoc]
    apply bind_congr
    intro v
    exact ih _

theorem runBindings_eq_error {bs : List Binding} {x : ExecutionFault}
    (h : f.runBindings bs = .error x) :
    ∃ cs b rest f', bs = cs ++ b :: rest ∧ f.runBindings cs = .ok f' ∧
      f'.eval b.value = .error x := by
  induction bs generalizing f with
  | nil => cases h
  | cons b bs ih =>
    rcases bind_eq_error_iff.mp h with hb | ⟨v, hv, hrest⟩
    · exact ⟨[], b, bs, f, rfl, rfl, hb⟩
    · obtain ⟨cs, c, rest, f', rfl, hcs, hc⟩ := ih hrest
      exact ⟨b :: cs, c, rest, f', rfl, bind_eq_ok_iff.mpr ⟨v, hv, hcs⟩, hc⟩

theorem run_eq_error_iff {snippet : Snippet} {x : ExecutionFault} :
    f.run snippet = .error x ↔ ∃ bs d, f.RaisesAt snippet x bs d := by
  unfold run
  rw [bind_eq_error_iff]
  constructor
  · rintro (h | ⟨f', hf', h⟩)
    · obtain ⟨cs, b, rest, f', hbs, hcs, hb⟩ := runBindings_eq_error h
      obtain ⟨d, hd⟩ := eval_eq_error_iff.mp hb
      exact ⟨cs, d, b.value, f', .inl ⟨b, rest, hbs, rfl⟩, hcs, hd⟩
    · cases hr : snippet.result with
      | none => simp [hr] at h
      | some e =>
        obtain ⟨d, hd⟩ := eval_eq_error_iff.mp (by simpa [hr] using h)
        exact ⟨snippet.bindings, d, e, f', .inr ⟨rfl, hr⟩, hf', hd⟩
  · rintro ⟨bs, d, e, f', ⟨b, rest, hbs, rfl⟩ | ⟨rfl, hr⟩, hf', hd⟩
    · have hb : f'.runBindings (b :: rest) = .error x := bind_eq_error_iff.mpr (.inl hd.eval_eq)
      left
      rw [hbs, runBindings_append, hf']
      exact hb
    · exact .inr ⟨f', hf', by simpa [hr] using hd.eval_eq⟩

end Frame

end SnippetEval
