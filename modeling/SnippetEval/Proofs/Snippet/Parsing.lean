import SnippetEval.Proofs.Snippet.Grammar
/-!
The parser reads the grammar. What it returns is written by the tokens it took, and whatever tokens
write a snippet, it returns that snippet. The operators that are still open form a stack whose
levels rise towards its top between two parentheses: this keeps operands where their levels want
them.
-/

namespace SnippetEval

def demand : List Pending → Nat
  | [] | .group :: _ => 1
  | .unary _ _ :: _ => 7
  | .binary op _ :: _ => op.level + 1

theorem demand_le_seven (ps : List Pending) : demand ps ≤ 7 := by
  match ps with
  | [] => simp [demand]
  | .group :: _ => simp [demand]
  | .unary _ _ :: _ => simp [demand]
  | .binary op _ :: _ =>
    have := op.level_le_six
    simp only [demand]
    omega

@[simp] theorem reduce_nil (q : Nat) (e : Expr) : reduce q e [] = (e, []) := rfl

@[simp] theorem reduce_group (q : Nat) (e : Expr) (ps : List Pending) :
    reduce q e (.group :: ps) = (e, .group :: ps) := by
  simp [reduce]

inductive Stacked : List Pending → List Token → Prop
  | nil : Stacked [] []
  | group {ps : List Pending} {us : List Token} : Stacked ps us →
      Stacked (.group :: ps) (us ++ [.openParen])
  | unary {ps : List Pending} {us : List Token} (op : UnaryOp) (span : Span) : Stacked ps us →
      Stacked (.unary op span :: ps) (us ++ [op.token])
  | binary {ps : List Pending} {us ls : List Token} {l : Expr} (op : BinaryOp) : Stacked ps us →
      demand ps ≤ op.level → l.Writes op.level ls →
      Stacked (.binary op l :: ps) (us ++ (ls ++ [op.token]))

theorem stacked_reduce {q p : Nat} {e : Expr} {ps : List Pending} {us es : List Token}
    (h : Stacked ps us) (he : e.Writes p es) (hp : demand ps ≤ p) (hq : max q 1 ≤ p)
    (hsix : q ≤ 6) :
    ∃ us' es', us ++ es = us' ++ es' ∧ Stacked (reduce q e ps).2 us' ∧
      (reduce q e ps).1.Writes (max q 1) es' ∧ demand (reduce q e ps).2 ≤ max q 1 := by
  induction h generalizing e p es with
  | nil => exact ⟨[], es, rfl, .nil, he.of_le hq, Nat.le_max_right q 1⟩
  | @group ps us h ih =>
    rw [reduce_group]
    exact ⟨us ++ [.openParen], es, rfl, h.group, he.of_le hq, Nat.le_max_right q 1⟩
  | @unary ps us op span h ih =>
    simp only [demand] at hp
    have hunary : Expr.Writes 7 (.unary op e (span.merge e.span)) (op.token :: es) :=
      .unary op _ (he.of_le hp) (Nat.le_refl 7)
    have hrest := ih hunary (demand_le_seven ps) (by omega)
    simpa [reduce] using hrest
  | @binary ps us ls l op h hdemand hl ih =>
    simp only [demand] at hp
    by_cases hop : q ≤ op.level
    · have hbinary : Expr.Writes op.level (.binary op l e (l.span.merge e.span))
          (ls ++ op.token :: es) := .binary op _ hl (he.of_le hp) (Nat.le_refl _)
      have hrest := ih hbinary hdemand (Nat.max_le.mpr ⟨hop, op.one_le_level⟩)
      simpa [reduce, hop] using hrest
    · refine ⟨us ++ (ls ++ [op.token]), es, rfl, ?_, ?_, ?_⟩
      · simpa only [reduce, if_neg hop] using h.binary op hdemand hl
      · simpa only [reduce, if_neg hop] using he.of_le hq
      · simp only [reduce, if_neg hop, demand]
        omega

def header : Option (Span × Ident) → List Token
  | none => []
  | some (_, i) => [.letWord, .name i.name, .assign]

namespace ParseState

variable {s t : ParseState} {ts : List Token} {x : Lexeme}

def Holds (s : ParseState) (ts : List Token) : Prop :=
  ∃ bs, WritesBindings s.bindings bs ∧
    match s.expecting with
    | .statement => s.binding = none ∧ s.pending = [] ∧ ts = bs
    | .bindingName _ => s.binding = none ∧ s.pending = [] ∧ ts = bs ++ [.letWord]
    | .assign _ i => s.binding = none ∧ s.pending = [] ∧ ts = bs ++ [.letWord, .name i.name]
    | .operand => ∃ us, Stacked s.pending us ∧ ts = bs ++ header s.binding ++ us
    | .operator e => ∃ us es, Stacked s.pending us ∧ e.Writes 8 es ∧
        ts = bs ++ header s.binding ++ us ++ es
    | .member e => ∃ us es, Stacked s.pending us ∧ e.Writes 8 es ∧
        ts = bs ++ header s.binding ++ us ++ es ++ [.dot]

theorem stepOperand_cases (h : s.stepOperand x = some t) :
    (∃ op, x.token = UnaryOp.token op ∧
      t = { s with pending := .unary op x.span :: s.pending, expecting := .operand }) ∨
    (x.token = .openParen ∧
      t = { s with pending := .group :: s.pending, expecting := .operand }) ∨
    ∃ e, e.Writes 8 [x.token] ∧ t = { s with expecting := .operator e } := by
  unfold stepOperand at h
  split at h
  · next op hop =>
    exact .inl ⟨op, unary?_eq_some_iff.mp hop, (Option.some.inj h).symm⟩
  · next l hl _ =>
    rw [literal?_eq_some_iff.mp hl]
    exact .inr (.inr ⟨_, .literal l x.span, (Option.some.inj h).symm⟩)
  · next hthis _ _ =>
    rw [hthis]
    exact .inr (.inr ⟨_, .this x.span, (Option.some.inj h).symm⟩)
  · next n hn _ _ =>
    rw [hn]
    exact .inr (.inr ⟨_, .name ⟨n, x.span⟩, (Option.some.inj h).symm⟩)
  · next hopen _ _ => exact .inr (.inl ⟨hopen, (Option.some.inj h).symm⟩)
  · cases h

theorem stepOperator_cases {e : Expr} (h : s.stepOperator e x = some t) :
    (∃ op, x.token = BinaryOp.token op ∧ t = { s with
      pending := .binary op (reduce op.level e s.pending).1 :: (reduce op.level e s.pending).2
      expecting := .operand }) ∨
    (x.token = .dot ∧ t = { s with expecting := .member e }) ∨
    (∃ inner pending, x.token = .closeParen ∧ reduce 0 e s.pending = (inner, .group :: pending) ∧
      t = { s with pending, expecting := .operator inner }) ∨
    ∃ start name value, x.token = .semicolon ∧ s.binding = some (start, name) ∧
      reduce 0 e s.pending = (value, []) ∧
      t = ⟨s.bindings ++ [⟨name, value, start.merge x.span⟩], none, [], .statement⟩ := by
  unfold stepOperator at h
  split at h
  · next op hop => exact .inl ⟨op, binary?_eq_some_iff.mp hop, (Option.some.inj h).symm⟩
  · next hdot _ => exact .inr (.inl ⟨hdot, (Option.some.inj h).symm⟩)
  · next hclose _ =>
    split at h
    · next inner pending hreduce =>
      exact .inr (.inr (.inl ⟨inner, pending, hclose, hreduce, (Option.some.inj h).symm⟩))
    · cases h
  · next hsemi _ =>
    split at h
    · next start name value hbinding hreduce =>
      exact .inr (.inr (.inr ⟨start, name, value, hsemi, hbinding, hreduce,
        (Option.some.inj h).symm⟩))
    · cases h
  · cases h

theorem holds_stepOperand {bs us : List Token} (hbs : WritesBindings s.bindings bs)
    (hus : Stacked s.pending us) (h : s.stepOperand x = some t) :
    t.Holds (bs ++ header s.binding ++ us ++ [x.token]) := by
  rcases stepOperand_cases h with ⟨op, hx, rfl⟩ | ⟨hx, rfl⟩ | ⟨e, he, rfl⟩
  · rw [hx]
    exact ⟨bs, hbs, us ++ [op.token], hus.unary op x.span, by simp⟩
  · rw [hx]
    exact ⟨bs, hbs, us ++ [.openParen], hus.group, by simp⟩
  · exact ⟨bs, hbs, us, [x.token], hus, he, rfl⟩

theorem holds_stepOperator {bs us es : List Token} {e : Expr} (hbs : WritesBindings s.bindings bs)
    (hus : Stacked s.pending us) (he : e.Writes 8 es) (h : s.stepOperator e x = some t) :
    t.Holds (bs ++ header s.binding ++ us ++ es ++ [x.token]) := by
  have hdemand : demand s.pending ≤ 8 := Nat.le_succ_of_le (demand_le_seven s.pending)
  have hzero := stacked_reduce (q := 0) hus he hdemand (by decide) (Nat.zero_le 6)
  rcases stepOperator_cases h with ⟨op, hx, rfl⟩ | ⟨hx, rfl⟩ | ⟨inner, pending, hx, hreduce, rfl⟩ |
    ⟨start, name, value, hx, hbinding, hreduce, rfl⟩
  · have hsix := op.level_le_six
    obtain ⟨us', es', hsplit, hstacked, hwrites, hlevel⟩ :=
      stacked_reduce (q := op.level) hus he hdemand (by omega) hsix
    rw [Nat.max_eq_left op.one_le_level] at hwrites hlevel
    refine ⟨bs, hbs, us' ++ (es' ++ [op.token]), hstacked.binary op hlevel hwrites, ?_⟩
    rw [hx, List.append_assoc _ us, hsplit]
    simp
  · rw [hx]
    exact ⟨bs, hbs, us, es, hus, he, rfl⟩
  · rw [hreduce] at hzero
    obtain ⟨us', es', hsplit, hstacked, hwrites, -⟩ := hzero
    cases hstacked with
    | @group ps vs hvs =>
      refine ⟨bs, hbs, vs, _, hvs, .group hwrites, ?_⟩
      rw [hx, List.append_assoc _ us, hsplit]
      simp
  · rw [hreduce] at hzero
    obtain ⟨us', es', hsplit, hstacked, hwrites, -⟩ := hzero
    cases hstacked
    have hbindings := hbs.concat (b := ⟨name, value, start.merge x.span⟩) hwrites
    refine ⟨_, hbindings, rfl, rfl, ?_⟩
    rw [hx, hbinding, header, List.append_assoc _ us, hsplit]
    simp

theorem step_operand (hs : s.expecting = .operand ∨ s.expecting = .statement)
    (hx : x.token ≠ .letWord) : s.step x = s.stepOperand x := by
  unfold step
  rcases hs with hs | hs <;> rw [hs]
  split
  · next h => exact absurd h hx
  all_goals first | rfl | contradiction

theorem step_operator {e : Expr} (hs : s.expecting = .operator e) :
    s.step x = s.stepOperator e x := by
  unfold step
  rw [hs]

theorem step_statement_let (hs : s.expecting = .statement) (hx : x.token = .letWord) :
    s.step x = some { s with expecting := .bindingName x.span } := by
  unfold step
  rw [hs, hx]

theorem step_bindingName_iff {start : Span} (hs : s.expecting = .bindingName start) :
    s.step x = some t ↔
      ∃ n, x.token = .name n ∧ t = { s with expecting := .assign start ⟨n, x.span⟩ } := by
  unfold step
  rw [hs]
  constructor
  · intro h
    split at h <;> simp_all
  · rintro ⟨n, hx, rfl⟩
    rw [hx]

theorem step_assign_iff {start : Span} {i : Ident} (hs : s.expecting = .assign start i) :
    s.step x = some t ↔
      x.token = .assign ∧ t = { s with binding := some (start, i), expecting := .operand } := by
  unfold step
  rw [hs]
  constructor
  · intro h
    split at h <;> simp_all
  · rintro ⟨hx, rfl⟩
    rw [hx]

theorem step_member_iff {e : Expr} (hs : s.expecting = .member e) :
    s.step x = some t ↔ ∃ n, x.token = .name n ∧
      t = { s with expecting := .operator (.field e ⟨n, x.span⟩ (e.span.merge x.span)) } := by
  unfold step
  rw [hs]
  constructor
  · intro h
    split at h <;> simp_all
  · rintro ⟨n, hx, rfl⟩
    rw [hx]

theorem holds_step (hs : s.Holds ts) (h : s.step x = some t) : t.Holds (ts ++ [x.token]) := by
  obtain ⟨bs, hbs, hs⟩ := hs
  cases hexpecting : s.expecting with
  | statement =>
    simp only [hexpecting] at hs
    obtain ⟨hbinding, hpending, rfl⟩ := hs
    by_cases hx : x.token = .letWord
    · rw [step_statement_let hexpecting hx] at h
      obtain rfl := Option.some.inj h
      rw [hx]
      exact ⟨ts, hbs, hbinding, hpending, rfl⟩
    · rw [step_operand (.inr hexpecting) hx] at h
      have hempty : Stacked s.pending [] := hpending ▸ .nil
      have hstep := holds_stepOperand hbs hempty h
      simpa [hbinding, header] using hstep
  | bindingName start =>
    simp only [hexpecting] at hs
    obtain ⟨hbinding, hpending, rfl⟩ := hs
    obtain ⟨n, hx, rfl⟩ := (step_bindingName_iff hexpecting).mp h
    exact ⟨bs, hbs, hbinding, hpending, by simp [hx]⟩
  | assign start i =>
    simp only [hexpecting] at hs
    obtain ⟨hbinding, hpending, rfl⟩ := hs
    obtain ⟨hx, rfl⟩ := (step_assign_iff hexpecting).mp h
    have hempty : Stacked s.pending [] := hpending ▸ .nil
    exact ⟨bs, hbs, [], hempty, by simp [hx, header]⟩
  | operand =>
    simp only [hexpecting] at hs
    obtain ⟨us, hus, rfl⟩ := hs
    have hx : x.token ≠ .letWord := by
      intro hx
      simp [step, hexpecting, stepOperand, hx, Token.unary?, Token.literal?] at h
    rw [step_operand (.inl hexpecting) hx] at h
    exact holds_stepOperand hbs hus h
  | operator e =>
    simp only [hexpecting] at hs
    obtain ⟨us, es, hus, hes, rfl⟩ := hs
    rw [step_operator hexpecting] at h
    exact holds_stepOperator hbs hus hes h
  | member e =>
    simp only [hexpecting] at hs
    obtain ⟨us, es, hus, hes, rfl⟩ := hs
    obtain ⟨n, hx, rfl⟩ := (step_member_iff hexpecting).mp h
    have hfield : Expr.Writes 8 (.field e ⟨n, x.span⟩ (e.span.merge x.span))
        (es ++ [.dot, .name n]) := .field _ _ hes (Nat.le_refl 8)
    exact ⟨bs, hbs, us, _, hus, hfield, by simp [hx]⟩

theorem holds_run {xs : List Lexeme} (hs : s.Holds ts) (h : s.run xs = .ok t) :
    t.Holds (ts ++ xs.map Lexeme.token) := by
  induction xs generalizing s ts with
  | nil =>
    obtain rfl := Except.ok.inj h
    simpa using hs
  | cons x xs ih =>
    simp only [run] at h
    split at h
    · next u hu =>
      have hrest := ih (holds_step hs hu) h
      simpa using hrest
    · cases h

theorem holds_finish {bindings : List Binding} {result : Option Expr} {span : Span}
    (hs : s.Holds ts) (h : s.finish? = some (bindings, result)) :
    Snippet.Writes ⟨bindings, result, span⟩ ts := by
  obtain ⟨bs, hbs, hs⟩ := hs
  unfold finish? at h
  split at h
  · next hexpecting =>
    simp only [hexpecting] at hs
    obtain ⟨rfl, rfl⟩ := Prod.mk.inj (Option.some.inj h)
    exact ⟨bs, [], by simp [hs.2.2], hbs, rfl⟩
  · next e hexpecting hbinding =>
    simp only [hexpecting] at hs
    obtain ⟨us, es, hus, hes, rfl⟩ := hs
    have hdemand : demand s.pending ≤ 8 := Nat.le_succ_of_le (demand_le_seven s.pending)
    have hzero := stacked_reduce (q := 0) hus hes hdemand (by decide) (Nat.zero_le 6)
    split at h
    · next value hreduce =>
      rw [hreduce] at hzero
      obtain ⟨us', es', hsplit, hstacked, hwrites, -⟩ := hzero
      cases hstacked
      obtain ⟨rfl, rfl⟩ := Prod.mk.inj (Option.some.inj h)
      refine ⟨bs, es', ?_, hbs, hwrites⟩
      rw [hbinding, header, List.append_assoc _ us, hsplit]
      simp
    · cases h
  · cases h

end ParseState

theorem writes_of_parseLexemes {length : Nat} {xs : List Lexeme} {t : Snippet}
    (h : parseLexemes length xs = .ok t) : t.Writes (xs.map Lexeme.token) := by
  unfold parseLexemes at h
  split at h
  · cases h
  · next s hs =>
    split at h
    · next bindings result hfinish =>
      obtain rfl := Except.ok.inj h
      have hstart : ParseState.start.Holds [] := ⟨[], .nil, rfl, rfl, rfl⟩
      exact ParseState.holds_finish (ParseState.holds_run hstart hs) hfinish
    · cases h

theorem reduce_of_demand_le {q : Nat} {e : Expr} {ps : List Pending} (h : demand ps ≤ q)
    (hsix : q ≤ 6) : reduce q e ps = (e, ps) := by
  match ps with
  | [] => rfl
  | .group :: ps => exact reduce_group q e ps
  | .unary op span :: ps =>
    simp only [demand] at h
    omega
  | .binary op l :: ps =>
    simp only [demand] at h
    have hop : ¬ q ≤ op.level := by omega
    simp [reduce, hop]

namespace ParseState

variable {s t : ParseState} {x : Lexeme} {xs ys : List Lexeme} {p : Nat} {e : Expr}

theorem run_cons (h : s.step x = some t) (xs : List Lexeme) : s.run (x :: xs) = t.run xs := by
  simp only [run, h]

theorem run_singleton (h : s.step x = some t) : s.run [x] = .ok t := by
  rw [run_cons h]
  rfl

theorem run_append (h : s.run xs = .ok t) (ys : List Lexeme) : s.run (xs ++ ys) = t.run ys := by
  induction xs generalizing s with
  | nil =>
    obtain rfl := Except.ok.inj h
    rfl
  | cons x xs ih =>
    simp only [run] at h
    split at h
    · next u hu =>
      rw [List.cons_append, run_cons hu]
      exact ih h
    · cases h

theorem stepOperand_literal {l : Literal} (hx : x.token = l.token) :
    s.stepOperand x = some { s with expecting := .operator (.literal l x.span) } := by
  unfold stepOperand
  rw [hx]
  cases l with
  | bool b => cases b <;> rfl
  | _ => rfl

theorem stepOperand_this (hx : x.token = .this) :
    s.stepOperand x = some { s with expecting := .operator (.this x.span) } := by
  unfold stepOperand
  rw [hx]
  rfl

theorem stepOperand_name {n : String} (hx : x.token = .name n) :
    s.stepOperand x = some { s with expecting := .operator (.name ⟨n, x.span⟩) } := by
  unfold stepOperand
  rw [hx]
  rfl

theorem stepOperand_unary {op : UnaryOp} (hx : x.token = op.token) :
    s.stepOperand x =
      some { s with pending := .unary op x.span :: s.pending, expecting := .operand } := by
  unfold stepOperand
  rw [hx]
  cases op <;> rfl

theorem stepOperand_open (hx : x.token = .openParen) :
    s.stepOperand x = some { s with pending := .group :: s.pending, expecting := .operand } := by
  unfold stepOperand
  rw [hx]
  rfl

theorem stepOperator_binary {op : BinaryOp} (hx : x.token = op.token) :
    s.stepOperator e x = some { s with
      pending := .binary op (reduce op.level e s.pending).1 :: (reduce op.level e s.pending).2
      expecting := .operand } := by
  unfold stepOperator
  rw [hx]
  cases op <;> rfl

theorem stepOperator_dot (hx : x.token = .dot) :
    s.stepOperator e x = some { s with expecting := .member e } := by
  unfold stepOperator
  rw [hx]
  rfl

theorem stepOperator_close {inner : Expr} {ps : List Pending} (hx : x.token = .closeParen)
    (hreduce : reduce 0 e s.pending = (inner, .group :: ps)) :
    s.stepOperator e x = some { s with pending := ps, expecting := .operator inner } := by
  unfold stepOperator
  rw [hx]
  simp only [Token.binary?, hreduce]

theorem stepOperator_semicolon {value : Expr} {start : Span} {i : Ident} (hx : x.token = .semicolon)
    (hbinding : s.binding = some (start, i)) (hreduce : reduce 0 e s.pending = (value, [])) :
    s.stepOperator e x =
      some ⟨s.bindings ++ [⟨i, value, start.merge x.span⟩], none, [], .statement⟩ := by
  unfold stepOperator
  rw [hx]
  simp only [Token.binary?, hbinding, hreduce]

def AtOperand (s : ParseState) : Prop := s.expecting = .operand ∨ s.expecting = .statement

theorem AtOperand.step_eq (hs : s.AtOperand) (h : s.stepOperand x = some t) :
    s.step x = some t := by
  rw [step_operand hs ?_, h]
  intro hx
  simp [stepOperand, hx, Token.unary?, Token.literal?] at h

/-- Reading the tokens leaves an operand that becomes the expression once the operators that were
opened are completed; where the place wants an object, it is the expression already. -/
def Reaches (s : ParseState) (xs : List Lexeme) (p : Nat) (e : Expr) : Prop :=
  ∃ e₀ ps, s.run xs = .ok { s with pending := ps, expecting := .operator e₀ } ∧
    (∀ q ≤ p, reduce q e₀ ps = reduce q e s.pending) ∧ (p = 8 → e₀ = e ∧ ps = s.pending)

theorem reaches_of_run (h : s.run xs = .ok { s with expecting := .operator e }) (p : Nat) :
    s.Reaches xs p e :=
  ⟨e, s.pending, h, fun _ _ => rfl, fun _ => ⟨rfl, rfl⟩⟩

theorem Reaches.run_eq (h : s.Reaches xs 8 e) :
    s.run xs = .ok { s with expecting := .operator e } := by
  obtain ⟨e₀, ps, hrun, -, hsame⟩ := h
  obtain ⟨rfl, rfl⟩ := hsame rfl
  exact hrun

theorem reaches_of_writes {ts : List Token} (h : e.Writes p ts) (hs : s.AtOperand)
    (hp : demand s.pending ≤ p) (hts : xs.map Lexeme.token = ts) :
    ∃ d, d.erase = e.erase ∧ s.Reaches xs p d := by
  induction h generalizing s xs with
  | literal l span =>
    obtain ⟨x, rfl, hx⟩ := List.map_eq_singleton_iff.mp hts
    have hstep := hs.step_eq (stepOperand_literal hx)
    exact ⟨.literal l x.span, rfl, reaches_of_run (run_singleton hstep) _⟩
  | this span =>
    obtain ⟨x, rfl, hx⟩ := List.map_eq_singleton_iff.mp hts
    have hstep := hs.step_eq (stepOperand_this hx)
    exact ⟨.this x.span, rfl, reaches_of_run (run_singleton hstep) _⟩
  | name i =>
    obtain ⟨x, rfl, hx⟩ := List.map_eq_singleton_iff.mp hts
    have hstep := hs.step_eq (stepOperand_name hx)
    exact ⟨.name ⟨i.name, x.span⟩, rfl, reaches_of_run (run_singleton hstep) _⟩
  | @group p e ts h ih =>
    obtain ⟨x, ys, rfl, hx, htail⟩ := List.map_eq_cons_iff.mp hts
    obtain ⟨ys, zs, rfl, hys, hzs⟩ := List.map_eq_append_iff.mp htail
    obtain ⟨z, rfl, hz⟩ := List.map_eq_singleton_iff.mp hzs
    have hopen := hs.step_eq (stepOperand_open hx)
    obtain ⟨d, hd, e₀, ps, hrun, hreduce, -⟩ :=
      ih (s := { s with pending := .group :: s.pending, expecting := .operand }) (.inl rfl)
        (Nat.le_refl 1) hys
    have hclose := hreduce 0 (Nat.zero_le 1)
    rw [reduce_group] at hclose
    refine ⟨d, hd, reaches_of_run ?_ p⟩
    rw [run_cons hopen, run_append hrun]
    exact run_singleton ((step_operator rfl).trans (stepOperator_close hz hclose))
  | @field p e ts i span h hlevel ih =>
    obtain ⟨ys, zs, rfl, hys, hzs⟩ := List.map_eq_append_iff.mp hts
    obtain ⟨y, zs, rfl, hy, hzs'⟩ := List.map_eq_cons_iff.mp hzs
    obtain ⟨z, rfl, hz⟩ := List.map_eq_singleton_iff.mp hzs'
    have height : demand s.pending ≤ 8 := Nat.le_succ_of_le (demand_le_seven s.pending)
    obtain ⟨d, hd, hobject⟩ := ih hs height hys
    have hdot := (step_operator rfl).trans
      (stepOperator_dot (s := { s with expecting := .operator d }) (e := d) hy)
    refine ⟨.field d ⟨i.name, z.span⟩ (d.span.merge z.span), ?_, reaches_of_run ?_ p⟩
    · simp [Expr.erase, hd]
    · rw [run_append hobject.run_eq, run_cons hdot]
      exact run_singleton ((step_member_iff rfl).mpr ⟨i.name, hz, rfl⟩)
  | @unary p e ts op span h hlevel ih =>
    obtain ⟨x, ys, rfl, hx, hys⟩ := List.map_eq_cons_iff.mp hts
    have hstep := hs.step_eq (stepOperand_unary hx)
    obtain ⟨d, hd, e₀, ps, hrun, hreduce, -⟩ :=
      ih (s := { s with pending := .unary op x.span :: s.pending, expecting := .operand })
        (.inl rfl) (Nat.le_refl 7) hys
    refine ⟨.unary op d (x.span.merge d.span), by simp [Expr.erase, hd], e₀, ps, ?_, ?_, ?_⟩
    · rw [run_cons hstep, hrun]
    · exact fun q hq => hreduce q (Nat.le_trans hq hlevel)
    · omega
  | @binary p l r ls rs op span hl hr hlevel ihl ihr =>
    have hsix := op.level_le_six
    have hdemand : demand s.pending ≤ op.level := Nat.le_trans hp hlevel
    obtain ⟨ys, zs, rfl, hys, hzs⟩ := List.map_eq_append_iff.mp hts
    obtain ⟨y, zs, rfl, hy, hzs'⟩ := List.map_eq_cons_iff.mp hzs
    obtain ⟨d, hd, e₀, ps, hleft, hreduce, -⟩ := ihl hs hdemand hys
    -- The operators in front bind looser, so only the left operand is completed.
    have hoperand := (hreduce op.level (Nat.le_refl _)).trans (reduce_of_demand_le hdemand hsix)
    have hstep := (step_operator rfl).trans (stepOperator_binary (e := e₀)
      (s := { s with pending := ps, expecting := .operator e₀ }) hy)
    rw [hoperand] at hstep
    obtain ⟨d', hd', e₁, ps', hright, hreduce', -⟩ :=
      ihr (s := { s with pending := .binary op d :: s.pending, expecting := .operand })
        (.inl rfl) (Nat.le_refl _) hzs'
    refine ⟨.binary op d d' (d.span.merge d'.span), by simp [Expr.erase, hd, hd'], e₁, ps', ?_,
      ?_, ?_⟩
    · rw [run_append hleft, run_cons hstep, hright]
    · intro q hq
      have hop : q ≤ op.level := Nat.le_trans hq hlevel
      rw [hreduce' q (Nat.le_succ_of_le hop)]
      simp [reduce, hop]
    · omega

def between (bs : List Binding) : ParseState := ⟨bs, none, [], .statement⟩

theorem lexemes_of_binding {n : String} {vs ts : List Token}
    (h : xs.map Lexeme.token = .letWord :: .name n :: .assign :: (vs ++ .semicolon :: ts)) :
    ∃ x y z ys w zs, xs = x :: y :: z :: (ys ++ w :: zs) ∧ x.token = .letWord ∧
      y.token = .name n ∧ z.token = .assign ∧ ys.map Lexeme.token = vs ∧ w.token = .semicolon ∧
      zs.map Lexeme.token = ts := by
  obtain ⟨x, xs₁, rfl, hx, h⟩ := List.map_eq_cons_iff.mp h
  obtain ⟨y, xs₂, rfl, hy, h⟩ := List.map_eq_cons_iff.mp h
  obtain ⟨z, xs₃, rfl, hz, h⟩ := List.map_eq_cons_iff.mp h
  obtain ⟨ys, xs₄, rfl, hys, h⟩ := List.map_eq_append_iff.mp h
  obtain ⟨w, zs, rfl, hw, hzs⟩ := List.map_eq_cons_iff.mp h
  exact ⟨x, y, z, ys, w, zs, rfl, hx, hy, hz, hys, hw, hzs⟩

theorem run_header {bs : List Binding} {x y z : Lexeme} {n : String} (hx : x.token = .letWord)
    (hy : y.token = .name n) (hz : z.token = .assign) (xs : List Lexeme) :
    (between bs).run (x :: y :: z :: xs) =
      run ⟨bs, some (x.span, ⟨n, y.span⟩), [], .operand⟩ xs := by
  rw [run_cons (step_statement_let rfl hx), run_cons ((step_bindingName_iff rfl).mpr ⟨n, hy, rfl⟩),
    run_cons ((step_assign_iff rfl).mpr ⟨hz, rfl⟩)]
  rfl

theorem run_writesBindings {bs : List Binding} {ts : List Token} (h : WritesBindings bs ts)
    (hts : xs.map Lexeme.token = ts) (front : List Binding) :
    ∃ ds, ds.map Binding.erase = bs.map Binding.erase ∧
      (between front).run xs = .ok (between (front ++ ds)) := by
  induction h generalizing xs front with
  | nil =>
    rw [List.map_eq_nil_iff.mp hts]
    exact ⟨[], rfl, by simp [run]⟩
  | @cons b bs vs ts hb h ih =>
    obtain ⟨x, y, z, ys, w, zs, rfl, hx, hy, hz, hys, hw, hzs⟩ := lexemes_of_binding hts
    obtain ⟨d, hd, e₀, ps, hrun, hreduce, -⟩ := reaches_of_writes hb
      (s := ⟨front, some (x.span, ⟨b.name.name, y.span⟩), [], .operand⟩) (.inl rfl)
      (Nat.le_refl 1) hys
    have hvalue := (hreduce 0 (Nat.zero_le 1)).trans (reduce_nil 0 d)
    have hstep := (step_operator rfl).trans (stepOperator_semicolon (e := e₀)
      (s := ⟨front, some (x.span, ⟨b.name.name, y.span⟩), ps, .operator e₀⟩) hw rfl hvalue)
    obtain ⟨ds, hds, hrest⟩ := ih hzs (front ++ [⟨⟨b.name.name, y.span⟩, d, x.span.merge w.span⟩])
    refine ⟨⟨⟨b.name.name, y.span⟩, d, x.span.merge w.span⟩ :: ds, ?_, ?_⟩
    · simp [hds, Binding.erase, hd]
    · rw [run_header hx hy hz, run_append hrun, run_cons hstep]
      simpa [between] using hrest

end ParseState

theorem parseLexemes_of_writes {t : Snippet} {xs : List Lexeme}
    (h : t.Writes (xs.map Lexeme.token)) (length : Nat) :
    ∃ u, parseLexemes length xs = .ok u ∧ u.erase = t.erase := by
  obtain ⟨bs, es, hts, hbs, hes⟩ := h
  obtain ⟨ys, zs, rfl, hys, hzs⟩ := List.map_eq_append_iff.mp hts
  obtain ⟨ds, hds, hrun⟩ := ParseState.run_writesBindings hbs hys []
  rw [List.nil_append] at hrun
  have hstart : ParseState.start.run (ys ++ zs) = (ParseState.between ds).run zs :=
    ParseState.run_append hrun zs
  cases ht : t.result with
  | none =>
    rw [ht] at hes
    rw [hes, List.map_eq_nil_iff] at hzs
    refine ⟨⟨ds, none, coveredSpan length (ys ++ zs)⟩, ?_, by simp [Snippet.erase, ht, hds]⟩
    rw [parseLexemes, hstart, hzs]
    rfl
  | some e =>
    rw [ht] at hes
    obtain ⟨d, hd, e₀, ps, hresult, hreduce, -⟩ := ParseState.reaches_of_writes hes
      (s := ParseState.between ds) (.inr rfl) (Nat.le_refl 1) hzs
    have hvalue := (hreduce 0 (Nat.zero_le 1)).trans (reduce_nil 0 d)
    refine ⟨⟨ds, some d, coveredSpan length (ys ++ zs)⟩, ?_, by simp [Snippet.erase, ht, hds, hd]⟩
    rw [parseLexemes, hstart, hresult]
    simp only [ParseState.finish?, ParseState.between, hvalue]

def opened (ps : List Pending) : List Pending := ps.dropWhile (!·.isGroup)

theorem opened_reduce (q : Nat) (e : Expr) (ps : List Pending) :
    opened (reduce q e ps).2 = opened ps := by
  induction ps generalizing e with
  | nil => rfl
  | cons p ps ih =>
    cases p with
    | group => rw [reduce_group]
    | unary op span => exact ih _
    | binary op l =>
      simp only [reduce]
      split
      · exact ih _
      · rfl

theorem reduce_zero (e : Expr) (ps : List Pending) : (reduce 0 e ps).2 = opened ps := by
  induction ps generalizing e with
  | nil => rfl
  | cons p ps ih =>
    cases p with
    | group =>
      rw [reduce_group]
      rfl
    | unary op span => exact ih _
    | binary op l => exact ih _

theorem reduce_of_opened {e : Expr} {ps qs : List Pending} (h : opened ps = qs) :
    reduce 0 e ps = ((reduce 0 e ps).1, qs) := by
  rw [← h, ← reduce_zero e ps]

namespace ParseState

variable {s : ParseState} {xs : List Lexeme}

theorem run_phrase {ts : List Token} (h : Phrase ts) (hs : s.AtOperand)
    (hts : xs.map Lexeme.token = ts) :
    ∃ e ps, s.run xs = .ok { s with pending := ps, expecting := .operator e } ∧
      opened ps = opened s.pending := by
  induction h generalizing s xs with
  | literal l =>
    obtain ⟨x, rfl, hx⟩ := List.map_eq_singleton_iff.mp hts
    exact ⟨_, s.pending, run_singleton (hs.step_eq (stepOperand_literal hx)), rfl⟩
  | this =>
    obtain ⟨x, rfl, hx⟩ := List.map_eq_singleton_iff.mp hts
    exact ⟨_, s.pending, run_singleton (hs.step_eq (stepOperand_this hx)), rfl⟩
  | name n =>
    obtain ⟨x, rfl, hx⟩ := List.map_eq_singleton_iff.mp hts
    exact ⟨_, s.pending, run_singleton (hs.step_eq (stepOperand_name hx)), rfl⟩
  | @group ts h ih =>
    obtain ⟨x, ys, rfl, hx, htail⟩ := List.map_eq_cons_iff.mp hts
    obtain ⟨ys, zs, rfl, hys, hzs⟩ := List.map_eq_append_iff.mp htail
    obtain ⟨z, rfl, hz⟩ := List.map_eq_singleton_iff.mp hzs
    obtain ⟨e, ps, hrun, hopened⟩ :=
      ih (s := { s with pending := .group :: s.pending, expecting := .operand }) (.inl rfl) hys
    have hclose := reduce_of_opened (e := e) hopened
    refine ⟨(reduce 0 e ps).1, s.pending, ?_, rfl⟩
    rw [run_cons (hs.step_eq (stepOperand_open hx)), run_append hrun]
    exact run_singleton ((step_operator rfl).trans (stepOperator_close hz hclose))
  | @field ts n h ih =>
    obtain ⟨ys, zs, rfl, hys, hzs⟩ := List.map_eq_append_iff.mp hts
    obtain ⟨y, zs, rfl, hy, hzs'⟩ := List.map_eq_cons_iff.mp hzs
    obtain ⟨z, rfl, hz⟩ := List.map_eq_singleton_iff.mp hzs'
    obtain ⟨e, ps, hrun, hopened⟩ := ih hs hys
    have hdot := (step_operator rfl).trans
      (stepOperator_dot (s := { s with pending := ps, expecting := .operator e }) (e := e) hy)
    refine ⟨.field e ⟨n, z.span⟩ (e.span.merge z.span), ps, ?_, hopened⟩
    rw [run_append hrun, run_cons hdot]
    exact run_singleton ((step_member_iff rfl).mpr ⟨n, hz, rfl⟩)
  | @unary ts op h ih =>
    obtain ⟨x, ys, rfl, hx, hys⟩ := List.map_eq_cons_iff.mp hts
    obtain ⟨e, ps, hrun, hopened⟩ :=
      ih (s := { s with pending := .unary op x.span :: s.pending, expecting := .operand })
        (.inl rfl) hys
    refine ⟨e, ps, ?_, hopened⟩
    rw [run_cons (hs.step_eq (stepOperand_unary hx)), hrun]
  | @binary ls rs op hl hr ihl ihr =>
    obtain ⟨ys, zs, rfl, hys, hzs⟩ := List.map_eq_append_iff.mp hts
    obtain ⟨y, zs, rfl, hy, hzs'⟩ := List.map_eq_cons_iff.mp hzs
    obtain ⟨e, ps, hleft, hopened⟩ := ihl hs hys
    have hstep := (step_operator rfl).trans (stepOperator_binary (e := e)
      (s := { s with pending := ps, expecting := .operator e }) hy)
    obtain ⟨e', ps', hright, hopened'⟩ := ihr (s := { s with
      pending := .binary op (reduce op.level e ps).1 :: (reduce op.level e ps).2
      expecting := .operand }) (.inl rfl) hzs'
    refine ⟨e', ps', ?_, ?_⟩
    · rw [run_append hleft, run_cons hstep, hright]
    · exact (hopened'.trans (opened_reduce op.level e ps)).trans hopened

theorem exists_finish_of_derives {ts : List Token} (h : Derives ts)
    (hts : xs.map Lexeme.token = ts) (bs : List Binding) :
    ∃ t r, (between bs).run xs = .ok t ∧ t.finish? = some r := by
  induction h generalizing xs bs with
  | empty =>
    rw [List.map_eq_nil_iff.mp hts]
    exact ⟨between bs, _, rfl, rfl⟩
  | result h =>
    obtain ⟨e, ps, hrun, hopened⟩ := run_phrase h (s := between bs) (.inr rfl) hts
    have hreduce : reduce 0 e ps = (_, []) := reduce_of_opened hopened
    refine ⟨_, (bs, some (reduce 0 e ps).1), hrun, ?_⟩
    simp only [finish?, between]
    rw [hreduce]
  | @binding vs ts n hv h ih =>
    obtain ⟨x, y, z, ys, w, zs, rfl, hx, hy, hz, hys, hw, hzs⟩ := lexemes_of_binding hts
    obtain ⟨e, ps, hrun, hopened⟩ :=
      run_phrase hv (s := ⟨bs, some (x.span, ⟨n, y.span⟩), [], .operand⟩) (.inl rfl) hys
    have hreduce : reduce 0 e ps = (_, []) := reduce_of_opened hopened
    have hstep := (step_operator rfl).trans (stepOperator_semicolon (e := e)
      (s := ⟨bs, some (x.span, ⟨n, y.span⟩), ps, .operator e⟩) hw rfl hreduce)
    rw [run_header hx hy hz, run_append hrun, run_cons hstep]
    exact ih hzs _

end ParseState

theorem parseLexemes_iff_writes {length : Nat} {xs : List Lexeme} {t : Snippet} :
    (∃ u, parseLexemes length xs = .ok u ∧ u.erase = t.erase) ↔ t.Writes (xs.map Lexeme.token) := by
  constructor
  · rintro ⟨u, hu, herase⟩
    exact (writes_of_parseLexemes hu).congr herase.symm
  · exact fun h => parseLexemes_of_writes h length

theorem parseLexemes_isOk_of_derives {xs : List Lexeme} (h : Derives (xs.map Lexeme.token))
    (length : Nat) : ∃ u, parseLexemes length xs = .ok u := by
  obtain ⟨t, r, hrun, hfinish⟩ := ParseState.exists_finish_of_derives h rfl []
  refine ⟨⟨r.1, r.2, coveredSpan length xs⟩, ?_⟩
  have hstart : ParseState.start.run xs = .ok t := hrun
  simp only [parseLexemes, hstart, hfinish]

theorem parseLexemes_isOk_iff_derives {length : Nat} {xs : List Lexeme} :
    (∃ u, parseLexemes length xs = .ok u) ↔ Derives (xs.map Lexeme.token) := by
  constructor
  · rintro ⟨u, hu⟩
    exact (writes_of_parseLexemes hu).derives
  · exact fun h => parseLexemes_isOk_of_derives h length

def tokensOf (source : String) : List Token := (lex source).lexemes.map Lexeme.token

theorem parse_snippet_eq_some_iff {source : String} {u : Snippet} :
    (parse source).snippet = some u ↔
      parseLexemes source.utf8ByteSize (lex source).lexemes = .ok u := by
  unfold parse
  dsimp only
  split
  · next t ht => simp [ht]
  · next err herr => simp [herr]

theorem parse_grammar :
    (∀ source, (∃ u, (parse source).snippet = some u) ↔ Derives (tokensOf source)) ∧
    (∀ source (t : Snippet), (∃ u, (parse source).snippet = some u ∧ u.erase = t.erase) ↔
      t.Writes (tokensOf source)) ∧
    (∀ length xs (t : Snippet), (∃ u, parseLexemes length xs = .ok u ∧ u.erase = t.erase) ↔
      t.Writes (xs.map Lexeme.token)) ∧
    (∀ t : Snippet, t.Writes t.tokens) ∧
    ∀ op : BinaryOp, op.level = BinaryOp.loosestFirst.findIdx (op ∈ ·) + 1 := by
  refine ⟨?_, ?_, ?_, Snippet.writes_tokens, BinaryOp.level_eq⟩
  · intro source
    simp only [parse_snippet_eq_some_iff]
    exact parseLexemes_isOk_iff_derives
  · intro source t
    simp only [parse_snippet_eq_some_iff]
    exact parseLexemes_iff_writes
  · intro length xs t
    exact parseLexemes_iff_writes

end SnippetEval
