import SnippetEval.Proofs.Snippet.Grammar

namespace SnippetEval

def Lexeme.erase (x : Lexeme) : Lexeme := ⟨x.token, default⟩

def Pending.erase : Pending → Pending
  | .group => .group
  | .unary op _ => .unary op default
  | .binary op l => .binary op l.erase

def Expecting.erase : Expecting → Expecting
  | .statement => .statement
  | .bindingName _ => .bindingName default
  | .assign _ i => .assign default ⟨i.name, default⟩
  | .operand => .operand
  | .operator e => .operator e.erase
  | .member e => .member e.erase

def ParseState.erase (s : ParseState) : ParseState where
  bindings := s.bindings.map Binding.erase
  binding := s.binding.map fun b => (default, ⟨b.2.name, default⟩)
  pending := s.pending.map Pending.erase
  expecting := s.expecting.erase

@[simp] theorem span_erase (e : Expr) : e.erase.span = default := by cases e <;> rfl

@[simp] theorem merge_default : Span.merge default default = default := rfl

@[simp] theorem isGroup_erase (p : Pending) : p.erase.isGroup = p.isGroup := by cases p <;> rfl

theorem reduce_erase (q : Nat) (e : Expr) (ps : List Pending) :
    reduce q e.erase (ps.map Pending.erase) =
      ((reduce q e ps).1.erase, (reduce q e ps).2.map Pending.erase) := by
  induction ps generalizing e with
  | nil => rfl
  | cons p ps ih =>
    cases p with
    | group => simp [reduce, Pending.erase]
    | unary op span =>
      simpa [reduce, Pending.erase, Expr.erase] using ih (.unary op e (span.merge e.span))
    | binary op l =>
      simp only [List.map_cons, Pending.erase, reduce]
      split
      · simpa [Expr.erase] using ih (.binary op l e (l.span.merge e.span))
      · rfl

namespace ParseState

variable {s s' t : ParseState} {x x' : Lexeme} {xs xs' : List Lexeme}

theorem stepOperand_erase (s : ParseState) (x : Lexeme) :
    s.erase.stepOperand x.erase = (s.stepOperand x).map erase := by
  obtain ⟨token, span⟩ := x
  cases token <;> rfl

theorem stepOperator_erase (s : ParseState) (e : Expr) (x : Lexeme) :
    s.erase.stepOperator e.erase x.erase = (s.stepOperator e x).map erase := by
  obtain ⟨token, span⟩ := x
  obtain ⟨bindings, binding, pending, expecting⟩ := s
  simp only [stepOperator, erase, Lexeme.erase, reduce_erase]
  cases token with
  | closeParen =>
    obtain ⟨inner, open_⟩ := reduce 0 e pending
    cases open_ with
    | nil => rfl
    | cons p ps => cases p <;> rfl
  | semicolon =>
    obtain ⟨value, open_⟩ := reduce 0 e pending
    cases binding with
    | none => rfl
    | some b =>
      cases open_ with
      | nil => simp [Token.binary?, Binding.erase, erase, Expecting.erase]
      | cons p ps => rfl
  | _ => rfl

theorem step_erase (s : ParseState) (x : Lexeme) :
    s.erase.step x.erase = (s.step x).map erase := by
  obtain ⟨bindings, binding, pending, expecting⟩ := s
  obtain ⟨token, span⟩ := x
  cases expecting with
  | operand => exact stepOperand_erase ⟨bindings, binding, pending, .operand⟩ ⟨token, span⟩
  | operator e => exact stepOperator_erase ⟨bindings, binding, pending, .operator e⟩ e ⟨token, span⟩
  | member object =>
    cases token with
    | name n => simp [step, erase, Lexeme.erase, Expecting.erase, Expr.erase]
    | _ => rfl
  | _ => cases token <;> rfl

theorem finish_erase (s : ParseState) : s.erase.finish? =
    s.finish?.map (Prod.map (List.map Binding.erase) (Option.map Expr.erase)) := by
  obtain ⟨bindings, binding, pending, expecting⟩ := s
  cases expecting with
  | operator e =>
    cases binding with
    | some b => rfl
    | none =>
      simp only [finish?, erase, Expecting.erase, Option.map_none, reduce_erase]
      obtain ⟨value, waiting⟩ := reduce 0 e pending
      cases waiting <;> rfl
  | _ => rfl

theorem expected_erase (s : ParseState) : s.erase.expected = s.expected := by
  obtain ⟨bindings, binding, pending, expecting⟩ := s
  cases expecting with
  | operator e =>
    have hany : (pending.map Pending.erase).any Pending.isGroup = pending.any Pending.isGroup := by
      simp [List.any_map, Function.comp_def]
    simp [expected, closing, erase, Expecting.erase, hany]
  | _ => rfl

theorem expected_same (hs : s.erase = s'.erase) : s.expected = s'.expected := by
  rw [← expected_erase, hs, expected_erase]

theorem finish_same (hs : s.erase = s'.erase) :
    s.finish?.map (Prod.map (List.map Binding.erase) (Option.map Expr.erase)) =
      s'.finish?.map (Prod.map (List.map Binding.erase) (Option.map Expr.erase)) := by
  rw [← finish_erase, ← finish_erase, hs]

theorem step_same (hs : s.erase = s'.erase) (hx : x.token = x'.token) :
    (s.step x).map erase = (s'.step x').map erase := by
  rw [← step_erase, ← step_erase, hs, Lexeme.erase, Lexeme.erase, hx]

theorem run_same (hs : s.erase = s'.erase)
    (hxs : xs.map Lexeme.token = xs'.map Lexeme.token) :
    (∃ t t', s.run xs = .ok t ∧ s'.run xs' = .ok t' ∧ t.erase = t'.erase) ∨
    ∃ (i : Nat) (x x' : Lexeme) (t t' : ParseState), xs[i]? = some x ∧ xs'[i]? = some x' ∧
      s.run xs = .error (x, t) ∧ s'.run xs' = .error (x', t') ∧ t.erase = t'.erase := by
  induction xs generalizing s s' xs' with
  | nil =>
    obtain rfl := List.map_eq_nil_iff.mp hxs.symm
    exact .inl ⟨s, s', rfl, rfl, hs⟩
  | cons x xs ih =>
    obtain ⟨x', xs', rfl, hx, htail⟩ := List.map_eq_cons_iff.mp hxs.symm
    have hstep := step_same hs hx.symm
    cases h : s.step x with
    | none =>
      have h' : s'.step x' = none := by simpa [h] using hstep.symm
      exact .inr ⟨0, x, x', s, s', rfl, rfl, by simp [run, h], by simp [run, h'], hs⟩
    | some t =>
      rw [h, Option.map_some] at hstep
      obtain ⟨t', h', ht⟩ := Option.map_eq_some_iff.mp hstep.symm
      rcases ih ht.symm htail.symm with ⟨u, u', hu, hu', hsame⟩ |
        ⟨i, y, y', u, u', hy, hy', hu, hu', hsame⟩
      · exact .inl ⟨u, u', by simpa [run, h] using hu, by simpa [run, h'] using hu', hsame⟩
      · exact .inr ⟨i + 1, y, y', u, u', hy, hy', by simpa [run, h] using hu,
          by simpa [run, h'] using hu', hsame⟩

end ParseState

def placeAt (length : Nat) (xs : List Lexeme) (i : Nat) : Span :=
  (xs[i]?.map Lexeme.span).getD ⟨length, length⟩

theorem parseLexemes_same {xs xs' : List Lexeme}
    (hxs : xs.map Lexeme.token = xs'.map Lexeme.token) (length length' : Nat) :
    (∃ u u', parseLexemes length xs = .ok u ∧ parseLexemes length' xs' = .ok u' ∧
      u'.erase = u.erase) ∨
    ∃ i found expected, found = (xs.map Lexeme.token)[i]? ∧
      parseLexemes length xs = .error (.unexpected found expected (placeAt length xs i)) ∧
      parseLexemes length' xs' = .error (.unexpected found expected (placeAt length' xs' i)) := by
  unfold parseLexemes
  rcases ParseState.run_same (rfl : ParseState.start.erase = _) hxs with
    ⟨t, t', hrun, hrun', hsame⟩ | ⟨i, x, x', t, t', hx, hx', hrun, hrun', hsame⟩
  · have hfinish := ParseState.finish_same hsame
    have hexpected := ParseState.expected_same hsame
    have hlength : xs'.length = xs.length := by simpa using (congrArg List.length hxs).symm
    cases h : t.finish? with
    | some r =>
      rw [h, Option.map_some] at hfinish
      obtain ⟨r', h', hr⟩ := Option.map_eq_some_iff.mp hfinish.symm
      obtain ⟨hbindings, hresult⟩ := Prod.mk.inj hr
      refine .inl ⟨⟨r.1, r.2, coveredSpan length xs⟩, ⟨r'.1, r'.2, coveredSpan length' xs'⟩,
        ?_, ?_, ?_⟩
      · simp only [hrun, h]
      · simp only [hrun', h']
      · simp [Snippet.erase, hbindings, hresult]
    | none =>
      have h' : t'.finish? = none := by simpa [h] using hfinish.symm
      refine .inr ⟨xs.length, none, t.expected, by simp, ?_, ?_⟩
      · simp [hrun, h, placeAt]
      · simp [hrun', h', placeAt, hexpected, hlength]
  · have hexpected := ParseState.expected_same hsame
    have htoken : x.token = x'.token := by
      have htokens := congrArg (·[i]?) hxs
      simpa [hx, hx'] using htokens
    refine .inr ⟨i, some x.token, t.expected, by simp [hx], ?_, ?_⟩
    · simp [hrun, placeAt, hx]
    · simp [hrun', placeAt, hx', hexpected, htoken]

end SnippetEval
