import Mathlib.Data.List.Nodup
import SnippetEval.Proofs.Snippet.Parsing

namespace SnippetEval

def Viable (ts : List Token) : Prop := ∃ rest, Derives (ts ++ rest)

theorem Viable.of_append {ts us : List Token} (h : Viable (ts ++ us)) : Viable ts := by
  obtain ⟨rest, h⟩ := h
  exact ⟨us ++ rest, by rwa [← List.append_assoc]⟩

def Token.expectedName (t : Token) : String :=
  if t.literal?.isSome then "something else" else "'" ++ t.display ++ "'"

/-- The names are those of all that may follow the tokens. -/
structure Expects (ts : List Token) (names : List String) : Prop where
  nodup : names.Nodup
  token : ∀ t : Token, t.expectedName ∈ names ↔ Viable (ts ++ [t])
  finish : "end of input" ∈ names ↔ Derives ts
  only : ∀ n ∈ names, n = "end of input" ∨ ∃ t : Token, n = t.expectedName

/-- The lexemes go on as far as a snippet may, and what stands behind `accepted` is `found`. -/
inductive Stops (length : Nat) (xs : List Lexeme) : List Token → Option Token → Span → Prop
  | token {before after : List Lexeme} {x : Lexeme} : xs = before ++ x :: after →
      Viable (before.map Lexeme.token) → ¬ Viable (before.map Lexeme.token ++ [x.token]) →
      Stops length xs (before.map Lexeme.token) (some x.token) x.span
  | finish : Viable (xs.map Lexeme.token) → ¬ Derives (xs.map Lexeme.token) →
      Stops length xs (xs.map Lexeme.token) none ⟨length, length⟩

namespace Stops

variable {length : Nat} {xs before before' after after' : List Lexeme} {x x' : Lexeme}

theorem not_viable (h : ¬ Viable (before.map Lexeme.token ++ [x.token])) (after : List Lexeme) :
    ¬ Viable ((before ++ x :: after).map Lexeme.token) := by
  intro hall
  have hfront : Viable (before.map Lexeme.token ++ [x.token] ++ after.map Lexeme.token) := by
    simpa using hall
  exact h hfront.of_append

theorem length_le (h : before ++ x :: after = before' ++ x' :: after')
    (hnot : ¬ Viable (before.map Lexeme.token ++ [x.token]))
    (hviable : Viable (before'.map Lexeme.token)) : before'.length ≤ before.length := by
  by_contra hlt
  have hfront : before ++ [x] <+: before' := by
    refine List.prefix_of_prefix_length_le ⟨after, ?_⟩ ⟨x' :: after', rfl⟩ ?_
    · simpa using h
    · simp only [List.length_append, List.length_singleton]
      omega
  obtain ⟨rest, rfl⟩ := hfront
  rw [List.append_assoc, List.singleton_append] at hviable
  exact not_viable hnot rest hviable

theorem unique {accepted accepted' : List Token} {found found' : Option Token} {span span' : Span}
    (h : Stops length xs accepted found span) (h' : Stops length xs accepted' found' span') :
    accepted = accepted' ∧ found = found' ∧ span = span' := by
  cases h with
  | @token before after x hxs hviable hnot =>
    cases h' with
    | @token before' after' x' hxs' hviable' hnot' =>
      have heq := hxs.symm.trans hxs'
      have hlength : before.length = before'.length :=
        Nat.le_antisymm (length_le heq.symm hnot' hviable) (length_le heq hnot hviable')
      obtain ⟨rfl, htail⟩ := List.append_inj heq hlength
      obtain ⟨rfl, -⟩ := List.cons.inj htail
      exact ⟨rfl, rfl, rfl⟩
    | finish hviable' =>
      subst hxs
      exact absurd hviable' (not_viable hnot after)
  | finish hviable hnot =>
    cases h' with
    | @token before' after' x' hxs' hviable' hnot' =>
      subst hxs'
      exact absurd hviable (not_viable hnot' after')
    | finish => exact ⟨rfl, rfl, rfl⟩

end Stops

section classes

def Token.expectedAs (t : Token) : TokenClass :=
  match t with
  | .name _ => .name
  | t => if t.literal?.isSome then .literal else .exactly t

theorem display_expectedAs (t : Token) : t.expectedAs.display = t.expectedName := by
  cases t <;> rfl

namespace TokenClass

def words : List Token :=
  [.letWord, .this, .semicolon, .assign, .equal, .notEqual, .less, .lessEqual, .greater,
    .greaterEqual, .and, .or, .bang, .plus, .minus, .star, .slash, .percent, .dot, .openParen,
    .closeParen]

def all : List TokenClass := words.map .exactly ++ [.literal, .name, .finish]

theorem nodup_displays : (all.map display).Nodup := by decide

theorem expectedAs_mem_all (t : Token) : t.expectedAs ∈ all := by
  cases t <;> simp [Token.expectedAs, Token.literal?, all, words]

theorem exactly_words : ∀ t ∈ words, exactly t = t.expectedAs := by
  simp [words, Token.expectedAs, Token.literal?]

theorem eq_expectedAs_of_mem {c : TokenClass} (h : c ∈ all) :
    c = .finish ∨ ∃ t : Token, c = t.expectedAs := by
  rcases List.mem_append.mp h with h | h
  · obtain ⟨t, ht, rfl⟩ := List.mem_map.mp h
    exact .inr ⟨t, exactly_words t ht⟩
  · simp only [List.mem_cons, List.not_mem_nil, or_false] at h
    rcases h with rfl | rfl | rfl
    · exact .inr ⟨.null, rfl⟩
    · exact .inr ⟨.name "", rfl⟩
    · exact .inl rfl

theorem display_mem_iff {c : TokenClass} {cs : List TokenClass} (hc : c ∈ all) (hcs : cs ⊆ all) :
    c.display ∈ cs.map display ↔ c ∈ cs := by
  refine ⟨?_, List.mem_map_of_mem⟩
  intro h
  obtain ⟨d, hd, hdisplay⟩ := List.mem_map.mp h
  rwa [← List.inj_on_of_nodup_map nodup_displays (hcs hd) hc hdisplay]

end TokenClass

end classes

theorem reduce_cases (e : Expr) (ps : List Pending) :
    (∃ v, reduce 0 e ps = (v, []) ∧ ps.any Pending.isGroup = false) ∨
    ∃ v qs, reduce 0 e ps = (v, .group :: qs) ∧ ps.any Pending.isGroup = true ∧
      qs.length < ps.length := by
  induction ps generalizing e with
  | nil => exact .inl ⟨e, rfl, rfl⟩
  | cons p ps ih =>
    cases p with
    | group => exact .inr ⟨e, ps, reduce_group 0 e ps, rfl, Nat.lt_succ_self _⟩
    | unary op span =>
      rcases ih (.unary op e (span.merge e.span)) with hall | ⟨v, qs, hreduce, hany, hlt⟩
      · exact .inl hall
      · exact .inr ⟨v, qs, hreduce, hany, Nat.lt_succ_of_lt hlt⟩
    | binary op l =>
      rcases ih (.binary op l e (l.span.merge e.span)) with hall | ⟨v, qs, hreduce, hany, hlt⟩
      · exact .inl hall
      · exact .inr ⟨v, qs, hreduce, hany, Nat.lt_succ_of_lt hlt⟩

namespace ParseState

open TokenClass (all)

variable {s t : ParseState} {x : Lexeme} {xs ys : List Lexeme} {e : Expr}

theorem closing_mem_all (s : ParseState) : s.closing ∈ all := by
  unfold closing
  split_ifs <;> simp [all, TokenClass.words]

theorem expected_subset (s : ParseState) : s.expected ⊆ all := by
  unfold expected
  split
  iterate 5 simp [all, TokenClass.words, operandStarts]
  next e hs =>
    have hclosing := s.closing_mem_all
    have hoperators : operators ⊆ all := by simp [all, TokenClass.words, operators]
    exact List.append_subset.mpr ⟨hoperators, by simpa using hclosing⟩

theorem nodup_expected (s : ParseState) : (s.expected.map TokenClass.display).Nodup := by
  unfold expected
  split
  iterate 5 decide
  unfold closing
  split_ifs <;> decide

theorem stepOperand_isSome_iff :
    (s.stepOperand x).isSome = true ↔ x.token.expectedAs ∈ operandStarts := by
  unfold stepOperand
  cases x.token <;> simp [Token.unary?, Token.literal?, Token.expectedAs, operandStarts]

theorem stepOperator_isSome_iff : (s.stepOperator e x).isSome = true ↔
    x.token.expectedAs ∈ operators ∨ x.token.expectedAs = s.closing := by
  unfold stepOperator closing
  rcases reduce_cases e s.pending with ⟨v, hreduce, hany⟩ | ⟨v, qs, hreduce, hany, -⟩
  all_goals
    rw [hreduce, hany]
    cases s.binding <;> cases x.token <;>
      simp [Token.binary?, Token.expectedAs, Token.literal?, operators]

theorem step_isSome_iff : (s.step x).isSome = true ↔ x.token.expectedAs ∈ s.expected := by
  cases hs : s.expecting with
  | statement =>
    by_cases hx : x.token = .letWord
    · simp [step_statement_let hs hx, expected, hs, hx, Token.expectedAs, Token.literal?]
    · rw [step_operand (.inr hs) hx, stepOperand_isSome_iff]
      have hlet : x.token.expectedAs ≠ .exactly .letWord := by
        revert hx
        cases x.token <;> simp [Token.expectedAs, Token.literal?]
      have hfinish : x.token.expectedAs ≠ .finish := by
        cases x.token <;> simp [Token.expectedAs, Token.literal?]
      simp [expected, hs, hlet, hfinish]
  | operand =>
    have hstep : s.step x = s.stepOperand x := by
      unfold step
      rw [hs]
    simp only [hstep, stepOperand_isSome_iff, expected, hs]
  | operator e =>
    rw [step_operator hs, stepOperator_isSome_iff]
    simp [expected, hs]
  | bindingName | assign | member =>
    unfold step expected
    rw [hs]
    cases x.token <;> simp [Token.expectedAs, Token.literal?]

theorem finish_isSome_iff : s.finish?.isSome = true ↔ .finish ∈ s.expected := by
  unfold finish? expected
  cases s.expecting with
  | operator e =>
    rcases reduce_cases e s.pending with ⟨v, hreduce, hany⟩ | ⟨v, qs, hreduce, hany, -⟩
    all_goals
      cases hbinding : s.binding <;> simp [hreduce, hbinding, closing, hany, operators]
  | _ => simp [operandStarts]

def Completes (s : ParseState) : Prop := ∃ xs t, s.run xs = .ok t ∧ t.finish?.isSome = true

theorem completes_of_finish (h : s.finish?.isSome = true) : s.Completes := ⟨[], s, rfl, h⟩

theorem completes_of_step (h : s.step x = some t) (ht : t.Completes) : s.Completes := by
  obtain ⟨xs, u, hrun, hu⟩ := ht
  exact ⟨x :: xs, u, by rw [run_cons h, hrun], hu⟩

theorem completes_statement (hs : s.expecting = .statement) : s.Completes :=
  completes_of_finish (by simp [finish?, hs])

theorem completes_operator (hs : s.expecting = .operator e) : s.Completes := by
  -- Each closed parenthesis leaves fewer operands open.
  induction hn : s.pending.length using Nat.strongRecOn generalizing s e with
  | _ n ih =>
    rcases reduce_cases e s.pending with ⟨v, hreduce, -⟩ | ⟨v, qs, hreduce, -, hlt⟩
    · cases hbinding : s.binding with
      | none => exact completes_of_finish (by simp [finish?, hs, hbinding, hreduce])
      | some b =>
        have hstep := (step_operator hs).trans
          (stepOperator_semicolon (x := ⟨.semicolon, default⟩) rfl hbinding hreduce)
        exact completes_of_step hstep (completes_statement rfl)
    · have hstep := (step_operator hs).trans
        (stepOperator_close (x := ⟨.closeParen, default⟩) rfl hreduce)
      exact completes_of_step hstep (ih qs.length (hn ▸ hlt) rfl rfl)

theorem completes_operand (hs : s.expecting = .operand) : s.Completes := by
  have hstep := AtOperand.step_eq (.inl hs)
    (stepOperand_literal (s := s) (x := ⟨.null, default⟩) (l := .null) rfl)
  exact completes_of_step hstep (completes_operator rfl)

theorem completes_assign {start : Span} {i : Ident} (hs : s.expecting = .assign start i) :
    s.Completes := by
  have hstep := (step_assign_iff (x := ⟨.assign, default⟩) hs).mpr ⟨rfl, rfl⟩
  exact completes_of_step hstep (completes_operand rfl)

theorem completes (s : ParseState) : s.Completes := by
  cases hs : s.expecting with
  | statement => exact completes_statement hs
  | bindingName start =>
    have hstep := (step_bindingName_iff (x := ⟨.name "", default⟩) hs).mpr ⟨"", rfl, rfl⟩
    exact completes_of_step hstep (completes_assign rfl)
  | assign start i => exact completes_assign hs
  | operand => exact completes_operand hs
  | operator e => exact completes_operator hs
  | member e =>
    have hstep := (step_member_iff (x := ⟨.name "", default⟩) hs).mpr ⟨"", rfl, rfl⟩
    exact completes_of_step hstep (completes_operator rfl)

theorem derives_of_finish (h : start.run xs = .ok s) (hs : s.finish?.isSome = true) :
    Derives (xs.map Lexeme.token) := by
  have hstart : start.Holds [] := ⟨[], .nil, rfl, rfl, rfl⟩
  obtain ⟨⟨bindings, result⟩, hfinish⟩ := Option.isSome_iff_exists.mp hs
  have hwrites : Snippet.Writes ⟨bindings, result, default⟩ _ :=
    holds_finish (holds_run hstart h) hfinish
  exact hwrites.derives

theorem viable_of_run (h : start.run xs = .ok s) : Viable (xs.map Lexeme.token) := by
  obtain ⟨ys, t, hrun, ht⟩ := s.completes
  have hall := derives_of_finish ((run_append h ys).trans hrun) ht
  exact ⟨ys.map Lexeme.token, by rwa [List.map_append] at hall⟩

theorem finish_of_derives (h : start.run xs = .ok s) (hs : Derives (xs.map Lexeme.token)) :
    s.finish?.isSome = true := by
  obtain ⟨t, r, hrun, hfinish⟩ := exists_finish_of_derives hs rfl []
  obtain rfl := Except.ok.inj (h.symm.trans hrun)
  rw [hfinish]
  rfl

theorem step_of_viable (h : start.run xs = .ok s)
    (hx : Viable (xs.map Lexeme.token ++ [x.token])) : (s.step x).isSome = true := by
  obtain ⟨rest, hrest⟩ := hx
  -- Whatever their places are, the remaining tokens are read behind the lexeme.
  have htokens : (xs ++ x :: rest.map fun t => ⟨t, default⟩).map Lexeme.token =
      xs.map Lexeme.token ++ [x.token] ++ rest := by
    simp [Function.comp_def]
  obtain ⟨t, r, hrun, -⟩ := exists_finish_of_derives hrest htokens []
  have hrun' := (run_append h _).symm.trans hrun
  cases hstep : s.step x with
  | some u => rfl
  | none => simp [run, hstep] at hrun'

theorem expects_of_run (h : start.run xs = .ok s) :
    Expects (xs.map Lexeme.token) (s.expected.map TokenClass.display) where
  nodup := s.nodup_expected
  token := by
    intro t
    rw [← display_expectedAs, TokenClass.display_mem_iff (TokenClass.expectedAs_mem_all t)
      s.expected_subset, ← step_isSome_iff (x := ⟨t, default⟩)]
    constructor
    · intro hstep
      obtain ⟨u, hu⟩ := Option.isSome_iff_exists.mp hstep
      have hviable := viable_of_run ((run_append h [⟨t, default⟩]).trans (run_singleton hu))
      rwa [List.map_append] at hviable
    · exact fun ht => step_of_viable h ht
  finish := by
    have hfinish : .finish ∈ all := by simp [all]
    change TokenClass.finish.display ∈ _ ↔ _
    rw [TokenClass.display_mem_iff hfinish s.expected_subset, ← finish_isSome_iff]
    exact ⟨derives_of_finish h, finish_of_derives h⟩
  only := by
    intro n hn
    obtain ⟨c, hc, rfl⟩ := List.mem_map.mp hn
    rcases TokenClass.eq_expectedAs_of_mem (s.expected_subset hc) with rfl | ⟨t, rfl⟩
    · exact .inl rfl
    · exact .inr ⟨t, display_expectedAs t⟩

theorem run_error (h : s.run xs = .error (x, t)) :
    ∃ before after, xs = before ++ x :: after ∧ s.run before = .ok t ∧ t.step x = none := by
  induction xs generalizing s with
  | nil => cases h
  | cons y ys ih =>
    simp only [run] at h
    split at h
    · next u hu =>
      obtain ⟨before, after, rfl, hrun, hstep⟩ := ih h
      exact ⟨y :: before, after, rfl, (run_cons hu before).trans hrun, hstep⟩
    · next hstep =>
      obtain ⟨rfl, rfl⟩ := Prod.mk.inj (Except.error.inj h)
      exact ⟨[], ys, rfl, rfl, hstep⟩

end ParseState

theorem parseLexemes_stops (length : Nat) {xs : List Lexeme}
    (h : ¬ Derives (xs.map Lexeme.token)) :
    ∃ accepted found expected span, Stops length xs accepted found span ∧
      Expects accepted (expected.map TokenClass.display) ∧
      parseLexemes length xs = .error (.unexpected found expected span) := by
  unfold parseLexemes
  cases hrun : ParseState.start.run xs with
  | error r =>
    obtain ⟨x, s⟩ := r
    obtain ⟨before, after, rfl, hbefore, hstep⟩ := ParseState.run_error hrun
    have hnot : ¬ Viable (before.map Lexeme.token ++ [x.token]) := fun hx => by
      simpa [hstep] using ParseState.step_of_viable hbefore hx
    exact ⟨_, _, _, _, .token rfl (ParseState.viable_of_run hbefore) hnot,
      ParseState.expects_of_run hbefore, rfl⟩
  | ok s =>
    cases hfinish : s.finish? with
    | some r => exact absurd (ParseState.derives_of_finish hrun (by simp [hfinish])) h
    | none =>
      exact ⟨_, _, _, _, .finish (ParseState.viable_of_run hrun) h, ParseState.expects_of_run hrun,
        by simp [hfinish]⟩

def unreadables (source : String) : List ParseError :=
  (lex source).errors.map fun e => .unreadable e.text e.span

theorem parse_refuses (source : String) :
    (Derives (tokensOf source) ∧ ∃ u, parse source = ⟨some u, unreadables source⟩) ∨
    ¬ Derives (tokensOf source) ∧ ∃ accepted found expected span,
      Stops source.utf8ByteSize (lex source).lexemes accepted found span ∧
      (∀ accepted' found' span',
        Stops source.utf8ByteSize (lex source).lexemes accepted' found' span' →
          accepted' = accepted ∧ found' = found ∧ span' = span) ∧
      Expects accepted (expected.map TokenClass.display) ∧
      parse source = ⟨none, unreadables source ++ [.unexpected found expected span]⟩ := by
  by_cases h : Derives (tokensOf source)
  · obtain ⟨u, hu⟩ := parseLexemes_isOk_of_derives h source.utf8ByteSize
    refine .inl ⟨h, u, ?_⟩
    simp only [parse, hu, unreadables]
  · obtain ⟨accepted, found, expected, span, hstops, hexpects, herror⟩ :=
      parseLexemes_stops source.utf8ByteSize h
    refine .inr ⟨h, accepted, found, expected, span, hstops, fun _ _ _ h' => h'.unique hstops,
      hexpects, ?_⟩
    simp only [parse, herror, unreadables]

example : (parse "let x = (a.;").errors.map (fun e => (e.message, e.span)) =
    [("found ';' expected '<ident>'", ⟨11, 12⟩)] := by decide +kernel

end SnippetEval
