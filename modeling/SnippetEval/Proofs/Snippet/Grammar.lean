import Mathlib.Tactic.Common
import SnippetEval.Snippet.Parser

namespace SnippetEval

def Literal.token : Literal → Token
  | null => .null
  | bool true => .true
  | bool false => .false
  | int n => .int n
  | float x => .float x
  | text s => .text s

def UnaryOp.token : UnaryOp → Token
  | negate => .minus
  | not => .bang

def BinaryOp.token : BinaryOp → Token
  | mul => .star
  | div => .slash
  | rem => .percent
  | add => .plus
  | sub => .minus
  | less => .less
  | lessEqual => .lessEqual
  | greater => .greater
  | greaterEqual => .greaterEqual
  | equal => .equal
  | notEqual => .notEqual
  | and => .and
  | or => .or

theorem literal?_eq_some_iff {t : Token} {l : Literal} : t.literal? = some l ↔ t = l.token := by
  constructor
  · intro h
    cases t <;> cases h <;> rfl
  · rintro rfl
    cases l with
    | bool b => cases b <;> rfl
    | _ => rfl

theorem unary?_eq_some_iff {t : Token} {op : UnaryOp} : t.unary? = some op ↔ t = op.token := by
  constructor
  · intro h
    cases t <;> cases h <;> rfl
  · rintro rfl
    cases op <;> rfl

theorem binary?_eq_some_iff {t : Token} {op : BinaryOp} : t.binary? = some op ↔ t = op.token := by
  constructor
  · intro h
    cases t <;> cases h <;> rfl
  · rintro rfl
    cases op <;> rfl

def BinaryOp.loosestFirst : List (List BinaryOp) :=
  [[.or], [.and], [.equal, .notEqual], [.less, .lessEqual, .greater, .greaterEqual], [.add, .sub],
    [.mul, .div, .rem]]

theorem BinaryOp.level_eq (op : BinaryOp) : op.level = loosestFirst.findIdx (op ∈ ·) + 1 := by
  cases op <;> rfl

theorem BinaryOp.one_le_level (op : BinaryOp) : 1 ≤ op.level := by cases op <;> decide

theorem BinaryOp.level_le_six (op : BinaryOp) : op.level ≤ 6 := by cases op <;> decide

/-- Expressions as they may be read if operators had no levels. -/
inductive Phrase : List Token → Prop
  | literal (l : Literal) : Phrase [l.token]
  | this : Phrase [.this]
  | name (n : String) : Phrase [.name n]
  | group {ts : List Token} : Phrase ts → Phrase (.openParen :: (ts ++ [.closeParen]))
  | field {ts : List Token} (n : String) : Phrase ts → Phrase (ts ++ [.dot, .name n])
  | unary {ts : List Token} (op : UnaryOp) : Phrase ts → Phrase (op.token :: ts)
  | binary {ls rs : List Token} (op : BinaryOp) : Phrase ls → Phrase rs →
      Phrase (ls ++ op.token :: rs)

inductive Derives : List Token → Prop
  | empty : Derives []
  | result {ts : List Token} : Phrase ts → Derives ts
  | binding {vs ts : List Token} (n : String) : Phrase vs → Derives ts →
      Derives (.letWord :: .name n :: .assign :: (vs ++ .semicolon :: ts))

/-- The tokens write the expression where one of level `p` is wanted: 1 to 6 for the binary
operators, 7 for the operand of a unary one and 8 for an object whose field is taken. -/
inductive Expr.Writes : Nat → Expr → List Token → Prop
  | literal {p : Nat} (l : Literal) (span : Span) : Writes p (.literal l span) [l.token]
  | this {p : Nat} (span : Span) : Writes p (.this span) [.this]
  | name {p : Nat} (i : Ident) : Writes p (.name i) [.name i.name]
  | group {p : Nat} {e : Expr} {ts : List Token} : Writes 1 e ts →
      Writes p e (.openParen :: (ts ++ [.closeParen]))
  | field {p : Nat} {e : Expr} {ts : List Token} (i : Ident) (span : Span) : Writes 8 e ts →
      p ≤ 8 → Writes p (.field e i span) (ts ++ [.dot, .name i.name])
  | unary {p : Nat} {e : Expr} {ts : List Token} (op : UnaryOp) (span : Span) : Writes 7 e ts →
      p ≤ 7 → Writes p (.unary op e span) (op.token :: ts)
  | binary {p : Nat} {l r : Expr} {ls rs : List Token} (op : BinaryOp) (span : Span) :
      Writes op.level l ls → Writes (op.level + 1) r rs → p ≤ op.level →
      Writes p (.binary op l r span) (ls ++ op.token :: rs)

inductive WritesBindings : List Binding → List Token → Prop
  | nil : WritesBindings [] []
  | cons {b : Binding} {bs : List Binding} {vs ts : List Token} : b.value.Writes 1 vs →
      WritesBindings bs ts →
      WritesBindings (b :: bs)
        (.letWord :: .name b.name.name :: .assign :: (vs ++ .semicolon :: ts))

def Snippet.Writes (t : Snippet) (ts : List Token) : Prop :=
  ∃ bs es, ts = bs ++ es ∧ WritesBindings t.bindings bs ∧
    match t.result with
    | some e => e.Writes 1 es
    | none => es = []

def Expr.erase : Expr → Expr
  | .literal l _ => .literal l default
  | .name i => .name ⟨i.name, default⟩
  | .this _ => .this default
  | .field e i _ => .field e.erase ⟨i.name, default⟩ default
  | .unary op e _ => .unary op e.erase default
  | .binary op l r _ => .binary op l.erase r.erase default

def Binding.erase (b : Binding) : Binding := ⟨⟨b.name.name, default⟩, b.value.erase, default⟩

def Snippet.erase (t : Snippet) : Snippet :=
  ⟨t.bindings.map Binding.erase, t.result.map Expr.erase, default⟩

namespace Expr

variable {p q : Nat} {d e : Expr} {ts : List Token}

theorem Writes.of_le (h : e.Writes p ts) (hq : q ≤ p) : e.Writes q ts := by
  cases h with
  | literal l span => exact .literal l span
  | this span => exact .this span
  | name i => exact .name i
  | group h => exact .group h
  | field i span h hp => exact .field i span h (Nat.le_trans hq hp)
  | unary op span h hp => exact .unary op span h (Nat.le_trans hq hp)
  | binary op span hl hr hp => exact .binary op span hl hr (Nat.le_trans hq hp)

theorem Writes.congr (h : e.Writes p ts) (hd : d.erase = e.erase) : d.Writes p ts := by
  induction h generalizing d with
  | literal l span =>
    cases d <;> simp only [erase, literal.injEq, and_true, reduceCtorEq] at hd
    subst hd
    exact .literal _ _
  | this span =>
    cases d <;> simp only [erase, reduceCtorEq] at hd
    exact .this _
  | name i =>
    cases d <;> simp only [erase, name.injEq, Ident.mk.injEq, and_true, reduceCtorEq] at hd
    rw [← hd]
    exact .name _
  | group h ih => exact .group (ih hd)
  | field i span h hp ih =>
    cases d <;> simp only [erase, field.injEq, Ident.mk.injEq, and_true, reduceCtorEq] at hd
    rw [← hd.2]
    exact .field _ _ (ih hd.1) hp
  | unary op span h hp ih =>
    cases d <;> simp only [erase, unary.injEq, and_true, reduceCtorEq] at hd
    rw [← hd.1]
    exact .unary _ _ (ih hd.2) hp
  | binary op span hl hr hp ihl ihr =>
    cases d <;> simp only [erase, binary.injEq, and_true, reduceCtorEq] at hd
    obtain ⟨rfl, hl, hr⟩ := hd
    exact .binary _ _ (ihl hl) (ihr hr) hp

theorem Writes.phrase (h : e.Writes p ts) : Phrase ts := by
  induction h with
  | literal l span => exact .literal l
  | this span => exact .this
  | name i => exact .name i.name
  | group h ih => exact .group ih
  | field i span h hp ih => exact .field i.name ih
  | unary op span h hp ih => exact .unary op ih
  | binary op span hl hr hp ihl ihr => exact .binary op ihl ihr

def level : Expr → Nat
  | .literal _ _ | .name _ | .this _ | .field .. => 8
  | .unary .. => 7
  | .binary op .. => op.level

def place (p : Nat) (e : Expr) (ts : List Token) : List Token :=
  if p ≤ e.level then ts else .openParen :: (ts ++ [.closeParen])

def tokens : Expr → List Token
  | .literal l _ => [l.token]
  | .name i => [.name i.name]
  | .this _ => [.this]
  | .field e i _ => place 8 e e.tokens ++ [.dot, .name i.name]
  | .unary op e _ => op.token :: place 7 e e.tokens
  | .binary op l r _ =>
    place op.level l l.tokens ++ op.token :: place (op.level + 1) r r.tokens

example (a b c : Ident) (span : Span) :
    let sum := Expr.binary .add (.name a) (.name b) span
    let product := Expr.binary .mul sum (.name c) span
    tokens (.binary .sub (.name a) (.binary .sub product (.name b) span) span) =
      [.name a.name, .minus, .openParen, .openParen, .name a.name, .plus, .name b.name, .closeParen,
        .star, .name c.name, .minus, .name b.name, .closeParen] := rfl

theorem one_le_level (e : Expr) : 1 ≤ e.level := by
  cases e with
  | binary op l r span => exact op.one_le_level
  | _ => simp [level]

theorem writes_place (h : ∀ q ≤ e.level, e.Writes q e.tokens) (p : Nat) :
    e.Writes p (place p e e.tokens) := by
  unfold place
  split
  · next hp => exact h p hp
  · exact .group (h 1 e.one_le_level)

theorem writes_tokens (e : Expr) : ∀ p ≤ e.level, e.Writes p e.tokens := by
  induction e with
  | literal l span => exact fun p _ => .literal l span
  | name i => exact fun p _ => .name i
  | this span => exact fun p _ => .this span
  | field e i span ih => exact fun p hp => .field i span (writes_place ih 8) hp
  | unary op e span ih => exact fun p hp => .unary op span (writes_place ih 7) hp
  | binary op l r span ihl ihr =>
    exact fun p hp => .binary op span (writes_place ihl _) (writes_place ihr _) hp

end Expr

theorem WritesBindings.concat {bs : List Binding} {ts vs : List Token} {b : Binding}
    (h : WritesBindings bs ts) (hb : b.value.Writes 1 vs) :
    WritesBindings (bs ++ [b])
      (ts ++ [.letWord, .name b.name.name, .assign] ++ vs ++ [.semicolon]) := by
  induction h with
  | nil => exact .cons hb .nil
  | @cons c bs us ts hc _ ih =>
    have hcons := WritesBindings.cons hc ih
    simpa using hcons

theorem WritesBindings.congr {bs cs : List Binding} {ts : List Token} (h : WritesBindings bs ts)
    (hcs : cs.map Binding.erase = bs.map Binding.erase) : WritesBindings cs ts := by
  induction h generalizing cs with
  | nil =>
    rw [List.map_eq_nil_iff.mp hcs]
    exact .nil
  | @cons b bs us ts hb _ ih =>
    obtain ⟨c, cs, rfl, hc, hcs⟩ := List.map_eq_cons_iff.mp hcs
    simp only [Binding.erase, Binding.mk.injEq, Ident.mk.injEq, and_true] at hc
    rw [← hc.1]
    exact .cons (hb.congr hc.2) (ih hcs)

namespace Snippet

variable {t u : Snippet} {ts : List Token}

theorem Writes.congr (h : t.Writes ts) (hu : u.erase = t.erase) : u.Writes ts := by
  obtain ⟨bs, es, rfl, hbs, hes⟩ := h
  simp only [erase, mk.injEq, and_true] at hu
  refine ⟨bs, es, rfl, hbs.congr hu.1, ?_⟩
  cases ht : t.result with
  | none =>
    rw [ht, Option.map_none, Option.map_eq_none_iff] at hu
    simpa [ht, hu.2] using hes
  | some e =>
    rw [ht, Option.map_some, Option.map_eq_some_iff] at hu
    obtain ⟨-, d, hd, hde⟩ := hu
    rw [hd]
    rw [ht] at hes
    exact hes.congr hde

theorem Writes.derives (h : t.Writes ts) : Derives ts := by
  obtain ⟨bindings, result, span⟩ := t
  obtain ⟨bs, es, rfl, hbs, hes⟩ := h
  dsimp only at hbs hes
  induction hbs with
  | nil =>
    cases result with
    | none =>
      rw [hes]
      exact .empty
    | some e => exact .result hes.phrase
  | @cons b bs us ts hb _ ih =>
    have hbinding := Derives.binding b.name.name hb.phrase ih
    simpa using hbinding

def tokens (t : Snippet) : List Token :=
  t.bindings.flatMap (fun b =>
    [.letWord, .name b.name.name, .assign] ++ b.value.tokens ++ [.semicolon]) ++
  (t.result.map Expr.tokens).getD []

theorem writes_tokens (t : Snippet) : t.Writes t.tokens := by
  refine ⟨_, _, rfl, ?_, ?_⟩
  · induction t.bindings with
    | nil => exact .nil
    | cons b bs ih =>
      have hcons := WritesBindings.cons (b.value.writes_tokens 1 b.value.one_le_level) ih
      simpa using hcons
  · cases t.result with
    | none => rfl
    | some e => exact e.writes_tokens 1 e.one_le_level

end Snippet

end SnippetEval
