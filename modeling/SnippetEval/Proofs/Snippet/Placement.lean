import Mathlib.Data.List.Pairwise
import SnippetEval.Proofs.Snippet.Parsing
import SnippetEval.Proofs.Snippet.Tiling
/-!
Where the parts of a parsed snippet stand in its text. Each lies within the part it belongs to, and
what is read later stands further on: this holds of the tree that is being built at each token, for
what is complete, what is open and the operand alike.
-/

namespace SnippetEval

namespace Span

/-- The span lies in the text and cuts no character of it. -/
structure Lies (s : Span) (source : String) : Prop where
  start_le_stop : s.start ≤ s.stop
  stop_le : s.stop ≤ source.utf8ByteSize
  start_valid : String.Pos.Raw.IsValid source ⟨s.start⟩
  stop_valid : String.Pos.Raw.IsValid source ⟨s.stop⟩

structure Marks (s : Span) (source : String) : Prop extends s.Lies source where
  start_lt_stop : s.start < s.stop

structure Inside (s t : Span) : Prop where
  start : t.start ≤ s.start
  stop : s.stop ≤ t.stop

variable {s t : Span} {source : String}

theorem Holds.marks {before text rest : List Char} (h : s.Holds source.toList before text rest)
    (htext : text ≠ []) : s.Marks source where
  start_lt_stop := h.start_lt_stop htext
  start_le_stop := (h.start_lt_stop htext).le
  stop_le := h.isValid.1
  start_valid := h.isValid.2.1
  stop_valid := h.isValid.2.2

theorem merge_eq (hs : s.Marks source) (ht : t.Marks source) (hst : s.stop ≤ t.start) :
    s.merge t = ⟨s.start, t.stop⟩ := by
  have hstart := hs.start_le_stop.trans hst
  have hstop := hst.trans ht.start_le_stop
  rw [Span.merge, Nat.min_eq_left hstart, Nat.max_eq_right hstop]

theorem Marks.merge (hs : s.Marks source) (ht : t.Marks source) (hst : s.stop ≤ t.start) :
    (s.merge t).Marks source ∧ s.Inside (s.merge t) ∧ t.Inside (s.merge t) := by
  have hle := hs.start_le_stop.trans hst
  have hlt := hle.trans_lt ht.start_lt_stop
  rw [merge_eq hs ht hst]
  exact ⟨⟨⟨hlt.le, ht.stop_le, hs.start_valid, ht.stop_valid⟩, hlt⟩,
    ⟨Nat.le_refl _, hst.trans ht.start_le_stop⟩, ⟨hle, Nat.le_refl _⟩⟩

end Span

theorem lies_end (source : String) :
    Span.Lies ⟨source.utf8ByteSize, source.utf8ByteSize⟩ source :=
  ⟨Nat.le_refl _, Nat.le_refl _, String.Pos.Raw.isValid_rawEndPos,
    String.Pos.Raw.isValid_rawEndPos⟩

def Ident.Stands (source : String) (i : Ident) : Prop :=
  i.name ≠ "" ∧ ∃ before rest, i.span.Holds source.toList before i.name.toList rest

inductive Expr.Placed (source : String) : Expr → Prop
  | literal {l : Literal} {span : Span} : span.Marks source → Placed source (.literal l span)
  | name {i : Ident} : i.Stands source → Placed source (.name i)
  | this {span : Span} : span.Marks source → Placed source (.this span)
  | field {e : Expr} {i : Ident} {span : Span} : e.Placed source → i.Stands source →
      e.span.stop ≤ i.span.start → span.Marks source → e.span.Inside span →
      i.span.Inside span → Placed source (.field e i span)
  | unary {op : UnaryOp} {e : Expr} {span : Span} : e.Placed source → span.Marks source →
      e.span.Inside span → Placed source (.unary op e span)
  | binary {op : BinaryOp} {l r : Expr} {span : Span} : l.Placed source → r.Placed source →
      l.span.stop ≤ r.span.start → span.Marks source → l.span.Inside span →
      r.span.Inside span → Placed source (.binary op l r span)

structure Binding.Placed (source : String) (b : Binding) : Prop where
  marks : b.span.Marks source
  name : b.name.Stands source
  value : b.value.Placed source
  name_inside : b.name.span.Inside b.span
  value_inside : b.value.span.Inside b.span
  name_stop_le : b.name.span.stop ≤ b.value.span.start

def Snippet.spans (t : Snippet) : List Span :=
  t.bindings.map Binding.span ++ (t.result.map Expr.span).toList

structure Snippet.Placed (source : String) (t : Snippet) : Prop where
  lies : t.span.Lies source
  bindings : ∀ b ∈ t.bindings, b.Placed source
  result : ∀ e, t.result = some e → e.Placed source
  inside : ∀ s ∈ t.spans, s.Inside t.span
  ordered : t.spans.Pairwise fun a b => a.stop ≤ b.start

structure Lexeme.Stands (source : String) (x : Lexeme) : Prop where
  marks : x.span.Marks source
  name : ∀ n, x.token = .name n → Ident.Stands source ⟨n, x.span⟩

section lexemes

theorem name_of_wins {text rest : List Char} {rule : Rule} {n : String} (h : rule.Wins text rest)
    (hvalue : rule.value text = some (.name n)) : n = String.ofList text := by
  have hname : Rule.name ∈ Rule.all := by simp [Rule.all]
  obtain rfl : rule = .name :=
    List.inj_on_of_nodup_map Rule.nodup_kinds h.mem hname (Rule.kind_of_value hvalue)
  cases hvalue
  rfl

theorem stands_of_mem_lexemes {source : String} {x : Lexeme} (hx : x ∈ (lex source).lexemes) :
    x.Stands source := by
  have hreport : Report.lexeme x ∈ (lex source).reports :=
    mem_reports.mpr (.inl (List.mem_map_of_mem hx))
  have hlaid : Laid [] source.toList (lex source).reports := Laid.ofTiles [] source.toList
  obtain ⟨before, text, rest, hholds, htext, rule, hwins, hvalue⟩ := hlaid.holds _ hreport
  refine ⟨hholds.marks htext, ?_⟩
  rintro n hn
  rw [hn] at hvalue
  obtain rfl := name_of_wins hwins hvalue
  refine ⟨by simpa using htext, before, rest, ?_⟩
  rw [String.toList_ofList]
  exact hholds

theorem marks_of_mem_errors {source : String} {u : Unreadable} (hu : u ∈ (lex source).errors) :
    u.span.Marks source := by
  have hreport : Report.unreadable u ∈ (lex source).reports :=
    mem_reports.mpr (.inr (List.mem_map_of_mem hu))
  have hlaid : Laid [] source.toList (lex source).reports := Laid.ofTiles [] source.toList
  obtain ⟨before, text, rest, hholds, htext, -⟩ := hlaid.holds _ hreport
  exact hholds.marks htext

theorem ordered_ofTiles (offset : Nat) (ts : List Tile) :
    (∀ x ∈ (Lexed.ofTiles offset ts).lexemes, offset ≤ x.span.start) ∧
      (Lexed.ofTiles offset ts).lexemes.Pairwise fun x y => x.span.stop ≤ y.span.start := by
  induction ts generalizing offset with
  | nil => exact ⟨nofun, .nil⟩
  | cons t ts ih =>
    obtain ⟨hstart, hordered⟩ := ih (offset + byteLength t.text)
    have hlater : ∀ x ∈ (Lexed.ofTiles (offset + byteLength t.text) ts).lexemes,
        offset ≤ x.span.start := fun x hx => (Nat.le_add_right _ _).trans (hstart x hx)
    rw [Lexed.ofTiles]
    obtain ⟨piece, text⟩ := t
    cases piece with
    | blank => exact ⟨hlater, hordered⟩
    | unreadable => exact ⟨hlater, hordered⟩
    | token token =>
      exact ⟨List.forall_mem_cons.mpr ⟨Nat.le_refl _, hlater⟩, .cons hstart hordered⟩

theorem ordered_lexemes (source : String) :
    (lex source).lexemes.Pairwise fun x y => x.span.stop ≤ y.span.start :=
  (ordered_ofTiles 0 _).2

end lexemes

theorem Ident.Stands.marks {source : String} {i : Ident} (h : i.Stands source) :
    i.span.Marks source := by
  obtain ⟨hname, before, rest, hholds⟩ := h
  exact hholds.marks (by simpa using hname)

theorem Expr.Placed.marks {source : String} {e : Expr} (h : e.Placed source) :
    e.span.Marks source := by
  cases h with
  | name hi => exact hi.marks
  | literal hspan | this hspan | field _ _ _ hspan | unary _ hspan | binary _ _ _ hspan =>
    exact hspan

namespace Expr

variable {source : String} {e l r : Expr} {span : Span} {i : Ident}

theorem placed_unary (op : UnaryOp) (hspan : span.Marks source) (he : e.Placed source)
    (h : span.stop ≤ e.span.start) :
    (Expr.unary op e (span.merge e.span)).Placed source ∧
      span.merge e.span = ⟨span.start, e.span.stop⟩ := by
  obtain ⟨hmarks, -, hinside⟩ := hspan.merge he.marks h
  exact ⟨.unary he hmarks hinside, Span.merge_eq hspan he.marks h⟩

theorem placed_binary (op : BinaryOp) (hl : l.Placed source) (hr : r.Placed source)
    (h : l.span.stop ≤ r.span.start) :
    (Expr.binary op l r (l.span.merge r.span)).Placed source ∧
      l.span.merge r.span = ⟨l.span.start, r.span.stop⟩ := by
  obtain ⟨hmarks, hleft, hright⟩ := hl.marks.merge hr.marks h
  exact ⟨.binary hl hr h hmarks hleft hright, Span.merge_eq hl.marks hr.marks h⟩

theorem placed_field (he : e.Placed source) (hi : i.Stands source)
    (h : e.span.stop ≤ i.span.start) :
    (Expr.field e i (e.span.merge i.span)).Placed source ∧
      e.span.merge i.span = ⟨e.span.start, i.span.stop⟩ := by
  obtain ⟨hmarks, hobject, hname⟩ := he.marks.merge hi.marks h
  exact ⟨.field he hi h hmarks hobject hname, Span.merge_eq he.marks hi.marks h⟩

end Expr

theorem placed_binding {source : String} {i : Ident} {e : Expr} {start stop : Span}
    (hstart : start.Marks source) (hi : i.Stands source) (he : e.Placed source)
    (hstop : stop.Marks source) (hname : start.stop ≤ i.span.start)
    (hvalue : i.span.stop ≤ e.span.start) (hend : e.span.stop ≤ stop.start) :
    Binding.Placed source ⟨i, e, start.merge stop⟩ ∧
      start.merge stop = ⟨start.start, stop.stop⟩ := by
  have hi' := hi.marks.start_le_stop
  have he' := he.marks.start_le_stop
  have hstart' := hstart.start_le_stop
  have hstop' := hstop.start_le_stop
  have hst : start.stop ≤ stop.start := by omega
  have hmerge := Span.merge_eq hstart hstop hst
  obtain ⟨hmarks, -, -⟩ := hstart.merge hstop hst
  refine ⟨⟨hmarks, hi, he, ?_, ?_, hvalue⟩, hmerge⟩
  · rw [hmerge]
    constructor <;> simp only <;> omega
  · rw [hmerge]
    constructor <;> simp only <;> omega

section parsing

variable {source : String} {lo mid hi : Nat}

inductive Open (source : String) (lo : Nat) : List Pending → Nat → Prop
  | nil {hi : Nat} : lo ≤ hi → Open source lo [] hi
  | group {ps : List Pending} {hi : Nat} : Open source lo ps hi → Open source lo (.group :: ps) hi
  | unary {ps : List Pending} {hi : Nat} {op : UnaryOp} {span : Span} :
      Open source lo ps span.start → span.Marks source → span.stop ≤ hi →
      Open source lo (.unary op span :: ps) hi
  | binary {ps : List Pending} {hi : Nat} {op : BinaryOp} {l : Expr} :
      Open source lo ps l.span.start → l.Placed source → l.span.stop ≤ hi →
      Open source lo (.binary op l :: ps) hi

theorem Open.mono {ps : List Pending} (h : Open source lo ps mid) (hmid : mid ≤ hi) :
    Open source lo ps hi := by
  induction h with
  | nil hlo => exact .nil (hlo.trans hmid)
  | group _ ih => exact .group (ih hmid)
  | unary hps hspan hstop _ => exact .unary hps hspan (hstop.trans hmid)
  | binary hps hl hstop _ => exact .binary hps hl (hstop.trans hmid)

theorem Open.le {ps : List Pending} (h : Open source lo ps hi) : lo ≤ hi := by
  induction h with
  | nil hlo => exact hlo
  | group _ ih => exact ih
  | unary _ hspan hstop ih => exact ih.trans (hspan.start_le_stop.trans hstop)
  | binary _ hl hstop ih => exact ih.trans (hl.marks.start_le_stop.trans hstop)

theorem placed_reduce {q : Nat} {e : Expr} {ps : List Pending}
    (hps : Open source lo ps e.span.start) (he : e.Placed source) :
    Open source lo (reduce q e ps).2 (reduce q e ps).1.span.start ∧
      (reduce q e ps).1.Placed source ∧ (reduce q e ps).1.span.stop = e.span.stop := by
  induction ps generalizing e with
  | nil => exact ⟨hps, he, rfl⟩
  | cons p ps ih =>
    cases hps with
    | group hps =>
      rw [reduce_group]
      exact ⟨.group hps, he, rfl⟩
    | @unary _ _ op span hps hspan hstop =>
      obtain ⟨hplaced, hmerge⟩ := Expr.placed_unary op hspan he hstop
      rw [hmerge] at hplaced
      rw [reduce, hmerge]
      exact ih hps hplaced
    | @binary _ _ op l hps hl hstop =>
      rw [reduce]
      split
      · obtain ⟨hplaced, hmerge⟩ := Expr.placed_binary op hl he hstop
        rw [hmerge] at hplaced ⊢
        exact ih hps hplaced
      · exact ⟨.binary hps hl hstop, he, rfl⟩

def Headed (source : String) (lo : Nat) (binding : Option (Span × Ident)) (hi : Nat) : Prop :=
  match binding with
  | none => lo ≤ hi
  | some (start, i) => lo ≤ start.start ∧ start.Marks source ∧ start.stop ≤ i.span.start ∧
      i.Stands source ∧ i.span.stop ≤ hi

structure Listed (source : String) (lo : Nat) (bs : List Binding) (hi : Nat) : Prop where
  le : lo ≤ hi
  placed : ∀ b ∈ bs, b.Placed source ∧ lo ≤ b.span.start ∧ b.span.stop ≤ hi
  ordered : bs.Pairwise fun a b => a.span.stop ≤ b.span.start

theorem Listed.concat {bs : List Binding} {b : Binding} (h : Listed source lo bs mid)
    (hb : b.Placed source) (hmid : mid ≤ b.span.start) :
    Listed source lo (bs ++ [b]) b.span.stop := by
  have hstop := hb.marks.start_le_stop
  refine ⟨h.le.trans (hmid.trans hstop), ?_, ?_⟩
  · intro c hc
    rcases List.mem_append.mp hc with hc | hc
    · obtain ⟨hplaced, hlo, hhi⟩ := h.placed c hc
      exact ⟨hplaced, hlo, hhi.trans (hmid.trans hstop)⟩
    · obtain rfl := List.mem_singleton.mp hc
      exact ⟨hb, h.le.trans hmid, Nat.le_refl _⟩
  · refine List.pairwise_append.mpr ⟨h.ordered, List.pairwise_singleton _ _, ?_⟩
    intro c hc d hd
    obtain rfl := List.mem_singleton.mp hd
    exact (h.placed c hc).2.2.trans hmid

theorem Listed.placed_snippet {bs : List Binding} {result : Option Expr} {span : Span}
    (h : Listed source lo bs mid) (hspan : span.Lies source) (hlo : span.start ≤ lo)
    (hmid : mid ≤ span.stop)
    (hresult : ∀ e, result = some e →
      e.Placed source ∧ mid ≤ e.span.start ∧ e.span.stop ≤ span.stop) :
    Snippet.Placed source ⟨bs, result, span⟩ := by
  have hmem {s : Span} : s ∈ Snippet.spans ⟨bs, result, span⟩ ↔
      (∃ b ∈ bs, b.span = s) ∨ ∃ e, result = some e ∧ e.span = s := by
    simp [Snippet.spans]
  refine ⟨hspan, fun b hb => (h.placed b hb).1, fun e he => (hresult e he).1, ?_, ?_⟩
  · intro s hs
    rcases hmem.mp hs with ⟨b, hb, rfl⟩ | ⟨e, he, rfl⟩
    · obtain ⟨-, hstart, hstop⟩ := h.placed b hb
      exact ⟨hlo.trans hstart, hstop.trans hmid⟩
    · obtain ⟨-, hstart, hstop⟩ := hresult e he
      exact ⟨hlo.trans (h.le.trans hstart), hstop⟩
  · refine List.pairwise_append.mpr ⟨List.pairwise_map.mpr h.ordered, ?_, ?_⟩
    · cases result <;> simp
    · intro s hs t ht
      obtain ⟨b, hb, rfl⟩ := List.mem_map.mp hs
      obtain ⟨e, he, rfl⟩ := Option.map_eq_some_iff.mp (Option.mem_toList.mp ht)
      exact (h.placed b hb).2.2.trans (hresult e he).2.1

namespace ParseState

def Placed (source : String) (lo hi : Nat) (s : ParseState) : Prop :=
  ∃ mid, Listed source lo s.bindings mid ∧
    match s.expecting with
    | .statement => s.binding = none ∧ s.pending = [] ∧ mid ≤ hi
    | .bindingName start =>
      s.pending = [] ∧ mid ≤ start.start ∧ start.Marks source ∧ start.stop ≤ hi
    | .assign start i => s.pending = [] ∧ Headed source mid (some (start, i)) hi
    | .operand => ∃ top, Headed source mid s.binding top ∧ Open source top s.pending hi
    | .operator e | .member e => ∃ top, Headed source mid s.binding top ∧
        Open source top s.pending e.span.start ∧ e.Placed source ∧ e.span.stop ≤ hi

variable {s t : ParseState} {x : Lexeme} {top : Nat}

theorem placed_stepOperand (hbindings : Listed source lo s.bindings mid)
    (hbinding : Headed source mid s.binding top) (hpending : Open source top s.pending hi)
    (hx : x.Stands source) (hhi : hi ≤ x.span.start) (h : s.stepOperand x = some t) :
    t.Placed source lo x.span.stop := by
  have hopen := hpending.mono hhi
  have hoperand {e : Expr} (he : e.Placed source) (hspan : e.span = x.span) :
      ParseState.Placed source lo x.span.stop { s with expecting := .operator e } :=
    ⟨mid, hbindings, top, hbinding, hspan ▸ hopen, he, hspan ▸ Nat.le_refl _⟩
  unfold stepOperand at h
  split at h <;> cases h
  · exact ⟨mid, hbindings, top, hbinding, .unary hopen hx.marks (Nat.le_refl _)⟩
  · exact hoperand (.literal hx.marks) rfl
  · exact hoperand (.this hx.marks) rfl
  · next n hn _ _ => exact hoperand (.name (hx.name n hn)) rfl
  · exact ⟨mid, hbindings, top, hbinding, .group (hopen.mono hx.marks.start_le_stop)⟩

theorem placed_stepOperator {e : Expr} (hbindings : Listed source lo s.bindings mid)
    (hbinding : Headed source mid s.binding top)
    (hpending : Open source top s.pending e.span.start) (he : e.Placed source)
    (hx : x.Stands source) (hstop : e.span.stop ≤ x.span.start)
    (h : s.stepOperator e x = some t) : t.Placed source lo x.span.stop := by
  have hlast := hstop.trans hx.marks.start_le_stop
  rcases stepOperator_cases h with ⟨op, -, rfl⟩ | ⟨-, rfl⟩ | ⟨inner, pending, -, hreduce, rfl⟩ |
    ⟨start, name, value, -, hhead, hreduce, rfl⟩
  · obtain ⟨hopen, hplaced, hend⟩ := placed_reduce (q := op.level) hpending he
    exact ⟨mid, hbindings, top, hbinding, .binary hopen hplaced (hend ▸ hlast)⟩
  · exact ⟨mid, hbindings, top, hbinding, hpending, he, hlast⟩
  · obtain ⟨hopen, hplaced, hend⟩ := placed_reduce (q := 0) hpending he
    rw [hreduce] at hopen hplaced hend
    cases hopen with
    | group hopen => exact ⟨mid, hbindings, top, hbinding, hopen, hplaced, hend ▸ hlast⟩
  · -- At a semicolon nothing is open any more, so the value starts behind the name.
    obtain ⟨hopen, hplaced, hend⟩ := placed_reduce (q := 0) hpending he
    rw [hreduce] at hopen hplaced hend
    rw [hhead] at hbinding
    obtain ⟨hmid, hstart, hname, hstands, htop⟩ := hbinding
    obtain ⟨hplaced', hmerge⟩ := placed_binding hstart hstands hplaced hx.marks hname
      (htop.trans hopen.le) (hend ▸ hstop)
    have hlisted := hbindings.concat hplaced' (by rwa [hmerge])
    rw [hmerge] at hlisted ⊢
    exact ⟨_, hlisted, rfl, rfl, Nat.le_refl _⟩

theorem placed_step (hs : s.Placed source lo hi) (hx : x.Stands source) (hhi : hi ≤ x.span.start)
    (h : s.step x = some t) : t.Placed source lo x.span.stop := by
  obtain ⟨mid, hbindings, hs⟩ := hs
  cases hexpecting : s.expecting with
  | statement =>
    simp only [hexpecting] at hs
    obtain ⟨hbinding, hpending, hmid⟩ := hs
    by_cases hlet : x.token = .letWord
    · rw [step_statement_let hexpecting hlet] at h
      cases h
      exact ⟨mid, hbindings, hpending, hmid.trans hhi, hx.marks, Nat.le_refl _⟩
    · rw [step_operand (.inr hexpecting) hlet] at h
      have hheaded : Headed source mid s.binding hi := by rwa [hbinding]
      have hopen : Open source hi s.pending hi := hpending ▸ .nil (Nat.le_refl _)
      exact placed_stepOperand hbindings hheaded hopen hx hhi h
  | bindingName start =>
    simp only [hexpecting] at hs
    obtain ⟨hpending, hmid, hstart, hstop⟩ := hs
    obtain ⟨n, hn, rfl⟩ := (step_bindingName_iff hexpecting).mp h
    exact ⟨mid, hbindings, hpending, hmid, hstart, hstop.trans hhi, hx.name n hn, Nat.le_refl _⟩
  | assign start i =>
    simp only [hexpecting] at hs
    obtain ⟨hpending, hheaded⟩ := hs
    obtain ⟨-, rfl⟩ := (step_assign_iff hexpecting).mp h
    have hopen : Open source hi s.pending x.span.stop :=
      hpending ▸ .nil (hhi.trans hx.marks.start_le_stop)
    exact ⟨mid, hbindings, hi, hheaded, hopen⟩
  | operand =>
    simp only [hexpecting] at hs
    obtain ⟨top, hheaded, hopen⟩ := hs
    have hlet : x.token ≠ .letWord := by
      intro hlet
      simp [step, hexpecting, stepOperand, hlet, Token.unary?, Token.literal?] at h
    rw [step_operand (.inl hexpecting) hlet] at h
    exact placed_stepOperand hbindings hheaded hopen hx hhi h
  | operator e =>
    simp only [hexpecting] at hs
    obtain ⟨top, hheaded, hopen, he, hstop⟩ := hs
    rw [step_operator hexpecting] at h
    exact placed_stepOperator hbindings hheaded hopen he hx (hstop.trans hhi) h
  | member e =>
    simp only [hexpecting] at hs
    obtain ⟨top, hheaded, hopen, he, hstop⟩ := hs
    obtain ⟨n, hn, rfl⟩ := (step_member_iff hexpecting).mp h
    obtain ⟨hplaced, hmerge⟩ := Expr.placed_field he (hx.name n hn) (hstop.trans hhi)
    rw [hmerge] at hplaced ⊢
    exact ⟨mid, hbindings, top, hheaded, hopen, hplaced, Nat.le_refl _⟩

theorem placed_run {xs : List Lexeme} {stop : Nat} (hs : s.Placed source lo hi)
    (hxs : ∀ x ∈ xs, x.Stands source ∧ hi ≤ x.span.start ∧ x.span.stop ≤ stop) (hstop : hi ≤ stop)
    (hordered : xs.Pairwise fun x y => x.span.stop ≤ y.span.start) (h : s.run xs = .ok t) :
    ∃ last ≤ stop, t.Placed source lo last := by
  induction xs generalizing s hi with
  | nil =>
    cases h
    exact ⟨hi, hstop, hs⟩
  | cons x xs ih =>
    obtain ⟨⟨hstands, hstart, hend⟩, hrest⟩ := List.forall_mem_cons.mp hxs
    obtain ⟨hlater, hordered⟩ := List.pairwise_cons.mp hordered
    simp only [run] at h
    split at h
    · next u hu =>
      refine ih (placed_step hs hstands hstart hu) ?_ hend hordered h
      exact fun y hy => ⟨(hrest y hy).1, hlater y hy, (hrest y hy).2.2⟩
    · cases h

theorem placed_finish {bindings : List Binding} {result : Option Expr} {span : Span}
    (hs : s.Placed source lo hi) (hspan : span.Lies source) (hlo : span.start ≤ lo)
    (hhi : hi ≤ span.stop) (h : s.finish? = some (bindings, result)) :
    Snippet.Placed source ⟨bindings, result, span⟩ := by
  obtain ⟨mid, hbindings, hs⟩ := hs
  unfold finish? at h
  split at h
  · next hexpecting =>
    simp only [hexpecting] at hs
    obtain ⟨-, -, hmid⟩ := hs
    cases h
    exact hbindings.placed_snippet hspan hlo (hmid.trans hhi) nofun
  · next e hexpecting hbinding =>
    simp only [hexpecting, hbinding] at hs
    obtain ⟨top, hmid, hopen, he, hstop⟩ := hs
    obtain ⟨hopen, hplaced, hend⟩ := placed_reduce (q := 0) hopen he
    split at h
    · next value hreduce =>
      rw [hreduce] at hopen hplaced hend
      cases h
      have hstart : mid ≤ value.span.start := Nat.le_trans hmid hopen.le
      have hstop : value.span.stop ≤ span.stop := hend ▸ hstop.trans hhi
      have hvalue := hplaced.marks.start_le_stop
      refine hbindings.placed_snippet hspan hlo (hstart.trans (hvalue.trans hstop)) ?_
      rintro _ ⟨⟩
      exact ⟨hplaced, hstart, hstop⟩
    · cases h
  · cases h

end ParseState

theorem coveredSpan_lies {xs : List Lexeme} (hxs : ∀ x ∈ xs, x.Stands source)
    (hordered : xs.Pairwise fun x y => x.span.stop ≤ y.span.start) :
    (coveredSpan source.utf8ByteSize xs).Lies source ∧
      ∀ x ∈ xs, x.span.Inside (coveredSpan source.utf8ByteSize xs) := by
  by_cases hne : xs = []
  · subst hne
    exact ⟨lies_end source, nofun⟩
  · have hstarts : xs.Pairwise fun x y => x.span.start ≤ y.span.start :=
      hordered.imp_of_mem fun hx _ h => (hxs _ hx).marks.start_le_stop.trans h
    have hstops : xs.Pairwise fun x y => x.span.stop ≤ y.span.stop :=
      hordered.imp_of_mem fun _ hy h => h.trans (hxs _ hy).marks.start_le_stop
    have hspan : coveredSpan source.utf8ByteSize xs =
        ⟨(xs.head hne).span.start, (xs.getLast hne).span.stop⟩ := by
      simp only [coveredSpan, List.head?_eq_some_head hne, List.getLast?_eq_some_getLast hne]
    have hinside (x : Lexeme) (hx : x ∈ xs) :
        x.span.Inside (coveredSpan source.utf8ByteSize xs) := by
      rw [hspan]
      exact ⟨hstarts.rel_head_of_rel_head_head hx (Nat.le_refl _),
        hstops.rel_getLast_of_rel_getLast_getLast hx (Nat.le_refl _)⟩
    refine ⟨?_, hinside⟩
    have hfirst := (hxs _ (List.head_mem hne)).marks
    have hlast := (hxs _ (List.getLast_mem hne)).marks
    have hstart := (hinside _ (List.head_mem hne)).stop
    rw [hspan] at hstart ⊢
    exact ⟨hfirst.start_le_stop.trans hstart, hlast.stop_le, hfirst.start_valid, hlast.stop_valid⟩

theorem placed_of_parse {t : Snippet} (h : (parse source).snippet = some t) : t.Placed source := by
  have hparse := parse_snippet_eq_some_iff.mp h
  have hstands (x : Lexeme) (hx : x ∈ (lex source).lexemes) : x.Stands source :=
    stands_of_mem_lexemes hx
  have hordered := ordered_lexemes source
  obtain ⟨hspan, hinside⟩ := coveredSpan_lies hstands hordered
  unfold parseLexemes at hparse
  split at hparse
  · cases hparse
  · next s hrun =>
    split at hparse
    · next bindings result hfinish =>
      obtain rfl := Except.ok.inj hparse
      have hstart : ParseState.start.Placed source
          (coveredSpan source.utf8ByteSize (lex source).lexemes).start
          (coveredSpan source.utf8ByteSize (lex source).lexemes).start :=
        ⟨_, ⟨Nat.le_refl _, nofun, .nil⟩, rfl, rfl, Nat.le_refl _⟩
      obtain ⟨last, hlast, hplaced⟩ := ParseState.placed_run hstart
        (fun x hx => ⟨hstands x hx, (hinside x hx).start, (hinside x hx).stop⟩)
        hspan.start_le_stop hordered hrun
      exact ParseState.placed_finish hplaced hspan (Nat.le_refl _) hlast hfinish
    · cases hparse

theorem ParseState.mem_of_run_error {s u : ParseState} {x : Lexeme} {xs : List Lexeme}
    (h : s.run xs = .error (x, u)) : x ∈ xs := by
  induction xs generalizing s with
  | nil => cases h
  | cons y ys ih =>
    simp only [run] at h
    split at h
    · exact List.mem_cons_of_mem y (ih h)
    · cases h
      exact List.mem_cons_self

theorem lies_of_mem_errors {err : ParseError} (h : err ∈ (parse source).errors) :
    err.span.Lies source := by
  have hunreadable : ∀ err ∈ (lex source).errors.map fun u => ParseError.unreadable u.text u.span,
      err.span.Lies source := by
    intro err herr
    obtain ⟨u, hu, rfl⟩ := List.mem_map.mp herr
    exact (marks_of_mem_errors hu).toLies
  have hunexpected {err : ParseError}
      (h : parseLexemes source.utf8ByteSize (lex source).lexemes = .error err) :
      err.span.Lies source := by
    unfold parseLexemes at h
    split at h
    · next x s hrun =>
      cases h
      exact (stands_of_mem_lexemes (ParseState.mem_of_run_error hrun)).marks.toLies
    · split at h
      · cases h
      · cases h
        exact lies_end source
  simp only [parse] at h
  split at h
  · exact hunreadable err h
  · next last hlast =>
    rcases List.mem_append.mp h with h | h
    · exact hunreadable err h
    · obtain rfl := List.mem_singleton.mp h
      exact hunexpected hlast

end parsing

end SnippetEval
