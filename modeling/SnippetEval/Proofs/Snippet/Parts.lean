import Mathlib.Data.List.Basic
import SnippetEval.Proofs.Snippet.Faults
import SnippetEval.Proofs.Snippet.Placement

namespace SnippetEval

namespace Expr

def parts : Expr → List Expr
  | .field e i span => e.parts ++ [.field e i span]
  | .unary op e span => e.parts ++ [.unary op e span]
  | .binary op l r span => l.parts ++ r.parts ++ [.binary op l r span]
  | e => [e]

theorem parts_eq (e : Expr) : e.parts = e.operands.flatMap parts ++ [e] := by
  cases e <;> simp [parts, operands]

theorem mem_parts {d e : Expr} : d ∈ e.parts ↔ (∃ p ∈ e.operands, d ∈ p.parts) ∨ d = e := by
  rw [parts_eq, List.mem_append, List.mem_flatMap, List.mem_singleton]

theorem mem_parts_iff {d e : Expr} : d ∈ e.parts ↔ Within d e := by
  constructor
  · intro h
    induction e using operands_induction with
    | step e ih =>
      rcases mem_parts.mp h with ⟨p, hp, hd⟩ | rfl
      · exact .operand hp (ih p hp hd)
      · exact .self
  · intro h
    induction h with
    | self => exact mem_parts.mpr (.inr rfl)
    | operand hp _ ih => exact mem_parts.mpr (.inl ⟨_, hp, ih⟩)

end Expr

namespace Snippet

def stepsFrom (front : List Binding) : List Binding → List (List Binding × Binding)
  | [] => []
  | b :: bs => (front, b) :: stepsFrom (front ++ [b]) bs

theorem map_snd_stepsFrom (front bs : List Binding) : (stepsFrom front bs).map Prod.snd = bs := by
  induction bs generalizing front with
  | nil => rfl
  | cons b bs ih => rw [stepsFrom, List.map_cons, ih]

def steps (t : Snippet) : List (List Binding × Binding) := stepsFrom [] t.bindings

def values (t : Snippet) : List (List Binding × Expr) :=
  t.steps.map (fun q => (q.1, q.2.value)) ++ t.result.toList.map (Prod.mk t.bindings)

def parts (t : Snippet) : List (List Binding × Expr) :=
  t.values.flatMap fun q => q.2.parts.map (Prod.mk q.1)

end Snippet

section placed

variable {source : String}

structure Span.Before (s t : Span) : Prop where
  start_lt : s.start < t.start
  stop_le : s.stop ≤ t.start

theorem Span.Marks.before {s t : Span} (hs : s.Marks source) (h : s.stop ≤ t.start) : s.Before t :=
  ⟨hs.start_lt_stop.trans_le h, h⟩

def Expr.isLeaf (e : Expr) : Bool := e.operands.isEmpty

namespace Expr.Placed

theorem operand {p e : Expr} (h : e.Placed source) (hp : p ∈ e.operands) :
    p.Placed source ∧ p.span.Inside e.span := by
  cases h with
  | literal | name | this => cases hp
  | field he _ _ _ hinside | unary he _ hinside =>
    obtain rfl := List.mem_singleton.mp hp
    exact ⟨he, hinside⟩
  | binary hl hr _ _ hleft hright =>
    rcases List.mem_pair.mp hp with rfl | rfl
    · exact ⟨hl, hleft⟩
    · exact ⟨hr, hright⟩

theorem within {d e : Expr} (h : e.Placed source) (hd : Within d e) :
    d.Placed source ∧ d.span.Inside e.span := by
  induction hd with
  | self => exact ⟨h, ⟨Nat.le_refl _, Nat.le_refl _⟩⟩
  | operand hp _ ih =>
    obtain ⟨hoperand, houter⟩ := h.operand hp
    obtain ⟨hplaced, hinner⟩ := ih hoperand
    exact ⟨hplaced, ⟨houter.start.trans hinner.start, hinner.stop.trans houter.stop⟩⟩

theorem ordered_leaves {e : Expr} (h : e.Placed source) :
    (e.parts.filter isLeaf).Pairwise fun a b => a.span.stop ≤ b.span.start := by
  induction h with
  | literal | name | this => exact List.pairwise_singleton _ _
  | field _ _ _ _ _ _ ih | unary _ _ _ ih =>
    rw [parts, List.filter_append]
    simpa [isLeaf, operands] using ih
  | @binary op l r span hl hr hlr _ _ _ ihl ihr =>
    have hleaves : (Expr.binary op l r span).parts.filter isLeaf =
        l.parts.filter isLeaf ++ r.parts.filter isLeaf := by
      simp [parts, isLeaf, operands]
    rw [hleaves]
    refine List.pairwise_append.mpr ⟨ihl, ihr, fun a ha b hb => ?_⟩
    have hleft := (hl.within (mem_parts_iff.mp (List.mem_of_mem_filter ha))).2
    have hright := (hr.within (mem_parts_iff.mp (List.mem_of_mem_filter hb))).2
    exact hleft.stop.trans (hlr.trans hright.start)

end Expr.Placed

namespace Snippet.Placed

variable {t : Snippet}

theorem ordered_steps (h : t.Placed source) :
    t.steps.Pairwise fun a b => a.2.span.stop ≤ b.2.span.start := by
  have hbindings := (List.pairwise_append.mp h.ordered).1
  rw [← map_snd_stepsFrom [] t.bindings] at hbindings
  exact List.pairwise_map.mp (List.pairwise_map.mp hbindings)

theorem mem_steps {q : List Binding × Binding} (h : t.Placed source) (hq : q ∈ t.steps) :
    q.2.Placed source ∧ q.2.span ∈ t.bindings.map Binding.span := by
  have hmem : q.2 ∈ t.bindings := by
    rw [← map_snd_stepsFrom [] t.bindings]
    exact List.mem_map_of_mem hq
  exact ⟨h.bindings _ hmem, List.mem_map_of_mem hmem⟩

theorem mem_values {q : List Binding × Expr} (h : t.Placed source) (hq : q ∈ t.values) :
    q.2.Placed source := by
  rcases List.mem_append.mp hq with hq | hq
  · obtain ⟨step, hstep, rfl⟩ := List.mem_map.mp hq
    exact (h.mem_steps hstep).1.value
  · obtain ⟨e, he, rfl⟩ := List.mem_map.mp hq
    exact h.result e (Option.mem_toList.mp he)

theorem ordered_values (h : t.Placed source) :
    t.values.Pairwise fun a b => a.2.span.stop ≤ b.2.span.start := by
  refine List.pairwise_append.mpr ⟨List.pairwise_map.mpr ?_, ?_, ?_⟩
  · refine h.ordered_steps.imp_of_mem fun ha hb hab => ?_
    have hfirst := (h.mem_steps ha).1.value_inside
    have hsecond := (h.mem_steps hb).1.value_inside
    exact hfirst.stop.trans (hab.trans hsecond.start)
  · cases t.result <;> simp
  · intro a ha b hb
    obtain ⟨step, hstep, rfl⟩ := List.mem_map.mp ha
    obtain ⟨e, he, rfl⟩ := List.mem_map.mp hb
    obtain ⟨hstep, hmem⟩ := h.mem_steps hstep
    have hresult : e.span ∈ (t.result.map Expr.span).toList := by
      simp [Option.mem_toList.mp he]
    exact hstep.value_inside.stop.trans ((List.pairwise_append.mp h.ordered).2.2 _ hmem _ hresult)

theorem mem_parts {q : List Binding × Expr} (h : t.Placed source) (hq : q ∈ t.parts) :
    q.2.Placed source := by
  obtain ⟨value, hvalue, hq⟩ := List.mem_flatMap.mp hq
  obtain ⟨d, hd, rfl⟩ := List.mem_map.mp hq
  exact ((h.mem_values hvalue).within (Expr.mem_parts_iff.mp hd)).1

theorem ordered_leaves (h : t.Placed source) :
    (t.parts.filter (·.2.isLeaf)).Pairwise fun a b => a.2.span.stop ≤ b.2.span.start := by
  rw [parts, List.filter_flatMap]
  refine List.pairwise_flatMap.mpr ⟨?_, ?_⟩
  · intro value hvalue
    rw [List.filter_map]
    exact List.pairwise_map.mpr (h.mem_values hvalue).ordered_leaves
  · refine h.ordered_values.imp_of_mem fun ha hb hab => ?_
    intro x hx y hy
    obtain ⟨d, hd, rfl⟩ := List.mem_map.mp (List.mem_of_mem_filter hx)
    obtain ⟨e, he, rfl⟩ := List.mem_map.mp (List.mem_of_mem_filter hy)
    have hfirst := ((h.mem_values ha).within (Expr.mem_parts_iff.mp hd)).2
    have hsecond := ((h.mem_values hb).within (Expr.mem_parts_iff.mp he)).2
    exact hfirst.stop.trans (hab.trans hsecond.start)

theorem ordered_filter (h : t.Placed source) {p : List Binding × Expr → Bool}
    (hp : ∀ q, p q = true → q.2.isLeaf = true) :
    ((t.parts.filter p).map (·.2.span)).Pairwise Span.Before := by
  have hleaves := h.ordered_leaves.sublist (List.monotone_filter_right t.parts hp)
  refine List.pairwise_map.mpr (hleaves.imp_of_mem fun ha _ hab => ?_)
  exact (h.mem_parts (List.mem_of_mem_filter ha)).marks.before hab

theorem ordered_names (h : t.Placed source) (p : List Binding × Binding → Bool) :
    ((t.steps.filter p).map (·.2.name.span)).Pairwise Span.Before := by
  have hsteps := h.ordered_steps.sublist (List.filter_sublist (p := p))
  refine List.pairwise_map.mpr (hsteps.imp_of_mem fun ha hb hab => ?_)
  have hfirst := (h.mem_steps (List.mem_of_mem_filter ha)).1
  have hsecond := (h.mem_steps (List.mem_of_mem_filter hb)).1
  exact hfirst.name.marks.before
    (hfirst.name_inside.stop.trans (hab.trans hsecond.name_inside.start))

end Snippet.Placed

end placed

end SnippetEval
