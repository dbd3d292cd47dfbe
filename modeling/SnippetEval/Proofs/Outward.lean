import Mathlib.Tactic.Common
import SnippetEval.Resolution

namespace SnippetEval

namespace Sandbox

def outward (s : Sandbox) : Nat → TypeDef → Option TypeDef
  | 0, t => some t
  | n + 1, t => (s.enclosing t).bind (s.outward n)

def Skips (s : Sandbox) (t : TypeDef) (n : Nat) (c : TypeDef) : Prop :=
  s.outward n t = some c ∧ ∀ m < n, ∃ d, s.outward m t = some d ∧ d.source = none

variable {s : Sandbox} {t c : TypeDef} {n hops left : Nat}

theorem skips_zero : s.Skips t 0 c ↔ t = c := by
  simp [Skips, outward]

theorem skips_succ :
    s.Skips t (n + 1) c ↔ t.source = none ∧ ∃ u, s.enclosing t = some u ∧ s.Skips u n c := by
  constructor
  · rintro ⟨hc, hbare⟩
    obtain ⟨u, hu, hrest⟩ := Option.bind_eq_some_iff.mp hc
    obtain ⟨d, hd, hsource⟩ := hbare 0 (Nat.succ_pos n)
    obtain rfl : t = d := Option.some.inj hd
    refine ⟨hsource, u, hu, hrest, ?_⟩
    intro m hm
    obtain ⟨d, hd, hsource⟩ := hbare (m + 1) (Nat.succ_lt_succ hm)
    rw [outward, hu] at hd
    exact ⟨d, hd, hsource⟩
  · rintro ⟨hsource, u, hu, hc, hbare⟩
    refine ⟨by rw [outward, hu]; exact hc, ?_⟩
    intro m hm
    cases m with
    | zero => exact ⟨t, rfl, hsource⟩
    | succ m =>
      obtain ⟨d, hd, hd'⟩ := hbare m (Nat.lt_of_succ_lt_succ hm)
      exact ⟨d, by rw [outward, hu]; exact hd, hd'⟩

theorem outward_congr {s' : Sandbox} (h : s.types = s'.types) (n : Nat) (t : TypeDef) :
    s.outward n t = s'.outward n t := by
  have henclosing (t : TypeDef) : s.enclosing t = s'.enclosing t := by simp only [enclosing, h]
  induction n generalizing t with
  | zero => rfl
  | succ n ih => simp only [outward, henclosing, funext ih]

theorem skips_congr {s' : Sandbox} (h : s.types = s'.types) : s.Skips t n c ↔ s'.Skips t n c := by
  simp only [Skips, outward_congr h]

theorem skips_enterIncludeAll : s.enterIncludeAll.Skips t n c ↔ s.Skips t n c := skips_congr rfl

theorem nearestFrom_skip (h : s.Skips t n c) (hops left : Nat) :
    s.nearestFrom hops (left + n) t = s.nearestFrom (hops + n) left c := by
  induction n generalizing hops t with
  | zero =>
    obtain rfl := skips_zero.mp h
    rfl
  | succ n ih =>
    obtain ⟨hbare, u, hu, hrest⟩ := skips_succ.mp h
    have hadd : hops + 1 + n = hops + (n + 1) := by omega
    rw [← hadd, ← ih hrest, ← Nat.add_assoc]
    simp only [nearestFrom, hbare, hu]

/-- The walk ends at the first type with source, at a type with none around it, or where no step is
allowed any more. The last is found out before it is known whether there is a type around. -/
theorem nearestFrom_cases (s : Sandbox) (hops left : Nat) (t : TypeDef) :
    (∃ n ≤ left, ∃ c root, s.Skips t n c ∧ c.source = some root ∧
      s.nearestFrom hops left t = .ok (c, root, hops + n)) ∨
    (∃ n < left, ∃ c, s.Skips t n c ∧ c.source = none ∧ s.enclosing c = none ∧
      s.nearestFrom hops left t = .error (.noAnchor c.name .chainExhausted)) ∨
    ∃ c, s.Skips t left c ∧ c.source = none ∧
      s.nearestFrom hops left t = .error (.noAnchor c.name (.depthExceeded (hops + left))) := by
  induction left generalizing hops t with
  | zero =>
    cases hsource : t.source with
    | some root =>
      exact .inl ⟨0, Nat.le_refl 0, t, root, skips_zero.mpr rfl, hsource,
        by simp [nearestFrom, hsource]⟩
    | none => exact .inr (.inr ⟨t, skips_zero.mpr rfl, hsource, by simp [nearestFrom, hsource]⟩)
  | succ left ih =>
    cases hsource : t.source with
    | some root =>
      exact .inl ⟨0, Nat.zero_le _, t, root, skips_zero.mpr rfl, hsource,
        by simp [nearestFrom, hsource]⟩
    | none =>
      cases hu : s.enclosing t with
      | none =>
        exact .inr (.inl ⟨0, Nat.succ_pos left, t, skips_zero.mpr rfl, hsource, hu,
          by simp [nearestFrom, hsource, hu]⟩)
      | some u =>
        have hstep : s.nearestFrom hops (left + 1) t = s.nearestFrom (hops + 1) left u := by
          simp only [nearestFrom, hsource, hu]
        have hadd (n : Nat) : hops + 1 + n = hops + (n + 1) := by omega
        have hskip {n : Nat} {c : TypeDef} (h : s.Skips u n c) : s.Skips t (n + 1) c :=
          skips_succ.mpr ⟨hsource, u, hu, h⟩
        rw [hstep]
        rcases ih (hops + 1) u with
          ⟨n, hn, c, root, hc, hroot, hok⟩ | ⟨n, hn, c, hc, hbare, hend, herr⟩ | ⟨c, hc, hbare, herr⟩
        · exact .inl ⟨n + 1, Nat.succ_le_succ hn, c, root, hskip hc, hroot, hadd n ▸ hok⟩
        · exact .inr (.inl ⟨n + 1, Nat.succ_lt_succ hn, c, hskip hc, hbare, hend, herr⟩)
        · exact .inr (.inr ⟨c, hskip hc, hbare, hadd left ▸ herr⟩)

end Sandbox

namespace Instance

def outward : Nat → Instance → Option Instance
  | 0, o => some o
  | n + 1, o => o.outer.bind (outward n)

variable {o last : Instance} {context : String} {level n k : Nat}

theorem walkFrom_of_outward (h : o.outward n = some last) :
    o.walkFrom context level n = .ok last := by
  induction n generalizing o level with
  | zero =>
    cases h
    rfl
  | succ n ih =>
    obtain ⟨p, hp, hrest⟩ := Option.bind_eq_some_iff.mp h
    simp only [walkFrom, hp, ih hrest]

theorem walkFrom_of_last (h : o.outward k = some last) (hlast : last.outer = none) (hk : k < n) :
    o.walkFrom context level n = .error (.noAnchor context (.missingOuterInstance (level + k))) := by
  induction k generalizing o level n with
  | zero =>
    cases h
    obtain ⟨n, rfl⟩ := Nat.exists_eq_add_of_lt hk
    simp [walkFrom, hlast]
  | succ k ih =>
    obtain ⟨p, hp, hrest⟩ := Option.bind_eq_some_iff.mp h
    cases n with
    | zero => cases hk
    | succ n =>
      have hstep : p.walkFrom context (level + 1) n =
          .error (.noAnchor context (.missingOuterInstance (level + 1 + k))) :=
        ih hrest (Nat.lt_of_succ_lt_succ hk)
      have hadd : level + 1 + k = level + (k + 1) := by omega
      simp only [walkFrom, hp, hstep, hadd]

theorem outward_cases (o : Instance) (n : Nat) :
    (∃ last, o.outward n = some last) ∨
      ∃ k < n, ∃ last, o.outward k = some last ∧ last.outer = none := by
  induction n generalizing o with
  | zero => exact .inl ⟨o, rfl⟩
  | succ n ih =>
    cases hp : o.outer with
    | none => exact .inr ⟨0, Nat.succ_pos n, o, rfl, hp⟩
    | some p =>
      have hstep (k : Nat) : o.outward (k + 1) = p.outward k := by rw [outward, hp]; rfl
      rcases ih p with ⟨last, hlast⟩ | ⟨k, hk, last, hlast, hend⟩
      · exact .inl ⟨last, (hstep n).trans hlast⟩
      · exact .inr ⟨k + 1, Nat.succ_lt_succ hk, last, (hstep k).trans hlast, hend⟩

end Instance

end SnippetEval
