import Mathlib.Data.String.Basic
import SnippetEval.Fingerprint

namespace SnippetEval.Fingerprint

theorem pairwise_eraseDups {R : String → String → Prop} {l : List String} (h : l.Pairwise R) :
    l.eraseDups.Pairwise (fun a b => R a b ∧ a ≠ b) := by
  match l, h with
  | [], _ => simp
  | a :: as, h =>
    obtain ⟨ha, has⟩ := List.pairwise_cons.mp h
    rw [List.eraseDups_cons, List.pairwise_cons]
    refine ⟨fun b hb => ?_, pairwise_eraseDups (has.filter _)⟩
    obtain ⟨hb, hne⟩ := List.mem_filter.mp (List.mem_eraseDups.mp hb)
    exact ⟨ha b hb, fun h => by simp [h] at hne⟩
termination_by l.length
decreasing_by
  have := List.length_filter_le (fun b => !b == a) as
  simp only [List.length_cons]
  omega

@[simp] theorem mem_nameSet {names : List String} {n : String} :
    n ∈ nameSet names ↔ n ∈ names := by
  simp [nameSet]

theorem pairwise_nameSet (names : List String) :
    (nameSet names).Pairwise (fun a b => a ≤ b ∧ a ≠ b) := by
  apply pairwise_eraseDups
  have h := @List.pairwise_mergeSort String (fun a b => decide (a ≤ b))
    (fun a b c hab hbc => by simpa using (of_decide_eq_true hab).trans (of_decide_eq_true hbc))
    (fun a b => by simpa using le_total a b) names
  exact h.imp of_decide_eq_true

theorem nameSet_congr {a b : List String} (h : ∀ n, n ∈ a ↔ n ∈ b) : nameSet a = nameSet b := by
  have hp : (nameSet a).Perm (nameSet b) := by
    rw [List.perm_ext_iff_of_nodup ((pairwise_nameSet a).imp And.right)
      ((pairwise_nameSet b).imp And.right)]
    simpa using h
  exact hp.eq_of_pairwise (fun x y _ _ hxy hyx => le_antisymm hxy.1 hyx.1)
    (pairwise_nameSet a) (pairwise_nameSet b)

theorem withExternals_congr (f : Fingerprint) {a b : List String} (h : ∀ n, n ∈ a ↔ n ∈ b) :
    f.withExternals a = f.withExternals b := by
  rw [withExternals, withExternals, nameSet_congr h]

@[simp] theorem withExternals_nil (f : Fingerprint) : f.withExternals [] = f := by
  simp [withExternals, nameSet]

end SnippetEval.Fingerprint
