import SnippetEval.Cache
import SnippetEval.Proofs.Table

namespace SnippetEval

inductive Access (α : Type)
  | get (f : Fingerprint) (generation : Nat)
  | put (f : Fingerprint) (a : α) (generation : Nat)
  | clear

namespace Access

variable {α : Type}

def generation? : Access α → Option Nat
  | get _ g => some g
  | put _ _ g => some g
  | clear => none

def latest (H : List (Access α)) : Option Nat := (H.filterMap generation?).max?

/-- Some access stored the unit, and none after it removed or replaced it. -/
def Stands (H : List (Access α)) (f : Fingerprint) (a : α) (g : Nat) : Prop :=
  ∃ before after, H = before ++ put f a g :: after ∧ clear ∉ after ∧ ∀ b, put f b g ∉ after

def newer (m : Option Nat) (g : Nat) : Nat := m.elim g (max · g)

theorem latest_concat (H : List (Access α)) (x : Access α) :
    latest (H ++ [x]) = (x.generation?.map (newer (latest H))).or (latest H) := by
  cases hx : x.generation? with
  | none => simp [latest, List.filterMap_append, hx]
  | some g =>
    simp only [latest, List.filterMap_append, List.filterMap_cons, hx, List.filterMap_nil]
    cases H.filterMap generation? with
    | nil => simp [newer]
    | cons m l => simp [List.max?, newer]

theorem le_latest_iff (H : List (Access α)) (g : Nat) :
    (∀ m, latest H = some m → m ≤ g) ↔ ∀ x ∈ H, ∀ n, x.generation? = some n → n ≤ g := by
  constructor
  · intro h x hx n hn
    have hm : n ∈ H.filterMap generation? := List.mem_filterMap.mpr ⟨x, hx, hn⟩
    cases hl : latest H with
    | none => rw [latest, List.max?_eq_none_iff] at hl; simp [hl] at hm
    | some m => exact ((List.max?_eq_some_iff.mp hl).2 n hm).trans (h m hl)
  · intro h m hm
    obtain ⟨x, hx, hn⟩ := List.mem_filterMap.mp (List.max?_eq_some_iff.mp hm).1
    exact h x hx m hn

theorem stands_concat (H : List (Access α)) (x : Access α) (f : Fingerprint) (a : α) (g : Nat) :
    Stands (H ++ [x]) f a g ↔
      x = put f a g ∨ x ≠ clear ∧ (∀ b, x ≠ put f b g) ∧ Stands H f a g := by
  constructor
  · rintro ⟨before, after, he, hc, hp⟩
    rcases List.eq_nil_or_concat after with rfl | ⟨l, y, rfl⟩
    · left
      exact ((List.append_singleton_inj).mp he).2
    · right
      have he' : H ++ [x] = (before ++ put f a g :: l) ++ [y] := by simpa using he
      obtain ⟨rfl, rfl⟩ := List.append_singleton_inj.mp he'
      refine ⟨fun h => hc (by simp [h]), fun b h => hp b (by simp [h]), before, l, rfl, ?_, ?_⟩
      · exact fun h => hc (by simp [h])
      · exact fun b h => hp b (by simp [h])
  · rintro (rfl | ⟨hx, hy, before, after, rfl, hc, hp⟩)
    · exact ⟨H, [], rfl, by simp, by simp⟩
    · refine ⟨before, after ++ [x], by simp, ?_, ?_⟩
      · simpa [hc] using hx.symm
      · intro b
        simpa [hp b] using (hy b).symm

theorem Stands.mem {H : List (Access α)} {f : Fingerprint} {a : α} {g : Nat}
    (h : Stands H f a g) : put f a g ∈ H := by
  obtain ⟨before, after, rfl, -, -⟩ := h
  simp

theorem Stands.le_latest {H : List (Access α)} {f : Fingerprint} {a : α} {g : Nat}
    (h : Stands H f a g) : ∃ m, latest H = some m ∧ g ≤ m := by
  have hg : g ∈ H.filterMap generation? := List.mem_filterMap.mpr ⟨_, h.mem, rfl⟩
  cases hl : latest H with
  | none =>
    rw [latest, List.max?_eq_none_iff] at hl
    simp [hl] at hg
  | some m => exact ⟨m, rfl, (List.max?_eq_some_iff.mp hl).2 g hg⟩

end Access

namespace Cache

variable {α : Type}

def step (c : Cache α) : Access α → Cache α
  | .get f g => (c.get f g).2
  | .put f a g => c.put f a g
  | .clear => c.clear

def replay (H : List (Access α)) : Cache α := H.foldl step empty

theorem replay_concat (H : List (Access α)) (x : Access α) :
    replay (H ++ [x]) = (replay H).step x := by
  rw [replay, List.foldl_append]
  rfl

theorem isCurrent_iff (c : Cache α) (g : Nat) : c.isCurrent g = true ↔ c.observed = some g := by
  simp [isCurrent]

theorem sync_of_isCurrent {c : Cache α} {g : Nat} (h : c.isCurrent g = true) : c.sync g = c := by
  simp [sync, (isCurrent_iff c g).mp h]

theorem get_eq_getSynced (c : Cache α) (f : Fingerprint) (g : Nat) :
    c.get f g = c.getSynced f g := by
  unfold get
  split
  · next h => simp [getSynced, sync_of_isCurrent h, h]
  · rfl

theorem put_of_older {c : Cache α} {g seen : Nat} (h : c.observed = some seen) (hg : g < seen)
    (f : Fingerprint) (a : α) : c.put f a g = c := by
  have hs : c.sync g = c := by simp [sync, h, Nat.le_of_lt hg]
  have hc : c.isCurrent g = false := by
    simp only [isCurrent, h, Option.some.injEq, decide_eq_false_iff_not]
    omega
  simp [put, hs, hc]

theorem observed_sync (c : Cache α) (g : Nat) :
    (c.sync g).observed = some (Access.newer c.observed g) := by
  unfold sync
  cases hc : c.observed with
  | none => rfl
  | some m =>
    by_cases hg : g ≤ m
    · simp [hc, hg, Access.newer]
    · have hm : max m g = g := by omega
      simp [hg, Access.newer, hm]

theorem sync_of_le {c : Cache α} {g : Nat} (h : ∀ m, c.observed = some m → m ≤ g) :
    c.sync g = if c.isCurrent g then c else ⟨some g, .empty⟩ := by
  unfold sync
  cases hc : c.observed with
  | none => simp [isCurrent, hc]
  | some m =>
    have hm := h m hc
    by_cases hg : g = m
    · simp [isCurrent, hc, hg]
    · have hlt : ¬ g ≤ m := by omega
      have hne : m ≠ g := Ne.symm hg
      simp [isCurrent, hc, hlt, hne]

theorem observed_sync_of_le {c : Cache α} {g : Nat} (h : ∀ m, c.observed = some m → m ≤ g) :
    (c.sync g).observed = some g := by
  rw [sync_of_le h]
  split
  · next hc => exact (isCurrent_iff c g).mp hc
  · rfl

theorem of_get?_sync {c : Cache α} {g : Nat} (h : ∀ m, c.observed = some m → m ≤ g)
    {f : Fingerprint} {a : α} (ha : (c.sync g).entries.get? f = some a) :
    c.observed = some g ∧ c.entries.get? f = some a := by
  rw [sync_of_le h] at ha
  split at ha
  · next hc => exact ⟨(isCurrent_iff c g).mp hc, ha⟩
  · simp at ha

theorem of_get_of_le {c : Cache α} {g : Nat} (h : ∀ m, c.observed = some m → m ≤ g)
    {f : Fingerprint} {a : α} (ha : (c.get f g).1 = some a) :
    c.observed = some g ∧ c.entries.get? f = some a := by
  have hcur : (c.sync g).isCurrent g = true := (isCurrent_iff _ g).mpr (observed_sync_of_le h)
  apply of_get?_sync h
  simpa [get_eq_getSynced, getSynced, hcur] using ha

theorem put_of_isCurrent {c : Cache α} {g : Nat} (h : c.isCurrent g = true) (f : Fingerprint)
    (a : α) : c.put f a g = { c with entries := c.entries.insert f a } := by
  simp [put, sync_of_isCurrent h, h]

structure Traces (c : Cache α) (H : List (Access α)) (latest : Option Nat) : Prop where
  observed : c.observed = latest
  entries : ∀ f a, c.entries.get? f = some a ↔ ∃ g, latest = some g ∧ Access.Stands H f a g

theorem Traces.sync {c : Cache α} {H : List (Access α)} (h : c.Traces H (Access.latest H))
    (g : Nat) : (c.sync g).Traces H (some (Access.newer (Access.latest H) g)) := by
  -- A generation later than all before has no unit standing yet.
  have fresh (hg : ∀ m, Access.latest H = some m → m < g) (f : Fingerprint) (a : α) :
      ¬ Access.Stands H f a g := by
    intro hs
    obtain ⟨m, hm, hle⟩ := hs.le_latest
    have := hg m hm
    omega
  have hobs := observed_sync c g
  rw [h.observed] at hobs
  refine ⟨hobs, fun f a => ?_⟩
  cases hl : Access.latest H with
  | none =>
    have hc : c.sync g = ⟨some g, .empty⟩ := by simp [Cache.sync, h.observed, hl]
    have := fresh (by simp [hl]) f a
    simp [hc, Access.newer, this]
  | some m =>
    by_cases hg : g ≤ m
    · have hc : c.sync g = c := by simp [Cache.sync, h.observed, hl, hg]
      have hm : max m g = m := by omega
      simpa [hc, Access.newer, hm, hl] using h.entries f a
    · have hc : c.sync g = ⟨some g, .empty⟩ := by simp [Cache.sync, h.observed, hl, hg]
      have hm : max m g = g := by omega
      have := fresh (by simp [hl]; omega) f a
      simp [hc, Access.newer, hm, this]

theorem traces_step {c : Cache α} {H : List (Access α)} (h : c.Traces H (Access.latest H))
    (x : Access α) : (c.step x).Traces (H ++ [x]) (Access.latest (H ++ [x])) := by
  rw [Access.latest_concat]
  cases x with
  | get f g =>
    have hc : c.step (.get f g) = c.sync g := by
      rw [step, get_eq_getSynced, getSynced]
    have hs := h.sync g
    rw [hc]
    refine ⟨hs.observed, fun f' a => ?_⟩
    simp [hs.entries, Access.stands_concat, Access.generation?]
  | put f a g =>
    have hs := h.sync g
    simp only [Access.generation?, Option.map_some]
    by_cases hg : Access.newer (Access.latest H) g = g
    · have hc : c.step (.put f a g) =
          { c.sync g with entries := (c.sync g).entries.insert f a } := by
        simp [step, put, isCurrent, hs.observed, hg]
      rw [hc]
      refine ⟨hs.observed, fun f' b => ?_⟩
      rw [hg] at hs ⊢
      by_cases hf : f' = f
      · subst hf
        simp [Table.get?_insert, Access.stands_concat]
      · have := hs.entries f' b
        simp_all [Table.get?_insert, Access.stands_concat, Ne.symm hf]
    · have hc : c.step (.put f a g) = c.sync g := by
        simp [step, put, isCurrent, hs.observed, hg]
      rw [hc]
      refine ⟨hs.observed, fun f' b => ?_⟩
      simp [hs.entries, Access.stands_concat, Ne.symm hg]
  | clear =>
    refine ⟨by simpa [step, clear, Access.generation?] using h.observed, fun f a => ?_⟩
    simp [step, clear, Access.stands_concat]

theorem traces_replay (H : List (Access α)) : (replay H).Traces H (Access.latest H) := by
  induction H using List.reverseRecOn with
  | nil => exact ⟨rfl, fun f a => by simp [replay, empty, Access.latest]⟩
  | append_singleton H x ih =>
    rw [replay_concat]
    exact traces_step ih x

theorem get_replay_iff (H : List (Access α)) (f : Fingerprint) (g : Nat) (a : α) :
    ((replay H).get f g).1 = some a ↔
      (∀ x ∈ H, ∀ n, x.generation? = some n → n ≤ g) ∧ Access.Stands H f a g := by
  have hs := (traces_replay H).sync g
  rw [get_eq_getSynced, ← Access.le_latest_iff]
  by_cases hg : Access.newer (Access.latest H) g = g
  · have hc : ((replay H).sync g).isCurrent g = true := by simp [isCurrent, hs.observed, hg]
    have hle : ∀ m, Access.latest H = some m → m ≤ g := by
      intro m hm
      rw [hm] at hg
      simp only [Access.newer, Option.elim_some] at hg
      omega
    simp only [getSynced, hc, ↓reduceIte, hs.entries, hg, Option.some.injEq, exists_eq_left']
    exact ⟨fun h => ⟨hle, h⟩, And.right⟩
  · have hc : ((replay H).sync g).isCurrent g = false := by simp [isCurrent, hs.observed, hg]
    simp only [getSynced, hc, Bool.false_eq_true, ↓reduceIte, reduceCtorEq, false_iff]
    rintro ⟨hle, -⟩
    apply hg
    cases hl : Access.latest H with
    | none => rfl
    | some m => simpa [Access.newer] using hle m hl

theorem encard_replay (H : List (Access α)) :
    {f | ∃ g, (replay H).observed = some g ∧ ((replay H).get f g).1.isSome}.encard =
      (replay H).size := by
  have ht := traces_replay H
  have hset : {f | ∃ g, (replay H).observed = some g ∧ ((replay H).get f g).1.isSome} =
      {f | (replay H).entries.contains f = true} := by
    ext f
    simp only [Set.mem_ofPred_eq, Table.contains]
    constructor
    · rintro ⟨g, hg, hf⟩
      simpa [get, isCurrent, hg] using hf
    · intro hf
      obtain ⟨a, ha⟩ := Option.isSome_iff_exists.mp hf
      obtain ⟨g, hg, -⟩ := (ht.entries f a).mp ha
      rw [← ht.observed] at hg
      exact ⟨g, hg, by simpa [get, isCurrent, hg] using hf⟩
  rw [hset, Table.encard_contains, size]

theorem replay_trace (H : List (Access α)) :
    (∀ f g a, ((replay H).get f g).1 = some a ↔
      (∀ x ∈ H, ∀ n, x.generation? = some n → n ≤ g) ∧ Access.Stands H f a g) ∧
    (replay H).observed = (H.filterMap Access.generation?).max? ∧
    {f | ∃ g, (replay H).observed = some g ∧ ((replay H).get f g).1.isSome}.encard =
      (replay H).size ∧
    (∀ f g, (replay H).get f g = (replay H).getSynced f g) ∧
    (∀ seen, (replay H).observed = some seen → ∀ f a g, g < seen →
      (replay H).put f a g = replay H) ∧
    ∀ f g a, ((replay H).get f g).1 = some a → .put f a g ∈ H :=
  ⟨fun f g a => get_replay_iff H f g a, (traces_replay H).observed, encard_replay H,
    get_eq_getSynced _, fun _ h f a _ hg => put_of_older h hg f a,
    fun f g a h => ((get_replay_iff H f g a).mp h).2.mem⟩

end Cache

end SnippetEval
