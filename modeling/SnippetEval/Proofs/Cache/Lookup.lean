import SnippetEval.Proofs.Cache.History

namespace SnippetEval.Cache

variable {α : Type} {c : Cache α} {g : Nat}

theorem sync_sync (c : Cache α) (g : Nat) : (c.sync g).sync g = c.sync g := by
  have hle : g ≤ Access.newer c.observed g := by
    cases c.observed <;> simp [Access.newer]
  have hobs := observed_sync c g
  rw [sync, hobs]
  simp [hle]

theorem get_sync (c : Cache α) (f : Fingerprint) (g : Nat) :
    ((c.sync g).get f g).1 = (c.get f g).1 := by
  simp only [get_eq_getSynced, getSynced, sync_sync]

theorem get_of_newer (h : ∀ m, c.observed = some m → m < g) (f : Fingerprint) :
    (c.get f g).1 = none := by
  have hnot : c.isCurrent g = false := by
    cases hc : c.isCurrent g with
    | false => rfl
    | true => exact absurd (h g ((isCurrent_iff c g).mp hc)) (Nat.lt_irrefl g)
  have hsync := sync_of_le fun m hm => Nat.le_of_lt (h m hm)
  simp [get_eq_getSynced, getSynced, hsync, hnot]

theorem get_put_sync (h : ∀ m, c.observed = some m → m ≤ g) (f n : Fingerprint) (a : α) :
    (((c.sync g).put f a g).get n g).1 = if n = f then some a else (c.get n g).1 := by
  have hcur : (c.sync g).isCurrent g = true := (isCurrent_iff _ g).mpr (observed_sync_of_le h)
  rw [put_of_isCurrent hcur, get_eq_getSynced c, getSynced, if_pos hcur]
  have hput : isCurrent { c.sync g with entries := (c.sync g).entries.insert f a } g = true := hcur
  rw [get, if_pos hput]
  exact Table.get?_insert _ _ _ _

theorem get_clear (c : Cache α) (f : Fingerprint) (g : Nat) : (c.clear.get f g).1 = none := by
  have hempty : (c.clear.sync g).entries = .empty := by
    unfold sync
    split
    · split <;> rfl
    · rfl
  rw [get_eq_getSynced, getSynced]
  simp [hempty]

theorem sync_map (p : α → α) (c : Cache α) (g : Nat) : (c.map p).sync g = (c.sync g).map p := by
  obtain ⟨observed, entries⟩ := c
  cases observed with
  | none => rfl
  | some m => by_cases hg : g ≤ m <;> simp only [sync, map, hg] <;> rfl

theorem get_map (p : α → α) (c : Cache α) (f : Fingerprint) (g : Nat) :
    ((c.map p).get f g).1 = (c.get f g).1.map p := by
  have hcur : ((c.sync g).map p).isCurrent g = (c.sync g).isCurrent g := rfl
  simp only [get_eq_getSynced, getSynced, sync_map, hcur]
  split
  · exact Table.get?_map _ _ _
  · rfl

end SnippetEval.Cache
