import SnippetEval.Proofs.Description.Building
import SnippetEval.Proofs.Description.FieldValues

namespace SnippetEval.Description

theorem duplicateId?_eq_none {seen : List String} {ds : List ObjectDef}
    (h : duplicateId? seen ds = none) : (ids ds).Nodup ∧ ∀ id ∈ seen, id ∉ ids ds := by
  induction ds generalizing seen with
  | nil => simp [ids]
  | cons d ds ih =>
    simp only [duplicateId?] at h
    split at h
    · cases h
    · next hseen =>
      obtain ⟨hdistinct, hapart⟩ := ih h
      have hd : d.id ∉ ids ds := hapart d.id List.mem_cons_self
      refine ⟨List.nodup_cons.mpr ⟨hd, hdistinct⟩, ?_⟩
      intro id hid hmem
      rcases List.mem_cons.mp hmem with rfl | hmem
      · exact hseen (List.contains_iff_mem.mpr hid)
      · exact hapart id (List.mem_cons_of_mem _ hid) hmem

theorem duplicateId?_eq_some {seen : List String} {ds : List ObjectDef} {id : String}
    (h : duplicateId? seen ds = some id) : 2 ≤ (seen ++ ids ds).count id := by
  induction ds generalizing seen with
  | nil => cases h
  | cons d ds ih =>
    simp only [duplicateId?] at h
    split at h
    · next hseen =>
      cases h
      have hfirst := List.count_pos_iff.mpr (List.contains_iff_mem.mp hseen)
      simp only [ids, List.map_cons, List.count_append, List.count_cons_self]
      omega
    · have hperm : (seen ++ ids (d :: ds)).Perm (d.id :: seen ++ ids ds) := List.perm_middle
      rw [hperm.count_eq]
      exact ih h

section

variable {ds l : List ObjectDef} {stamp : Nat} {t u : Objects}

theorem wanted_all (hdistinct : (ids ds).Nodup) (id : String) : Wanted ds ds id :=
  ⟨hdistinct, List.Subset.refl ds, fun _ hd hnot => absurd hd hnot⟩

theorem buildAll_sound (hdistinct : (ids ds).Nodup) (hl : l ⊆ ds) (ht : Faithful ds stamp t) :
    (∃ e, buildAll stamp ds t l = .error e ∧ Holds ds e) ∨
      ∃ u, buildAll stamp ds t l = .ok u ∧ Grows ds ds stamp t u ∧
        ∀ d ∈ l, ∃ o, u.get? d.id = some o := by
  induction l generalizing t with
  | nil => exact .inr ⟨t, rfl, .refl ht, by simp⟩
  | cons d l ih =>
    obtain ⟨hd, hl⟩ := List.cons_subset.mp hl
    have hobject := buildObject_sound d.id (wanted_all hdistinct d.id) ht
      (.inl (List.mem_map_of_mem hd))
    rw [buildAll, ← ids]
    generalize buildObject stamp (ids ds) ds t d.id d.id = x at hobject ⊢
    cases hobject with
    | error he => exact .inl ⟨_, rfl, he⟩
    | @ok o u hgrows ho =>
      rcases ih hl hgrows.faithful with ⟨e, herror, he⟩ | ⟨w, hok, hgrows', hall⟩
      · exact .inl ⟨e, herror, he⟩
      · refine .inr ⟨w, hok, hgrows.trans hgrows', ?_⟩
        exact List.forall_mem_cons.mpr ⟨⟨o, Table.get?_of_suffix hgrows'.suffix ho⟩, hall⟩

theorem buildAll_append (l m : List ObjectDef) : buildAll stamp ds t (l ++ m) =
    buildAll stamp ds t l >>= fun u => buildAll stamp ds u m := by
  induction l generalizing t with
  | nil => rfl
  | cons d l ih =>
    rw [List.cons_append, buildAll, buildAll]
    cases buildObject stamp (ds.map ObjectDef.id) ds t d.id d.id with
    | error e => rfl
    | ok built => exact ih

theorem faithful_empty (ds : List ObjectDef) (stamp : Nat) : Faithful ds stamp .empty := by
  intro id o ho
  cases ho

structure Shows (ds : List ObjectDef) (stamp : Nat) (g : Objects) : Prop where
  keys : g.keys.Perm (ids ds)
  depicts : ∀ d ∈ ds, ∃ o, g.get? d.id = some o ∧ Depicts g stamp d o

theorem Grows.shows (hdistinct : (ids ds).Nodup) (h : Grows ds ds stamp .empty u)
    (hall : ∀ d ∈ ds, ∃ o, u.get? d.id = some o) : Shows ds stamp u := by
  constructor
  · apply (List.perm_ext_iff_of_nodup u.nodup hdistinct).mpr
    intro id
    have hkeys : id ∈ u.keys ↔ ∃ o, u.get? id = some o := by
      rw [Table.mem_keys_iff, Table.contains, Option.isSome_iff_exists]
    refine hkeys.trans ⟨?_, ?_⟩
    · rintro ⟨o, ho⟩
      obtain ⟨d, hd, rfl, -⟩ := h.faithful id o ho
      exact List.mem_map_of_mem hd
    · intro hid
      obtain ⟨d, hd, rfl⟩ := List.mem_map.mp hid
      exact hall d hd
  · intro d hd
    obtain ⟨o, ho⟩ := hall d hd
    exact ⟨o, ho, h.faithful.depicts hdistinct hd ho⟩

end

variable {d d' : HostDescription} {stamp : Nat} {g g' : Objects}

theorem objectGraph_cases (d : HostDescription) (stamp : Nat) :
    (∃ e, d.objectGraph stamp = .error e ∧ Holds d.objects e) ∨
      ∃ g, d.objectGraph stamp = .ok g ∧ buildAll stamp d.objects .empty d.objects = .ok g ∧
        (ids d.objects).Nodup ∧ Grows d.objects d.objects stamp .empty g ∧
        ∀ c ∈ d.objects, ∃ o, g.get? c.id = some o := by
  unfold HostDescription.objectGraph
  cases hduplicate : duplicateId? [] d.objects with
  | some id => exact .inl ⟨_, rfl, duplicateId?_eq_some hduplicate⟩
  | none =>
    have hdistinct := (duplicateId?_eq_none hduplicate).1
    rcases buildAll_sound hdistinct (List.Subset.refl _) (faithful_empty d.objects stamp) with
      ⟨e, herror, he⟩ | ⟨g, hok, hgrows, hall⟩
    · exact .inl ⟨e, herror, he⟩
    · exact .inr ⟨g, hok, hok, hdistinct, hgrows, hall⟩

theorem objectGraph_ok (h : d.objectGraph stamp = .ok g) :
    buildAll stamp d.objects .empty d.objects = .ok g ∧ (ids d.objects).Nodup ∧
      Grows d.objects d.objects stamp .empty g ∧ ∀ c ∈ d.objects, ∃ o, g.get? c.id = some o := by
  rcases objectGraph_cases d stamp with ⟨e, herror, -⟩ | ⟨g', hok, hbuilt⟩
  · rw [h] at herror
    cases herror
  · rw [h] at hok
    cases hok
    exact hbuilt

theorem objectGraph_isOk_iff (d : HostDescription) (stamp : Nat) :
    (∃ g, d.objectGraph stamp = .ok g) ↔ WellFormed d.objects := by
  constructor
  · rintro ⟨g, h⟩
    obtain ⟨-, hdistinct, hgrows, hall⟩ := objectGraph_ok h
    exact hgrows.faithful.wellFormed hdistinct hall
  · intro hformed
    rcases objectGraph_cases d stamp with ⟨e, -, he⟩ | ⟨g, hok, -⟩
    · exact absurd he (hformed.not_holds e)
    · exact ⟨g, hok⟩

theorem buildAll_before {before after : List ObjectDef} (h : d.objectGraph stamp = .ok g)
    (hobjects : d.objects = before ++ after) :
    ∃ t, buildAll stamp d.objects .empty before = .ok t ∧ t.entries <:+ g.entries := by
  obtain ⟨hbuilt, hdistinct, -, -⟩ := objectGraph_ok h
  have hbefore : before ⊆ d.objects := by simp [hobjects]
  have hafter : after ⊆ d.objects := by simp [hobjects]
  have hsplit : (buildAll stamp d.objects .empty before >>= fun t =>
      buildAll stamp d.objects t after) = .ok g := by
    rw [← buildAll_append, ← hobjects, hbuilt]
  rcases buildAll_sound hdistinct hbefore (faithful_empty d.objects stamp) with
    ⟨e, herror, -⟩ | ⟨t, hok, hgrows, -⟩
  · rw [herror] at hsplit
    cases hsplit
  · refine ⟨t, hok, ?_⟩
    rw [hok] at hsplit
    change buildAll stamp d.objects t after = .ok g at hsplit
    rcases buildAll_sound hdistinct hafter hgrows.faithful with
      ⟨e, herror, -⟩ | ⟨u, hok', hgrows', -⟩
    · rw [hsplit] at herror
      cases herror
    · rw [hsplit] at hok'
      cases hok'
      exact hgrows'.suffix

theorem objectGraph_perm (hperm : d'.objects.Perm d.objects) (h : d.objectGraph stamp = .ok g) :
    ∃ g', d'.objectGraph stamp = .ok g' ∧ g'.Same g := by
  have hformed := (objectGraph_isOk_iff d stamp).mp ⟨g, h⟩
  obtain ⟨g', h'⟩ := (objectGraph_isOk_iff d' stamp).mpr (hformed.perm hperm)
  refine ⟨g', h', ?_⟩
  obtain ⟨-, hdistinct, hgrows, hall⟩ := objectGraph_ok h
  obtain ⟨-, -, hgrows', hall'⟩ := objectGraph_ok h'
  have hfaithful : Faithful d.objects stamp g' := fun id o ho => by
    obtain ⟨c, hc, hcid⟩ := hgrows'.faithful id o ho
    exact ⟨c, hperm.mem_iff.mp hc, hcid⟩
  intro id
  cases ho' : g'.get? id with
  | some o' =>
    obtain ⟨c, hc, rfl, -⟩ := hfaithful id o' ho'
    obtain ⟨o, ho⟩ := hall c hc
    rw [ho, hfaithful.unique hdistinct hgrows.faithful ho' ho]
  | none =>
    cases ho : g.get? id with
    | none => rfl
    | some o =>
      obtain ⟨c, hc, rfl, -⟩ := hgrows.faithful id o ho
      obtain ⟨o', hsome⟩ := hall' c (hperm.mem_iff.mpr hc)
      rw [hsome] at ho'
      cases ho'

/-- Each object is built once: what any call on the way has stored stays as it is. -/
theorem install_builds (d : HostDescription) (stamp : Nat) (s : Sandbox) :
    let result := (d.install stamp s).1
    ((∃ g, result = .ok g) ↔ WellFormed d.objects) ∧
    (∀ g, result = .ok g →
      Shows d.objects stamp g ∧
      (∀ before after, d.objects = before ++ after →
        ∃ t, buildAll stamp d.objects .empty before = .ok t ∧ t.entries <:+ g.entries) ∧
      ∀ (d' : HostDescription) (s' : Sandbox), d'.objects.Perm d.objects →
        ∃ g', (d'.install stamp s').1 = .ok g' ∧ g'.Same g) ∧
    (∀ available t id referencedBy o u, Wanted d.objects available id →
      Faithful d.objects stamp t → id ∈ ids d.objects ∨ Refers d.objects referencedBy id →
      buildObject stamp (ids d.objects) available t id referencedBy = .ok (o, u) →
      t.entries <:+ u.entries ∧ u.get? id = some o) ∧
    (∀ e, result = .error e → Holds d.objects e) ∧
    (∀ depth v, Json.check depth v = .ok () →
      (fieldValue v ≠ .unsupported ↔ IsFieldValue v) ∧ ∀ f, fieldValue v = f ↔ Means v f) ∧
    ∀ depth v fields, readFieldValues depth v = .ok fields →
      ∃ ms : List (String × Json), v = .object (ms.map fun m => (some m.1, m.2)) none ∧
        ∀ n f, fields.get? n = some f ↔
          ∃ w, LastGives (fun m w => m = (n, w)) ms w ∧ Means w f := by
  intro result
  refine ⟨objectGraph_isOk_iff d stamp, ?_, ?_, ?_, ?_, fun depth v fields => readFieldValues_eq_ok⟩
  · intro g hg
    obtain ⟨-, hdistinct, hgrows, hall⟩ := objectGraph_ok hg
    exact ⟨hgrows.shows hdistinct hall, fun before after => buildAll_before hg,
      fun d' s' hperm => objectGraph_perm hperm hg⟩
  · intro available t id referencedBy o u hwanted ht hid hbuild
    have hsound := buildObject_sound referencedBy hwanted ht hid
    rw [hbuild] at hsound
    cases hsound with
    | ok hgrows ho => exact ⟨hgrows.suffix, ho⟩
  · intro e he
    rcases objectGraph_cases d stamp with ⟨e', herror, hholds⟩ | ⟨g, hok, -⟩
    · have heq : (Except.error e' : Except HostError Objects) = .error e := herror.symm.trans he
      cases heq
      exact hholds
    · have heq : (Except.ok g : Except HostError Objects) = .error e := hok.symm.trans he
      cases heq
  · exact fun depth v h => ⟨fieldValue_supported_iff h, fun f => fieldValue_eq_iff h⟩

def pets : HostDescription where
  objects := [
    { id := "closure", typeName := "app.Owner.block_0", outer := some "owner"
      fields := .ofList [("pet", .ref "pet")] },
    { id := "owner", typeName := "app.Owner"
      fields := .ofList [("pet", .ref "pet"), ("age", .int 36)] },
    { id := "pet", typeName := "app.Pet", fields := .ofList [("legs", .int 4)] }]

theorem refers_pets {a b : String} (h : Refers pets.objects a b) :
    (a, b) ∈ [("closure", "pet"), ("closure", "owner"), ("owner", "pet")] := by
  obtain ⟨d, hd, rfl, hrefers⟩ := h
  simp only [pets, List.mem_cons, List.not_mem_nil, or_false] at hd
  rcases hd with rfl | rfl | rfl
  · rcases hrefers with ⟨n, hn⟩ | houter
    · simp only [Table.ofList, List.foldl, Table.get?_insert] at hn
      split at hn <;> cases hn
      simp
    · cases houter
      simp
  · rcases hrefers with ⟨n, hn⟩ | houter
    · simp only [Table.ofList, List.foldl, Table.get?_insert] at hn
      split at hn
      · cases hn
      · split at hn <;> cases hn
        simp
    · cases houter
  · rcases hrefers with ⟨n, hn⟩ | houter
    · simp only [Table.ofList, List.foldl, Table.get?_insert] at hn
      split at hn <;> cases hn
    · cases houter

theorem wellFormed_pets : WellFormed pets.objects := by
  have hdescends {a b : String} (h : Refers pets.objects a b) : b.length < a.length := by
    have hmem := refers_pets h
    simp only [List.mem_cons, Prod.mk.injEq, List.not_mem_nil, or_false] at hmem
    rcases hmem with ⟨rfl, rfl⟩ | ⟨rfl, rfl⟩ | ⟨rfl, rfl⟩ <;> decide
  refine ⟨by decide, ?_, ?_, ?_⟩
  · intro a b hab
    have hmem := refers_pets hab
    simp only [List.mem_cons, Prod.mk.injEq, List.not_mem_nil, or_false] at hmem
    rcases hmem with ⟨-, rfl⟩ | ⟨-, rfl⟩ | ⟨-, rfl⟩ <;> decide
  · intro d hd n hn
    simp only [pets, List.mem_cons, List.not_mem_nil, or_false] at hd
    rcases hd with rfl | rfl | rfl
    all_goals
      simp only [Table.ofList, List.foldl, Table.get?_insert] at hn
      repeat' split at hn
      all_goals cases hn
  · intro a haa
    have hlt {b : String} (hab : Relation.TransGen (Refers pets.objects) a b) :
        b.length < a.length := by
      induction hab with
      | single hab => exact hdescends hab
      | tail _ hbc ih => exact (hdescends hbc).trans ih
    exact Nat.lt_irrefl _ (hlt haa)

theorem install_builds_pets :
    let pet : Json := .object [(some "ref", .string (some "pet"))] none
    let ms : List (String × Json) :=
      [("pet", pet), ("age", .null), ("age", .number (some (.integer 36)))]
    let fields : Json := .object (ms.map fun m => (some m.1, m.2)) none
    WellFormed pets.objects ∧ (∃ g, (pets.install 0 {}).1 = .ok g ∧ Shows pets.objects 0 g) ∧
      Json.check 1 pet = .ok () ∧ fieldValue pet = .ref "pet" ∧
      ∃ t, readFieldValues 2 fields = .ok t ∧ t.get? "age" = some (.int 36) := by
  intro pet ms fields
  obtain ⟨hformed, hok, -, -, hvalue, hfields⟩ := install_builds pets 0 {}
  obtain ⟨g, hg⟩ := hformed.mpr wellFormed_pets
  have hpet : Json.check 1 pet = .ok () := rfl
  refine ⟨wellFormed_pets, ⟨g, hg, (hok g hg).1⟩, hpet, ?_, _, rfl, ?_⟩
  · exact ((hvalue 1 pet hpet).2 _).mpr (.ref (by simp) rfl)
  · obtain ⟨ms', hms, hget⟩ := hfields 2 fields _ rfl
    have hnamed : Function.Injective fun m : String × Json => (some m.1, m.2) := fun a b h => by
      simpa [Prod.ext_iff] using h
    obtain rfl : ms = ms' := List.map_injective_iff.mpr hnamed (Json.object.inj hms).1
    have hlast : LastGives (fun m w => m = ("age", w)) ms (.number (some (.integer 36))) :=
      ⟨[("pet", pet), ("age", .null)], _, [], rfl, rfl, by simp⟩
    exact (hget "age" _).mpr ⟨_, hlast, .int 36⟩

end SnippetEval.Description
