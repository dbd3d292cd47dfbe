import SnippetEval.Proofs.Evaluator.FreshUnit
import SnippetEval.Proofs.Fingerprint.Streams

namespace SnippetEval

def Sha256.CollisionFree (streams : List (List UInt8)) : Prop :=
  ∀ a ∈ streams, ∀ b ∈ streams, digest a = digest b → a = b

instance (streams : List (List UInt8)) : Decidable (Sha256.CollisionFree streams) :=
  inferInstanceAs (Decidable (∀ a ∈ streams, ∀ b ∈ streams, _))

namespace Request

variable {r q : Request}

def names (r : Request) : List String := namesOf r.symbols

def baseStream (r : Request) : List UInt8 :=
  Fingerprint.requestStream r.source r.enclosing r.immediate r.offset

def namesStream (r : Request) : List UInt8 :=
  Fingerprint.externalsStream (Sha256.digest r.baseStream) (Fingerprint.nameSet r.names)

def streams (r : Request) : List (List UInt8) :=
  if r.names = [] then [r.baseStream] else [r.baseStream, r.namesStream]

structure Sized (r : Request) : Prop where
  base : Fingerprint.Sized r.source r.enclosing r.immediate r.offset
  names : ∀ n ∈ r.names, Fingerprint.Short n

theorem fingerprint_of_no_names (h : r.names = []) :
    r.fingerprint = ⟨Sha256.digest r.baseStream⟩ := by
  rw [names] at h
  rw [fingerprint, fingerprintWith, h, Fingerprint.withExternals_nil]
  rfl

theorem nameSet_ne_nil {names : List String} (h : names ≠ []) : Fingerprint.nameSet names ≠ [] := by
  obtain ⟨n, hn⟩ := List.exists_mem_of_ne_nil names h
  exact List.ne_nil_of_mem (Fingerprint.mem_nameSet.mpr hn)

theorem fingerprint_of_names (h : r.names ≠ []) :
    r.fingerprint = ⟨Sha256.digest r.namesStream⟩ := by
  obtain ⟨n, ns, hset⟩ := List.exists_cons_of_ne_nil (nameSet_ne_nil h)
  rw [namesStream, hset]
  rw [names] at hset
  rw [fingerprint, fingerprintWith, Fingerprint.withExternals, hset]
  rfl

theorem baseStream_mem (r : Request) : r.baseStream ∈ r.streams := by
  unfold streams
  split <;> simp

theorem namesStream_mem (h : r.names ≠ []) : r.namesStream ∈ r.streams := by
  simp [streams, h]

theorem Alike.fingerprint_eq (h : r.Alike q) : r.fingerprint = q.fingerprint := by
  simp only [fingerprint, fingerprintWith, h.source, h.enclosing, h.immediate, h.offset]
  exact Fingerprint.withExternals_congr _ h.names

theorem alike_of_baseStream (hr : r.Sized) (hq : q.Sized) (h : r.baseStream = q.baseStream)
    (hnames : ∀ n, n ∈ r.names ↔ n ∈ q.names) : r.Alike q := by
  obtain ⟨hsource, henclosing, himmediate, hoffset⟩ :=
    Fingerprint.requestStream_inj hr.base hq.base h
  exact ⟨hsource, henclosing, himmediate, hoffset, hnames⟩

theorem alike_of_fingerprint_eq (hr : r.Sized) (hq : q.Sized)
    (hboth : r.names = [] ↔ q.names = [])
    (hfree : Sha256.CollisionFree (r.streams ++ q.streams))
    (h : r.fingerprint = q.fingerprint) : r.Alike q := by
  have hbase (hdigest : Sha256.digest r.baseStream = Sha256.digest q.baseStream) :
      r.baseStream = q.baseStream :=
    hfree _ (List.mem_append_left _ r.baseStream_mem) _ (List.mem_append_right _ q.baseStream_mem)
      hdigest
  by_cases hnone : r.names = []
  · have hnone' := hboth.mp hnone
    rw [fingerprint_of_no_names hnone, fingerprint_of_no_names hnone'] at h
    apply alike_of_baseStream hr hq (hbase (Fingerprint.mk.inj h))
    simp [hnone, hnone']
  · have hsome := mt hboth.mpr hnone
    rw [fingerprint_of_names hnone, fingerprint_of_names hsome] at h
    have hstreams : r.namesStream = q.namesStream :=
      hfree _ (List.mem_append_left _ (namesStream_mem hnone)) _
        (List.mem_append_right _ (namesStream_mem hsome)) (Fingerprint.mk.inj h)
    obtain ⟨hdigest, hnames⟩ := Fingerprint.externalsStream_inj
      (by rw [Sha256.length_digest, Sha256.length_digest]) hr.names hq.names hstreams
    exact alike_of_baseStream hr hq (hbase hdigest) hnames

theorem fingerprint_identifies :
    (∀ source enclosing immediate offset source' enclosing' immediate' offset',
      Fingerprint.Sized source enclosing immediate offset →
      Fingerprint.Sized source' enclosing' immediate' offset' →
      Fingerprint.requestStream source enclosing immediate offset =
        Fingerprint.requestStream source' enclosing' immediate' offset' →
      source = source' ∧ enclosing = enclosing' ∧ immediate = immediate' ∧ offset = offset') ∧
    (∀ base base' names names', base.length = 32 → base'.length = 32 →
      (∀ n ∈ names, Fingerprint.Short n) → (∀ n ∈ names', Fingerprint.Short n) →
      Fingerprint.externalsStream base (Fingerprint.nameSet names) =
        Fingerprint.externalsStream base' (Fingerprint.nameSet names') →
      base = base' ∧ ∀ n, n ∈ names ↔ n ∈ names') ∧
    (∀ r q : Request, r.Sized → q.Sized → (r.names = [] ↔ q.names = []) →
      Sha256.CollisionFree (r.streams ++ q.streams) →
      (r.fingerprint = q.fingerprint ↔ r.Alike q)) ∧
    (∀ (f : Fingerprint) (names names' : List String), (∀ n, n ∈ names ↔ n ∈ names') →
      f.withExternals names = f.withExternals names') ∧
    (∀ f : Fingerprint, f.withExternals [] = f) ∧
    ∀ (r : Request) env, Evaluator.bindSymbols r = .ok env →
      r.fingerprintWith env.keys = r.fingerprint := by
  refine ⟨?_, ?_, ?_, ?_, Fingerprint.withExternals_nil, fun r env => Evaluator.fingerprintWith_keys⟩
  · intro source enclosing immediate offset source' enclosing' immediate' offset' h h' hstream
    exact Fingerprint.requestStream_inj h h' hstream
  · intro base base' names names' hbase hbase' h h' hstream
    exact Fingerprint.externalsStream_inj (hbase.trans hbase'.symm) h h' hstream
  · intro r q hr hq hboth hfree
    exact ⟨alike_of_fingerprint_eq hr hq hboth hfree, Alike.fingerprint_eq⟩
  · exact fun f names names' h => Fingerprint.withExternals_congr f h

theorem fingerprint_identifies_absent :
    Sha256.CollisionFree (({ source := "1" } : Request).streams ++
        ({ source := "1", enclosing := some "" } : Request).streams) ∧
      ({ source := "1" } : Request).fingerprint ≠
        ({ source := "1", enclosing := some "" } : Request).fingerprint := by
  have hfree : Sha256.CollisionFree (({ source := "1" } : Request).streams ++
      ({ source := "1", enclosing := some "" } : Request).streams) := by
    decide +kernel
  have hr : ({ source := "1" } : Request).Sized :=
    ⟨⟨by decide, nofun, nofun, by decide⟩, nofun⟩
  have hq : ({ source := "1", enclosing := some "" } : Request).Sized := by
    refine ⟨⟨by decide, ?_, nofun, by decide⟩, nofun⟩
    rintro s ⟨⟩
    decide
  have hiff := fingerprint_identifies.2.2.1 _ _ hr hq Iff.rfl hfree
  exact ⟨hfree, fun h => by simpa using (hiff.mp h).enclosing⟩

end Request

end SnippetEval
