import Mathlib.Algebra.Order.Ring.Nat
import SnippetEval.Proofs.Fingerprint.NameSet

namespace SnippetEval

namespace Sha256

theorem length_bytesOf (n x : Nat) : (bytesOf n x).length = n := by
  induction n generalizing x with
  | zero => rfl
  | succ n ih => rw [bytesOf, List.length_append, ih, List.length_singleton]

theorem length_round (k w : UInt32) {s : State} (h : s.length = 8) : (round k w s).length = 8 := by
  unfold round
  split
  · rfl
  · exact h

theorem length_rounds (ks ws : List UInt32) {s : State} (h : s.length = 8) :
    (rounds ks ws s).length = 8 := by
  induction ks generalizing ws s with
  | nil => exact h
  | cons k ks ih => exact ih _ (length_round _ _ h)

theorem length_compress {s : State} (h : s.length = 8) (block : List UInt32) :
    (compress s block).length = 8 := by
  rw [compress, List.length_zipWith, h, length_rounds _ _ h, Nat.min_self]

theorem length_words (s : State) : (s.flatMap fun w => bytesOf 4 w.toNat).length = 4 * s.length := by
  induction s with
  | nil => rfl
  | cons w s ih =>
    rw [List.flatMap_cons, List.length_append, ih, length_bytesOf, List.length_cons]
    omega

theorem length_digest (message : List UInt8) : (digest message).length = 32 := by
  have hstate (blocks : List (List UInt32)) : (blocks.foldl compress initial).length = 8 := by
    apply List.foldlRecOn (motive := fun s : State => s.length = 8)
    · rfl
    · exact fun s h block _ => length_compress h block
  simp only [digest, length_words, hstate]

end Sha256

namespace Fingerprint

/-- Whatever follows it, the stream of one value is never taken for that of another. -/
def Delimited {α : Type} (P : α → Prop) (stream : α → List UInt8) : Prop :=
  ∀ a b, P a → P b → ∀ x y, stream a ++ x = stream b ++ y → a = b ∧ x = y

def Short (s : String) : Prop := s.utf8ByteSize < UInt64.size

instance (s : String) : Decidable (Short s) := inferInstanceAs (Decidable (_ < _))

theorem length_littleEndian (n x : Nat) : (littleEndian n x).length = n := by
  induction n generalizing x with
  | zero => rfl
  | succ n ih => rw [littleEndian, List.length_cons, ih]

theorem littleEndian_inj {n x y : Nat} (hx : x < 256 ^ n) (hy : y < 256 ^ n)
    (h : littleEndian n x = littleEndian n y) : x = y := by
  induction n generalizing x y with
  | zero =>
    rw [Nat.pow_zero] at hx hy
    omega
  | succ n ih =>
    rw [Nat.pow_succ] at hx hy
    obtain ⟨hlow, hhigh⟩ := List.cons.inj h
    have hdiv := ih (Nat.div_lt_of_lt_mul (by rwa [Nat.mul_comm]))
      (Nat.div_lt_of_lt_mul (by rwa [Nat.mul_comm])) hhigh
    have hmod : x % 256 = y % 256 := by
      have := congrArg UInt8.toNat hlow
      simpa using this
    omega

theorem delimited_littleEndian (n : Nat) : Delimited (· < 256 ^ n) (littleEndian n) := by
  intro a b ha hb x y h
  have hlength : (littleEndian n a).length = (littleEndian n b).length := by
    rw [length_littleEndian, length_littleEndian]
  obtain ⟨hnumber, hrest⟩ := List.append_inj h hlength
  exact ⟨littleEndian_inj ha hb hnumber, hrest⟩

theorem utf8_toByteArray (s : String) : (utf8 s).toByteArray = s.toByteArray := by
  rw [← String.ofList_toList (s := s), String.toByteArray_ofList, String.ofList_toList]
  rfl

theorem utf8_inj {s t : String} (h : utf8 s = utf8 t) : s = t := by
  rw [← String.toByteArray_inj, ← utf8_toByteArray, ← utf8_toByteArray, h]

theorem length_utf8 (s : String) : (utf8 s).length = s.utf8ByteSize := by
  rw [String.utf8ByteSize, ← utf8_toByteArray]
  simp

theorem delimited_textStream : Delimited Short textStream := by
  intro s t hs ht x y h
  simp only [textStream, List.append_assoc] at h
  have hsize : 256 ^ 8 = UInt64.size := rfl
  obtain ⟨hlength, hrest⟩ := delimited_littleEndian 8 (utf8 s).length (utf8 t).length
    (by rwa [length_utf8, hsize]) (by rwa [length_utf8, hsize]) _ _ h
  obtain ⟨htext, hrest⟩ := List.append_inj hrest hlength
  exact ⟨utf8_inj htext, hrest⟩

theorem delimited_optionStream : Delimited (∀ s ∈ ·, Short s) optionStream := by
  intro a b ha hb x y h
  cases a with
  | none =>
    cases b with
    | none => exact ⟨rfl, (List.cons.inj h).2⟩
    | some t => simp [optionStream] at h
  | some s =>
    cases b with
    | none => simp [optionStream] at h
    | some t =>
      obtain ⟨rfl, hrest⟩ := delimited_textStream s t (ha s rfl) (hb t rfl) x y (List.cons.inj h).2
      exact ⟨rfl, hrest⟩

structure Sized (source : String) (enclosing immediate : Option String) (offset : Nat) : Prop where
  source : Short source
  enclosing : ∀ s ∈ enclosing, Short s
  immediate : ∀ s ∈ immediate, Short s
  offset : offset < UInt64.size

theorem requestStream_inj {source source' : String}
    {enclosing immediate enclosing' immediate' : Option String} {offset offset' : Nat}
    (h : Sized source enclosing immediate offset) (h' : Sized source' enclosing' immediate' offset')
    (hstream : requestStream source enclosing immediate offset =
      requestStream source' enclosing' immediate' offset') :
    source = source' ∧ enclosing = enclosing' ∧ immediate = immediate' ∧ offset = offset' := by
  simp only [requestStream, List.append_assoc] at hstream
  obtain ⟨hsource, hrest⟩ := delimited_textStream _ _ h.source h'.source _ _ hstream
  obtain ⟨henclosing, hrest⟩ := delimited_optionStream _ _ h.enclosing h'.enclosing _ _ hrest
  obtain ⟨himmediate, hrest⟩ := delimited_optionStream _ _ h.immediate h'.immediate _ _ hrest
  exact ⟨hsource, henclosing, himmediate, littleEndian_inj h.offset h'.offset hrest⟩

theorem flatMap_textStream_inj {names names' : List String} (h : ∀ n ∈ names, Short n)
    (h' : ∀ n ∈ names', Short n) (hstream : names.flatMap textStream = names'.flatMap textStream) :
    names = names' := by
  have hne (n : String) (rest : List UInt8) : textStream n ++ rest ≠ [] := by
    simp [textStream, littleEndian]
  induction names generalizing names' with
  | nil =>
    cases names' with
    | nil => rfl
    | cons n' ns' => exact absurd hstream.symm (hne n' _)
  | cons n ns ih =>
    cases names' with
    | nil => exact absurd hstream (hne n _)
    | cons n' ns' =>
      obtain ⟨hn, hns⟩ := List.forall_mem_cons.mp h
      obtain ⟨hn', hns'⟩ := List.forall_mem_cons.mp h'
      obtain ⟨rfl, hrest⟩ := delimited_textStream n n' hn hn' _ _ hstream
      rw [ih hns hns' hrest]

theorem externalsStream_inj {base base' : List UInt8} {names names' : List String}
    (hbase : base.length = base'.length) (h : ∀ n ∈ names, Short n) (h' : ∀ n ∈ names', Short n)
    (hstream : externalsStream base (nameSet names) = externalsStream base' (nameSet names')) :
    base = base' ∧ ∀ n, n ∈ names ↔ n ∈ names' := by
  simp only [externalsStream, List.append_assoc] at hstream
  obtain ⟨hbases, hrest⟩ := List.append_inj hstream hbase
  -- The number of names is not needed: their streams end where the whole stream does.
  obtain ⟨-, hnames⟩ := List.append_inj hrest (by rw [length_littleEndian, length_littleEndian])
  have hsets : nameSet names = nameSet names' := flatMap_textStream_inj
    (fun n hn => h n (mem_nameSet.mp hn)) (fun n hn => h' n (mem_nameSet.mp hn)) hnames
  refine ⟨hbases, fun n => ?_⟩
  rw [← mem_nameSet, hsets, mem_nameSet]

end Fingerprint

end SnippetEval
