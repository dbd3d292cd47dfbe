import SnippetEval.Proofs.Snippet.Rules

namespace SnippetEval

open Computability

namespace Piece

section runs

variable {p : Char → Bool} {w cs rest : List Char}

theorem take_run (p : Char → Bool) (cs : List Char) : cs.take (run p cs) = cs.takeWhile p :=
  (List.prefix_iff_eq_take.mp (List.takeWhile_prefix p)).symm

theorem run_le (p : Char → Bool) (cs : List Char) : run p cs ≤ cs.length :=
  (List.takeWhile_prefix p).length_le

theorem run_append (hw : ∀ c ∈ w, p c = true) : run p (w ++ rest) = w.length + run p rest := by
  rw [run, List.takeWhile_append_of_pos hw, List.length_append, run]

theorem run_eq_zero (h : ∀ c ∈ rest.head?, p c = false) : run p rest = 0 := by
  cases rest with
  | nil => rfl
  | cons c rest =>
    have hc : p c = false := h c rfl
    simp [run, hc]

theorem run_cons {c : Char} (hc : p c = true) : run p (c :: cs) = run p cs + 1 := by
  simp [run, hc]

theorem length_le_run (hfront : w <+: cs) (hw : ∀ c ∈ w, p c = true) : w.length ≤ run p cs := by
  obtain ⟨rest, rfl⟩ := hfront
  rw [run_append hw]
  exact Nat.le_add_right _ _

theorem head?_drop_run (p : Char → Bool) (cs : List Char) :
    ∀ c ∈ (cs.drop (run p cs)).head?, p c = false := by
  induction cs with
  | nil => nofun
  | cons d cs ih =>
    cases hd : p d with
    | true => rwa [run_cons hd, List.drop_succ_cons]
    | false =>
      rw [run_eq_zero (by rintro c ⟨⟩; exact hd)]
      rintro c ⟨⟩
      exact hd

theorem forall_mem_take_run (p : Char → Bool) (cs : List Char) :
    ∀ c ∈ cs.take (run p cs), p c = true := by
  rw [take_run]
  exact List.all_eq_true.mp List.all_takeWhile

end runs

section numbers

variable {w cs : List Char}

theorem run_pos_of_mem_digits (hw : w ∈ digits) (cs : List Char) :
    0 < run Char.isDigit (w ++ cs) := by
  obtain ⟨hne, hw⟩ := mem_digits.mp hw
  have hlength := List.length_pos_of_ne_nil hne
  rw [run_append hw]
  omega

theorem take_run_mem_digits (h : run Char.isDigit cs ≠ 0) :
    cs.take (run Char.isDigit cs) ∈ digits := by
  refine mem_digits.mpr ⟨?_, forall_mem_take_run _ cs⟩
  intro hnil
  rw [take_run] at hnil
  exact h (congrArg List.length hnil)

theorem signLength_append {sign ds : List Char} (hsign : sign = [] ∨ sign = ['+'] ∨ sign = ['-'])
    (hds : ds ∈ digits) : signLength (sign ++ (ds ++ cs)) = sign.length := by
  obtain ⟨hne, hds⟩ := mem_digits.mp hds
  obtain ⟨d, ds, rfl⟩ := List.exists_cons_of_ne_nil hne
  rcases hsign with rfl | rfl | rfl
  · have hplus : d ≠ '+' := by
      rintro rfl
      exact absurd (hds _ List.mem_cons_self) (by decide)
    have hminus : d ≠ '-' := by
      rintro rfl
      exact absurd (hds _ List.mem_cons_self) (by decide)
    simp [signLength, hplus, hminus]
  · rfl
  · rfl

theorem length_le_exponent (hw : w ∈ exponents) (hfront : w <+: cs) :
    w.length ≤ exponent cs := by
  obtain ⟨rest, rfl⟩ := hfront
  obtain ⟨e, sign, ds, he, hsign, hds, rfl⟩ := mem_exponents.mp hw
  have hrun : ds.length ≤ run Char.isDigit (ds ++ rest) :=
    length_le_run (List.prefix_append _ _) (mem_digits.mp hds).2
  have hpos := run_pos_of_mem_digits hds rest
  simp only [List.cons_append, List.append_assoc, exponent, signLength_append hsign hds,
    List.drop_left]
  rw [if_pos ⟨he, hpos.ne'⟩]
  simp only [List.length_cons, List.length_append]
  omega

theorem take_signLength (cs : List Char) : cs.take (signLength cs) = [] ∨
    cs.take (signLength cs) = ['+'] ∨ cs.take (signLength cs) = ['-'] := by
  unfold signLength
  split <;> simp

theorem take_exponent (h : exponent cs ≠ 0) : cs.take (exponent cs) ∈ exponents := by
  cases cs with
  | nil => exact absurd rfl h
  | cons e cs =>
    simp only [exponent] at h ⊢
    split at h
    · next hexponent =>
      obtain ⟨he, hn⟩ := hexponent
      rw [if_pos ⟨he, hn⟩]
      refine mem_exponents.mpr ⟨e, _, _, he, take_signLength cs, take_run_mem_digits hn, ?_⟩
      rw [← List.take_add, add_assoc, add_comm 1, List.take_succ_cons]
    · exact absurd rfl h

theorem exponent_le (cs : List Char) : exponent cs ≤ cs.length := by
  cases cs with
  | nil => exact Nat.le_refl 0
  | cons e cs =>
    simp only [exponent]
    split
    · next h =>
      have hrun := run_le Char.isDigit (cs.drop (signLength cs))
      have hpos := Nat.pos_of_ne_zero h.2
      rw [List.length_drop] at hrun
      rw [List.length_cons]
      omega
    · exact Nat.zero_le _

theorem fraction_point (cs : List Char) (h : run Char.isDigit cs ≠ 0) :
    fraction ('.' :: cs) = run Char.isDigit cs + 1 := by
  rw [fraction, if_neg h]

theorem fraction_eq_zero_or (cs : List Char) : fraction cs = 0 ∨
    ∃ ds, run Char.isDigit ds ≠ 0 ∧ cs = '.' :: ds ∧ fraction cs = run Char.isDigit ds + 1 := by
  unfold fraction
  split
  · next ds =>
    split
    · exact .inl rfl
    · next h => exact .inr ⟨ds, h, rfl, rfl⟩
  · exact .inl rfl

theorem length_le_of_float (hw : w ∈ Rule.float.language) (hfront : w <+: cs) :
    let n := run Char.isDigit cs
    let f := fraction (cs.drop n)
    f ≠ 0 ∧ w.length ≤ n + f + exponent (cs.drop (n + f)) := by
  obtain ⟨rest, rfl⟩ := hfront
  obtain ⟨whole, decimals, e, hwhole, hdecimals, he, rfl⟩ := mem_float.mp hw
  intro n f
  have hrun : n = whole.length := by
    have hpoint : run Char.isDigit ('.' :: (decimals ++ e) ++ rest) = 0 := by
      refine run_eq_zero ?_
      rintro c ⟨⟩
      rfl
    simp only [n, List.append_assoc, run_append (mem_digits.mp hwhole).2, hpoint, Nat.add_zero]
  have hf : f = run Char.isDigit (decimals ++ (e ++ rest)) + 1 := by
    simp only [f, hrun, List.append_assoc, List.cons_append, List.drop_left]
    exact fraction_point _ (run_pos_of_mem_digits hdecimals _).ne'
  refine ⟨by omega, ?_⟩
  rcases he with rfl | he
  · have hlength : decimals.length ≤ run Char.isDigit (decimals ++ rest) :=
      length_le_run (List.prefix_append _ _) (mem_digits.mp hdecimals).2
    simp only [List.nil_append, List.append_nil, List.length_append, List.length_cons] at hf ⊢
    omega
  · have hdigits : run Char.isDigit (e ++ rest) = 0 := by
      obtain ⟨c, sign, ds, hc, -, -, rfl⟩ := mem_exponents.mp he
      refine run_eq_zero ?_
      rintro d ⟨⟩
      rcases hc with rfl | rfl <;> rfl
    rw [run_append (mem_digits.mp hdecimals).2, hdigits] at hf
    have hdrop : (whole ++ '.' :: (decimals ++ e) ++ rest).drop (n + f) = e ++ rest := by
      rw [hrun, hf]
      simp
    rw [hdrop]
    have hexponent := length_le_exponent he (List.prefix_append e rest)
    simp only [List.length_append, List.length_cons]
    omega

theorem length_le_of_cons_float {c : Char} (hc : c.isDigit = true)
    (hw : c :: w ∈ Rule.float.language) (hfront : w <+: cs) :
    let n := run Char.isDigit cs
    let f := fraction (cs.drop n)
    f ≠ 0 ∧ w.length ≤ n + f + exponent (cs.drop (n + f)) := by
  have h := length_le_of_float hw (List.cons_prefix_cons.mpr ⟨rfl, hfront⟩)
  simp only [run_cons hc, Nat.add_right_comm _ 1, List.drop_succ_cons, List.length_cons,
    Nat.add_le_add_iff_right] at h
  exact h

theorem length_le_of_cons_int {c : Char} (hw : c :: w ∈ Rule.int.language) (hfront : w <+: cs) :
    w.length ≤ run Char.isDigit cs :=
  length_le_run hfront fun d hd => (mem_digits.mp hw).2 d (List.mem_cons_of_mem _ hd)

theorem take_float (hn : run Char.isDigit cs ≠ 0)
    (hf : fraction (cs.drop (run Char.isDigit cs)) ≠ 0) :
    let n := run Char.isDigit cs
    let f := fraction (cs.drop n)
    let m := n + f + exponent (cs.drop (n + f))
    m ≤ cs.length ∧ cs.take m ∈ Rule.float.language := by
  intro n f m
  rcases fraction_eq_zero_or (cs.drop n) with hzero | ⟨ds, hds, hpoint, hfraction⟩
  · exact absurd hzero hf
  have hf' : f = run Char.isDigit ds + 1 := hfraction
  have hlength := congrArg List.length hpoint
  rw [List.length_drop, List.length_cons] at hlength
  have hrun := run_le Char.isDigit ds
  have hexponent := exponent_le (cs.drop (n + f))
  rw [List.length_drop] at hexponent
  refine ⟨by omega, ?_⟩
  have htake : cs.take m = cs.take n ++ '.' :: (ds.take (run Char.isDigit ds) ++
      (cs.drop (n + f)).take (exponent (cs.drop (n + f)))) := by
    rw [List.take_add, List.take_add, hpoint, hf', List.take_succ_cons]
    simp
  rw [htake]
  refine mem_float.mpr ⟨_, _, _, take_run_mem_digits hn, take_run_mem_digits hds, ?_, rfl⟩
  by_cases he : exponent (cs.drop (n + f)) = 0
  · exact .inl (by rw [he, List.take_zero])
  · exact .inr (take_exponent he)

end numbers

section texts

variable {cs rest : List Char} {n : Nat}

theorem stringBody_le (cs : List Char) : (stringBody cs).1 ≤ cs.length := by
  fun_induction stringBody cs <;> simp_all

theorem stringBody_of_mem {body : List Char} (h : body ∈ textParts∗) :
    stringBody (body ++ '"' :: rest) = (body.length, true) := by
  rw [Language.mem_kstar] at h
  obtain ⟨parts, rfl, hparts⟩ := h
  induction parts with
  | nil => rfl
  | cons part parts ih =>
    have ih := ih fun v hv => hparts v (List.mem_cons_of_mem _ hv)
    rcases hparts part List.mem_cons_self with ⟨c, ⟨hquote, hslash⟩, rfl⟩ | hescape
    · simp [stringBody, hslash, ih]
    · obtain ⟨_, rfl, _, ⟨c, hc, rfl⟩, rfl⟩ := Language.mem_mul.mp hescape
      simp [stringBody, hc, ih]

theorem cons_mem_kstar {part body : List Char} (hpart : part ∈ textParts)
    (hbody : body ∈ textParts∗) : part ++ body ∈ textParts∗ := by
  rw [← Language.one_add_self_mul_kstar_eq_kstar]
  exact .inr (Language.append_mem_mul hpart hbody)

theorem mem_of_stringBody (h : stringBody cs = (n, true)) :
    ∃ body rest, body ∈ textParts∗ ∧ body.length = n ∧ cs = body ++ '"' :: rest := by
  fun_induction stringBody cs generalizing n with
  | case1 rest =>
    cases h
    exact ⟨[], rest, Language.nil_mem_kstar _, rfl, rfl⟩
  | case2 => cases h
  | case3 c cs hc m closed hbody ih =>
    cases h
    obtain ⟨body, rest, hmem, rfl, rfl⟩ := ih hbody
    have hpart : ['\\', c] ∈ textParts :=
      .inr (Language.mem_mul.mpr ⟨['\\'], rfl, [c], ⟨c, hc, rfl⟩, rfl⟩)
    exact ⟨'\\' :: c :: body, rest, cons_mem_kstar hpart hmem, rfl, rfl⟩
  | case4 => cases h
  | case5 c cs hquote hescape hlast m closed hbody ih =>
    cases h
    obtain ⟨body, rest, hmem, rfl, rfl⟩ := ih hbody
    have hslash : c ≠ '\\' := by
      rintro rfl
      cases body with
      | nil => exact hescape _ _ rfl rfl
      | cons d body => exact hescape _ _ rfl rfl
    have hpart : [c] ∈ textParts := .inl ⟨c, ⟨hquote, hslash⟩, rfl⟩
    exact ⟨c :: body, rest, cons_mem_kstar hpart hmem, rfl, rfl⟩
  | case6 => cases h

end texts

inductive Skip (rest : List Char) : List Char → Prop
  | space {text : List Char} : text ≠ [] →
      (∀ c ∈ text, c = ' ' ∨ c = '\t' ∨ c = '\r' ∨ c = '\n') → Skip rest text
  | comment {body : List Char} : '\n' ∉ body → (∀ c ∈ rest.head?, c = '\n') →
      Skip rest ('/' :: '/' :: body)

def Fits (text rest : List Char) : Piece → Prop
  | blank => Skip rest text
  | token t => ∃ rule : Rule, rule.Wins text rest ∧ rule.value text = some t
  | unreadable => (∃ rule : Rule, rule.Wins text rest ∧ rule.value text = none) ∨
      ∀ w, Readable w → ¬ w <+: text ++ rest

def Kept (c : Char) (cs : List Char) : Prop :=
  isBlank c = false ∧ ¬ (c = '/' ∧ cs.head? = some '/')

section fits

variable {c : Char} {cs w : List Char} {rule : Rule} {n : Nat}

theorem Kept.readable (hkept : Kept c cs) (hw : Readable w) (hfront : w <+: c :: cs) :
    ∃ v, w = c :: v ∧ v <+: cs ∧ ∃ rule ∈ Rule.startingWith (leadOf c), c :: v ∈ rule.language := by
  obtain ⟨hblank, hcomment⟩ := hkept
  rcases List.prefix_cons_iff.mp hfront with rfl | ⟨v, rfl, hv⟩
  · rcases hw with hskip | ⟨rule, hrule, hreads⟩
    · simp [mem_skipped] at hskip
    · exact absurd hreads (Rule.nil_notMem_language hrule)
  · refine ⟨v, rfl, hv, ?_⟩
    rcases hw with hskip | ⟨rule, hrule, hreads⟩
    · rcases mem_skipped.mp hskip with ⟨-, hspace⟩ | ⟨body, -, hbody⟩
      · rw [hspace c List.mem_cons_self] at hblank
        cases hblank
      · obtain ⟨rfl, rfl⟩ := List.cons.inj hbody
        obtain ⟨rest, rfl⟩ := hv
        exact absurd ⟨rfl, rfl⟩ hcomment
    · exact ⟨rule, Rule.mem_startingWith hrule hreads, hreads⟩

theorem Kept.not_readable (hkept : Kept c cs)
    (h : ∀ rule ∈ Rule.startingWith (leadOf c), ∀ v, c :: v ∈ rule.language → ¬ v <+: cs)
    (w : List Char) (hw : Readable w) : ¬ w <+: c :: cs := by
  intro hfront
  obtain ⟨v, rfl, hv, rule, hrule, hmem⟩ := hkept.readable hw hfront
  exact h rule hrule v hmem hv

theorem Kept.wins (hkept : Kept c cs) (hrule : rule ∈ Rule.all)
    (hreads : c :: cs.take n ∈ rule.language)
    (hlongest : ∀ other ∈ Rule.startingWith (leadOf c), ∀ w, c :: w ∈ other.language →
      w <+: cs → w.length ≤ n)
    (hpreferred : ∀ other ∈ Rule.startingWith (leadOf c), c :: cs.take n ∈ other.language →
      other = rule ∨ rule ∈ Rule.keywords ∧ other = .name) :
    rule.Wins (c :: cs.take n) (cs.drop n) where
  mem := hrule
  reads := hreads
  longest := by
    intro w hw hfront
    rw [List.cons_append, List.take_append_drop] at hfront
    obtain ⟨v, rfl, hv, other, hother, hmem⟩ := hkept.readable hw hfront
    have hn := hlongest other hother v hmem hv
    have hcs := hv.length_le
    simp only [List.length_cons, List.length_take]
    omega
  preferred := fun other hother hmem => hpreferred other (Rule.mem_startingWith hother hmem) hmem

def ofValue : Option Token → Piece
  | some t => token t
  | none => unreadable

theorem fits_ofValue {text rest : List Char} (h : rule.Wins text rest) :
    Fits text rest (ofValue (rule.value text)) := by
  cases hvalue : rule.value text with
  | some t => exact ⟨rule, h, hvalue⟩
  | none => exact .inl ⟨rule, h, hvalue⟩

theorem ofWord_cases (w : List Char) :
    (∃ rule ∈ Rule.keywords, rule.word = w ∧ rule.value w = some (Token.ofWord w)) ∨
      (∀ rule ∈ Rule.keywords, rule.word ≠ w) ∧ Rule.name.value w = some (Token.ofWord w) := by
  unfold Token.ofWord
  split
  iterate 5 exact .inl ⟨.exactly _ _, by simp [Rule.keywords], rfl, rfl⟩
  next hlet hthis htrue hfalse hnull =>
    refine .inr ⟨?_, rfl⟩
    intro rule hrule hword
    simp only [Rule.keywords, List.mem_cons, List.not_mem_nil, or_false] at hrule
    rcases hrule with rfl | rfl | rfl | rfl | rfl
    · exact hlet hword.symm
    · exact hthis hword.symm
    · exact htrue hword.symm
    · exact hfalse hword.symm
    · exact hnull hword.symm

theorem keyword_mem_name : ∀ rule ∈ Rule.keywords, rule.word ∈ Rule.name.language := by
  intro rule hrule
  simp only [Rule.keywords, List.mem_cons, List.not_mem_nil, or_false] at hrule
  rcases hrule with rfl | rfl | rfl | rfl | rfl <;>
    exact cons_mem_name.mpr ⟨by decide, List.all_eq_true.mp (by decide)⟩

theorem fits_name (hkept : Kept c cs) (hc : isNameStart c = true) :
    Fits (c :: cs.take (run isNameRest cs)) (cs.drop (run isNameRest cs))
      (token (Token.ofWord (c :: cs.take (run isNameRest cs)))) := by
  have hlead : leadOf c = .letter := by rw [leadOf, if_pos hc]
  have hname : c :: cs.take (run isNameRest cs) ∈ Rule.name.language :=
    cons_mem_name.mpr ⟨hc, forall_mem_take_run _ cs⟩
  have hletter (rule : Rule) (h : rule ∈ Rule.startingWith (leadOf c)) :
      rule ∈ Rule.keywords ∨ rule = .name := by
    rw [hlead] at h
    simpa [Rule.startingWith] using h
  have hlongest : ∀ other ∈ Rule.startingWith (leadOf c), ∀ w, c :: w ∈ other.language →
      w <+: cs → w.length ≤ run isNameRest cs := by
    intro other hother w hw hfront
    have hname : c :: w ∈ Rule.name.language := by
      rcases hletter other hother with hkeyword | rfl
      · rw [Rule.mem_language_of_mem (List.mem_append_left _ hkeyword)] at hw
        rw [hw]
        exact keyword_mem_name other hkeyword
      · exact hw
    exact length_le_run hfront (cons_mem_name.mp hname).2
  rcases ofWord_cases (c :: cs.take (run isNameRest cs)) with
    ⟨rule, hrule, hword, hvalue⟩ | ⟨hnone, hvalue⟩
  · have hreads : c :: cs.take (run isNameRest cs) ∈ rule.language :=
      (Rule.mem_language_of_mem (List.mem_append_left _ hrule)).mpr hword.symm
    refine ⟨rule, hkept.wins (Rule.mem_all.mpr (.inl hrule)) hreads hlongest ?_, hvalue⟩
    intro other hother hmem
    rcases hletter other hother with hkeyword | rfl
    · exact .inl (Rule.eq_of_mem_language (List.mem_append_left _ hrule)
        (List.mem_append_left _ hkeyword) hreads hmem)
    · exact .inr ⟨hrule, rfl⟩
  · refine ⟨.name, hkept.wins (by simp [Rule.all]) hname hlongest ?_, hvalue⟩
    intro other hother hmem
    rcases hletter other hother with hkeyword | rfl
    · rw [Rule.mem_language_of_mem (List.mem_append_left _ hkeyword)] at hmem
      exact absurd hmem.symm (hnone other hkeyword)
    · exact .inl rfl

theorem ofInt_eq (w : List Char) : ofInt w = ofValue (Rule.int.value w) := by
  simp only [ofInt, Rule.value]
  cases Decimal.readInt w <;> rfl

theorem ofFloat_eq (w : List Char) : ofFloat w = ofValue (Rule.float.value w) := by
  simp only [ofFloat, Rule.value]
  cases Decimal.readFloat w <;> rfl

theorem fits_int (hkept : Kept c cs) (hc : c.isDigit = true)
    (hf : fraction (cs.drop (run Char.isDigit cs)) = 0) :
    Fits (c :: cs.take (run Char.isDigit cs)) (cs.drop (run Char.isDigit cs))
      (ofInt (c :: cs.take (run Char.isDigit cs))) := by
  have hreads : c :: cs.take (run Char.isDigit cs) ∈ Rule.int.language :=
    mem_digits.mpr ⟨List.cons_ne_nil _ _, List.forall_mem_cons.mpr ⟨hc, forall_mem_take_run _ cs⟩⟩
  rw [ofInt_eq]
  refine fits_ofValue (hkept.wins (by simp [Rule.all]) hreads ?_ ?_)
  all_goals rw [leadOf_of_isDigit hc]
  · refine Rule.forall_startingWith_digit ?_ ?_
    · intro w hw hfront
      exact absurd hf (length_le_of_cons_float hc hw hfront).1
    · exact fun w hw hfront => length_le_of_cons_int hw hfront
  · refine Rule.forall_startingWith_digit ?_ ?_
    · intro hw
      exact absurd hf (length_le_of_cons_float hc hw (List.take_prefix _ _)).1
    · exact fun _ => .inl rfl

theorem fits_float (hkept : Kept c cs) (hc : c.isDigit = true)
    (hf : fraction (cs.drop (run Char.isDigit cs)) ≠ 0) :
    let n := run Char.isDigit cs
    let f := fraction (cs.drop n)
    let m := n + f + exponent (cs.drop (n + f))
    m ≤ cs.length ∧ Fits (c :: cs.take m) (cs.drop m) (ofFloat (c :: cs.take m)) := by
  intro n f m
  have htake := @take_float (c :: cs) (by simp [run_cons hc])
  simp only [run_cons hc, Nat.add_right_comm _ 1, List.drop_succ_cons, List.take_succ_cons,
    List.length_cons, Nat.add_le_add_iff_right] at htake
  obtain ⟨hm, hreads⟩ := htake hf
  refine ⟨hm, ?_⟩
  rw [ofFloat_eq]
  refine fits_ofValue (hkept.wins (by simp [Rule.all]) hreads ?_ ?_)
  all_goals rw [leadOf_of_isDigit hc]
  · refine Rule.forall_startingWith_digit ?_ ?_
    · exact fun w hw hfront => (length_le_of_cons_float hc hw hfront).2
    · intro w hw hfront
      have hn : w.length ≤ n := length_le_of_cons_int hw hfront
      omega
  · refine Rule.forall_startingWith_digit ?_ ?_
    · exact fun _ => .inl rfl
    · intro hw
      have hn : (cs.take m).length ≤ n := length_le_of_cons_int hw (List.take_prefix _ _)
      rw [List.length_take, min_eq_left hm] at hn
      omega

theorem fits_number (hkept : Kept c cs) (hc : c.isDigit = true) :
    (scanNumber c cs).2 ≤ cs.length ∧
      Fits (c :: cs.take (scanNumber c cs).2) (cs.drop (scanNumber c cs).2) (scanNumber c cs).1 := by
  by_cases hf : fraction (cs.drop (run Char.isDigit cs)) = 0
  · have hscan : scanNumber c cs =
        (ofInt (c :: cs.take (run Char.isDigit cs)), run Char.isDigit cs) := by
      simp only [scanNumber, if_pos hf]
    rw [hscan]
    exact ⟨run_le _ cs, fits_int hkept hc hf⟩
  · simp only [scanNumber, if_neg hf]
    exact fits_float hkept hc hf

theorem ofBody_eq (body : List Char) :
    ofBody body = ofValue (Rule.text.value ('"' :: (body ++ ['"']))) := by
  simp only [ofBody, Rule.value, List.tail_cons, List.dropLast_concat]
  cases unescape body <;> rfl

theorem stringBody_of_front {w : List Char} (hw : '"' :: w ∈ Rule.text.language)
    (hfront : w <+: cs) : ∃ n, stringBody cs = (n, true) ∧ w.length = n + 1 := by
  obtain ⟨rest, rfl⟩ := hfront
  obtain ⟨body, hbody, hw⟩ := mem_text.mp hw
  obtain rfl := (List.cons.inj hw).2
  rw [List.append_assoc]
  exact ⟨body.length, stringBody_of_mem hbody, by simp⟩

theorem fits_string (cs : List Char) : (scanString cs).2 ≤ cs.length ∧
    Fits ('"' :: cs.take (scanString cs).2) (cs.drop (scanString cs).2) (scanString cs).1 := by
  have hkept : Kept '"' cs := ⟨by decide, by simp⟩
  cases hbody : stringBody cs with
  | mk n closed =>
    cases closed with
    | false =>
      simp only [scanString, hbody]
      refine ⟨?_, .inr ?_⟩
      · have hn := stringBody_le cs
        rwa [hbody] at hn
      · rw [List.cons_append, List.take_append_drop]
        refine hkept.not_readable (List.forall_mem_singleton.mpr ?_)
        intro w hw hfront
        obtain ⟨m, hm, -⟩ := stringBody_of_front hw hfront
        rw [hbody] at hm
        cases hm
    | true =>
      obtain ⟨body, rest, hmem, rfl, rfl⟩ := mem_of_stringBody hbody
      have htake : (body ++ '"' :: rest).take (body.length + 1) = body ++ ['"'] := by
        rw [List.take_length_add_append]
        rfl
      have hreads : '"' :: (body ++ '"' :: rest).take (body.length + 1) ∈ Rule.text.language := by
        rw [htake]
        exact mem_text.mpr ⟨body, hmem, rfl⟩
      have hscan : scanString (body ++ '"' :: rest) = (ofBody body, body.length + 1) := by
        simp only [scanString, hbody, if_true, List.take_left]
      rw [hscan]
      refine ⟨by simp, ?_⟩
      rw [ofBody_eq, ← htake]
      refine fits_ofValue (hkept.wins (by simp [Rule.all]) hreads ?_ ?_)
      · refine List.forall_mem_singleton.mpr ?_
        intro w hw hfront
        obtain ⟨m, hm, hlength⟩ := stringBody_of_front hw hfront
        rw [hbody] at hm
        cases hm
        exact hlength.le
      · exact List.forall_mem_singleton.mpr fun _ => .inl rfl

def pairs : List (List Char) :=
  [['=', '='], ['!', '='], ['<', '='], ['>', '='], ['&', '&'], ['|', '|']]

theorem length_le_or_mem_pairs :
    ∀ rule ∈ Rule.symbols, rule.word.length ≤ 0 + 1 ∨ rule.word ∈ pairs := by decide

theorem length_word_le (h : ∀ pair ∈ pairs, ¬ pair <+: cs) :
    ∀ rule ∈ Rule.symbols, rule.word <+: cs → rule.word.length ≤ 0 + 1 := by
  intro rule hrule hfront
  rcases length_le_or_mem_pairs rule hrule with hle | hpair
  · exact hle
  · exact absurd hfront (h _ hpair)

theorem word_length_le : ∀ rule ∈ Rule.symbols, rule.word.length ≤ 2 := by decide

theorem scanSymbol_cases (c : Char) (cs : List Char) :
    (∃ rule n, rule ∈ Rule.symbols ∧ rule.word = c :: cs.take n ∧ n ≤ cs.length ∧
      scanSymbol c cs = (ofValue (rule.value rule.word), n) ∧
      ∀ other ∈ Rule.symbols, other.word <+: c :: cs → other.word.length ≤ n + 1) ∨
    scanSymbol c cs = (unreadable, 0) ∧ ∀ other ∈ Rule.symbols, ¬ other.word <+: c :: cs := by
  unfold scanSymbol
  split
  iterate 6
    exact .inl ⟨.exactly _ _, 1, by simp [Rule.symbols], rfl, by simp, rfl,
      fun other hother _ => word_length_le other hother⟩
  iterate 4
    next hpair =>
      have hfront : ¬ ['='] <+: cs := by
        rintro ⟨tail, rfl⟩
        exact hpair tail rfl
      refine .inl ⟨.exactly _ _, 0, by simp [Rule.symbols], rfl, Nat.zero_le _, rfl,
        length_word_le ?_⟩
      simp [pairs, List.cons_prefix_cons, hfront]
  iterate 9
    · refine .inl ⟨.exactly _ _, 0, by simp [Rule.symbols], rfl, Nat.zero_le _, rfl,
        length_word_le ?_⟩
      simp [pairs, List.cons_prefix_cons]
  next hequal hnot hless hgreater hsemi hplus hminus hstar hslash hpercent hdot hopen hclose _ _ _ _
      hand hor =>
    have hands : '&' = c → ¬ ['&'] <+: cs := by
      rintro rfl ⟨tail, rfl⟩
      exact hand tail rfl rfl
    have hors : '|' = c → ¬ ['|'] <+: cs := by
      rintro rfl ⟨tail, rfl⟩
      exact hor tail rfl rfl
    refine .inr ⟨rfl, ?_⟩
    simpa [Rule.symbols, Rule.word, List.cons_prefix_cons, Ne.symm hequal, Ne.symm hnot,
      Ne.symm hless, Ne.symm hgreater, Ne.symm hsemi, Ne.symm hplus, Ne.symm hminus, Ne.symm hstar,
      Ne.symm hslash, Ne.symm hpercent, Ne.symm hdot, Ne.symm hopen, Ne.symm hclose]
      using And.intro hands hors

theorem fits_symbol (hkept : Kept c cs) (hlead : leadOf c = .other) :
    (scanSymbol c cs).2 ≤ cs.length ∧
      Fits (c :: cs.take (scanSymbol c cs).2) (cs.drop (scanSymbol c cs).2) (scanSymbol c cs).1 := by
  rcases scanSymbol_cases c cs with ⟨rule, n, hrule, hword, hn, hscan, hlongest⟩ | ⟨hscan, hnone⟩
  · have hmem := List.mem_append_right Rule.keywords hrule
    have hreads : c :: cs.take n ∈ rule.language := (Rule.mem_language_of_mem hmem).mpr hword.symm
    rw [hscan, hword]
    refine ⟨hn, fits_ofValue (hkept.wins (Rule.mem_all.mpr (.inr (.inl hrule))) hreads ?_ ?_)⟩
    all_goals rw [hlead]
    · intro other hother w hw hfront
      rw [Rule.mem_language_of_mem (List.mem_append_right _ hother)] at hw
      have h := hlongest other hother (hw ▸ List.cons_prefix_cons.mpr ⟨rfl, hfront⟩)
      rw [← hw] at h
      exact Nat.le_of_succ_le_succ h
    · intro other hother hw
      exact .inl (Rule.eq_of_mem_language hmem (List.mem_append_right _ hother) hreads hw)
  · rw [hscan]
    refine ⟨Nat.zero_le _, .inr (hkept.not_readable ?_)⟩
    rw [hlead]
    intro other hother w hw hfront
    rw [Rule.mem_language_of_mem (List.mem_append_right _ hother)] at hw
    exact hnone other hother (hw ▸ List.cons_prefix_cons.mpr ⟨rfl, hfront⟩)

theorem fits_blank (hc : isBlank c = true) :
    Fits (c :: cs.take (run isBlank cs)) (cs.drop (run isBlank cs)) blank := by
  refine .space (List.cons_ne_nil _ _) ?_
  intro d hd
  refine isBlank_iff.mp ?_
  rcases List.mem_cons.mp hd with rfl | hd
  · exact hc
  · exact forall_mem_take_run _ _ d hd

theorem fits_comment (hc : cs.head? = some '/') :
    Fits ('/' :: cs.take (run (· ≠ '\n') cs)) (cs.drop (run (· ≠ '\n') cs)) blank := by
  obtain ⟨rest, rfl⟩ := List.head?_eq_some_iff.mp hc
  rw [run_cons (by decide), List.take_succ_cons, List.drop_succ_cons]
  refine .comment ?_ ?_
  · intro hn
    have h := forall_mem_take_run _ rest _ hn
    simp at h
  · intro c hc
    simpa using head?_drop_run _ rest c hc

theorem scan_fits (c : Char) (cs : List Char) : (scan c cs).2 ≤ cs.length ∧
    Fits (c :: cs.take (scan c cs).2) (cs.drop (scan c cs).2) (scan c cs).1 := by
  unfold scan
  split
  · next hblank => exact ⟨run_le _ cs, fits_blank hblank⟩
  next hblank =>
  split
  · next hcomment =>
    obtain ⟨rfl, hcomment⟩ := hcomment
    exact ⟨run_le _ cs, fits_comment hcomment⟩
  next hcomment =>
  have hkept : Kept c cs := ⟨by simpa using hblank, hcomment⟩
  split
  · next hstart => exact ⟨run_le _ cs, fits_name hkept hstart⟩
  next hstart =>
  split
  · next hdigit => exact fits_number hkept hdigit
  next hdigit =>
  split
  · next hquote =>
    subst hquote
    exact fits_string cs
  next hquote =>
  exact fits_symbol hkept (by rw [leadOf, if_neg hstart, if_neg hdigit, if_neg hquote])

end fits

end Piece

end SnippetEval
