import SnippetEval.Proofs.Snippet.Tiling
/-!
Texts with the same words. A word is read as the same token whatever text it stands in, as long as
white space or nothing follows it, so the gaps between the words of a text may be replaced.
-/

namespace SnippetEval

open Computability

section words

variable {rule other : Rule} {text text' rest rest' w : List Char} {c : Char} {t : Token} {n : Nat}

theorem isBlank_of_isDigit (h : c.isDigit = true) : Piece.isBlank c = false := by
  rw [← Bool.not_eq_true]
  intro hblank
  rcases isBlank_iff.mp hblank with rfl | rfl | rfl | rfl <;> cases h

theorem isBlank_of_isNameRest (h : Piece.isNameRest c = true) : Piece.isBlank c = false := by
  rw [← Bool.not_eq_true]
  intro hblank
  rcases isBlank_iff.mp hblank with rfl | rfl | rfl | rfl <;> cases h

theorem blankless_words :
    ∀ rule ∈ Rule.keywords ++ Rule.symbols, rule.word.all (!Piece.isBlank ·) = true := by
  decide

theorem blankless_digits (h : w ∈ digits) : ∀ c ∈ w, Piece.isBlank c = false :=
  fun c hc => isBlank_of_isDigit ((mem_digits.mp h).2 c hc)

theorem blankless_exponents (h : w ∈ exponents) : ∀ c ∈ w, Piece.isBlank c = false := by
  obtain ⟨e, sign, ds, he, hsign, hds, rfl⟩ := mem_exponents.mp h
  refine List.forall_mem_cons.mpr ⟨?_, List.forall_mem_append.mpr ⟨?_, blankless_digits hds⟩⟩
  · rcases he with rfl | rfl <;> rfl
  · rcases hsign with rfl | rfl | rfl <;> simp [Piece.isBlank]

theorem blankless_of_mem (hrule : rule ∈ Rule.all) (htext : rule ≠ .text)
    (hw : w ∈ rule.language) : ∀ c ∈ w, Piece.isBlank c = false := by
  have hword (h : rule ∈ Rule.keywords ++ Rule.symbols) : ∀ c ∈ w, Piece.isBlank c = false := by
    rw [(Rule.mem_language_of_mem h).mp hw]
    simpa using blankless_words rule h
  rcases Rule.mem_all.mp hrule with h | h | rfl | rfl | rfl | rfl
  · exact hword (List.mem_append_left _ h)
  · exact hword (List.mem_append_right _ h)
  · obtain ⟨whole, decimals, e, hwhole, hdecimals, he, rfl⟩ := mem_float.mp hw
    refine List.forall_mem_append.mpr ⟨blankless_digits hwhole, List.forall_mem_cons.mpr ⟨rfl, ?_⟩⟩
    refine List.forall_mem_append.mpr ⟨blankless_digits hdecimals, ?_⟩
    rcases he with rfl | he
    · nofun
    · exact blankless_exponents he
  · exact blankless_digits hw
  · exact absurd rfl htext
  · cases w with
    | nil => nofun
    | cons d w =>
      obtain ⟨hd, hw⟩ := cons_mem_name.mp hw
      have hrest : Piece.isNameRest d = true := by
        rw [isNameRest_iff]
        exact (isNameStart_iff.mp hd).imp_right .inr
      exact List.forall_mem_cons.mpr
        ⟨isBlank_of_isNameRest hrest, fun c hc => isBlank_of_isNameRest (hw c hc)⟩

theorem Rule.mem_all_of_mem_startingWith {lead : Lead} (h : rule ∈ Rule.startingWith lead) :
    rule ∈ Rule.all := by
  rw [Rule.mem_all]
  cases lead <;> simp only [Rule.startingWith, List.mem_append, List.mem_cons,
    List.not_mem_nil, or_false] at h <;> tauto

theorem slash_words :
    ∀ rule ∈ Rule.symbols, rule.word.head? = some '/' → rule.word = ['/'] := by
  decide

namespace Rule.Wins

theorem exists_cons (h : rule.Wins text rest) : ∃ c w, text = c :: w := by
  refine List.exists_cons_of_ne_nil ?_
  rintro rfl
  exact nil_notMem_language h.mem h.reads

theorem kept (h : rule.Wins (c :: w) rest) : Piece.Kept c (w ++ rest) := by
  constructor
  · by_cases htext : rule = .text
    · subst htext
      obtain ⟨body, -, hw⟩ := mem_text.mp h.reads
      obtain rfl := (List.cons.inj hw).1
      rfl
    · exact blankless_of_mem h.mem htext h.reads c List.mem_cons_self
  · rintro ⟨rfl, hhead⟩
    have hcomment : Readable ['/', '/'] := .inl (mem_skipped.mpr (.inr ⟨[], by simp, rfl⟩))
    obtain ⟨tail, htail⟩ := List.head?_eq_some_iff.mp hhead
    have hlength := h.longest _ hcomment ⟨tail, by simp [htail]⟩
    have hsymbol : rule ∈ symbols := mem_startingWith h.mem h.reads
    have hword := (mem_language_of_mem (List.mem_append_right _ hsymbol)).mp h.reads
    have hslash := slash_words rule hsymbol (by rw [← hword]; rfl)
    rw [hword, hslash] at hlength
    simp at hlength

theorem unique (h : rule.Wins text rest) (h' : other.Wins text' rest')
    (heq : text ++ rest = text' ++ rest') : rule = other ∧ text = text' ∧ rest = rest' := by
  have hle : text'.length ≤ text.length :=
    h.longest text' (.inr ⟨other, h'.mem, h'.reads⟩) ⟨rest', heq.symm⟩
  have hge : text.length ≤ text'.length :=
    h'.longest text (.inr ⟨rule, h.mem, h.reads⟩) ⟨rest, heq⟩
  obtain ⟨rfl, rfl⟩ := List.append_inj heq (Nat.le_antisymm hge hle)
  refine ⟨?_, rfl, rfl⟩
  rcases h.preferred other h'.mem h'.reads with rfl | ⟨hkeyword, rfl⟩
  · rfl
  · rcases h'.preferred rule h.mem h.reads with rfl | ⟨hname, -⟩
    · rfl
    · simp [keywords] at hname

theorem eq_nil_of_text_append {body : List Char} (h : '"' :: w ∈ Rule.text.language)
    (h' : '"' :: (w ++ body) ∈ Rule.text.language) : body = [] := by
  obtain ⟨n, hn, hlength⟩ := Piece.stringBody_of_front h (List.prefix_append w body)
  obtain ⟨m, hm, hlength'⟩ := Piece.stringBody_of_front h' (List.prefix_refl (w ++ body))
  rw [hn] at hm
  cases hm
  rw [List.length_append] at hlength'
  exact List.eq_nil_of_length_eq_zero (by omega)

theorem kept_before_blank (h : rule.Wins (c :: w) rest)
    (hrest' : ∀ c ∈ rest'.head?, Piece.isBlank c = true) : Piece.Kept c (w ++ rest') := by
  obtain ⟨hblank, hcomment⟩ := h.kept
  refine ⟨hblank, ?_⟩
  cases w with
  | nil =>
    rintro ⟨-, hslash⟩
    exact absurd (hrest' _ hslash) (by decide)
  | cons d w => exact hcomment

theorem before_blank (h : rule.Wins text rest)
    (hrest' : ∀ c ∈ rest'.head?, Piece.isBlank c = true) : rule.Wins text rest' where
  mem := h.mem
  reads := h.reads
  preferred := h.preferred
  longest := by
    intro w hw hfront
    obtain ⟨c, u, rfl⟩ := h.exists_cons
    obtain ⟨v, rfl, hv, other, hother, hreads⟩ := (h.kept_before_blank hrest').readable hw hfront
    by_contra hlt
    simp only [List.length_cons, Nat.not_le, Nat.add_lt_add_iff_right] at hlt
    obtain ⟨v, rfl⟩ : u <+: v := List.prefix_of_prefix_length_le (List.prefix_append u _) hv hlt.le
    obtain ⟨b, v, rfl⟩ : ∃ b tail, v = b :: tail := List.exists_cons_of_ne_nil (by
      rintro rfl
      simp at hlt)
    obtain ⟨tail, rfl⟩ := (List.prefix_append_right_inj u).mp hv
    -- A longer word holds the white space, as only a text in quotes does, and it begins with the
    -- word that was read, which is closed already.
    by_cases htext : other = .text
    · subst htext
      obtain ⟨body, -, hbody⟩ := mem_text.mp hreads
      obtain rfl := (List.cons.inj hbody).1
      obtain rfl : rule = .text := List.mem_singleton.mp (mem_startingWith h.mem h.reads)
      exact List.cons_ne_nil _ _ (eq_nil_of_text_append h.reads hreads)
    · have hblank := blankless_of_mem (mem_all_of_mem_startingWith hother) htext hreads b (by simp)
      rw [hrest' b rfl] at hblank
      cases hblank

end Rule.Wins

theorem Piece.Kept.not_skip {cs : List Char} (h : Piece.Kept c cs) (hw : w <+: cs) :
    ¬ Piece.Skip rest (c :: w) := by
  obtain ⟨hblank, hcomment⟩ := h
  intro hskip
  generalize htext : c :: w = text at hskip
  cases hskip with
  | space _ hspace =>
    rw [isBlank_iff.mpr (hspace c (htext ▸ List.mem_cons_self))] at hblank
    cases hblank
  | comment _ _ =>
    obtain ⟨rfl, rfl⟩ := List.cons.inj htext
    obtain ⟨tail, rfl⟩ := hw
    exact hcomment ⟨rfl, rfl⟩

theorem scan_of_wins (h : rule.Wins (c :: w) rest) (hvalue : rule.value (c :: w) = some t) :
    Piece.scan c (w ++ rest) = (.token t, w.length) := by
  obtain ⟨hn, hfits⟩ := Piece.scan_fits c (w ++ rest)
  generalize Piece.scan c (w ++ rest) = scanned at hn hfits ⊢
  obtain ⟨piece, n⟩ := scanned
  have hsplit : c :: w ++ rest = c :: (w ++ rest).take n ++ (w ++ rest).drop n := by simp
  have hlength (hwords : c :: w = c :: (w ++ rest).take n) : n = w.length := by
    have hwords := congrArg List.length hwords
    simp only [List.length_cons, List.length_take, Nat.min_eq_left hn] at hwords
    omega
  cases piece with
  | blank => exact absurd hfits (h.kept.not_skip (List.take_prefix _ _))
  | token t' =>
    obtain ⟨other, hwins, hvalue'⟩ := hfits
    obtain ⟨rfl, hwords, -⟩ := h.unique hwins hsplit
    rw [← hwords, hvalue] at hvalue'
    rw [hlength hwords, Option.some.inj hvalue']
  | unreadable =>
    rcases hfits with ⟨other, hwins, hnone⟩ | hnone
    · obtain ⟨rfl, hwords, -⟩ := h.unique hwins hsplit
      rw [← hwords, hvalue] at hnone
      cases hnone
    · exact absurd ⟨rest, hsplit⟩ (hnone _ (.inr ⟨rule, h.mem, h.reads⟩))

end words

def Tile.isBlank (t : Tile) : Bool :=
  match t.piece with
  | .blank => true
  | _ => false

def Tile.token? (t : Tile) : Option Token :=
  match t.piece with
  | .token x => some x
  | _ => none

def keptTiles (cs : List Char) : List Tile := (tile cs).filter (!·.isBlank)

def wordsOf (source : String) : List (List Char) := (keptTiles source.toList).map Tile.text

/-- The words stand in the text in their order, with white space and comments before, between and
behind them. Directly behind a word stands white space, or nothing. -/
inductive Spread : List (List Char) → List Char → Prop
  | last {gap : List Char} : Gap [] gap → Spread [] gap
  | next {gap word rest : List Char} {words : List (List Char)} : Gap (word ++ rest) gap →
      (∀ c ∈ rest.head?, Piece.isBlank c = true) → Spread words rest →
      Spread (word :: words) (gap ++ (word ++ rest))

theorem Gap.blank {c : Char} {rest gap : List Char} (hc : Piece.isBlank c = true)
    (hgap : Gap rest gap) : Gap rest (c :: gap) :=
  @Gap.append rest [c] gap (.space (List.cons_ne_nil _ _)
    (List.forall_mem_singleton.mpr (isBlank_iff.mp hc))) hgap

section kept

variable {cs gap skip w rest : List Char} {c : Char} {t : Token} {n : Nat}

theorem kept_of_blank (h : Piece.scan c cs = (.blank, n)) :
    keptTiles (c :: cs) = keptTiles (cs.drop n) := by
  simp only [keptTiles, tile, h, Tile.isBlank, List.filter_cons, Bool.not_true, Bool.false_eq_true,
    if_false]

theorem kept_of_token (h : Piece.scan c (w ++ rest) = (.token t, w.length)) :
    keptTiles (c :: (w ++ rest)) = ⟨.token t, c :: w⟩ :: keptTiles rest := by
  simp [keptTiles, tile, h, Tile.isBlank]

theorem kept_blank (hc : Piece.isBlank c = true) : keptTiles (c :: cs) = keptTiles cs := by
  have hscan (d : Char) (ds : List Char) (hd : Piece.isBlank d = true) :
      Piece.scan d ds = (.blank, Piece.run Piece.isBlank ds) := by
    rw [Piece.scan, if_pos hd]
  rw [kept_of_blank (hscan c cs hc)]
  cases cs with
  | nil => rfl
  | cons d ds =>
    by_cases hd : Piece.isBlank d = true
    · rw [Piece.run_cons hd, List.drop_succ_cons, kept_of_blank (hscan d ds hd)]
    · rw [Piece.run_eq_zero (by simpa using hd), List.drop_zero]

theorem kept_blanks (h : ∀ c ∈ skip, Piece.isBlank c = true) :
    keptTiles (skip ++ cs) = keptTiles cs := by
  induction skip with
  | nil => rfl
  | cons c skip ih =>
    obtain ⟨hc, hskip⟩ := List.forall_mem_cons.mp h
    rw [List.cons_append, kept_blank hc, ih hskip]

theorem kept_comment {body : List Char} (hbody : '\n' ∉ body) (hcs : ∀ c ∈ cs.head?, c = '\n') :
    keptTiles ('/' :: '/' :: body ++ cs) = keptTiles cs := by
  have hline : ∀ c ∈ '/' :: body, (decide (c ≠ '\n')) = true := by
    refine List.forall_mem_cons.mpr ⟨by decide, ?_⟩
    exact fun c hc => decide_eq_true (ne_of_mem_of_not_mem hc hbody)
  have hend : Piece.run (· ≠ '\n') cs = 0 := by
    refine Piece.run_eq_zero fun c hc => ?_
    simp [hcs c hc]
  have hscan : Piece.scan '/' ('/' :: body ++ cs) = (.blank, ('/' :: body).length) := by
    rw [Piece.scan, if_neg (by decide), if_pos ⟨rfl, rfl⟩, Piece.run_append hline, hend]
    rfl
  rw [List.cons_append, kept_of_blank hscan, List.drop_left]

theorem kept_skip (h : Piece.Skip cs skip) : keptTiles (skip ++ cs) = keptTiles cs := by
  cases h with
  | space _ hspace => exact kept_blanks fun c hc => isBlank_iff.mpr (hspace c hc)
  | comment hbody hcs => exact kept_comment hbody hcs

theorem kept_gap (h : Gap cs gap) : keptTiles (gap ++ cs) = keptTiles cs := by
  induction h with
  | nil => rfl
  | append hskip _ ih => rw [List.append_assoc, kept_skip hskip, ih]

def Tile.Spoken (t : Tile) : Prop := ∃ (rule : Rule) (rest : List Char) (x : Token),
  rule.Wins t.text rest ∧ rule.value t.text = some x ∧ t.piece = .token x

theorem spoken_of_mem_kept (hcs : ∀ t ∈ keptTiles cs, t.piece ≠ .unreadable) :
    ∀ t ∈ keptTiles cs, t.Spoken := by
  induction cs using tile.induct with
  | case1 => simp [keptTiles, tile]
  | case2 c cs piece n hscan ih =>
    obtain ⟨-, hfits⟩ := Piece.scan_fits c cs
    rw [hscan] at hfits
    have hkept : keptTiles (c :: cs) = [⟨piece, c :: cs.take n⟩].filter (!·.isBlank) ++
        keptTiles (cs.drop n) := by
      rw [keptTiles, tile, hscan, keptTiles, ← List.filter_append]
      rfl
    rw [hkept] at hcs ⊢
    obtain ⟨hfirst, hrest⟩ := List.forall_mem_append.mp hcs
    refine List.forall_mem_append.mpr ⟨?_, ih hrest⟩
    cases piece with
    | blank => exact List.forall_mem_nil _
    | unreadable => exact absurd rfl (hfirst _ (List.mem_singleton.mpr rfl))
    | token t =>
      obtain ⟨rule, hwins, hvalue⟩ := hfits
      exact List.forall_mem_singleton.mpr ⟨rule, cs.drop n, t, hwins, hvalue, rfl⟩

theorem kept_of_spread {ts : List Tile} (hts : ∀ t ∈ ts, t.Spoken)
    (h : Spread (ts.map Tile.text) cs) : keptTiles cs = ts := by
  induction ts generalizing cs with
  | nil =>
    cases h with
    | last hgap =>
      have hkept := kept_gap hgap
      rw [List.append_nil] at hkept
      simpa [keptTiles, tile] using hkept
  | cons t ts ih =>
    obtain ⟨piece, text⟩ := t
    obtain ⟨⟨rule, rest', x, hwins, hvalue, hpiece⟩, htail⟩ := List.forall_mem_cons.mp hts
    cases h with
    | @next gap word rest words hgap hrest hspread =>
      obtain ⟨c, w, hword⟩ := hwins.exists_cons
      dsimp only at hword hpiece hwins hvalue hgap ⊢
      subst hword hpiece
      have hscan := scan_of_wins (hwins.before_blank hrest) hvalue
      rw [kept_gap hgap, List.cons_append, kept_of_token hscan, ih htail hspread]

theorem tokens_ofTiles (offset : Nat) (ts : List Tile) :
    (Lexed.ofTiles offset ts).lexemes.map Lexeme.token =
      (ts.filter (!·.isBlank)).filterMap Tile.token? := by
  induction ts generalizing offset with
  | nil => rfl
  | cons t ts ih =>
    obtain ⟨piece, text⟩ := t
    cases piece <;>
      simp [Lexed.ofTiles, Lexed.cons, Tile.isBlank, Tile.token?, List.filterMap_cons, ih]

theorem errors_ofTiles (offset : Nat) (ts : List Tile) : (Lexed.ofTiles offset ts).errors = [] ↔
    ∀ t ∈ ts.filter (!·.isBlank), t.piece ≠ .unreadable := by
  induction ts generalizing offset with
  | nil => simp [Lexed.ofTiles]
  | cons t ts ih =>
    obtain ⟨piece, text⟩ := t
    cases piece <;> simp [Lexed.ofTiles, Lexed.cons, Tile.isBlank, ih]

def Stands (source : List Char) (l : Lexeme) (word : List Char) : Prop :=
  ∃ before rest, l.span.Holds source before word rest

theorem stands_ofTiles (before cs : List Char)
    (hcs : (Lexed.ofTiles (byteLength before) (tile cs)).errors = []) :
    List.Forall₂ (Stands (before ++ cs)) (Lexed.ofTiles (byteLength before) (tile cs)).lexemes
      ((keptTiles cs).map Tile.text) := by
  induction cs using tile.induct generalizing before with
  | case1 => simp [keptTiles, tile, Lexed.ofTiles]
  | case2 c cs piece n hscan ih =>
    have hsplit : before ++ c :: cs = before ++ (c :: cs.take n) ++ cs.drop n := by simp
    have ih := ih (before ++ c :: cs.take n)
    rw [byteLength_append] at ih
    rw [tile, hscan, Lexed.ofTiles] at hcs ⊢
    rw [keptTiles, tile, hscan, hsplit]
    cases piece with
    | blank => exact ih hcs
    | unreadable => cases hcs
    | token t =>
      refine .cons ⟨before, cs.drop n, ?_, rfl, ?_⟩ (ih hcs)
      · rw [List.append_assoc]
      · rw [byteLength_append]

end kept

variable {source source' : String}

theorem lexemes_stand (h : (lex source).errors = []) :
    List.Forall₂ (Stands source.toList) (lex source).lexemes (wordsOf source) :=
  stands_ofTiles [] source.toList h

theorem lex_spread (h : (lex source).errors = [])
    (hspread : Spread (wordsOf source) source'.toList) :
    (lex source').errors = [] ∧ wordsOf source' = wordsOf source ∧
      (lex source').lexemes.map Lexeme.token = (lex source).lexemes.map Lexeme.token := by
  have hreadable := (errors_ofTiles 0 (tile source.toList)).mp h
  have hkept : keptTiles source'.toList = keptTiles source.toList :=
    kept_of_spread (spoken_of_mem_kept hreadable) hspread
  refine ⟨?_, congrArg (List.map Tile.text) hkept, ?_⟩
  · refine (errors_ofTiles 0 (tile source'.toList)).mpr ?_
    change ∀ t ∈ keptTiles source'.toList, _
    rwa [hkept]
  · simp only [lex, tokens_ofTiles]
    exact congrArg (List.filterMap Tile.token?) hkept

end SnippetEval
