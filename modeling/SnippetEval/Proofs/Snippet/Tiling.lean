import SnippetEval.Proofs.Snippet.LongestMatch

namespace SnippetEval

inductive Gap (rest : List Char) : List Char → Prop
  | nil : Gap rest []
  | append {skip gap : List Char} : Piece.Skip (gap ++ rest) skip → Gap rest gap →
      Gap rest (skip ++ gap)

inductive Report
  | lexeme (l : Lexeme)
  | unreadable (u : Unreadable)

namespace Report

def span : Report → Span
  | lexeme l => l.span
  | unreadable u => u.span

def Fits (text rest : List Char) : Report → Prop
  | lexeme l => Piece.Fits text rest (.token l.token)
  | unreadable u => u.text = String.ofList text ∧ Piece.Fits text rest .unreadable

end Report

def Lexed.reports (r : Lexed) : List Report :=
  (r.lexemes.map Report.lexeme).merge (r.errors.map Report.unreadable)
    fun a b => a.span.start ≤ b.span.start

namespace Span

def gaps (start stop : Nat) : List Span → List Span
  | [] => [⟨start, stop⟩]
  | s :: spans => ⟨start, s.start⟩ :: gaps s.stop stop spans

structure Holds (s : Span) (source before text rest : List Char) : Prop where
  split : source = before ++ (text ++ rest)
  start : s.start = byteLength before
  stop : s.stop = byteLength (before ++ text)

end Span

section bytes

theorem byteLength_append (a b : List Char) : byteLength (a ++ b) = byteLength a + byteLength b := by
  simp [byteLength, String.ofList_append]

theorem byteLength_pos {cs : List Char} (h : cs ≠ []) : 0 < byteLength cs := by
  cases cs with
  | nil => exact absurd rfl h
  | cons c cs =>
    have hc := c.utf8Size_pos
    rw [byteLength, String.ofList_cons, String.utf8ByteSize_append, String.utf8ByteSize_singleton]
    omega

theorem isValid_byteLength (before rest : List Char) :
    String.Pos.Raw.IsValid (String.ofList (before ++ rest)) ⟨byteLength before⟩ := by
  rw [String.Pos.Raw.isValid_iff_exists_append]
  exact ⟨String.ofList before, String.ofList rest, String.ofList_append, rfl⟩

namespace Span.Holds

variable {s : Span} {before text rest : List Char}

theorem start_lt_stop {source : List Char} (h : s.Holds source before text rest)
    (htext : text ≠ []) : s.start < s.stop := by
  rw [h.start, h.stop, byteLength_append]
  exact Nat.lt_add_of_pos_right (byteLength_pos htext)

theorem isValid {source : String} (h : s.Holds source.toList before text rest) :
    s.stop ≤ source.utf8ByteSize ∧ String.Pos.Raw.IsValid source ⟨s.start⟩ ∧
      String.Pos.Raw.IsValid source ⟨s.stop⟩ := by
  obtain rfl : source = String.ofList (before ++ (text ++ rest)) := by
    rw [← h.split, String.ofList_toList]
  rw [h.start, h.stop]
  refine ⟨?_, isValid_byteLength _ _, ?_⟩
  · have hrest : byteLength (before ++ (text ++ rest)) = byteLength (before ++ text) +
        byteLength rest := by
      rw [← List.append_assoc, byteLength_append]
    exact Nat.le.intro hrest.symm
  · rw [← List.append_assoc]
    exact isValid_byteLength _ _

end Span.Holds

end bytes

section reports

variable {r : Lexed} {token : Token} {span : Span} {text : String}

theorem mem_reports {report : Report} : report ∈ r.reports ↔
    report ∈ r.lexemes.map Report.lexeme ∨ report ∈ r.errors.map Report.unreadable :=
  List.mem_merge

theorem reports_cons_lexeme (h : ∀ report ∈ r.reports, span.start ≤ report.span.start) :
    ({ r with lexemes := ⟨token, span⟩ :: r.lexemes } : Lexed).reports =
      .lexeme ⟨token, span⟩ :: r.reports := by
  obtain ⟨lexemes, errors⟩ := r
  cases errors with
  | nil => simp [Lexed.reports]
  | cons e errors =>
    have he : span.start ≤ e.span.start := h (.unreadable e) (mem_reports.mpr (.inr (by simp)))
    simp [Lexed.reports, Report.span, he]

theorem reports_cons_unreadable (h : ∀ report ∈ r.reports, span.start < report.span.start) :
    ({ r with errors := ⟨text, span⟩ :: r.errors } : Lexed).reports =
      .unreadable ⟨text, span⟩ :: r.reports := by
  obtain ⟨lexemes, errors⟩ := r
  cases lexemes with
  | nil => simp [Lexed.reports]
  | cons l lexemes =>
    have hl : span.start < l.span.start := h (.lexeme l) (mem_reports.mpr (.inl (by simp)))
    have hnot : ¬ decide (l.span.start ≤ span.start) = true := by simpa using hl
    exact (List.cons_merge_cons _ _ _ _ _).trans (if_neg hnot)

end reports

/-- The reports lie in a text behind `before` one after the other, each with a gap in front, and a
gap comes last. -/
inductive Laid : List Char → List Char → List Report → Prop
  | last {before gap : List Char} : Gap [] gap → Laid before gap []
  | next {before gap text rest : List Char} {report : Report} {reports : List Report} :
      Gap (text ++ rest) gap → text ≠ [] → report.Fits text rest →
      report.span = ⟨byteLength (before ++ gap), byteLength (before ++ gap ++ text)⟩ →
      Laid (before ++ gap ++ text) rest reports →
      Laid before (gap ++ (text ++ rest)) (report :: reports)

namespace Laid

variable {before cs skip text rest : List Char} {reports : List Report} {report : Report}

theorem skipped (hskip : Piece.Skip cs skip) (h : Laid (before ++ skip) cs reports) :
    Laid before (skip ++ cs) reports := by
  cases h with
  | last hgap => exact .last (.append (by simpa using hskip) hgap)
  | next hgap htext hfits hspan htail =>
    rw [List.append_assoc before] at hspan htail
    rw [← List.append_assoc skip]
    exact .next (.append hskip hgap) htext hfits hspan htail

theorem cons (htext : text ≠ []) (hfits : report.Fits text rest)
    (hspan : report.span = ⟨byteLength before, byteLength (before ++ text)⟩)
    (h : Laid (before ++ text) rest reports) : Laid before (text ++ rest) (report :: reports) := by
  rw [← List.append_nil before] at hspan h
  exact .next .nil htext hfits hspan h

theorem start_le (h : Laid before cs reports) :
    ∀ report ∈ reports, byteLength before ≤ report.span.start := by
  induction h with
  | last => nofun
  | next hgap htext hfits hspan htail ih =>
    refine List.forall_mem_cons.mpr ⟨?_, ?_⟩
    · rw [hspan, byteLength_append]
      exact Nat.le_add_right _ _
    · intro report hreport
      have h := ih report hreport
      rw [List.append_assoc, byteLength_append] at h
      omega

theorem pairwise (h : Laid before cs reports) :
    reports.Pairwise fun a b => a.span.stop ≤ b.span.start := by
  induction h with
  | last => exact .nil
  | next hgap htext hfits hspan htail ih =>
    refine .cons ?_ ih
    rw [hspan]
    exact htail.start_le

theorem holds (h : Laid before cs reports) : ∀ report ∈ reports, ∃ front text rest,
    report.span.Holds (before ++ cs) front text rest ∧ text ≠ [] ∧ report.Fits text rest := by
  induction h with
  | last => nofun
  | @next before gap text rest report reports hgap htext hfits hspan htail ih =>
    refine List.forall_mem_cons.mpr ⟨?_, ?_⟩
    · refine ⟨before ++ gap, text, rest, ⟨?_, ?_, ?_⟩, htext, hfits⟩
      · simp
      · rw [hspan]
      · rw [hspan]
    · simpa using ih

theorem gaps (h : Laid before cs reports) :
    ∀ g ∈ Span.gaps (byteLength before) (byteLength (before ++ cs)) (reports.map Report.span),
      ∃ front text rest, g.Holds (before ++ cs) front text rest ∧ Gap rest text := by
  induction h with
  | @last before gap hgap =>
    refine List.forall_mem_singleton.mpr ⟨before, gap, [], ⟨?_, rfl, rfl⟩, hgap⟩
    rw [List.append_nil]
  | @next before gap text rest report reports hgap htext hfits hspan htail ih =>
    refine List.forall_mem_cons.mpr ⟨?_, ?_⟩
    · exact ⟨before, gap, text ++ rest, ⟨rfl, rfl, by rw [hspan]⟩, hgap⟩
    · rw [hspan]
      simpa using ih

theorem count_contains (h : Laid before cs reports) (i : Nat) :
    (reports.map Report.span ++
      Span.gaps (byteLength before) (byteLength (before ++ cs)) (reports.map Report.span)).countP
        (·.contains i) = if byteLength before ≤ i ∧ i < byteLength (before ++ cs) then 1 else 0 := by
  induction h with
  | last => simp [Span.gaps, Span.contains, List.countP_cons]
  | @next before gap text rest report reports hgap htext hfits hspan htail ih =>
    rw [List.countP_append, List.append_assoc, List.append_assoc] at ih
    rw [List.map_cons, List.cons_append, List.countP_cons, List.countP_append, Span.gaps,
      List.countP_cons, hspan]
    simp only [Span.contains, Bool.and_eq_true, decide_eq_true_eq, byteLength_append,
      List.append_assoc] at ih ⊢
    split_ifs at ih ⊢ <;> omega

theorem ofTiles (before cs : List Char) :
    Laid before cs (Lexed.ofTiles (byteLength before) (tile cs)).reports := by
  induction cs using tile.induct generalizing before with
  | case1 =>
    have hreports : (Lexed.ofTiles (byteLength before) []).reports = [] := by
      simp [Lexed.ofTiles, Lexed.reports]
    rw [tile, hreports]
    exact .last .nil
  | case2 c cs piece n hscan ih =>
    obtain ⟨hn, hfits⟩ := Piece.scan_fits c cs
    rw [hscan] at hn hfits
    have htext : c :: cs.take n ≠ [] := List.cons_ne_nil _ _
    have htail := ih (before ++ c :: cs.take n)
    rw [byteLength_append] at htail
    have hlater : ∀ report ∈ (Lexed.ofTiles (byteLength before + byteLength (c :: cs.take n))
        (tile (cs.drop n))).reports, byteLength before < report.span.start := by
      intro report hreport
      have hstart := htail.start_le report hreport
      have hpos := byteLength_pos htext
      rw [byteLength_append] at hstart
      omega
    have hsplit : c :: cs = (c :: cs.take n) ++ cs.drop n := by simp
    rw [tile, hscan, Lexed.ofTiles, hsplit]
    cases piece with
    | blank => exact skipped hfits htail
    | token t =>
      rw [Lexed.cons, reports_cons_lexeme fun report hreport => (hlater report hreport).le]
      exact cons htext hfits (by simp [Report.span, byteLength_append]) htail
    | unreadable =>
      rw [Lexed.cons, reports_cons_unreadable hlater]
      exact cons htext ⟨rfl, hfits⟩ (by simp [Report.span, byteLength_append]) htail

end Laid

theorem lex_tiles (source : String) :
    let reports := (lex source).reports
    let gaps := Span.gaps 0 source.utf8ByteSize (reports.map Report.span)
    reports.Pairwise (fun a b => a.span.stop ≤ b.span.start) ∧
    (∀ report ∈ reports,
      report.span.start < report.span.stop ∧ report.span.stop ≤ source.utf8ByteSize ∧
      String.Pos.Raw.IsValid source ⟨report.span.start⟩ ∧
      String.Pos.Raw.IsValid source ⟨report.span.stop⟩) ∧
    (∀ report ∈ reports, ∃ before text rest,
      report.span.Holds source.toList before text rest ∧ report.Fits text rest ∧
      ∀ l, report = .lexeme l → ∀ word token, .exactly word token ∈ Rule.keywords →
        (l.token = token ↔ text = word)) ∧
    (∀ gap ∈ gaps, ∃ before text rest, gap.Holds source.toList before text rest ∧ Gap rest text) ∧
    ∀ i < source.utf8ByteSize, (reports.map Report.span ++ gaps).countP (·.contains i) = 1 := by
  intro reports gaps
  have hlaid : Laid [] source.toList reports := Laid.ofTiles [] source.toList
  have hsize : byteLength source.toList = source.utf8ByteSize := by
    rw [byteLength, String.ofList_toList]
  refine ⟨hlaid.pairwise, ?_, ?_, ?_, ?_⟩
  · intro report hreport
    obtain ⟨before, text, rest, hholds, htext, -⟩ := hlaid.holds report hreport
    exact ⟨hholds.start_lt_stop htext, hholds.isValid⟩
  · intro report hreport
    obtain ⟨before, text, rest, hholds, -, hfits⟩ := hlaid.holds report hreport
    refine ⟨before, text, rest, hholds, hfits, ?_⟩
    rintro l rfl word token hkeyword
    obtain ⟨rule, hwins, hvalue⟩ := hfits
    exact hwins.token_eq_iff hvalue hkeyword
  · have hgaps := hlaid.gaps
    rw [List.nil_append, hsize] at hgaps
    exact hgaps
  · intro i hi
    have hcount := hlaid.count_contains i
    rw [List.nil_append, hsize, if_pos ⟨Nat.zero_le i, hi⟩] at hcount
    exact hcount

theorem lex_tiles_unclosed :
    let source := "a // b\n\"\u00e9+"
    let spans := (lex source).reports.map Report.span
    (lex source).errors.map (fun u => (u.text, u.span)) = [("\"\u00e9+", ⟨7, 11⟩)] ∧
      String.Pos.Raw.IsValid source ⟨7⟩ ∧
      (spans ++ Span.gaps 0 source.utf8ByteSize spans).countP (·.contains 9) = 1 := by
  intro source spans
  have herrors : (lex source).errors.map (fun u => (u.text, u.span)) =
      [("\"\u00e9+", ⟨7, 11⟩)] := by
    decide +kernel
  obtain ⟨u, hu, h⟩ := List.mem_map.mp (herrors ▸ List.mem_cons_self)
  have hreport : Report.unreadable u ∈ (lex source).reports :=
    mem_reports.mpr (.inr (List.mem_map_of_mem hu))
  obtain ⟨-, hspans, -, -, hcount⟩ := lex_tiles source
  obtain ⟨-, -, hstart, -⟩ := hspans _ hreport
  have hspan : (Report.unreadable u).span = ⟨7, 11⟩ := (Prod.mk.inj h).2
  rw [hspan] at hstart
  exact ⟨herrors, hstart, hcount 9 (by decide)⟩

end SnippetEval
