import Mathlib.Computability.Language
import SnippetEval.Snippet.Lexer

namespace SnippetEval

open Computability

def oneOf (p : Char → Prop) : Language Char := {w | ∃ c, p c ∧ w = [c]}

def InDigits (c : Char) : Prop := '0' ≤ c ∧ c ≤ '9'

def InLetters (c : Char) : Prop := 'a' ≤ c ∧ c ≤ 'z' ∨ 'A' ≤ c ∧ c ≤ 'Z'

def digits : Language Char := oneOf InDigits * (oneOf InDigits)∗

/-- `[eE][+-]?[0-9]+` -/
def exponents : Language Char :=
  oneOf (fun c => c = 'e' ∨ c = 'E') * (1 + oneOf (fun c => c = '+' ∨ c = '-')) * digits

/-- `[^"\\]|\\.` -/
def textParts : Language Char :=
  oneOf (fun c => c ≠ '"' ∧ c ≠ '\\') + {['\\']} * oneOf (· ≠ '\n')

/-- `[ \t\r\n]+|//[^\n]*` -/
def skipped : Language Char :=
  oneOf (fun c => c = ' ' ∨ c = '\t' ∨ c = '\r' ∨ c = '\n') *
      (oneOf fun c => c = ' ' ∨ c = '\t' ∨ c = '\r' ∨ c = '\n')∗ +
    {['/', '/']} * (oneOf (· ≠ '\n'))∗

inductive Rule
  | exactly (word : List Char) (token : Token)
  | float
  | int
  | text
  | name

namespace Rule

def keywords : List Rule :=
  [exactly ['l', 'e', 't'] .letWord, exactly ['t', 'h', 'i', 's'] .this,
    exactly ['t', 'r', 'u', 'e'] .true, exactly ['f', 'a', 'l', 's', 'e'] .false,
    exactly ['n', 'u', 'l', 'l'] .null]

def symbols : List Rule :=
  [exactly [';'] .semicolon, exactly ['='] .assign, exactly ['=', '='] .equal,
    exactly ['!', '='] .notEqual, exactly ['<'] .less, exactly ['<', '='] .lessEqual,
    exactly ['>'] .greater, exactly ['>', '='] .greaterEqual, exactly ['&', '&'] .and,
    exactly ['|', '|'] .or, exactly ['!'] .bang, exactly ['+'] .plus, exactly ['-'] .minus,
    exactly ['*'] .star, exactly ['/'] .slash, exactly ['%'] .percent, exactly ['.'] .dot,
    exactly ['('] .openParen, exactly [')'] .closeParen]

def all : List Rule := keywords ++ symbols ++ [float, int, text, name]

def language : Rule → Language Char
  | exactly word _ => {word}
  | float => digits * {['.']} * digits * (1 + exponents)
  | int => digits
  | text => {['"']} * textParts∗ * {['"']}
  | name =>
    oneOf (fun c => InLetters c ∨ c = '_') * (oneOf fun c => InLetters c ∨ InDigits c ∨ c = '_')∗

def value : Rule → List Char → Option Token
  | exactly _ token, _ => some token
  | float, w => (Decimal.readFloat w).map Token.float
  | int, w => (Decimal.readInt w).map Token.int
  | text, w => (Piece.unescape w.tail.dropLast).map fun cs => .text (String.ofList cs)
  | name, w => some (.name (String.ofList w))

end Rule

def Readable (w : List Char) : Prop := w ∈ skipped ∨ ∃ rule ∈ Rule.all, w ∈ rule.language

/-- The rule reads `text` in front of `rest`: nothing longer is readable there, and the rule is the
only one, but that a keyword is preferred to a name. -/
structure Rule.Wins (rule : Rule) (text rest : List Char) : Prop where
  mem : rule ∈ all
  reads : text ∈ rule.language
  longest : ∀ w, Readable w → w <+: text ++ rest → w.length ≤ text.length
  preferred : ∀ other ∈ all, text ∈ other.language → other = rule ∨ rule ∈ keywords ∧ other = name

section languages

variable {p : Char → Prop} {w : List Char} {c : Char}

theorem mem_kstar_oneOf : w ∈ (oneOf p)∗ ↔ ∀ c ∈ w, p c := by
  rw [Language.mem_kstar]
  constructor
  · rintro ⟨ws, rfl, hws⟩ c hc
    obtain ⟨v, hv, hcv⟩ := List.mem_flatten.mp hc
    obtain ⟨d, hd, rfl⟩ := hws v hv
    obtain rfl := List.mem_singleton.mp hcv
    exact hd
  · intro hw
    refine ⟨w.map ([·]), by simp [← List.flatMap_def], ?_⟩
    intro v hv
    obtain ⟨c, hc, rfl⟩ := List.mem_map.mp hv
    exact ⟨c, hw c hc, rfl⟩

theorem cons_mem_oneOf_mul {L : Language Char} : c :: w ∈ oneOf p * L ↔ p c ∧ w ∈ L := by
  rw [Language.mem_mul]
  constructor
  · rintro ⟨_, ⟨d, hd, rfl⟩, v, hv, h⟩
    obtain ⟨rfl, rfl⟩ := List.cons.inj h
    exact ⟨hd, hv⟩
  · rintro ⟨hc, hw⟩
    exact ⟨[c], ⟨c, hc, rfl⟩, w, hw, rfl⟩

theorem nil_notMem_oneOf_mul {L : Language Char} : [] ∉ oneOf p * L := by
  rw [Language.mem_mul]
  rintro ⟨_, ⟨d, -, rfl⟩, v, -, h⟩
  cases h

theorem isDigit_iff : c.isDigit = true ↔ InDigits c := by
  change (decide ('0'.val ≤ c.val) && decide (c.val ≤ '9'.val)) = true ↔ _
  rw [Bool.and_eq_true, decide_eq_true_eq, decide_eq_true_eq]
  exact Iff.rfl

theorem isAlpha_iff : c.isAlpha = true ↔ InLetters c := by
  change (decide ('A'.val ≤ c.val ∧ c.val ≤ 'Z'.val) ||
    (decide ('a'.val ≤ c.val) && decide (c.val ≤ 'z'.val))) = true ↔ _
  rw [Bool.or_eq_true, Bool.and_eq_true, decide_eq_true_eq, decide_eq_true_eq, decide_eq_true_eq]
  exact or_comm

theorem isAlphanum_iff : c.isAlphanum = true ↔ InLetters c ∨ InDigits c := by
  change (c.isAlpha || c.isDigit) = true ↔ _
  rw [Bool.or_eq_true, isAlpha_iff, isDigit_iff]

theorem isNameStart_iff : Piece.isNameStart c = true ↔ InLetters c ∨ c = '_' := by
  simp only [Piece.isNameStart, Bool.or_eq_true, isAlpha_iff, decide_eq_true_eq]

theorem isNameRest_iff : Piece.isNameRest c = true ↔ InLetters c ∨ InDigits c ∨ c = '_' := by
  simp only [Piece.isNameRest, Bool.or_eq_true, isAlphanum_iff, decide_eq_true_eq, or_assoc]

theorem isBlank_iff :
    Piece.isBlank c = true ↔ c = ' ' ∨ c = '\t' ∨ c = '\r' ∨ c = '\n' := by
  simp [Piece.isBlank, or_assoc]

theorem mem_digits : w ∈ digits ↔ w ≠ [] ∧ ∀ c ∈ w, c.isDigit = true := by
  cases w with
  | nil => simp [digits, nil_notMem_oneOf_mul]
  | cons c w => simp [digits, cons_mem_oneOf_mul, mem_kstar_oneOf, isDigit_iff]

theorem mem_exponents : w ∈ exponents ↔ ∃ e sign ds, (e = 'e' ∨ e = 'E') ∧
    (sign = [] ∨ sign = ['+'] ∨ sign = ['-']) ∧ ds ∈ digits ∧ w = e :: (sign ++ ds) := by
  simp only [exponents, mul_assoc]
  constructor
  · cases w with
    | nil => exact fun h => absurd h nil_notMem_oneOf_mul
    | cons e w =>
      rw [cons_mem_oneOf_mul, Language.mem_mul]
      rintro ⟨he, sign, hsign, ds, hds, rfl⟩
      refine ⟨e, sign, ds, he, ?_, hds, rfl⟩
      rcases hsign with hsign | ⟨c, rfl | rfl, rfl⟩
      · exact .inl hsign
      · exact .inr (.inl rfl)
      · exact .inr (.inr rfl)
  · rintro ⟨e, sign, ds, he, hsign, hds, rfl⟩
    rw [cons_mem_oneOf_mul, Language.mem_mul]
    refine ⟨he, sign, ?_, ds, hds, rfl⟩
    rcases hsign with rfl | rfl | rfl
    · exact .inl rfl
    · exact .inr ⟨_, .inl rfl, rfl⟩
    · exact .inr ⟨_, .inr rfl, rfl⟩

theorem mem_float : w ∈ Rule.float.language ↔ ∃ whole fraction rest, whole ∈ digits ∧
    fraction ∈ digits ∧ (rest = [] ∨ rest ∈ exponents) ∧ w = whole ++ '.' :: (fraction ++ rest) := by
  simp only [Rule.language, Language.mem_mul, Language.mem_add, Language.mem_one]
  constructor
  · rintro ⟨_, ⟨_, ⟨whole, hwhole, _, rfl, rfl⟩, fraction, hfraction, rfl⟩, rest, hrest, rfl⟩
    exact ⟨whole, fraction, rest, hwhole, hfraction, hrest, by simp⟩
  · rintro ⟨whole, fraction, rest, hwhole, hfraction, hrest, rfl⟩
    exact ⟨_, ⟨_, ⟨whole, hwhole, _, rfl, rfl⟩, fraction, hfraction, rfl⟩, rest, hrest, by simp⟩

theorem mem_text : w ∈ Rule.text.language ↔ ∃ body ∈ textParts∗, w = '"' :: (body ++ ['"']) := by
  simp only [Rule.language, Language.mem_mul]
  constructor
  · rintro ⟨_, ⟨_, rfl, body, hbody, rfl⟩, _, rfl, rfl⟩
    exact ⟨body, hbody, rfl⟩
  · rintro ⟨body, hbody, rfl⟩
    exact ⟨_, ⟨_, rfl, body, hbody, rfl⟩, _, rfl, rfl⟩

theorem cons_mem_name : c :: w ∈ Rule.name.language ↔
    Piece.isNameStart c = true ∧ ∀ d ∈ w, Piece.isNameRest d = true := by
  simp only [Rule.language, cons_mem_oneOf_mul, mem_kstar_oneOf, isNameStart_iff, isNameRest_iff]

theorem mem_skipped : w ∈ skipped ↔ (w ≠ [] ∧ ∀ c ∈ w, Piece.isBlank c = true) ∨
    ∃ body, '\n' ∉ body ∧ w = '/' :: '/' :: body := by
  rw [skipped, Language.mem_add]
  apply or_congr
  · cases w with
    | nil => simp [nil_notMem_oneOf_mul]
    | cons c w => simp only [cons_mem_oneOf_mul, mem_kstar_oneOf, isBlank_iff]; simp
  · rw [Language.mem_mul]
    constructor
    · rintro ⟨_, rfl, body, hbody, rfl⟩
      exact ⟨body, fun hn => mem_kstar_oneOf.mp hbody _ hn rfl, rfl⟩
    · rintro ⟨body, hbody, rfl⟩
      exact ⟨_, rfl, body, mem_kstar_oneOf.mpr fun d hd => ne_of_mem_of_not_mem hd hbody, rfl⟩

end languages

section leads

inductive Lead
  | letter
  | digit
  | quote
  | other
  deriving DecidableEq

def leadOf (c : Char) : Lead :=
  if Piece.isNameStart c then .letter
  else if c.isDigit then .digit
  else if c = '"' then .quote
  else .other

namespace Rule

def word : Rule → List Char
  | exactly word _ => word
  | _ => []

def lead : Rule → Lead
  | exactly word _ => (word.head?.map leadOf).getD .other
  | float | int => .digit
  | text => .quote
  | name => .letter

variable {rule : Rule} {w : List Char} {c : Char}

theorem lead_keywords : ∀ rule ∈ keywords, rule.lead = .letter := by decide

theorem lead_symbols : ∀ rule ∈ symbols, rule.lead = .other := by decide

theorem nodup_words : ((keywords ++ symbols).map word).Nodup := by decide

theorem words_ne_nil : ∀ rule ∈ keywords ++ symbols, [] ≠ rule.word := by decide

theorem mem_language_of_mem (h : rule ∈ keywords ++ symbols) :
    w ∈ rule.language ↔ w = rule.word := by
  cases rule with
  | exactly word token => exact Iff.rfl
  | _ => simp [keywords, symbols] at h

theorem eq_of_mem_language {other : Rule} (h : rule ∈ keywords ++ symbols)
    (hother : other ∈ keywords ++ symbols) (hw : w ∈ rule.language) (hw' : w ∈ other.language) :
    other = rule := by
  rw [mem_language_of_mem h] at hw
  rw [mem_language_of_mem hother] at hw'
  exact List.inj_on_of_nodup_map nodup_words hother h (hw'.symm.trans hw)

theorem mem_all : rule ∈ all ↔
    rule ∈ keywords ∨ rule ∈ symbols ∨ rule = float ∨ rule = int ∨ rule = text ∨ rule = name := by
  simp only [all, List.mem_append, List.mem_cons, List.not_mem_nil, or_false, or_assoc]

end Rule

theorem leadOf_of_isDigit {c : Char} (h : c.isDigit = true) : leadOf c = .digit := by
  obtain ⟨-, hnine⟩ := isDigit_iff.mp h
  have hstart : ¬ Piece.isNameStart c = true := by
    rw [isNameStart_iff]
    rintro ((⟨ha, -⟩ | ⟨ha, -⟩) | rfl)
    · exact absurd (Char.le_trans ha hnine) (by decide)
    · exact absurd (Char.le_trans ha hnine) (by decide)
    · exact absurd hnine (by decide)
  simp [leadOf, hstart, h]

theorem Rule.lead_eq {rule : Rule} {w : List Char} {c : Char} (h : c :: w ∈ rule.language) :
    rule.lead = leadOf c := by
  cases rule with
  | exactly word token =>
    obtain rfl : c :: w = word := h
    rfl
  | float =>
    obtain ⟨whole, fraction, rest, hwhole, -, -, hw⟩ := mem_float.mp h
    obtain ⟨hne, hwhole⟩ := mem_digits.mp hwhole
    obtain ⟨d, whole, rfl⟩ := List.exists_cons_of_ne_nil hne
    obtain rfl : c = d := (List.cons.inj hw).1
    exact (leadOf_of_isDigit (hwhole c List.mem_cons_self)).symm
  | int => exact (leadOf_of_isDigit ((mem_digits.mp h).2 c List.mem_cons_self)).symm
  | text =>
    obtain ⟨body, -, hw⟩ := mem_text.mp h
    obtain rfl := (List.cons.inj hw).1
    rfl
  | name => simp [lead, leadOf, (cons_mem_name.mp h).1]

namespace Rule

variable {rule : Rule}

theorem nil_notMem_language (h : rule ∈ all) : [] ∉ rule.language := by
  rcases mem_all.mp h with h | h | rfl | rfl | rfl | rfl
  · rw [mem_language_of_mem (List.mem_append_left _ h)]
    exact words_ne_nil rule (List.mem_append_left _ h)
  · rw [mem_language_of_mem (List.mem_append_right _ h)]
    exact words_ne_nil rule (List.mem_append_right _ h)
  · intro hnil
    obtain ⟨whole, fraction, rest, -, -, -, hw⟩ := mem_float.mp hnil
    simp at hw
  · exact fun hnil => (mem_digits.mp hnil).1 rfl
  · intro hnil
    obtain ⟨body, -, hw⟩ := mem_text.mp hnil
    cases hw
  · exact nil_notMem_oneOf_mul

def startingWith : Lead → List Rule
  | .letter => keywords ++ [name]
  | .digit => [float, int]
  | .quote => [text]
  | .other => symbols

theorem mem_startingWith_lead (h : rule ∈ all) : rule ∈ startingWith rule.lead := by
  rcases mem_all.mp h with h | h | rfl | rfl | rfl | rfl
  · rw [lead_keywords rule h]
    exact List.mem_append_left _ h
  · rw [lead_symbols rule h]
    exact h
  all_goals simp [lead, startingWith]

theorem mem_startingWith {w : List Char} {c : Char} (h : rule ∈ all) (hw : c :: w ∈ rule.language) :
    rule ∈ startingWith (leadOf c) :=
  lead_eq hw ▸ mem_startingWith_lead h

theorem forall_startingWith_digit {P : Rule → Prop} (hfloat : P float) (hint : P int) :
    ∀ rule ∈ startingWith .digit, P rule :=
  List.forall_mem_cons.mpr ⟨hfloat, List.forall_mem_singleton.mpr hint⟩

def kind : Rule → Nat
  | exactly _ token => token.ctorIdx
  | float => (Token.float 0).ctorIdx
  | int => (Token.int 0).ctorIdx
  | text => (Token.text "").ctorIdx
  | name => (Token.name "").ctorIdx

theorem nodup_kinds : (all.map kind).Nodup := by decide

theorem kind_of_value {w : List Char} {t : Token} (h : rule.value w = some t) :
    rule.kind = t.ctorIdx := by
  cases rule with
  | exactly word token =>
    obtain rfl := Option.some.inj h
    rfl
  | name =>
    obtain rfl := Option.some.inj h
    rfl
  | float | int | text =>
    obtain ⟨x, -, rfl⟩ := Option.map_eq_some_iff.mp h
    rfl

theorem Wins.token_eq_iff {text rest word : List Char} {t token : Token}
    (h : rule.Wins text rest) (hvalue : rule.value text = some t)
    (hkeyword : exactly word token ∈ keywords) : t = token ↔ text = word := by
  have hall : exactly word token ∈ all := mem_all.mpr (.inl hkeyword)
  constructor
  · rintro rfl
    obtain rfl : rule = exactly word t :=
      List.inj_on_of_nodup_map nodup_kinds h.mem hall (kind_of_value hvalue)
    exact h.reads
  · rintro rfl
    rcases h.preferred _ hall rfl with rfl | ⟨-, hname⟩
    · exact (Option.some.inj hvalue).symm
    · cases hname

end Rule

end leads

end SnippetEval
