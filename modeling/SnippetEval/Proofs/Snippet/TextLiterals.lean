import SnippetEval.Proofs.Snippet.LongestMatch

namespace SnippetEval

open Computability

inductive TextPart
  | plain (c : Char) (bare : c ≠ '"' ∧ c ≠ '\\')
  | quote
  | backslash
  | newline
  | tab
  | unknown (c : Char) (strange : c ∉ ['"', '\\', 'n', 't', '\n'])

namespace TextPart

def written : TextPart → List Char
  | plain c _ => [c]
  | quote => ['\\', '"']
  | backslash => ['\\', '\\']
  | newline => ['\\', 'n']
  | tab => ['\\', 't']
  | unknown c _ => ['\\', c]

def denoted? : TextPart → Option Char
  | plain c _ => some c
  | quote => some '"'
  | backslash => some '\\'
  | newline => some '\n'
  | tab => some '\t'
  | unknown .. => none

def of (escapes : Bool) (c : Char) : TextPart :=
  if hquote : c = '"' then quote
  else if hslash : c = '\\' then backslash
  else if escapes ∧ c = '\n' then newline
  else if escapes ∧ c = '\t' then tab
  else plain c ⟨hquote, hslash⟩

def spelling (escapes : Nat → Bool) (cs : List Char) : List TextPart :=
  cs.mapIdx fun i => of (escapes i)

variable {parts : List TextPart}

theorem denoted?_of (escapes : Bool) (c : Char) : (of escapes c).denoted? = some c := by
  unfold of
  split
  · next hquote => rw [hquote, denoted?]
  split
  · next hslash => rw [hslash, denoted?]
  split
  · next hnewline => rw [hnewline.2, denoted?]
  split
  · next htab => rw [htab.2, denoted?]
  · rfl

theorem denoted?_spelling (escapes : Nat → Bool) (cs : List Char) :
    (spelling escapes cs).map denoted? = cs.map some := by
  refine List.ext_getElem? fun i => ?_
  simp [spelling, denoted?_of, Function.comp_def]

theorem written_mem (p : TextPart) : p.written ∈ textParts := by
  have hescape {c : Char} (hc : c ≠ '\n') : ['\\', c] ∈ textParts :=
    .inr (Language.mem_mul.mpr ⟨['\\'], rfl, [c], ⟨c, hc, rfl⟩, rfl⟩)
  cases p with
  | plain c bare => exact .inl ⟨c, bare, rfl⟩
  | unknown c strange =>
    refine hescape ?_
    rintro rfl
    simp at strange
  | _ => exact hescape (by decide)

def body (parts : List TextPart) : List Char := parts.flatMap written

theorem body_cons (p : TextPart) (parts : List TextPart) :
    body (p :: parts) = p.written ++ body parts := rfl

theorem body_mem (parts : List TextPart) : body parts ∈ textParts∗ := by
  rw [Language.mem_kstar]
  refine ⟨parts.map written, List.flatMap_def, ?_⟩
  intro w hw
  obtain ⟨p, -, rfl⟩ := List.mem_map.mp hw
  exact p.written_mem

theorem unescape_written (p : TextPart) (cs : List Char) :
    Piece.unescape (p.written ++ cs) =
      p.denoted?.bind fun c => (Piece.unescape cs).map (c :: ·) := by
  cases p with
  | plain c bare => simp [written, denoted?, Piece.unescape, bare.2]
  | unknown c strange =>
    have hnone : Piece.escapes.lookup c = none := by
      simp_all [Piece.escapes, List.lookup_eq_none_iff]
    simp [written, denoted?, Piece.unescape, hnone]
  | _ => rfl

theorem unescape_body {cs : List Char} (h : parts.map denoted? = cs.map some) :
    Piece.unescape (body parts) = some cs := by
  induction parts generalizing cs with
  | nil =>
    obtain rfl := List.map_eq_nil_iff.mp h.symm
    rfl
  | cons p parts ih =>
    obtain ⟨c, cs, rfl, hc, hcs⟩ := List.map_eq_cons_iff.mp h.symm
    rw [body_cons, unescape_written, ← hc, ih hcs.symm]
    rfl

theorem unescape_body_eq_none (h : ∃ p ∈ parts, p.denoted? = none) :
    Piece.unescape (body parts) = none := by
  induction parts with
  | nil => simp at h
  | cons p parts ih =>
    rw [body_cons, unescape_written]
    obtain ⟨q, hq, hnone⟩ := h
    rcases List.mem_cons.mp hq with rfl | hq
    · rw [hnone, Option.bind_none]
    · simp [ih ⟨q, hq, hnone⟩]

end TextPart

def quoted (parts : List TextPart) : String := String.ofList ('"' :: (TextPart.body parts ++ ['"']))

section literals

variable {parts : List TextPart}

theorem scan_quoted (parts : List TextPart) (rest : List Char) :
    Piece.scan '"' (TextPart.body parts ++ '"' :: rest) =
      (Piece.ofBody (TextPart.body parts), (TextPart.body parts).length + 1) := by
  have hbody : Piece.stringBody (TextPart.body parts ++ '"' :: rest) =
      ((TextPart.body parts).length, true) :=
    Piece.stringBody_of_mem (TextPart.body_mem parts)
  rw [Piece.scan, if_neg (by decide), if_neg (by simp), if_neg (by decide), if_neg (by decide),
    if_pos rfl]
  simp only [Piece.scanString, hbody, if_true, List.take_left]

theorem tile_quoted (parts : List TextPart) (rest : List Char) :
    tile ((quoted parts).toList ++ rest) =
      ⟨Piece.ofBody (TextPart.body parts), (quoted parts).toList⟩ :: tile rest := by
  have hsource : (quoted parts).toList ++ rest =
      '"' :: (TextPart.body parts ++ '"' :: rest) := by
    simp [quoted]
  rw [hsource, tile, scan_quoted]
  simp [quoted, List.take_length_add_append, List.drop_length_add_append]

theorem lex_eq_cons (parts : List TextPart) : lex (quoted parts) =
    .cons ⟨Piece.ofBody (TextPart.body parts), (quoted parts).toList⟩
      ⟨0, (quoted parts).utf8ByteSize⟩ ⟨[], []⟩ := by
  have htile := tile_quoted parts []
  rw [List.append_nil, tile] at htile
  have hsize : byteLength (quoted parts).toList = (quoted parts).utf8ByteSize := by
    rw [byteLength, String.ofList_toList]
  rw [lex, htile, Lexed.ofTiles, Lexed.ofTiles, hsize, Nat.zero_add]

theorem lex_of_denoted {s : String} (h : parts.map TextPart.denoted? = s.toList.map some) :
    lex (quoted parts) = ⟨[⟨.text s, ⟨0, (quoted parts).utf8ByteSize⟩⟩], []⟩ := by
  rw [lex_eq_cons, Piece.ofBody, TextPart.unescape_body h]
  simp only [Lexed.cons, String.ofList_toList]

theorem lex_of_unknown (h : ∃ p ∈ parts, p.denoted? = none) :
    lex (quoted parts) = ⟨[], [⟨quoted parts, ⟨0, (quoted parts).utf8ByteSize⟩⟩]⟩ := by
  rw [lex_eq_cons, Piece.ofBody, TextPart.unescape_body_eq_none h]
  simp only [Lexed.cons, String.ofList_toList]

end literals

theorem lex_quoted :
    (∀ (parts : List TextPart) (s : String), parts.map TextPart.denoted? = s.toList.map some →
      lex (quoted parts) = ⟨[⟨.text s, ⟨0, (quoted parts).utf8ByteSize⟩⟩], []⟩) ∧
    (∀ (escapes : Nat → Bool) (s : String),
      let source := quoted (TextPart.spelling escapes s.toList)
      lex source = ⟨[⟨.text s, ⟨0, source.utf8ByteSize⟩⟩], []⟩) ∧
    ∀ parts : List TextPart, (∃ p ∈ parts, p.denoted? = none) →
      lex (quoted parts) = ⟨[], [⟨quoted parts, ⟨0, (quoted parts).utf8ByteSize⟩⟩]⟩ := by
  refine ⟨fun parts s h => lex_of_denoted h, ?_, fun parts h => lex_of_unknown h⟩
  intro escapes s source
  exact lex_of_denoted (TextPart.denoted?_spelling escapes s.toList)

theorem lex_quoted_backslashes :
    lex "\"\u00e9\\\\\"" = ⟨[⟨.text "\u00e9\\", ⟨0, 6⟩⟩], []⟩ ∧
      lex "\"\\\"\\q\"" = ⟨[], [⟨"\"\\\"\\q\"", ⟨0, 6⟩⟩]⟩ := by
  obtain ⟨hknown, -, hunknown⟩ := lex_quoted
  constructor
  · exact hknown [.plain '\u00e9' (by decide), .backslash] "\u00e9\\" rfl
  · exact hunknown [.quote, .unknown 'q' (by decide)] ⟨.unknown 'q' (by decide), by simp, rfl⟩

end SnippetEval
