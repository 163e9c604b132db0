import TsBuild.Proofs.Config.Blanks
import TsBuild.Proofs.Config.Decoration
import TsBuild.Proofs.Text.Encoding

/-!
# Stripping by lexemes

The bytes of a configuration are string literals, comments and single other bytes, read from left to right
(`lex`). Stripped, its literals are as they were, its comments are blank, and so are the commas that a closing
bracket follows, blanks and comments apart (`blanked`). The scans of `strip` go over the characters twice and
come to the same bytes (`bytes_strip`).
-/

namespace TsBuild.Config.Comments

open TsBuild.Text (encode encode_nil encode_cons encode_append encode_cons_of_one bytes mem_utf8EncodeChar
  utf8EncodeChar_of_one head_encode)

-- ---------------------------------------------------------------------------
-- Lexemes
-- ---------------------------------------------------------------------------

inductive Lexeme
  | literal (bytes : List UInt8)
  | comment (bytes : List UInt8)
  | other (byte : UInt8)

def Lexeme.bytes : Lexeme → List UInt8
  | literal bytes => bytes
  | comment bytes => bytes
  | other byte => [byte]

/-- How far a string literal goes on behind its opening quote: through the next quote that is not escaped. -/
def literalEnd : List UInt8 → Nat
  | [] => 0
  | [_] => 1
  | b :: next :: bs =>
    if b = '"'.toUInt8 then 1
    else if b = '\\'.toUInt8 then literalEnd bs + 2
    else literalEnd (next :: bs) + 1

def lineEnd (bs : List UInt8) : Nat := (bs.takeWhile (· ≠ '\n'.toUInt8)).length

/-- How far a block comment goes on behind its opening: through the first star and slash. -/
def blockEnd : List UInt8 → Nat
  | [] => 0
  | b :: bs => if b = '*'.toUInt8 ∧ bs.head? = some '/'.toUInt8 then 2 else blockEnd bs + 1

def lex : List UInt8 → List Lexeme
  | [] => []
  | b :: bs =>
    if b = '"'.toUInt8 then
      .literal (b :: bs.take (literalEnd bs)) :: lex (bs.drop (literalEnd bs))
    else if b = '/'.toUInt8 ∧ bs.head? = some '/'.toUInt8 then
      .comment (b :: bs.take (lineEnd bs)) :: lex (bs.drop (lineEnd bs))
    else if b = '/'.toUInt8 ∧ bs.head? = some '*'.toUInt8 then
      .comment (b :: bs.take (blockEnd bs.tail + 1)) :: lex (bs.drop (blockEnd bs.tail + 1))
    else .other b :: lex bs
termination_by bs => bs.length

theorem flatMap_bytes_lex (bs : List UInt8) : (lex bs).flatMap Lexeme.bytes = bs := by
  fun_induction lex bs with
  | case1 => rfl
  | case2 bs ih => simp [Lexeme.bytes, ih]
  | case3 b bs _ _ ih => simp [Lexeme.bytes, ih]
  | case4 b bs _ _ _ ih => simp [Lexeme.bytes, ih]
  | case5 b bs _ _ _ ih => simp [Lexeme.bytes, ih]

-- ---------------------------------------------------------------------------
-- Blanks
-- ---------------------------------------------------------------------------

def isBlankByte (b : UInt8) : Bool := b ∈ [' ', '\t', '\n', '\x0c', '\r'].map Char.toUInt8

def blankByte (b : UInt8) : UInt8 := if b = '\n'.toUInt8 then b else ' '.toUInt8

def Lexeme.visible : Lexeme → List UInt8
  | comment _ => []
  | lexeme => lexeme.bytes

def closesBytes (bs : List UInt8) : Bool :=
  (bs.find? fun b => !isBlankByte b).any fun b => b = '\x7d'.toUInt8 || b = ']'.toUInt8

/-- Whether a closing bracket follows, blanks and comments apart. -/
def closes (following : List Lexeme) : Bool := closesBytes (following.flatMap Lexeme.visible)

def blanked : List Lexeme → List UInt8
  | [] => []
  | .literal bytes :: following => bytes ++ blanked following
  | .comment bytes :: following => bytes.map blankByte ++ blanked following
  | .other byte :: following =>
    (if byte = ','.toUInt8 ∧ closes following then ' '.toUInt8 else byte) :: blanked following

def Lexeme.uncommented : Lexeme → List UInt8
  | comment bytes => bytes.map blankByte
  | lexeme => lexeme.bytes

-- ---------------------------------------------------------------------------
-- Lexemes from inside
-- ---------------------------------------------------------------------------

def inside (region : Region) (bs : List UInt8) : List Lexeme :=
  match region with
  | .plain => lex bs
  | .quoted => .literal (bs.take (literalEnd bs)) :: lex (bs.drop (literalEnd bs))
  | .escaped => .literal (bs.take (literalEnd bs.tail + 1)) :: lex (bs.drop (literalEnd bs.tail + 1))
  | .line => .comment (bs.take (lineEnd bs)) :: lex (bs.drop (lineEnd bs))
  | .block => .comment (bs.take (blockEnd bs)) :: lex (bs.drop (blockEnd bs))

/-- Lexemes are rendered one by one: literals as they are, comments blank, and other bytes but commas as they
are. -/
structure Renders (render : List Lexeme → List UInt8) : Prop where
  nil : render [] = []
  literal (bytes following) : render (.literal bytes :: following) = bytes ++ render following
  comment (bytes following) : render (.comment bytes :: following) = bytes.map blankByte ++ render following
  other (byte following) (h : byte ≠ ','.toUInt8) : render (.other byte :: following) = byte :: render following

theorem renders_uncommented : Renders (List.flatMap Lexeme.uncommented) where
  nil := rfl
  literal _ _ := rfl
  comment _ _ := rfl
  other _ _ _ := rfl

theorem renders_blanked : Renders blanked where
  nil := rfl
  literal _ _ := rfl
  comment _ _ := rfl
  other _ _ h := by simp [blanked, h]

variable {c : Char} {cs : List Char} {bs : List UInt8} {b : UInt8}

theorem literalEnd_cons (hquote : b ≠ '"'.toUInt8) (hescape : b ≠ '\\'.toUInt8) (bs : List UInt8) :
    literalEnd (b :: bs) = literalEnd bs + 1 := by
  cases bs <;> simp [literalEnd, hquote, hescape]

theorem literalEnd_append {piece : List UInt8} (h : ∀ b ∈ piece, b ≠ '"'.toUInt8 ∧ b ≠ '\\'.toUInt8)
    (bs : List UInt8) : literalEnd (piece ++ bs) = piece.length + literalEnd bs := by
  induction piece with
  | nil => simp
  | cons b piece ih =>
    simp only [List.forall_mem_cons] at h
    rw [List.cons_append, literalEnd_cons h.1.1 h.1.2, ih h.2, List.length_cons]
    omega

theorem ne_of_mem_encodeChar {k : Char} (hk : k.utf8Size = 1) (h : c ≠ k) :
    ∀ b ∈ String.utf8EncodeChar c, b ≠ k.toUInt8 := by
  rintro b hb rfl
  exact h ((mem_utf8EncodeChar hk).mp hb)

theorem not_end (h : ∀ rest, c = '*' → cs = '/' :: rest → False) : ¬(c = '*' ∧ cs.head? = some '/') := by
  rintro ⟨rfl, hhead⟩
  obtain ⟨rest, rfl⟩ := List.head?_eq_some_iff.mp hhead
  exact h rest rfl rfl

theorem not_comment (hline : ∀ rest, c = '/' → cs = '/' :: rest → False)
    (hblock : ∀ rest, c = '/' → cs = '*' :: rest → False) :
    ¬(c = '/' ∧ (cs.head? = some '/' ∨ cs.head? = some '*')) := by
  rintro ⟨rfl, hhead | hhead⟩
  · obtain ⟨rest, rfl⟩ := List.head?_eq_some_iff.mp hhead
    exact hline rest rfl rfl
  · obtain ⟨rest, rfl⟩ := List.head?_eq_some_iff.mp hhead
    exact hblock rest rfl rfl

theorem ne_of_mem_tail {k : Char} {rest : List UInt8} (hk : k.utf8Size = 1)
    (h : String.utf8EncodeChar c = b :: rest) : ∀ b ∈ rest, b ≠ k.toUInt8 := by
  rintro b hb rfl
  have hc : c = k := (mem_utf8EncodeChar hk).mp (by simp [h, hb])
  subst hc
  rw [utf8EncodeChar_of_one hk] at h
  obtain ⟨-, rfl⟩ := List.cons.inj h
  cases hb

theorem lineEnd_append {piece : List UInt8} (h : ∀ b ∈ piece, b ≠ '\n'.toUInt8) (bs : List UInt8) :
    lineEnd (piece ++ bs) = piece.length + lineEnd bs := by
  rw [lineEnd, lineEnd, List.takeWhile_append_of_pos (by simpa using h), List.length_append]

theorem blockEnd_append {piece : List UInt8} (h : ∀ b ∈ piece, b ≠ '*'.toUInt8) (bs : List UInt8) :
    blockEnd (piece ++ bs) = piece.length + blockEnd bs := by
  induction piece with
  | nil => simp
  | cons b piece ih =>
    simp only [List.forall_mem_cons] at h
    rw [List.cons_append, blockEnd, if_neg (by simp [h.1]), ih h.2, List.length_cons]
    omega

theorem lex_append {piece : List UInt8} (h : ∀ b ∈ piece, b ≠ '"'.toUInt8 ∧ b ≠ '/'.toUInt8) (bs : List UInt8) :
    lex (piece ++ bs) = piece.map .other ++ lex bs := by
  induction piece with
  | nil => rfl
  | cons b piece ih =>
    simp only [List.forall_mem_cons] at h
    simp [lex, h.1, ih h.2]

namespace Renders

variable {render : List Lexeme → List UInt8} (h : Renders render)
include h

theorem inside_nil (region : Region) : render (inside region []) = [] := by
  cases region <;> simp [inside, lex, lineEnd, blockEnd, literalEnd, h.nil, h.literal, h.comment]

theorem others {piece : List UInt8} (hpiece : ∀ b ∈ piece, b ≠ ','.toUInt8) (following : List Lexeme) :
    render (piece.map .other ++ following) = piece ++ render following := by
  induction piece with
  | nil => rfl
  | cons b piece ih =>
    simp only [List.forall_mem_cons] at hpiece
    simp [h.other _ _ hpiece.1, ih hpiece.2]

theorem literal_append (piece bs : List UInt8) (n : Nat) :
    render (.literal ((piece ++ bs).take (piece.length + n)) :: lex ((piece ++ bs).drop (piece.length + n))) =
      piece ++ render (.literal (bs.take n) :: lex (bs.drop n)) := by
  rw [List.take_length_add_append, List.drop_length_add_append, h.literal, h.literal, List.append_assoc]

theorem comment_append (piece bs : List UInt8) (n : Nat) :
    render (.comment ((piece ++ bs).take (piece.length + n)) :: lex ((piece ++ bs).drop (piece.length + n))) =
      piece.map blankByte ++ render (.comment (bs.take n) :: lex (bs.drop n)) := by
  rw [List.take_length_add_append, List.drop_length_add_append, h.comment, h.comment, List.map_append,
    List.append_assoc]

theorem quoted (c : Char) (bs : List UInt8) :
    render (inside .quoted (String.utf8EncodeChar c ++ bs)) = String.utf8EncodeChar c ++
      render (inside (if c = '\\' then .escaped else if c = '"' then .plain else .quoted) bs) := by
  by_cases hescape : c = '\\'
  · subst hescape
    rw [utf8EncodeChar_of_one (by decide)]
    cases bs with
    | nil => simp +decide [inside, literalEnd, h.literal, lex]
    | cons b bs => simp +decide [inside, literalEnd, h.literal]
  · by_cases hquote : c = '"'
    · subst hquote
      rw [utf8EncodeChar_of_one (by decide)]
      cases bs <;> simp [inside, literalEnd, h.literal]
    · have hplain : ∀ b ∈ String.utf8EncodeChar c, b ≠ '"'.toUInt8 ∧ b ≠ '\\'.toUInt8 := fun b hb =>
        ⟨ne_of_mem_encodeChar (by decide) hquote b hb, ne_of_mem_encodeChar (by decide) hescape b hb⟩
      rw [if_neg hescape, if_neg hquote, inside, literalEnd_append hplain, h.literal_append]
      rfl

/-- The bytes behind the first one of a character end no literal. -/
theorem escaped (c : Char) (bs : List UInt8) :
    render (inside .escaped (String.utf8EncodeChar c ++ bs)) =
      String.utf8EncodeChar c ++ render (inside .quoted bs) := by
  obtain ⟨b, rest, hbytes⟩ := List.exists_cons_of_ne_nil (String.utf8EncodeChar_ne_nil (c := c))
  have hrest : ∀ b ∈ rest, b ≠ '"'.toUInt8 ∧ b ≠ '\\'.toUInt8 := fun b hb =>
    ⟨ne_of_mem_tail (by decide) hbytes b hb, ne_of_mem_tail (by decide) hbytes b hb⟩
  have hend : literalEnd (rest ++ bs) + 1 = (b :: rest).length + literalEnd bs := by
    rw [literalEnd_append hrest, List.length_cons]
    omega
  simp only [hbytes, inside, List.cons_append, List.tail_cons, hend]
  exact h.literal_append (b :: rest) bs (literalEnd bs)

theorem line_newline (bs : List UInt8) :
    render (inside .line ('\n'.toUInt8 :: bs)) = '\n'.toUInt8 :: render (inside .plain bs) := by
  have hlex : lex ('\n'.toUInt8 :: bs) = .other '\n'.toUInt8 :: lex bs := by simp +decide [lex]
  simp +decide [inside, lineEnd, h.comment, hlex, h.other]

theorem line (hc : c ≠ '\n') (bs : List UInt8) :
    render (inside .line (String.utf8EncodeChar c ++ bs)) =
      (String.utf8EncodeChar c).map blankByte ++ render (inside .line bs) := by
  rw [inside, lineEnd_append (ne_of_mem_encodeChar (by decide) hc), h.comment_append]
  rfl

theorem block_end (bs : List UInt8) :
    render (inside .block ('*'.toUInt8 :: '/'.toUInt8 :: bs)) =
      ' '.toUInt8 :: ' '.toUInt8 :: render (inside .plain bs) := by
  simp +decide [inside, blockEnd, h.comment, blankByte]

theorem block (hc : ¬(c = '*' ∧ cs.head? = some '/')) :
    render (inside .block (String.utf8EncodeChar c ++ encode cs)) =
      (String.utf8EncodeChar c).map blankByte ++ render (inside .block (encode cs)) := by
  have hend : blockEnd (String.utf8EncodeChar c ++ encode cs) =
      (String.utf8EncodeChar c).length + blockEnd (encode cs) := by
    by_cases hstar : c = '*'
    · subst hstar
      have hslash : (encode cs).head? ≠ some '/'.toUInt8 := by
        rw [Ne, head_encode (by decide)]
        simpa using hc
      rw [utf8EncodeChar_of_one (by decide)]
      simp [blockEnd, hslash, Nat.add_comm]
    · exact blockEnd_append (ne_of_mem_encodeChar (by decide) hstar) _
  rw [inside, hend, h.comment_append]
  rfl

theorem plain_line (bs : List UInt8) :
    render (inside .plain ('/'.toUInt8 :: '/'.toUInt8 :: bs)) =
      ' '.toUInt8 :: ' '.toUInt8 :: render (inside .line bs) := by
  simp +decide [inside, lex, lineEnd, h.comment, blankByte]

theorem plain_block (bs : List UInt8) :
    render (inside .plain ('/'.toUInt8 :: '*'.toUInt8 :: bs)) =
      ' '.toUInt8 :: ' '.toUInt8 :: render (inside .block bs) := by
  simp +decide [inside, lex, h.comment, blankByte]

theorem plain (hcomma : c ≠ ',') (hcomment : ¬(c = '/' ∧ (cs.head? = some '/' ∨ cs.head? = some '*'))) :
    render (inside .plain (String.utf8EncodeChar c ++ encode cs)) =
      String.utf8EncodeChar c ++ render (inside (if c = '"' then .quoted else .plain) (encode cs)) := by
  by_cases hquote : c = '"'
  · subst hquote
    rw [utf8EncodeChar_of_one (by decide)]
    simp [inside, lex, h.literal]
  · by_cases hslash : c = '/'
    · subst hslash
      simp only [true_and, not_or] at hcomment
      rw [← head_encode (k := '/') (by decide), ← head_encode (k := '*') (by decide)] at hcomment
      rw [utf8EncodeChar_of_one (by decide)]
      simp +decide [inside, lex, hcomment, h.other]
    · have hplain : ∀ b ∈ String.utf8EncodeChar c, b ≠ '"'.toUInt8 ∧ b ≠ '/'.toUInt8 := fun b hb =>
        ⟨ne_of_mem_encodeChar (by decide) hquote b hb, ne_of_mem_encodeChar (by decide) hslash b hb⟩
      simp only [if_neg hquote, inside, lex_append hplain, h.others (ne_of_mem_encodeChar (by decide) hcomma)]

end Renders

-- ---------------------------------------------------------------------------
-- Comments
-- ---------------------------------------------------------------------------

theorem blankByte_of_blank (hb : b ≠ '\n'.toUInt8) : blankByte b = ' '.toUInt8 := if_neg hb

theorem encode_blank (c : Char) : encode (blank c) = (String.utf8EncodeChar c).map blankByte := by
  by_cases hc : c = '\n'
  · subst hc
    rw [utf8EncodeChar_of_one (by decide)]
    rfl
  · have hspaces : ∀ b ∈ String.utf8EncodeChar c, blankByte b = ' '.toUInt8 := fun b hb =>
      blankByte_of_blank (ne_of_mem_encodeChar (by decide) hc b hb)
    rw [blank, if_neg hc, List.map_eq_replicate_iff.mpr hspaces, String.length_utf8EncodeChar]
    induction c.utf8Size with
    | zero => rfl
    | succ n ih => rw [List.replicate_succ, encode_cons, ih]; rfl

theorem inside_comma (bs : List UInt8) : inside .plain (','.toUInt8 :: bs) = .other ','.toUInt8 :: lex bs := by
  simp +decide [inside, lex]

theorem encode_blankComments (region : Region) (cs : List Char) :
    encode (blankComments region cs) = (inside region (encode cs)).flatMap Lexeme.uncommented := by
  have h := renders_uncommented
  fun_induction blankComments region cs with
  | case1 region => exact (h.inside_nil region).symm
  | case2 c cs ih => rw [encode_cons, ih, encode_cons, h.quoted]
  | case3 c cs ih => rw [encode_cons, ih, encode_cons, h.escaped]
  | case4 cs ih => rw [encode_cons_of_one (by decide), ih, encode_cons_of_one (by decide), h.line_newline]
  | case5 c cs hc ih => rw [encode_append, ih, encode_cons, h.line hc, encode_blank]
  | case6 cs ih => simp +decide only [encode_cons_of_one, ih, h.block_end]
  | case7 c cs hend ih => rw [encode_append, ih, encode_cons, h.block (not_end hend), encode_blank]
  | case8 cs ih => simp +decide only [encode_cons_of_one, ih, h.plain_line]
  | case9 cs ih => simp +decide only [encode_cons_of_one, ih, h.plain_block]
  | case10 c cs hline hblock ih =>
    by_cases hcomma : c = ','
    · subst hcomma
      rw [encode_cons_of_one (by decide), ih, encode_cons_of_one (by decide), inside_comma]
      rfl
    · rw [encode_cons, ih, encode_cons, h.plain hcomma (not_comment hline hblock)]

-- ---------------------------------------------------------------------------
-- Commas
-- ---------------------------------------------------------------------------

theorem closesBytes_blanks {blanks : List UInt8} (h : ∀ b ∈ blanks, isBlankByte b) (bs : List UInt8) :
    closesBytes (blanks ++ bs) = closesBytes bs := by
  have hnone : blanks.find? (fun b => !isBlankByte b) = none := by simpa using h
  simp [closesBytes, List.find?_append, hnone]

theorem closesBytes_append (bs : List UInt8) (h : closesBytes as = closesBytes as') :
    closesBytes (bs ++ as) = closesBytes (bs ++ as') := by
  simp only [closesBytes, List.find?_append] at h ⊢
  cases bs.find? (fun b => !isBlankByte b) with
  | none => exact h
  | some b => rfl

theorem isBlankByte_blankByte (b : UInt8) : isBlankByte (blankByte b) := by
  unfold blankByte
  split
  · next hb => rw [hb]; decide
  · decide

theorem closes_eq (following : List Lexeme) :
    closes following = closesBytes (following.flatMap Lexeme.uncommented) := by
  induction following with
  | nil => rfl
  | cons lexeme following ih =>
    cases lexeme with
    | literal | other => exact closesBytes_append _ ih
    | comment bytes =>
      have hblank : ∀ b ∈ bytes.map blankByte, isBlankByte b := by
        simp only [List.forall_mem_map]
        exact fun b _ => isBlankByte_blankByte b
      exact ih.trans (closesBytes_blanks hblank _).symm

theorem closesNext_eq (cs : List Char) : closesNext cs = closesBytes (encode cs) := by
  induction cs with
  | nil => rfl
  | cons c cs ih =>
    by_cases hc : Text.isAsciiBlank c
    · have hbyte : c.utf8Size = 1 ∧ isBlankByte c.toUInt8 := by
        simp only [Text.isAsciiBlank, Bool.or_eq_true, decide_eq_true_eq] at hc
        rcases hc with (((rfl | rfl) | rfl) | rfl) | rfl <;> decide
      have hblanks : ∀ b ∈ [c.toUInt8], isBlankByte b := by simpa using hbyte.2
      rw [closesNext_cons_blank hc, ih, encode_cons_of_one hbyte.1]
      exact (closesBytes_blanks hblanks _).symm
    · obtain ⟨b, rest, hbytes⟩ := List.exists_cons_of_ne_nil (String.utf8EncodeChar_ne_nil (c := c))
      have hhead (k : Char) (hk : k.utf8Size = 1) : b = k.toUInt8 ↔ c = k := by
        have hiff : (encode (c :: cs)).head? = some k.toUInt8 ↔ (c :: cs).head? = some k := head_encode hk
        simpa [hbytes] using hiff
      have hblank : isBlankByte b = false := by
        simp only [Text.isAsciiBlank, Bool.or_eq_true, decide_eq_true_eq] at hc
        simpa [isBlankByte, hhead ' ' rfl, hhead '\t' rfl, hhead '\n' rfl, hhead '\x0c' rfl, hhead '\r' rfl,
          and_assoc] using hc
      simp [closesNext_cons hc, closesBytes, hbytes, hblank, hhead '\x7d' rfl, hhead ']' rfl]

theorem closesNext_blankComments (cs : List Char) :
    closesNext (blankComments .plain cs) = closes (lex (encode cs)) := by
  rw [closesNext_eq, encode_blankComments, closes_eq, inside]

/-- Where the second scan is when the first is in the region: comments are blank for it. -/
def Region.outside : Region → Region
  | .quoted => .quoted
  | .escaped => .escaped
  | .plain | .line | .block => .plain

theorem outside_quoted (c : Char) :
    Region.outside (if c = '\\' then .escaped else if c = '"' then .plain else .quoted) =
      if c = '\\' then .escaped else if c = '"' then .plain else .quoted := by
  split
  · rfl
  · split <;> rfl

theorem outside_plain (c : Char) :
    Region.outside (if c = '"' then .quoted else .plain) = if c = '"' then .quoted else .plain := by
  split <;> rfl

theorem blankCommas_space (cs : List Char) : blankCommas .plain (' ' :: cs) = ' ' :: blankCommas .plain cs :=
  blankCommas_plain rfl

theorem encode_blankCommas (region : Region) (cs : List Char) :
    encode (blankCommas region.outside (blankComments region cs)) = blanked (inside region (encode cs)) := by
  have h := renders_blanked
  -- the first scan decides the cases, since the second one reads what it leaves
  fun_induction blankComments region cs with
  | case1 region => rw [blankCommas, encode_nil, h.inside_nil]
  | case2 c cs ih =>
    rw [outside_quoted] at ih
    rw [Region.outside, blankCommas, encode_cons, ih, encode_cons, h.quoted]
  | case3 c cs ih =>
    simp only [Region.outside] at ih ⊢
    rw [blankCommas, encode_cons, ih, encode_cons, h.escaped]
  | case4 cs ih =>
    simp only [Region.outside] at ih ⊢
    rw [blankCommas_plain rfl, encode_cons_of_one rfl, encode_cons_of_one rfl, h.line_newline, ← ih]
    rfl
  | case5 c cs hc ih =>
    simp only [Region.outside] at ih ⊢
    rw [blankCommas_blanks fun _ => isBlank_of_mem_blank, encode_append, ih, encode_cons, h.line hc, encode_blank]
  | case6 cs ih =>
    simp only [Region.outside] at ih ⊢
    simp +decide only [blankCommas_space, encode_cons_of_one, ih, h.block_end]
  | case7 c cs hend ih =>
    simp only [Region.outside] at ih ⊢
    rw [blankCommas_blanks fun _ => isBlank_of_mem_blank, encode_append, ih, encode_cons, h.block (not_end hend),
      encode_blank]
  | case8 cs ih =>
    simp only [Region.outside] at ih ⊢
    simp +decide only [blankCommas_space, encode_cons_of_one, ih, h.plain_line]
  | case9 cs ih =>
    simp only [Region.outside] at ih ⊢
    simp +decide only [blankCommas_space, encode_cons_of_one, ih, h.plain_block]
  | case10 c cs hline hblock ih =>
    rw [outside_plain] at ih
    by_cases hcomma : c = ','
    · subst hcomma
      change encode (blankCommas .plain (blankComments .plain cs)) = blanked (lex (encode cs)) at ih
      change encode (blankCommas .plain (',' :: blankComments .plain cs)) = _
      rw [encode_cons_of_one rfl, inside_comma, blanked, ← closesNext_blankComments, ← ih]
      cases hnext : closesNext (blankComments .plain cs) with
      | true =>
        rw [blankCommas_comma hnext, if_pos ⟨rfl, rfl⟩, encode_cons_of_one rfl]
      | false =>
        rw [blankCommas_plain (by simp [hnext]), if_neg (by decide), if_neg (by simp), encode_cons_of_one rfl]
    · rw [Region.outside, blankCommas_plain (by simp [hcomma]), encode_cons, ih, encode_cons,
        h.plain hcomma (not_comment hline hblock)]

/-- A text is stripped by its lexemes, which are all of its bytes: its literals stay, its comments become blank, and
so do the commas that a closing bracket follows. It is as long as before, and it is text. -/
theorem bytes_strip (text : String) :
    (lex (bytes text)).flatMap Lexeme.bytes = bytes text ∧
      bytes (strip text) = blanked (lex (bytes text)) ∧
      (bytes (strip text)).length = (bytes text).length ∧
      String.fromUTF8? (blanked (lex (bytes text))).toByteArray = some (strip text) := by
  have hbytes : bytes (strip text) = blanked (lex (bytes text)) := by
    rw [strip, Text.bytes_ofList, Text.bytes_eq]
    exact encode_blankCommas .plain text.toList
  refine ⟨flatMap_bytes_lex _, hbytes, ?_, ?_⟩
  · rw [Text.bytes_eq, Text.bytes_eq, Text.length_encode, Text.length_encode, byteLength_strip]
  · rw [← hbytes, Text.fromUTF8_bytes]

end TsBuild.Config.Comments
