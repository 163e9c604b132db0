import TsBuild.Config.Text
import TsBuild.Json.Writer
import TsBuild.Proofs.Json.Agreement

/-!
# Comments and trailing commas do not change a configuration

A text decorates another when it is that text with blanks, comments and trailing commas put between its tokens
(`Decorated`). Stripped of comments and commas it is the other text with more blanks (`Decorated.spaced`), so it
has the same value (`parse_decorated`).
-/

namespace TsBuild.Config

open Comments
open Json (Place Spaced isWord nextToken? NoValue IsLost)
open Json.Reader (isBlank)

-- ---------------------------------------------------------------------------
-- Decorations
-- ---------------------------------------------------------------------------

/-- A blank, a block comment, or a line comment with the line feed that ends it. -/
inductive Trivia : List Char → Prop
  | blank (c : Char) (h : isBlank c) : Trivia [c]
  | block (body : List Char) (h : ¬['*', '/'] <:+: body) : Trivia ('/' :: '*' :: (body ++ ['*', '/']))
  | line (body : List Char) (h : '\n' ∉ body) : Trivia ('/' :: '/' :: (body ++ ['\n']))

def Closes (cs : List Char) : Prop := nextToken? cs = some '\x7d' ∨ nextToken? cs = some ']'

/-- Whether a value may end with the character, or has ended and only blanks follow. -/
def endsValue (place : Place) (ended : Bool) (c : Char) : Bool :=
  match place with
  | .quoted => c = '"'
  | .escaped => false
  | .between | .word => if isBlank c then ended else isWord c || c = '\x7d' || c = ']'

/-- The second text is the first with trivia put between its tokens, and at most one comma between the end of a
value and a closing bracket. `ended` tells whether a value has ended and has no such comma yet. -/
inductive Decorated : Place → (ended : Bool) → List Char → List Char → Prop
  | nil : Decorated place ended [] []
  | keep (c : Char) : Decorated (place.next c) (endsValue place ended c) plain text →
      Decorated place ended (c :: plain) (c :: text)
  | trivia (piece : List Char) (hpiece : Trivia piece) (hgap : place.IsGap plain) :
      Decorated place ended plain text → Decorated place ended plain (piece ++ text)
  | comma (hplace : place.IsOutside) (hcloses : Closes plain) :
      Decorated place false plain text → Decorated place true plain (',' :: text)
  | last (body : List Char) (hplace : place.IsOutside) (hbody : '\n' ∉ body) :
      Decorated place ended [] ('/' :: '/' :: body)

-- ---------------------------------------------------------------------------
-- Stripping from a place on
-- ---------------------------------------------------------------------------

def region : Place → Region
  | .between | .word => .plain
  | .quoted => .quoted
  | .escaped => .escaped

def stripFrom (place : Place) (cs : List Char) : List Char :=
  blankCommas (region place) (blankComments (region place) cs)

variable {place : Place} {c : Char} {cs : List Char}

theorem region_eq_plain (h : place.IsOutside) : region place = .plain := by
  rcases h with rfl | rfl <;> rfl

theorem region_next_quoted (c : Char) : region (Place.quoted.next c) =
    if c = '\\' then .escaped else if c = '"' then .plain else .quoted := by
  rw [Place.next]
  split
  · rfl
  · split <;> rfl

theorem region_next (h : place.IsOutside) (c : Char) :
    region (place.next c) = if c = '"' then .quoted else .plain := by
  rw [h.next_eq, Place.next]
  split
  · rfl
  · split <;> rfl

theorem stripFrom_of_not_isOutside (h : ¬place.IsOutside) :
    stripFrom place (c :: cs) = c :: stripFrom (place.next c) cs := by
  cases place with
  | between => exact absurd (.inl rfl) h
  | word => exact absurd (.inr rfl) h
  | quoted =>
    rw [stripFrom, stripFrom, region_next_quoted]
    rfl
  | escaped => rfl

theorem blankComments_plain (h : c ≠ '/') :
    blankComments .plain (c :: cs) = c :: blankComments (if c = '"' then .quoted else .plain) cs := by
  rw [blankComments]
  · rintro rest rfl
    exact absurd rfl h
  · rintro rest rfl
    exact absurd rfl h

theorem blankCommas_plain (h : (c = ',' && closesNext cs) = false) :
    blankCommas .plain (c :: cs) = c :: blankCommas (if c = '"' then .quoted else .plain) cs := by
  rw [blankCommas, h]
  · rfl
  · exact nofun
  · exact nofun

theorem blankCommas_comma (h : closesNext cs) : blankCommas .plain (',' :: cs) = ' ' :: blankCommas .plain cs := by
  rw [blankCommas, h]
  · rfl
  · exact nofun
  · exact nofun

/-- Outside of strings a character stays, unless a comment begins or a bracket follows a comma. -/
theorem stripFrom_of_isOutside (h : place.IsOutside) (hslash : c ≠ '/')
    (hcomma : (c = ',' && closesNext (blankComments .plain cs)) = false) :
    stripFrom place (c :: cs) = c :: stripFrom (place.next c) cs := by
  rw [stripFrom, stripFrom, region_eq_plain h, region_next h, blankComments_plain hslash]
  by_cases hquote : c = '"'
  · subst hquote
    exact blankCommas_plain rfl
  · rw [if_neg hquote, blankCommas_plain hcomma, if_neg hquote]

theorem stripFrom_comma (h : place.IsOutside) (hcloses : closesNext (blankComments .plain cs)) :
    stripFrom place (',' :: cs) = ' ' :: stripFrom .between cs := by
  rw [stripFrom, region_eq_plain h, blankComments_plain (by decide)]
  exact blankCommas_comma hcloses

theorem blankComments_slash (cs : List Char) :
    ∃ c rest, blankComments .plain ('/' :: cs) = c :: rest ∧ (c = ' ' ∨ c = '/') := by
  cases cs with
  | nil => exact ⟨'/', [], rfl, .inr rfl⟩
  | cons c cs =>
    by_cases hslash : c = '/'
    · subst hslash
      exact ⟨' ', ' ' :: blankComments .line cs, rfl, .inl rfl⟩
    · by_cases hstar : c = '*'
      · subst hstar
        exact ⟨' ', ' ' :: blankComments .block cs, rfl, .inl rfl⟩
      · refine ⟨'/', blankComments .plain (c :: cs), ?_, .inr rfl⟩
        rw [blankComments]
        · rfl
        · rintro rest - heq
          cases heq
          exact hslash rfl
        · rintro rest - heq
          cases heq
          exact hstar rfl

theorem stripFrom_eq (h : place.IsOutside) : stripFrom place cs = stripFrom .between cs := by
  rcases h with rfl | rfl <;> rfl

theorem head_stripFrom_slash (h : place.IsOutside) :
    ∀ b ∈ (stripFrom place ('/' :: cs)).head?, isWord b = false := by
  obtain ⟨c, rest, hcomments, hc⟩ := blankComments_slash cs
  rw [stripFrom, region_eq_plain h, hcomments]
  rcases hc with rfl | rfl
  · rw [blankCommas_plain rfl]
    rintro _ ⟨⟩
    decide
  · rw [blankCommas_plain rfl]
    rintro _ ⟨⟩
    decide

-- ---------------------------------------------------------------------------
-- Trivia
-- ---------------------------------------------------------------------------

theorem ne_of_isBlank {d : Char} (h : isBlank c) (hd : isBlank d = false) : c ≠ d := by
  rintro rfl
  exact Bool.eq_false_iff.mp hd h

theorem isBlank_of_mem_blank (h : b ∈ blank c) : isBlank b := by
  rw [blank] at h
  split at h
  · cases List.mem_singleton.mp h
    rfl
  · rw [(List.mem_replicate.mp h).2]
    rfl

theorem blankComments_line {body : List Char} (h : '\n' ∉ body) (cs : List Char) :
    blankComments .line (body ++ cs) = body.flatMap blank ++ blankComments .line cs := by
  induction body with
  | nil => rfl
  | cons c body ih =>
    rw [List.mem_cons, not_or] at h
    rw [List.cons_append, blankComments, if_neg (Ne.symm h.1), ih h.2, List.flatMap_cons, List.append_assoc]

theorem blankComments_block {body : List Char} (h : ¬['*', '/'] <:+: body) (cs : List Char) :
    blankComments .block (body ++ '*' :: '/' :: cs) =
      body.flatMap blank ++ ' ' :: ' ' :: blankComments .plain cs := by
  induction body with
  | nil => rfl
  | cons c body ih =>
    rw [List.infix_cons_iff, not_or] at h
    rw [List.cons_append, blankComments, ih h.2, List.flatMap_cons, List.append_assoc]
    -- the star of the body is not followed by a slash, neither in the body nor behind it
    rintro rest rfl heq
    cases body with
    | nil => cases heq
    | cons c' body =>
      cases heq
      exact h.1 ⟨body, rfl⟩

theorem isBlank_of_mem_flatMap {body : List Char} (h : b ∈ body.flatMap blank) : isBlank b := by
  obtain ⟨c, -, hb⟩ := List.mem_flatMap.mp h
  exact isBlank_of_mem_blank hb

theorem Trivia.blanked (h : Trivia piece) (cs : List Char) :
    ∃ blanks, (∀ b ∈ blanks, isBlank b) ∧
      blankComments .plain (piece ++ cs) = blanks ++ blankComments .plain cs := by
  cases h with
  | blank c h =>
    refine ⟨[c], by simpa using h, ?_⟩
    rw [List.singleton_append, blankComments_plain (ne_of_isBlank h rfl), if_neg (ne_of_isBlank h rfl),
      List.singleton_append]
  | block body h =>
    refine ⟨' ' :: ' ' :: (body.flatMap Comments.blank ++ [' ', ' ']), ?_, ?_⟩
    · simp only [List.forall_mem_cons, List.forall_mem_append]
      exact ⟨rfl, rfl, fun b => isBlank_of_mem_flatMap, rfl, rfl, fun b hb => absurd hb List.not_mem_nil⟩
    · rw [List.cons_append, List.cons_append, List.append_assoc, List.cons_append, List.cons_append,
        List.nil_append, blankComments, blankComments_block h, List.cons_append, List.cons_append,
        List.append_assoc, List.cons_append, List.cons_append, List.nil_append]
  | line body h =>
    refine ⟨' ' :: ' ' :: (body.flatMap Comments.blank ++ ['\n']), ?_, ?_⟩
    · simp only [List.forall_mem_cons, List.forall_mem_append]
      exact ⟨rfl, rfl, fun b => isBlank_of_mem_flatMap, rfl, fun b hb => absurd hb List.not_mem_nil⟩
    · rw [List.cons_append, List.cons_append, List.append_assoc, List.singleton_append, blankComments,
        blankComments_line h, blankComments, if_pos rfl, List.cons_append, List.cons_append, List.append_assoc,
        List.singleton_append]

theorem blankCommas_blanks {blanks : List Char} (h : ∀ b ∈ blanks, isBlank b) (cs : List Char) :
    blankCommas .plain (blanks ++ cs) = blanks ++ blankCommas .plain cs := by
  induction blanks with
  | nil => rfl
  | cons b blanks ih =>
    rw [List.forall_mem_cons] at h
    have hcomma : b ≠ ',' := ne_of_isBlank h.1 rfl
    rw [List.cons_append, blankCommas_plain (by simp [hcomma]), if_neg (ne_of_isBlank h.1 rfl), ih h.2,
      List.cons_append]

theorem Trivia.stripped (h : Trivia piece) (hplace : place.IsOutside) (cs : List Char) :
    ∃ blanks, (∀ b ∈ blanks, isBlank b) ∧ stripFrom place (piece ++ cs) = blanks ++ stripFrom place cs := by
  obtain ⟨blanks, hblanks, hcomments⟩ := h.blanked cs
  refine ⟨blanks, hblanks, ?_⟩
  rw [stripFrom, stripFrom, region_eq_plain hplace, hcomments, blankCommas_blanks hblanks]

theorem stripFrom_last {body : List Char} (h : '\n' ∉ body) (hplace : place.IsOutside) :
    ∀ b ∈ stripFrom place ('/' :: '/' :: body), isBlank b := by
  have hbody := blankComments_line h []
  rw [List.append_nil, blankComments, List.append_nil] at hbody
  have hblanks : ∀ b ∈ ' ' :: ' ' :: body.flatMap blank, isBlank b := by
    simp only [List.forall_mem_cons]
    exact ⟨rfl, rfl, fun b => isBlank_of_mem_flatMap⟩
  have hcommas := blankCommas_blanks hblanks []
  rw [List.append_nil, blankCommas, List.append_nil] at hcommas
  rw [stripFrom, region_eq_plain hplace, blankComments, hbody, hcommas]
  exact hblanks

-- ---------------------------------------------------------------------------
-- Commas
-- ---------------------------------------------------------------------------

theorem isAsciiBlank_of_isBlank (h : isBlank c) : Text.isAsciiBlank c := by
  simp only [isBlank, Bool.or_eq_true, decide_eq_true_eq] at h
  rcases h with ((rfl | rfl) | rfl) | rfl <;> rfl

theorem closesNext_cons_blank (h : Text.isAsciiBlank c) : closesNext (c :: cs) = closesNext cs := by
  rw [closesNext, closesNext, List.dropWhile_cons_of_pos h]

theorem closesNext_blanks {blanks : List Char} (h : ∀ b ∈ blanks, isBlank b) :
    closesNext (blanks ++ cs) = closesNext cs := by
  induction blanks with
  | nil => rfl
  | cons b blanks ih =>
    rw [List.forall_mem_cons] at h
    rw [List.cons_append, closesNext_cons_blank (isAsciiBlank_of_isBlank h.1), ih h.2]

theorem closesNext_cons (h : ¬Text.isAsciiBlank c) : closesNext (c :: cs) = (c = '\x7d' || c = ']') := by
  rw [closesNext, List.dropWhile_cons_of_neg h]

theorem closesNext_blankCommas (h : closesNext cs) : closesNext (blankCommas .plain cs) := by
  induction cs with
  | nil => exact h
  | cons c cs ih =>
    by_cases hc : Text.isAsciiBlank c
    · have hcomma : c ≠ ',' := by
        rintro rfl
        exact absurd hc (by decide)
      have hquote : c ≠ '"' := by
        rintro rfl
        exact absurd hc (by decide)
      rw [closesNext_cons_blank hc] at h
      rw [blankCommas_plain (by simp [hcomma]), if_neg hquote, closesNext_cons_blank hc]
      exact ih h
    · rw [closesNext_cons hc] at h
      have hcomma : c ≠ ',' := by
        rintro rfl
        exact absurd h (by decide)
      rw [blankCommas_plain (by simp [hcomma]), closesNext_cons hc]
      exact h

/-- If the spaced text goes on with a closing bracket, no value begins in the other. -/
theorem noValue_of_closesNext (h : Spaced place as bs) (hplace : place.IsOutside) (hcloses : closesNext bs) :
    NoValue as := by
  induction h with
  | nil => exact fun c hc => nomatch hc
  | keep c _ ih =>
    by_cases hblank : isBlank c
    · rw [closesNext_cons_blank (isAsciiBlank_of_isBlank hblank)] at hcloses
      rw [NoValue, Json.nextToken?_cons_blank hblank]
      exact ih (.inl (Json.next_of_isBlank hplace hblank)) hcloses
    · rw [NoValue, Json.nextToken?_cons (Bool.eq_false_iff.mpr hblank)]
      rintro _ ⟨⟩
      by_cases hc : Text.isAsciiBlank c
      · simp only [Text.isAsciiBlank, Bool.or_eq_true, decide_eq_true_eq] at hc
        rcases hc with (((rfl | rfl) | rfl) | rfl) | rfl <;> decide
      · rw [closesNext_cons hc, Bool.or_eq_true, decide_eq_true_eq, decide_eq_true_eq] at hcloses
        rcases hcloses with rfl | rfl <;> decide
  | blank hb _ _ ih =>
    rw [closesNext_cons_blank (isAsciiBlank_of_isBlank hb)] at hcloses
    exact ih hplace hcloses
  | lost _ hlost _ => exact Json.noValue_of_isLost hlost

theorem closes_cons_blank (h : isBlank c) : Closes (c :: cs) ↔ Closes cs := by
  rw [Closes, Closes, Json.nextToken?_cons_blank h]

theorem closes_cons (h : ¬isBlank c) : Closes (c :: cs) ↔ c = '\x7d' ∨ c = ']' := by
  rw [Closes, Json.nextToken?_cons (Bool.eq_false_iff.mpr h), Option.some_inj, Option.some_inj]

theorem not_closes_nil : ¬Closes [] := nofun

theorem endsValue_blank (hplace : place.IsOutside) (h : isBlank c) (ended : Bool) :
    endsValue place ended c = ended := by
  rcases hplace with rfl | rfl <;> exact if_pos h

/-- Behind a comma that was put before a closing bracket, only blanks are left up to the bracket. -/
theorem closesNext_of_decorated (h : Decorated place ended plain text) (hplace : place.IsOutside)
    (hended : ended = false) (hcloses : Closes plain) : closesNext (blankComments .plain text) := by
  induction h with
  | nil => exact absurd hcloses not_closes_nil
  | keep c _ ih =>
    by_cases hblank : isBlank c
    · rw [blankComments_plain (ne_of_isBlank hblank rfl), if_neg (ne_of_isBlank hblank rfl),
        closesNext_cons_blank (isAsciiBlank_of_isBlank hblank)]
      exact ih (.inl (Json.next_of_isBlank hplace hblank)) (by rw [endsValue_blank hplace hblank, hended])
        ((closes_cons_blank hblank).mp hcloses)
    · rcases (closes_cons hblank).mp hcloses with rfl | rfl
      · exact closesNext_cons (by decide)
      · exact closesNext_cons (by decide)
  | trivia piece hpiece _ _ ih =>
    obtain ⟨blanks, hblanks, hcomments⟩ := hpiece.blanked _
    rw [hcomments, closesNext_blanks hblanks]
    exact ih hplace hended hcloses
  | comma => cases hended
  | last => exact absurd hcloses not_closes_nil

theorem Closes.isGap (h : Closes cs) (hplace : place.IsOutside) : place.IsGap cs := by
  rcases hplace with rfl | rfl
  · trivial
  · cases cs with
    | nil => exact nofun
    | cons c cs =>
      rintro _ ⟨⟩
      by_cases hblank : isBlank c
      · exact Json.isWord_of_isBlank hblank
      · rcases (closes_cons hblank).mp h with rfl | rfl <;> decide

theorem spaced_blanks {blanks : List Char} (hblanks : ∀ b ∈ blanks, isBlank b) (hgap : place.IsGap as)
    (h : Spaced place as bs) : Spaced place as (blanks ++ bs) := by
  induction blanks with
  | nil => exact h
  | cons b blanks ih =>
    rw [List.forall_mem_cons] at hblanks
    exact .blank hblanks.1 hgap (ih hblanks.2)

/-- A decorated text without its comments and trailing commas is the text itself with more blanks. -/
theorem Decorated.spaced (h : Decorated place ended plain text) : Spaced place plain (stripFrom place text) := by
  induction h with
  | nil =>
    rw [stripFrom, blankComments, blankCommas]
    exact .nil
  | @keep place _ _ text c _ ih =>
    by_cases hplace : place.IsOutside
    · by_cases hslash : c = '/'
      · subst hslash
        exact .lost hplace trivial (head_stripFrom_slash hplace)
      · by_cases hcomma : c = ',' && closesNext (blankComments .plain text)
        · -- a comma of the text itself: it is blanked only where no value follows it
          obtain ⟨hc, hcloses⟩ := Bool.and_eq_true_iff.mp hcomma
          cases of_decide_eq_true hc
          have hnext : (place.next ',').IsOutside := hplace.next_eq ',' ▸ .inl rfl
          have hstripped : closesNext (stripFrom (place.next ',') text) := by
            rw [stripFrom, region_eq_plain hnext]
            exact closesNext_blankCommas hcloses
          have hnone := noValue_of_closesNext ih hnext hstripped
          rw [stripFrom_comma hplace hcloses]
          exact .lost hplace hnone (by rintro _ ⟨⟩; decide)
        · rw [stripFrom_of_isOutside hplace hslash (Bool.eq_false_iff.mpr hcomma)]
          exact .keep c ih
    · rw [stripFrom_of_not_isOutside hplace]
      exact .keep c ih
  | trivia piece hpiece hgap _ ih =>
    obtain ⟨blanks, hblanks, hstripped⟩ := hpiece.stripped hgap.isOutside _
    rw [hstripped]
    exact spaced_blanks hblanks hgap ih
  | comma hplace hcloses hdecorated ih =>
    rw [stripFrom_comma hplace (closesNext_of_decorated hdecorated hplace rfl hcloses), ← stripFrom_eq hplace]
    exact .blank rfl (hcloses.isGap hplace) ih
  | @last place _ body hplace hbody =>
    have hgap : place.IsGap [] := by
      rcases hplace with rfl | rfl
      · trivial
      · exact nofun
    have hblanks := spaced_blanks (stripFrom_last hbody hplace) hgap .nil
    rwa [List.append_nil] at hblanks

/-- A text that decorates JSON is read as the value of that JSON. -/
theorem parse_decorated {name plain text : String} (hread : Json.read plain = .ok value)
    (hdecorated : Decorated .between false plain.toList text.toList) :
    parse name text = .ok (value, ⟨name, text⟩) := by
  have hspaced : Spaced .between plain.toList (strip text).toList := by
    rw [strip, String.toList_ofList]
    exact hdecorated.spaced
  rw [parse, Json.read_of_spaced hread hspaced]

theorem parse_decorated_commented :
    let plain := "[\"/*\",1]"
    let text := "[\"/*\",1,/* \",é]*/]// \""
    ∃ value, Json.read plain = .ok value ∧ value.compact = plain ∧
      parse "tsconfig.json" text = .ok (value, ⟨"tsconfig.json", text⟩) := by
  intro plain text
  have hvalue : (Json.read plain).toOption.map Json.compact = some plain := by decide +kernel
  have hbracket : Decorated .word false [']'] [']', '/', '/', ' ', '"'] :=
    .keep ']' (.last [' ', '"'] (.inl rfl) (by decide))
  have hcomment : Decorated .word false [']']
      ['/', '*', ' ', '"', ',', 'é', ']', '*', '/', ']', '/', '/', ' ', '"'] :=
    .trivia ['/', '*', ' ', '"', ',', 'é', ']', '*', '/'] (.block [' ', '"', ',', 'é', ']'] (by decide))
      (by rintro _ ⟨⟩; decide) hbracket
  have hdecorated : Decorated .between false plain.toList text.toList := by
    have hplain : plain.toList = ['[', '"', '/', '*', '"', ',', '1', ']'] := by decide +kernel
    have htext : text.toList = ['[', '"', '/', '*', '"', ',', '1', ',',
      '/', '*', ' ', '"', ',', 'é', ']', '*', '/', ']', '/', '/', ' ', '"'] := by decide +kernel
    rw [hplain, htext]
    exact .keep '[' <| .keep '"' <| .keep '/' <| .keep '*' <| .keep '"' <| .keep ',' <| .keep '1' <|
      .comma (.inr rfl) (.inr rfl) hcomment
  cases hread : Json.read plain with
  | ok value =>
    rw [hread] at hvalue
    exact ⟨value, rfl, Option.some.inj hvalue, parse_decorated hread hdecorated⟩
  | error fault =>
    rw [hread] at hvalue
    cases hvalue

end TsBuild.Config
