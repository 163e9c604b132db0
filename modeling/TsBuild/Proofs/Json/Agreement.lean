import TsBuild.Proofs.Json.Spacing

/-!
# Reading two texts alike

The readers come to the same result from a text and from one with more blanks between its tokens: strings and words
are read character by character alike, and between tokens blanks are passed over. So the more spaced text has the
same value (`read_of_spaced`).
-/

namespace TsBuild.Json

open Reader

-- ---------------------------------------------------------------------------
-- Readers of both texts
-- ---------------------------------------------------------------------------

/-- If the first reader gives a result where the first text is left to read, the second gives the same where the
second is. The texts are related by `R` before and by `S` behind. -/
def Follows (R : List Char → List Char → Prop) (first second : Reader α)
    (S : α → List Char → List Char → Prop) : Prop :=
  ∀ cur cur', R cur.rest cur'.rest → ∀ a later, first cur = .ok (a, later) →
    ∃ later', second cur' = .ok (a, later') ∧ S a later.rest later'.rest

def Agrees (R : List Char → List Char → Prop) (reader : Reader α) (S : α → List Char → List Char → Prop) : Prop :=
  Follows R reader reader S

def Fails (reader : Reader α) (cur : Cursor) : Prop := ∀ a later, reader cur ≠ .ok (a, later)

section
variable {R R' : List Char → List Char → Prop} {S : α → List Char → List Char → Prop}
  {T : β → List Char → List Char → Prop} {first second reader : Reader α} {f g : α → Reader β}

theorem Follows.bind (h : Follows R first second S) (h' : ∀ a, Follows (S a) (f a) (g a) T) :
    Follows R (first >>= f) (second >>= g) T := by
  intro cur cur' hrest b later hok
  obtain ⟨a, mid, hfirst, hf⟩ := ok_of_bind hok
  obtain ⟨mid', hsecond, hmid⟩ := h cur cur' hrest a mid hfirst
  obtain ⟨later', hg, hlater⟩ := h' a mid mid' hmid b later hf
  refine ⟨later', ?_, hlater⟩
  simp only [Bind.bind, StateT.bind, hsecond, Except.bind, hg]

theorem Follows.strengthen (h : Follows R first second S) (hR : ∀ as bs, R' as bs → R as bs) :
    Follows R' first second S := fun cur cur' hrest => h cur cur' (hR _ _ hrest)

theorem Agrees.bind (h : Agrees R reader S) (h' : ∀ a, Agrees (S a) (f a) T) : Agrees R (reader >>= f) T :=
  Follows.bind h h'

theorem Agrees.map (h : Agrees R reader S) (w : α → β) (hS : ∀ a as bs, S a as bs → T (w a) as bs) :
    Agrees R (w <$> reader) T := by
  rw [map_eq_pure_bind]
  exact h.bind fun a cur cur' hrest b later hok => by
    cases hok
    exact ⟨cur', rfl, hS a _ _ hrest⟩

theorem agrees_pure (a : α) (hS : ∀ as bs, R as bs → S a as bs) : Agrees R (pure a) S := by
  intro cur cur' hrest b later hok
  cases hok
  exact ⟨cur', rfl, hS _ _ hrest⟩

theorem follows_of_fails (h : ∀ cur cur' : Cursor, R cur.rest cur'.rest → Fails first cur) :
    Follows R first second S :=
  fun cur cur' hrest a later hok => absurd hok (h cur cur' hrest a later)

theorem fails_fail (cause : Cause) (cur : Cursor) : Fails (fail cause : Reader α) cur := fun _ _ h => nomatch h

theorem fails_failNext (cause : Cause) (cur : Cursor) : Fails (failNext cause : Reader α) cur :=
  fun _ _ h => nomatch h

theorem Fails.bind (h : Fails reader cur) : Fails (reader >>= f) cur := by
  intro b later hok
  obtain ⟨a, mid, hreader, -⟩ := ok_of_bind hok
  exact h a mid hreader

theorem fails_bind (h : ∀ a later, reader cur = .ok (a, later) → Fails (f a) later) :
    Fails (reader >>= f) cur := by
  intro b later hok
  obtain ⟨a, mid, hreader, hf⟩ := ok_of_bind hok
  exact h a mid hreader b later hf

theorem agrees_fail (cause : Cause) : Agrees R (fail cause) S :=
  follows_of_fails fun cur _ _ => fails_fail cause cur

theorem agrees_failNext (cause : Cause) : Agrees R (failNext cause) S :=
  follows_of_fails fun cur _ _ => fails_failNext cause cur

/-- The offset that is asked for here matters for faults only. -/
theorem agrees_get {f : Cursor → Reader β} (h : ∀ start start', Follows R (f start) (f start') T) :
    Agrees R (get >>= f) T :=
  fun cur cur' hrest => h cur cur' cur cur' hrest

def Continues (R : List Char → List Char → Prop) (S : α → List Char → List Char → Prop) :
    σ ⊕ α → List Char → List Char → Prop
  | .inl _ => R
  | .inr a => S a

theorem agrees_loop {step : σ → Reader (σ ⊕ α)} {stuck : Reader α}
    (hstep : ∀ s, Agrees R (step s) (Continues R S))
    (hadvances : ∀ s cur, Advances 1 (step s) cur) (s : σ) : Agrees R (loop step stuck s) S := by
  intro cur cur' hrest a later hok
  generalize hn : cur.rest.length = n
  induction n using Nat.strongRecOn generalizing s cur cur' with
  | ind n ih =>
    rw [loop] at hok
    cases hresult : step s cur with
    | error fault =>
      rw [hresult] at hok
      cases hok
    | ok result =>
      obtain ⟨next, mid⟩ := result
      obtain ⟨mid', hsecond, hmid⟩ := hstep s cur cur' hrest next mid hresult
      have hshorter := ((hadvances s cur).before hresult).length_le
      have hshorter' := ((hadvances s cur').before hsecond).length_le
      rw [hresult] at hok
      rw [loop, hsecond]
      cases next with
      | inl s' =>
        dsimp only at hok ⊢
        rw [if_pos (by omega)] at hok
        rw [if_pos (by omega)]
        exact ih _ (by omega) s' mid mid' hmid hok rfl
      | inr b =>
        cases hok
        exact ⟨mid', rfl, hmid⟩

end

-- ---------------------------------------------------------------------------
-- Between tokens
-- ---------------------------------------------------------------------------

variable {place : Place} {T : β → List Char → List Char → Prop}

def At (c : Char) (as bs : List Char) : Prop :=
  ∃ as' bs', as = c :: as' ∧ bs = c :: bs' ∧ Spaced (Place.between.next c) as' bs'

theorem At.between (h : At c as bs) : Spaced .between as bs := by
  obtain ⟨as', bs', rfl, rfl, hspaced⟩ := h
  exact .keep c hspaced

theorem At.word (h : At c as bs) : Spaced .word as bs := by
  obtain ⟨as', bs', rfl, rfl, hspaced⟩ := h
  exact .keep c hspaced

theorem agrees_skip_at (c : Char) : Agrees (At c) (skip 1) fun _ => Spaced (Place.between.next c) := by
  rintro ⟨_, offset⟩ ⟨_, offset'⟩ ⟨as', bs', rfl, rfl, hspaced⟩ a later hok
  cases hok
  exact ⟨_, rfl, hspaced⟩

theorem drop_length_takeWhile (p : Char → Bool) (cs : List Char) :
    cs.drop (cs.takeWhile p).length = cs.dropWhile p := by
  induction cs with
  | nil => rfl
  | cons c cs ih =>
    by_cases hc : p c
    · rw [List.takeWhile_cons_of_pos hc, List.dropWhile_cons_of_pos hc, List.length_cons, List.drop_succ_cons, ih]
    · rw [List.takeWhile_cons_of_neg hc, List.dropWhile_cons_of_neg hc]
      rfl

theorem takeWhile_eq (p : Char → Bool) (cur : Cursor) : ∃ offset,
    takeWhile p cur = .ok (cur.rest.takeWhile p, ⟨cur.rest.dropWhile p, offset⟩) := by
  refine ⟨cur.offset + Text.byteLength (cur.rest.takeWhile p), ?_⟩
  rw [← drop_length_takeWhile]
  rfl

theorem peekToken_eq (cur : Cursor) : ∃ offset,
    peekToken cur = .ok (nextToken? cur.rest, ⟨cur.rest.dropWhile isBlank, offset⟩) := by
  obtain ⟨offset, htake⟩ := takeWhile_eq isBlank cur
  refine ⟨offset, ?_⟩
  simp only [peekToken, Bind.bind, StateT.bind, Except.bind, htake]
  rfl

/-- Behind blanks the texts are both at their end or both at the same character, if there is anything to read. -/
theorem agrees_peekToken {f : Option Char → Reader β} (hnone : Agrees (fun as bs => as = [] ∧ bs = []) (f none) T)
    (hsome : ∀ c, Agrees (At c) (f (some c)) T)
    (hlost : ∀ c as offset, IsLost (c :: as) → Fails (f (some c)) ⟨c :: as, offset⟩) :
    Agrees (Spaced .between) (peekToken >>= f) T := by
  intro cur cur' hspaced b later hok
  obtain ⟨offset, hpeek⟩ := peekToken_eq cur
  obtain ⟨offset', hpeek'⟩ := peekToken_eq cur'
  simp only [Bind.bind, StateT.bind, Except.bind, hpeek] at hok
  simp only [Bind.bind, StateT.bind, Except.bind, hpeek']
  rw [nextToken?] at hok ⊢
  rcases hspaced.behind_blanks (.inl rfl) with hlost' | ⟨hnil, hnil'⟩ | ⟨c, as, bs, has, hbs, hspaced⟩
  · obtain ⟨c, as, has⟩ := hlost'.exists_cons
    rw [has] at hok hlost'
    exact absurd hok (hlost c as offset hlost' b later)
  · rw [hnil] at hok
    rw [hnil']
    exact hnone ⟨[], offset⟩ ⟨[], offset'⟩ ⟨rfl, rfl⟩ b later hok
  · rw [has] at hok
    rw [hbs]
    exact hsome c ⟨c :: as, offset⟩ ⟨c :: bs, offset'⟩ ⟨as, bs, rfl, rfl, hspaced⟩ b later hok

-- ---------------------------------------------------------------------------
-- Strings
-- ---------------------------------------------------------------------------

theorem agrees_next (hplace : ¬place.IsOutside) :
    Agrees (Spaced place) next fun c? as bs => ∀ c ∈ c?, Spaced (place.next c) as bs := by
  rintro ⟨as, offset⟩ ⟨bs, offset'⟩ hspaced a later hok
  cases as with
  | nil =>
    cases hspaced.nil_right hplace
    cases hok
    exact ⟨_, rfl, fun c hc => nomatch hc⟩
  | cons c as =>
    obtain ⟨bs, rfl, hrest⟩ := hspaced.cons fun hgap => hplace hgap.isOutside
    cases hok
    refine ⟨_, rfl, ?_⟩
    rintro _ ⟨⟩
    exact hrest

theorem agrees_surrogateMark (hplace : ¬place.IsOutside) (mark : Char) :
    Agrees (Spaced place) (surrogateMark mark) fun _ => Spaced (place.next mark) := by
  rintro ⟨as, offset⟩ ⟨bs, offset'⟩ hspaced a later hok
  cases as with
  | nil => cases hok
  | cons c as =>
    obtain ⟨bs, rfl, hrest⟩ := hspaced.cons fun hgap => hplace hgap.isOutside
    have hmark (rest : List Char) (offset : Nat) : surrogateMark mark ⟨c :: rest, offset⟩ =
        (if c = mark then skip 1 else failNext .unexpectedEndOfHexEscape : Reader Unit) ⟨c :: rest, offset⟩ := rfl
    rw [hmark] at hok ⊢
    by_cases hc : c = mark
    · subst hc
      rw [if_pos rfl] at hok ⊢
      cases hok
      exact ⟨_, rfl, hrest⟩
    · rw [if_neg hc] at hok
      cases hok

theorem quoted_next_of_hexValue? {n : Nat} (h : hexValue? c = some n) : Place.quoted.next c = .quoted := by
  have hbackslash : c ≠ '\\' := by
    rintro rfl
    cases h
  have hquote : c ≠ '"' := by
    rintro rfl
    cases h
  rw [Place.next, if_neg hbackslash, if_neg hquote]

theorem agrees_hexEscape : Agrees (Spaced .quoted) hexEscape fun _ => Spaced .quoted := by
  rintro ⟨as, offset⟩ ⟨bs, offset'⟩ hspaced n later hok
  obtain ⟨four, digits, hlength, hrest, -, hdigits, rfl⟩ := exists_of_hexEscape hok
  dsimp only at hrest hspaced
  rw [hrest] at hspaced
  obtain ⟨bs, rfl, hlater⟩ := hspaced.append (by decide) fun c hc =>
    let ⟨_, hdigit⟩ := exists_hexValue_of_mapM hdigits c hc
    quoted_next_of_hexValue? hdigit
  exact ⟨_, hexEscape_of_digits hlength hdigits offset', hlater⟩

theorem agrees_unicodeEscape : Agrees (Spaced .quoted) unicodeEscape fun _ => Spaced .quoted := by
  refine agrees_hexEscape.bind fun n => ?_
  split
  · exact agrees_fail .loneSurrogate
  · split
    · exact agrees_pure _ fun _ _ h => h
    · refine (agrees_surrogateMark (by decide) '\\').bind fun _ => ?_
      refine (agrees_surrogateMark (by decide) 'u').bind fun _ => ?_
      refine agrees_hexEscape.bind fun low => ?_
      split
      · exact agrees_fail .loneSurrogate
      · exact agrees_pure _ fun _ _ h => h

theorem agrees_escape : Agrees (Spaced .escaped) escape fun _ => Spaced .quoted := by
  refine agrees_get fun start start' => ?_
  refine Follows.bind (agrees_next (by decide)) fun c? => ?_
  split
  · exact agrees_fail .eofInString
  · exact agrees_pure _ fun _ _ h => h 'b' rfl
  · exact agrees_pure _ fun _ _ h => h 'f' rfl
  · exact agrees_pure _ fun _ _ h => h 'n' rfl
  · exact agrees_pure _ fun _ _ h => h 'r' rfl
  · exact agrees_pure _ fun _ _ h => h 't' rfl
  · exact agrees_unicodeEscape.strengthen fun _ _ h => h 'u' rfl
  · next c _ _ _ _ _ _ =>
    split
    · exact agrees_pure _ fun _ _ h => h c rfl
    · exact follows_of_fails fun _ _ _ _ _ hok => nomatch hok

theorem agrees_stringStep (done : List Char) : Agrees (Spaced .quoted) (stringStep done)
    (Continues (Spaced .quoted) fun _ => Spaced .between) := by
  refine (agrees_next (by decide)).bind fun c? => ?_
  split
  · exact agrees_fail .eofInString
  · exact agrees_pure _ fun _ _ h => h '"' rfl
  · refine Agrees.bind (agrees_escape.strengthen fun _ _ h => h '\\' rfl) fun c => ?_
    exact agrees_pure _ fun _ _ h => h
  · next c hquote hbackslash =>
    split
    · exact agrees_fail .controlCharacter
    · refine agrees_pure _ fun _ _ h => ?_
      have hnext := h c rfl
      rwa [Place.next, if_neg hbackslash, if_neg hquote] at hnext

theorem agrees_stringRest : Agrees (Spaced .quoted) stringRest fun _ => Spaced .between :=
  agrees_loop agrees_stringStep advances_stringStep []

-- ---------------------------------------------------------------------------
-- Names and numbers
-- ---------------------------------------------------------------------------

/-- In a word both texts have the same next character; behind it none of them has a character of a word. -/
theorem agrees_peek {f : Option Char → Reader β} (hword : ∀ c, isWord c → Agrees (At c) (f (some c)) T)
    (hbehind : ∀ x y : Option Char, (∀ c ∈ x, isWord c = false) → (∀ c ∈ y, isWord c = false) →
      Follows (Spaced .word) (f x) (f y) T) :
    Agrees (Spaced .word) (peek >>= f) T := by
  rintro cur cur' hspaced b later hok
  rcases hspaced.behind_word with ⟨c, as, bs, hc, has, hbs, hrest⟩ | ⟨has, hbs⟩
  · have hat : At c cur.rest cur'.rest := ⟨as, bs, has, hbs, next_of_isWord (.inl rfl) hc ▸ hrest⟩
    change f cur.rest.head? cur = _ at hok
    change ∃ later', f cur'.rest.head? cur' = _ ∧ _
    rw [has] at hok
    rw [hbs]
    exact hword c hc cur cur' hat b later hok
  · exact hbehind _ _ has hbs cur cur' hspaced b later hok

theorem agrees_peek_behind {f : Option Char → Reader β} (hword : ∀ c, isWord c → Agrees (At c) (f (some c)) T)
    (heq : ∀ x : Option Char, (∀ c ∈ x, isWord c = false) → f x = f none)
    (hbehind : Agrees (Spaced .word) (f none) T) : Agrees (Spaced .word) (peek >>= f) T := by
  refine agrees_peek hword fun x y hx hy => ?_
  rw [heq x hx, heq y hy]
  exact hbehind

theorem isWord_of_isDigit (h : c.isDigit) : isWord c := by
  simp [isWord, Char.isAlphanum, h]

theorem agrees_digits : Agrees (Spaced .word) (takeWhile Char.isDigit) fun _ => Spaced .word := by
  intro cur cur' hspaced run later hok
  obtain ⟨htake, hdrop⟩ := hspaced.takeWhile fun c hc => isWord_of_isDigit hc
  obtain ⟨offset, heq⟩ := takeWhile_eq Char.isDigit cur
  obtain ⟨offset', heq'⟩ := takeWhile_eq Char.isDigit cur'
  rw [heq] at hok
  cases hok
  exact ⟨_, by rw [heq', htake], hdrop⟩

theorem isDigit_eq_false (h : isWord c = false) : c.isDigit = false :=
  Bool.eq_false_iff.mpr fun hdigit => Bool.eq_false_iff.mp h (isWord_of_isDigit hdigit)

theorem agrees_skip_word (hc : isWord c) : Agrees (At c) (skip 1) fun _ => Spaced .word := by
  have hskip := agrees_skip_at c
  rwa [next_of_isWord (.inl rfl) hc] at hskip

theorem agrees_ident {es : List Char} (hes : ∀ e ∈ es, isWord e) :
    Agrees (Spaced .word) (ident es) fun _ => Spaced .word := by
  induction es with
  | nil => exact agrees_pure () fun _ _ h => h
  | cons e es ih =>
    rw [List.forall_mem_cons] at hes
    have hcons (c : Char) (rest : List Char) (offset : Nat) : ident (e :: es) ⟨c :: rest, offset⟩ =
        (if c = e then ident es else fun _ => throw ⟨.expectedIdent, offset + 1⟩ : Reader Unit)
          ⟨rest, offset + c.utf8Size⟩ := rfl
    rintro ⟨as, offset⟩ ⟨bs, offset'⟩ hspaced a later hok
    cases as with
    | nil => cases hok
    | cons c as =>
      rw [hcons] at hok
      by_cases hc : c = e
      · subst hc
        rcases hspaced.behind_word with ⟨c, as, bs, hc, heq, rfl, hrest⟩ | ⟨has, -⟩
        · cases heq
          rw [if_pos rfl] at hok
          rw [hcons, if_pos rfl]
          exact ih hes.2 _ _ hrest a later hok
        · exact absurd hes.1 (by simp [has c rfl])
      · rw [if_neg hc] at hok
        cases hok

theorem agrees_readFloat {R : List Char → List Char → Prop} (negative : Bool) (significand : Nat)
    (exponent : Int) : Agrees R (readFloat negative significand exponent) fun _ => R := by
  unfold readFloat
  split
  · exact agrees_pure _ fun _ _ h => h
  · exact agrees_fail .numberOutOfRange

theorem agrees_exponentSign : Agrees (Spaced .word) exponentSign fun _ => Spaced .word := by
  refine agrees_peek_behind (fun c hc => ?_) (fun x hx => ?_) (agrees_pure _ fun _ _ h => h)
  · split
    · exact (agrees_skip_word hc).bind fun _ => agrees_pure _ fun _ _ h => h
    · exact (agrees_skip_word hc).bind fun _ => agrees_pure _ fun _ _ h => h
    · exact agrees_pure _ fun _ _ h => h.word
  · split
    · exact absurd (hx '+' rfl) (by decide)
    · exact absurd (hx '-' rfl) (by decide)
    · rfl

theorem agrees_exponentPart (negative : Bool) (significand : Nat) (before : Int) (hc : isWord c) :
    Agrees (At c) (exponentPart negative significand before) fun _ => Spaced .word := by
  refine (agrees_skip_word hc).bind fun _ => ?_
  refine agrees_exponentSign.bind fun down => ?_
  refine agrees_peek (fun c hc => ?_) fun x y hx hy => ?_
  · dsimp only
    split
    · exact agrees_failNext .invalidNumber
    · refine agrees_get fun start start' => ?_
      refine Follows.bind (agrees_digits.strengthen fun _ _ h => h.word) fun run => ?_
      split
      · exact agrees_readFloat _ _ _
      · split
        · exact follows_of_fails fun _ _ _ _ _ hok => nomatch hok
        · exact agrees_pure _ fun _ _ h => h
  · refine follows_of_fails fun cur _ _ => ?_
    split
    · exact fails_fail .eofInValue cur
    · next c =>
      rw [isDigit_eq_false (hx c rfl)]
      exact fails_failNext .invalidNumber cur

theorem agrees_fraction (negative : Bool) (significand : Nat) (before : Int) (hc : isWord c) :
    Agrees (At c) (fraction negative significand before) fun _ => Spaced .word := by
  refine (agrees_skip_word hc).bind fun _ => ?_
  refine agrees_digits.bind fun run => ?_
  split
  · refine follows_of_fails fun cur _ _ b later hok => ?_
    obtain ⟨c?, mid, -, hok⟩ := ok_of_bind hok
    cases c? <;> cases hok
  · refine agrees_peek_behind (fun c hc => ?_) (fun x hx => ?_) (agrees_readFloat _ _ _)
    · split
      · exact agrees_exponentPart _ _ _ hc
      · exact agrees_exponentPart _ _ _ hc
      · exact (agrees_readFloat _ _ _).strengthen fun _ _ h => h.word
    · split
      · exact absurd (hx 'e' rfl) (by decide)
      · exact absurd (hx 'E' rfl) (by decide)
      · rfl

theorem agrees_integer {R : List Char → List Char → Prop} (negative stops : Bool) (significand dropped : Nat) :
    Agrees R (if stops then failNext .invalidNumber
      else if dropped > 0 then readFloat negative significand dropped
      else if !negative then pure (.int significand)
      else if significand = 0 || significand > Binary64.power 2 63 then readFloat true significand 0
      else pure (.int (-significand))) fun _ => R := by
  split
  · exact agrees_failNext .invalidNumber
  · split
    · exact agrees_readFloat _ _ _
    · split
      · exact agrees_pure _ fun _ _ h => h
      · split
        · exact agrees_readFloat _ _ _
        · exact agrees_pure _ fun _ _ h => h

theorem agrees_behindDigits (negative : Bool) (first : Char) (run : List Char) :
    Agrees (Spaced .word) (behindDigits negative first run) fun _ => Spaced .word := by
  refine agrees_peek_behind (fun c hc => ?_) (fun x hx => ?_) (agrees_integer _ _ _ _)
  · split
    · exact agrees_fraction _ _ _ hc
    · exact agrees_exponentPart _ _ _ hc
    · exact agrees_exponentPart _ _ _ hc
    · exact (agrees_integer _ _ _ _).strengthen fun _ _ h => h.word
  · have hany : x.any Char.isDigit = false := by
      cases x with
      | none => rfl
      | some c => exact isDigit_eq_false (hx c rfl)
    split
    · exact absurd (hx '.' rfl) (by decide)
    · exact absurd (hx 'e' rfl) (by decide)
    · exact absurd (hx 'E' rfl) (by decide)
    · rw [hany]
      rfl

theorem agrees_readNumber (negative : Bool) :
    Agrees (Spaced .word) (readNumber negative) fun _ => Spaced .word := by
  refine agrees_peek (fun c hc => ?_) fun x y hx hy => ?_
  · dsimp only
    split
    · exact agrees_failNext .invalidNumber
    · split
      · exact (agrees_skip_word hc).bind fun _ => agrees_behindDigits _ _ _
      · refine Agrees.bind (agrees_digits.strengthen fun _ _ h => h.word) fun run => ?_
        exact agrees_behindDigits _ _ run
  · refine follows_of_fails fun cur _ _ => ?_
    split
    · exact fails_fail .eofInValue cur
    · next c =>
      rw [isDigit_eq_false (hx c rfl)]
      exact fails_failNext .invalidNumber cur

-- ---------------------------------------------------------------------------
-- Arrays and objects
-- ---------------------------------------------------------------------------

/-- What is proved of the reader of a value from that of the values in its brackets. -/
structure ReadsValue (item : Reader Json) : Prop where
  advances : ∀ cur, Advances 1 item cur
  agrees : Agrees (Spaced .between) item fun _ => Spaced .between
  fails : ∀ cur : Cursor, NoValue cur.rest → Fails item cur

section
variable {item : Reader Json} (hitem : ReadsValue item)
include hitem

theorem ReadsValue.agrees_at (c : Char) : Agrees (At c) item fun _ => Spaced .between :=
  hitem.agrees.strengthen fun _ _ h => h.between

theorem fails_behind_comma (hnone : NoValue as) (offset : Nat) (done : List Json) : Fails (do
    skip 1
    match ← peekToken with
    | some ']' => failNext .trailingComma
    | some _ => pure (.inl ((← item) :: done))
    | none => fail .eofInValue : Reader (List Json ⊕ Json)) ⟨',' :: as, offset⟩ := by
  refine fails_bind fun _ later hskip => fails_bind fun c? behind hpeek => ?_
  cases hskip
  have hitemFails : Fails item behind := by
    obtain ⟨offset, heq⟩ := peekToken_eq ⟨as, offset + Text.byteLength [',']⟩
    cases heq.symm.trans hpeek
    refine hitem.fails _ ?_
    rwa [NoValue, nextToken?_dropWhile]
  split
  · exact fails_failNext .trailingComma behind
  · exact hitemFails.bind
  · exact fails_fail .eofInValue behind

theorem agrees_arrayStep (done : List Json) : Agrees (Spaced .between) (arrayStep item done)
    (Continues (Spaced .between) fun _ => Spaced .between) := by
  refine agrees_peekToken (agrees_fail .eofInList) (fun c => ?_) fun c as offset hlost => ?_
  · split
    · exact agrees_fail .eofInList
    · next heq =>
      cases heq
      exact (agrees_skip_at ']').bind fun _ => agrees_pure _ fun _ _ h => h
    · next heq =>
      cases heq
      split
      · exact (hitem.agrees_at c).bind fun _ => agrees_pure _ fun _ _ h => h
      · split
        · next hcomma =>
          subst hcomma
          refine (agrees_skip_at ',').bind fun _ => ?_
          refine agrees_peekToken (agrees_fail .eofInValue) (fun c => ?_) fun c as offset hlost => ?_
          · split
            · exact agrees_failNext .trailingComma
            · exact (hitem.agrees_at c).bind fun _ => agrees_pure _ fun _ _ h => h
            · exact agrees_fail .eofInValue
          · have hitemFails := hitem.fails ⟨c :: as, offset⟩ (noValue_of_isLost hlost)
            split
            · exact fails_failNext .trailingComma _
            · exact hitemFails.bind
            · exact fails_fail .eofInValue _
        · exact agrees_failNext .expectedListCommaOrEnd
  · have hitemFails := hitem.fails ⟨c :: as, offset⟩ (noValue_of_isLost hlost)
    split
    · exact fails_fail .eofInList _
    · next heq =>
      cases heq
      exact hlost.elim
    · next heq =>
      cases heq
      split
      · exact hitemFails.bind
      · split
        · next hcomma =>
          subst hcomma
          exact fails_behind_comma hitem hlost offset done
        · exact fails_failNext .expectedListCommaOrEnd _

theorem agrees_arrayRest : Agrees (Spaced .between) (arrayRest item) fun _ => Spaced .between :=
  agrees_loop (agrees_arrayStep hitem) (advances_arrayStep hitem.advances) []

theorem agrees_memberRest : Agrees (At '"') (memberRest item) fun _ => Spaced .between := by
  refine (agrees_skip_at '"').bind fun _ => ?_
  refine agrees_stringRest.bind fun key => ?_
  refine agrees_peekToken (agrees_fail .eofInObject) (fun c => ?_) fun c as offset hlost => ?_
  · split
    · next heq =>
      cases heq
      refine (agrees_skip_at ':').bind fun _ => ?_
      exact hitem.agrees.bind fun _ => agrees_pure _ fun _ _ h => h
    · exact agrees_failNext .expectedColon
    · exact agrees_fail .eofInObject
  · split
    · next heq =>
      cases heq
      exact hlost.elim
    · exact fails_failNext .expectedColon _
    · exact fails_fail .eofInObject _

theorem agrees_objectStep (done : Bool × List (String × Json)) :
    Agrees (Spaced .between) (objectStep item done)
      (Continues (Spaced .between) fun _ => Spaced .between) := by
  have hmember : Agrees (At '"') (do
      let member ← memberRest item
      pure (.inl (true, insert member.1 member.2 done.2)) : Reader ((Bool × List (String × Json)) ⊕ Json))
      (Continues (Spaced .between) fun _ => Spaced .between) :=
    (agrees_memberRest hitem).bind fun _ => agrees_pure _ fun _ _ h => h
  refine agrees_peekToken (agrees_fail .eofInObject) (fun c => ?_) fun c as offset hlost => ?_
  · split
    · exact agrees_fail .eofInObject
    · next heq =>
      cases heq
      exact (agrees_skip_at '\x7d').bind fun _ => agrees_pure _ fun _ _ h => h
    · next heq =>
      cases heq
      split
      · split
        · next hquote =>
          subst hquote
          exact hmember
        · exact agrees_failNext .keyMustBeString
      · split
        · next hcomma =>
          subst hcomma
          refine (agrees_skip_at ',').bind fun _ => ?_
          refine agrees_peekToken (agrees_fail .eofInValue) (fun c => ?_) fun c as offset hlost => ?_
          · split
            · next heq =>
              cases heq
              exact hmember
            · exact agrees_failNext .trailingComma
            · exact agrees_failNext .keyMustBeString
            · exact agrees_fail .eofInValue
          · split
            · next heq =>
              cases heq
              exact hlost.elim
            · exact fails_failNext .trailingComma _
            · exact fails_failNext .keyMustBeString _
            · exact fails_fail .eofInValue _
        · exact agrees_failNext .expectedObjectCommaOrEnd
  · split
    · exact fails_fail .eofInObject _
    · next heq =>
      cases heq
      exact hlost.elim
    · next heq =>
      cases heq
      split
      · split
        · next hquote =>
          subst hquote
          exact hlost.elim
        · exact fails_failNext .keyMustBeString _
      · split
        · next hcomma =>
          subst hcomma
          refine fails_bind fun _ later hskip => fails_bind fun c? behind hpeek => ?_
          cases hskip
          obtain ⟨offset, heq⟩ := peekToken_eq ⟨as, offset + Text.byteLength [',']⟩
          cases heq.symm.trans hpeek
          dsimp only
          split
          · next hquote => exact absurd (hlost '"' hquote) (by decide)
          · exact fails_failNext .trailingComma _
          · exact fails_failNext .keyMustBeString _
          · exact fails_fail .eofInValue _
        · exact fails_failNext .expectedObjectCommaOrEnd _

theorem agrees_objectRest : Agrees (Spaced .between) (objectRest item) fun _ => Spaced .between :=
  agrees_loop (agrees_objectStep hitem) (advances_objectStep hitem.advances) _

end

-- ---------------------------------------------------------------------------
-- Values
-- ---------------------------------------------------------------------------

section
variable {nested : Option (Reader Json)} (hnested : ∀ item ∈ nested, ReadsValue item)
include hnested

theorem agrees_valueWith : Agrees (Spaced .between) (valueWith nested) fun _ => Spaced .between := by
  have hname (c : Char) (es : List Char) (result : Json) (hc : isWord c) (hes : ∀ e ∈ es, isWord e) :
      Agrees (At c) (do skip 1; ident es; pure result) fun _ => Spaced .between :=
    (agrees_skip_word hc).bind fun _ => (agrees_ident hes).bind fun _ =>
      agrees_pure _ fun _ _ h => h.between (.inr rfl)
  refine agrees_peekToken (agrees_fail .eofInValue) (fun c => ?_) fun c as offset hlost => ?_
  · split
    · exact agrees_fail .eofInValue
    · next heq =>
      cases heq
      exact hname 'n' _ _ (by decide) (by simp [isWord])
    · next heq =>
      cases heq
      exact hname 't' _ _ (by decide) (by simp [isWord])
    · next heq =>
      cases heq
      exact hname 'f' _ _ (by decide) (by simp [isWord])
    · next heq =>
      cases heq
      refine (agrees_skip_word (by decide)).bind fun _ => ?_
      exact (agrees_readNumber true).map _ fun _ _ _ h => h.between (.inr rfl)
    · next heq =>
      cases heq
      exact (agrees_skip_at '"').bind fun _ => agrees_stringRest.map _ fun _ _ _ h => h
    · next heq =>
      cases heq
      split
      · exact agrees_failNext .recursionLimit
      · exact (agrees_skip_at '[').bind fun _ => agrees_arrayRest (hnested _ rfl)
    · next heq =>
      cases heq
      split
      · exact agrees_failNext .recursionLimit
      · exact (agrees_skip_at '\x7b').bind fun _ => agrees_objectRest (hnested _ rfl)
    · next heq =>
      cases heq
      split
      · refine Agrees.map ((agrees_readNumber false).strengthen fun _ _ h => h.word) _ ?_
        exact fun _ _ _ h => h.between (.inr rfl)
      · exact agrees_failNext .expectedValue
  · rcases hlost.cases with ⟨_, heq⟩ | ⟨_, heq, -⟩
    · cases heq
      exact fails_failNext .expectedValue _
    · cases heq
      exact fails_failNext .expectedValue _

omit hnested in
theorem fails_valueWith {cur : Cursor} (h : NoValue cur.rest) : Fails (valueWith nested) cur := by
  refine fails_bind fun c? later hpeek => ?_
  obtain ⟨offset, heq⟩ := peekToken_eq cur
  obtain ⟨hc?, -⟩ := Prod.mk.inj (Except.ok.inj (heq.symm.trans hpeek))
  rw [NoValue, hc?] at h
  split
  · exact fails_fail .eofInValue later
  case h_9 c _ _ _ _ _ _ _ =>
    have hdigit : c.isDigit = false := by
      have hc := h c rfl
      simp only [startsValue, Bool.or_eq_false_iff] at hc
      exact isDigit_eq_false hc.1.1.1
    rw [hdigit]
    exact fails_failNext .expectedValue later
  all_goals exact absurd (h _ rfl) (by decide)

theorem readsValue_valueWith : ReadsValue (valueWith nested) where
  advances := advances_valueWith fun item hitem => (hnested item hitem).advances
  agrees := agrees_valueWith hnested
  fails _ := fails_valueWith

end

theorem readsValue_value (depth : Nat) : ReadsValue (value depth) := by
  induction depth with
  | zero => exact readsValue_valueWith fun item h => absurd h (Option.not_mem_none item)
  | succ depth ih =>
    refine readsValue_valueWith fun item h => ?_
    cases h
    exact ih

theorem agrees_document : Agrees (Spaced .between) document fun _ _ _ => True := by
  refine (readsValue_value depthLimit).agrees.bind fun result => ?_
  refine agrees_peekToken (agrees_pure result fun _ _ _ => trivial) (fun c => ?_) fun c as offset hlost => ?_
  · exact agrees_failNext .trailingCharacters
  · exact fails_failNext .trailingCharacters _

/-- More blanks between the tokens of a text leave its value as it is. -/
theorem read_of_spaced {text spaced : String} (h : read text = .ok result)
    (hspaced : Spaced .between text.toList spaced.toList) : read spaced = .ok result := by
  unfold read at h
  split at h
  · next value later hdocument =>
    cases h
    obtain ⟨later', hdocument', -⟩ := agrees_document ⟨text.toList, 0⟩ ⟨spaced.toList, 0⟩ hspaced _ _ hdocument
    rw [read, hdocument']
  · cases h

end TsBuild.Json
