import TsBuild.Proofs.Json.Agreement

/-!
# What readers take

A reader that comes to its end has taken a text, and the text says what it came to: blanks and the next
character (`peekToken_ok`), the characters of a number and no others (`readsWord_readNumber`), a string up to its
closing quote, which is read as it is written if it has no escape (`stringRest_ok`).
-/

namespace TsBuild.Json

open Reader

variable {cur later : Cursor}

def Taken (reader : Reader α) (text : List Char) (a : α) : Prop :=
  ∃ rest offset offset', reader ⟨text ++ rest, offset⟩ = .ok (a, ⟨rest, offset'⟩)

abbrev Blanks := {cs : List Char // ∀ c ∈ cs, isBlank c}

-- ---------------------------------------------------------------------------
-- Runs
-- ---------------------------------------------------------------------------

theorem loop_ok {step : σ → Reader (σ ⊕ α)} {stuck : Reader α} {motive : σ → Cursor → α → Cursor → Prop}
    (hstuck : ∀ cur result, stuck cur ≠ .ok result)
    (hdone : ∀ s cur a later, step s cur = .ok (.inr a, later) → motive s cur a later)
    (hnext : ∀ s cur s' mid a later, step s cur = .ok (.inl s', mid) → motive s' mid a later →
      motive s cur a later)
    (s : σ) (h : loop step stuck s cur = .ok (a, later)) : motive s cur a later := by
  generalize hn : cur.rest.length = n
  induction n using Nat.strongRecOn generalizing s cur with
  | ind n ih =>
    rw [loop] at h
    split at h
    · cases h
    · next hstep =>
      cases h
      exact hdone _ _ _ _ hstep
    · next s' mid hstep =>
      split at h
      · next hshorter => exact hnext _ _ _ _ _ _ hstep (ih _ (hn ▸ hshorter) s' h rfl)
      · exact absurd h (hstuck _ _)

theorem fail_ne_ok (cause : Cause) (cur : Cursor) (result : α × Cursor) :
    (fail cause : Reader α) cur ≠ .ok result := nofun

theorem pure_ok (h : (pure a : Reader α) cur = .ok (b, later)) : b = a ∧ later = cur := by
  obtain ⟨hb, hlater⟩ := Prod.mk.inj (Except.ok.inj h)
  exact ⟨hb.symm, hlater.symm⟩

theorem map_ok {reader : Reader α} {f : α → β} (h : (f <$> reader) cur = .ok (b, later)) :
    ∃ a, reader cur = .ok (a, later) ∧ b = f a := by
  rw [map_eq_pure_bind] at h
  obtain ⟨a, mid, hreader, h⟩ := ok_of_bind h
  obtain ⟨rfl, rfl⟩ := pure_ok h
  exact ⟨a, hreader, rfl⟩

theorem taken_of_ok {reader : Reader α} (h : Advances n reader cur) (hok : reader cur = .ok (a, later)) :
    ∃ text, cur.rest = text ++ later.rest ∧ Taken reader text a := by
  obtain ⟨text, -, hrest, -⟩ := h.before hok
  obtain ⟨rest, offset⟩ := cur
  dsimp only at hrest
  subst hrest
  exact ⟨text, rfl, later.rest, offset, later.offset, hok⟩

theorem peek_ok (h : peek cur = .ok (c?, later)) : later = cur ∧ c? = cur.rest.head? := by
  cases h
  exact ⟨rfl, rfl⟩

theorem next_ok (h : next cur = .ok (some c, later)) : cur.rest = c :: later.rest := by
  obtain ⟨_ | ⟨c', rest⟩, offset⟩ := cur
  · cases h
  · cases h
    rfl

theorem skip_ok (hrest : cur.rest = c :: rest) (h : skip 1 cur = .ok ((), later)) : later.rest = rest := by
  cases h
  simp [hrest]

theorem peekToken_ok (h : peekToken cur = .ok (c?, later)) :
    ∃ blanks : Blanks, cur.rest = blanks.1 ++ later.rest ∧ c? = later.rest.head? := by
  obtain ⟨run, mid, htake, hpeek⟩ := ok_of_bind h
  obtain ⟨rfl, rfl⟩ := peek_ok hpeek
  cases htake
  refine ⟨⟨cur.rest.takeWhile isBlank, fun c hc => List.all_eq_true.mp List.all_takeWhile c hc⟩, ?_, rfl⟩
  exact (List.prefix_iff_eq_append.mp (List.takeWhile_prefix _)).symm

theorem ident_ok {es : List Char} (h : ident es cur = .ok ((), later)) : cur.rest = es ++ later.rest := by
  induction es generalizing cur with
  | nil =>
    cases h
    rfl
  | cons e es ih =>
    obtain ⟨_, _, hget, h⟩ := ok_of_bind h
    cases hget
    obtain ⟨c?, mid, hnext, h⟩ := ok_of_bind h
    cases c? with
    | none => cases h
    | some c =>
      dsimp only at h
      split at h
      · next hc =>
        rw [next_ok hnext, hc, ih h, List.cons_append]
      · cases h

-- ---------------------------------------------------------------------------
-- Numbers
-- ---------------------------------------------------------------------------

/-- From where it stands, the reader takes characters of numbers and names alone. -/
def ReadsWord (reader : Reader α) (cur : Cursor) : Prop :=
  ∀ a later, reader cur = .ok (a, later) → ∃ word, cur.rest = word ++ later.rest ∧ ∀ c ∈ word, isWord c

theorem ReadsWord.bind {reader : Reader α} {f : α → Reader β} (h : ReadsWord reader cur)
    (h' : ∀ a later, reader cur = .ok (a, later) → ReadsWord (f a) later) : ReadsWord (reader >>= f) cur := by
  intro b last hok
  obtain ⟨a, mid, hreader, hf⟩ := ok_of_bind hok
  obtain ⟨word, hrest, hword⟩ := h a mid hreader
  obtain ⟨more, hmid, hmore⟩ := h' a mid hreader b last hf
  refine ⟨word ++ more, by rw [hrest, hmid, List.append_assoc], ?_⟩
  simpa [or_imp, forall_and] using ⟨hword, hmore⟩

theorem readsWord_pure (a : α) (cur : Cursor) : ReadsWord (pure a) cur := by
  rintro _ _ ⟨⟩
  exact ⟨[], rfl, by simp⟩

theorem readsWord_get (cur : Cursor) : ReadsWord get cur := by
  rintro _ _ ⟨⟩
  exact ⟨[], rfl, by simp⟩

theorem readsWord_peek (cur : Cursor) : ReadsWord peek cur := by
  rintro _ _ ⟨⟩
  exact ⟨[], rfl, by simp⟩

theorem readsWord_fail (cause : Cause) (cur : Cursor) : ReadsWord (fail cause : Reader α) cur := nofun

theorem readsWord_failNext (cause : Cause) (cur : Cursor) : ReadsWord (failNext cause : Reader α) cur := nofun

theorem readsWord_throw (fault : Fault) (cur : Cursor) : ReadsWord (fun _ => throw fault : Reader α) cur := nofun

theorem readsWord_skip (hrest : cur.rest = c :: rest) (hc : isWord c) : ReadsWord (skip 1) cur := by
  intro _ later h
  exact ⟨[c], by rw [hrest, skip_ok hrest h, List.singleton_append], by simpa using hc⟩

theorem readsWord_digits (cur : Cursor) : ReadsWord (takeWhile Char.isDigit) cur := by
  rintro _ _ ⟨⟩
  refine ⟨_, (List.prefix_iff_eq_append.mp (List.takeWhile_prefix _)).symm, fun c hc => ?_⟩
  exact isWord_of_isDigit (List.all_eq_true.mp List.all_takeWhile c hc)

theorem readsWord_readFloat (negative : Bool) (significand : Nat) (exponent : Int) (cur : Cursor) :
    ReadsWord (readFloat negative significand exponent) cur := by
  unfold readFloat
  split
  · exact readsWord_pure _ cur
  · exact readsWord_fail _ cur

theorem readsWord_exponentSign (cur : Cursor) : ReadsWord exponentSign cur := by
  refine (readsWord_peek cur).bind fun c? later hpeek => ?_
  split
  · obtain ⟨rest, hrest⟩ := rest_of_peek hpeek
    exact (readsWord_skip hrest rfl).bind fun _ later _ => readsWord_pure _ later
  · obtain ⟨rest, hrest⟩ := rest_of_peek hpeek
    exact (readsWord_skip hrest rfl).bind fun _ later _ => readsWord_pure _ later
  · exact readsWord_pure _ later

theorem readsWord_exponentPart (hrest : cur.rest = c :: rest) (hc : isWord c) (negative : Bool) (significand : Nat)
    (before : Int) : ReadsWord (exponentPart negative significand before) cur := by
  refine (readsWord_skip hrest hc).bind fun _ later _ => ?_
  refine (readsWord_exponentSign later).bind fun down later _ => ?_
  refine (readsWord_peek later).bind fun c? later _ => ?_
  split
  · exact readsWord_fail _ later
  · split
    · exact readsWord_failNext _ later
    · refine (readsWord_get later).bind fun start later _ => ?_
      refine (readsWord_digits later).bind fun run later _ => ?_
      split
      · exact readsWord_readFloat _ _ _ later
      · split
        · exact readsWord_throw _ later
        · exact readsWord_pure _ later

theorem readsWord_fraction (hrest : cur.rest = c :: rest) (hc : isWord c) (negative : Bool) (significand : Nat)
    (before : Int) : ReadsWord (fraction negative significand before) cur := by
  refine (readsWord_skip hrest hc).bind fun _ later _ => ?_
  refine (readsWord_digits later).bind fun run later _ => ?_
  split
  · refine (readsWord_peek later).bind fun c? later _ => ?_
    split
    · exact readsWord_failNext _ later
    · exact readsWord_fail _ later
  · refine (readsWord_peek later).bind fun c? later hpeek => ?_
    split
    · obtain ⟨rest, hrest⟩ := rest_of_peek hpeek
      exact readsWord_exponentPart hrest rfl _ _ _
    · obtain ⟨rest, hrest⟩ := rest_of_peek hpeek
      exact readsWord_exponentPart hrest rfl _ _ _
    · exact readsWord_readFloat _ _ _ later

theorem readsWord_behindDigits (negative : Bool) (first : Char) (run : List Char) (cur : Cursor) :
    ReadsWord (behindDigits negative first run) cur := by
  refine (readsWord_peek cur).bind fun c? later hpeek => ?_
  split
  · obtain ⟨rest, hrest⟩ := rest_of_peek hpeek
    exact readsWord_fraction hrest rfl _ _ _
  · obtain ⟨rest, hrest⟩ := rest_of_peek hpeek
    exact readsWord_exponentPart hrest rfl _ _ _
  · obtain ⟨rest, hrest⟩ := rest_of_peek hpeek
    exact readsWord_exponentPart hrest rfl _ _ _
  · split
    · exact readsWord_failNext _ later
    · split
      · exact readsWord_readFloat _ _ _ later
      · split
        · exact readsWord_pure _ later
        · split
          · exact readsWord_readFloat _ _ _ later
          · exact readsWord_pure _ later

theorem readsWord_readNumber (negative : Bool) (cur : Cursor) : ReadsWord (readNumber negative) cur := by
  refine (readsWord_peek cur).bind fun c? later hpeek => ?_
  split
  · exact readsWord_fail _ later
  · obtain ⟨rest, hrest⟩ := rest_of_peek hpeek
    split
    · exact readsWord_failNext _ later
    · next hdigit =>
      split
      · refine (readsWord_skip hrest (isWord_of_isDigit (by simpa using hdigit))).bind fun _ later _ => ?_
        exact readsWord_behindDigits _ _ _ later
      · exact (readsWord_digits later).bind fun run later _ => readsWord_behindDigits _ _ run later

-- ---------------------------------------------------------------------------
-- Strings
-- ---------------------------------------------------------------------------

/-- The text between two quotes: characters that end nothing, and pairs that a backslash begins. -/
inductive Body : List Char → Prop
  | nil : Body []
  | plain (hquote : c ≠ '"') (hescape : c ≠ '\\') : Body cs → Body (c :: cs)
  | pair (c : Char) : Body cs → Body ('\\' :: c :: cs)

theorem Body.append {digits : List Char} (hdigits : ∀ c ∈ digits, ∃ n, hexValue? c = some n) (h : Body cs) :
    Body (digits ++ cs) := by
  induction digits with
  | nil => exact h
  | cons c digits ih =>
    rw [List.forall_mem_cons] at hdigits
    obtain ⟨⟨n, hn⟩, hdigits⟩ := hdigits
    refine .plain ?_ ?_ (ih hdigits)
    · rintro rfl
      cases hn
    · rintro rfl
      cases hn

theorem hexEscape_ok (h : hexEscape cur = .ok (n, later)) :
    ∃ four, cur.rest = four ++ later.rest ∧ ∀ cs, Body cs → Body (four ++ cs) := by
  obtain ⟨four, digits, -, hrest, -, hdigits, -⟩ := exists_of_hexEscape h
  exact ⟨four, hrest, fun cs => Body.append (exists_hexValue_of_mapM hdigits)⟩

theorem surrogateMark_ok (h : surrogateMark mark cur = .ok ((), later)) : cur.rest = mark :: later.rest := by
  obtain ⟨c?, mid, hpeek, hskip⟩ := ok_of_bind h
  obtain ⟨hmid, hc⟩ := peek_ok hpeek
  rw [hmid] at hskip
  cases c? with
  | none => cases hskip
  | some c =>
    obtain ⟨rest, hrest⟩ := List.head?_eq_some_iff.mp hc.symm
    dsimp only at hskip
    split at hskip
    · next hmark => rw [skip_ok hrest hskip, hrest, hmark]
    · cases hskip

theorem unicodeEscape_ok (h : unicodeEscape cur = .ok (c, later)) :
    ∃ digits, cur.rest = digits ++ later.rest ∧ ∀ cs, Body cs → Body (digits ++ cs) := by
  obtain ⟨n, mid, hhex, h⟩ := ok_of_bind h
  obtain ⟨four, hrest, hbody⟩ := hexEscape_ok hhex
  split at h
  · cases h
  · split at h
    · cases h
      exact ⟨four, hrest, hbody⟩
    · obtain ⟨_, mid', hmark, h⟩ := ok_of_bind h
      obtain ⟨_, mid'', hu, h⟩ := ok_of_bind h
      obtain ⟨low, last, hlow, h⟩ := ok_of_bind h
      obtain ⟨more, hmore, hbody'⟩ := hexEscape_ok hlow
      split at h
      · cases h
      · obtain ⟨-, rfl⟩ := pure_ok h
        refine ⟨four ++ '\\' :: 'u' :: more, ?_, fun cs hcs => ?_⟩
        · rw [hrest, surrogateMark_ok hmark, surrogateMark_ok hu, hmore, List.append_assoc, List.cons_append,
            List.cons_append]
        · rw [List.append_assoc]
          exact hbody _ (.pair 'u' (hbody' cs hcs))

theorem escape_ok (h : escape cur = .ok (c, later)) :
    ∃ text, cur.rest = text ++ later.rest ∧ ∀ cs, Body cs → Body ('\\' :: (text ++ cs)) := by
  obtain ⟨_, _, hget, h⟩ := ok_of_bind h
  cases hget
  obtain ⟨c?, mid, hnext, h⟩ := ok_of_bind h
  have hone (d : Char) (hd : next cur = .ok (some d, mid)) (hmid : later = mid) :
      ∃ text, cur.rest = text ++ later.rest ∧ ∀ cs, Body cs → Body ('\\' :: (text ++ cs)) :=
    ⟨[d], by rw [next_ok hd, hmid, List.singleton_append], fun cs hcs => .pair d hcs⟩
  split at h
  · cases h
  case h_7 =>
    obtain ⟨digits, hrest, hbody⟩ := unicodeEscape_ok h
    exact ⟨'u' :: digits, by rw [next_ok hnext, hrest, List.cons_append], fun cs hcs => .pair 'u' (hbody cs hcs)⟩
  case h_8 =>
    split at h
    · cases h
      exact hone _ hnext rfl
    · cases h
  all_goals
    cases h
    exact hone _ hnext rfl

theorem stringRest_ok (h : stringRest cur = .ok (s, later)) :
    ∃ raw, cur.rest = raw ++ '"' :: later.rest ∧ Body raw ∧ ('\\' ∉ raw → s.toList = raw) := by
  have hloop : ∃ raw, cur.rest = raw ++ '"' :: later.rest ∧ Body raw ∧
      ('\\' ∉ raw → s.toList = ([] : List Char).reverse ++ raw) := by
    refine loop_ok (motive := fun done cur s later => ∃ raw, cur.rest = raw ++ '"' :: later.rest ∧ Body raw ∧
      ('\\' ∉ raw → s.toList = done.reverse ++ raw)) (fail_ne_ok _) ?_ ?_ [] h
    · intro done cur s later hstep
      obtain ⟨c?, mid, hnext, hstep⟩ := ok_of_bind hstep
      split at hstep
      · cases hstep
      · cases hstep
        exact ⟨[], next_ok hnext, .nil, fun _ => by simp⟩
      · obtain ⟨_, _, _, hstep⟩ := ok_of_bind hstep
        cases hstep
      · split at hstep <;> cases hstep
    · rintro done cur done' mid s later hstep ⟨raw, hrest, hbody, hplain⟩
      obtain ⟨c?, next, hnext, hstep⟩ := ok_of_bind hstep
      split at hstep
      · cases hstep
      · cases hstep
      · obtain ⟨c, behind, hescape, hstep⟩ := ok_of_bind hstep
        cases hstep
        obtain ⟨text, htext, hpair⟩ := escape_ok hescape
        refine ⟨'\\' :: (text ++ raw), ?_, hpair raw hbody, fun hmem => absurd List.mem_cons_self hmem⟩
        rw [next_ok hnext, htext, hrest, List.cons_append, List.append_assoc]
      · next _ c hquote hslash =>
        split at hstep
        · cases hstep
        · cases hstep
          refine ⟨c :: raw, by rw [next_ok hnext, hrest, List.cons_append], .plain hquote hslash hbody, ?_⟩
          intro hmem
          rw [hplain fun h => hmem (List.mem_cons_of_mem _ h), List.reverse_cons, List.append_assoc,
            List.singleton_append]
  simpa using hloop

end TsBuild.Json
