import TsBuild.Json.Reader
import TsBuild.Proofs.Text.Lines

/-!
# How far a reader gets

A reader goes on from where it stands: what it takes is the beginning of what is left, and it counts the bytes
(`Cursor.Before`). A fault is noticed within the text (`offset_le_of_fault`), so it has a place in one of the lines
(`exists_inLine_of_lineColumn`). A value takes at least one character (`advances_value`), and so does a step
through a string, an array or an object.
-/

namespace TsBuild.Json

open Reader

variable {cur later : Cursor} {n : Nat}

-- ---------------------------------------------------------------------------
-- Cursors
-- ---------------------------------------------------------------------------

def Cursor.Before (n : Nat) (cur later : Cursor) : Prop :=
  ∃ taken, n ≤ taken.length ∧ cur.rest = taken ++ later.rest ∧
    later.offset = cur.offset + Text.byteLength taken

def Cursor.finish (cur : Cursor) : Nat := cur.offset + Text.byteLength cur.rest

theorem Cursor.Before.refl (cur : Cursor) : cur.Before 0 cur := ⟨[], Nat.le_refl 0, rfl, rfl⟩

theorem Cursor.Before.trans {last : Cursor} (h : Cursor.Before m cur later) (h' : Cursor.Before n later last) :
    Cursor.Before (m + n) cur last := by
  obtain ⟨taken, hlength, hrest, hoffset⟩ := h
  obtain ⟨more, hlength', hrest', hoffset'⟩ := h'
  refine ⟨taken ++ more, ?_, by rw [hrest, hrest', List.append_assoc], ?_⟩
  · rw [List.length_append]
    exact Nat.add_le_add hlength hlength'
  · rw [hoffset', hoffset, Text.byteLength_append, Nat.add_assoc]

theorem Cursor.Before.finish_eq (h : Cursor.Before n cur later) : later.finish = cur.finish := by
  obtain ⟨taken, -, hrest, hoffset⟩ := h
  rw [Cursor.finish, Cursor.finish, hrest, hoffset, Text.byteLength_append, Nat.add_assoc]

theorem Cursor.Before.length_le (h : Cursor.Before n cur later) : n + later.rest.length ≤ cur.rest.length := by
  obtain ⟨taken, hlength, hrest, -⟩ := h
  rw [hrest, List.length_append]
  exact Nat.add_le_add_right hlength _

-- ---------------------------------------------------------------------------
-- Advancing
-- ---------------------------------------------------------------------------

/-- From where it stands, the reader takes at least `n` characters, or notices a fault within the text. -/
def Advances (n : Nat) (reader : Reader α) (cur : Cursor) : Prop :=
  match reader cur with
  | .ok (_, later) => cur.Before n later
  | .error fault => fault.offset ≤ cur.finish

variable {reader : Reader α} {f : α → Reader β}

theorem Advances.before (h : Advances n reader cur) (hok : reader cur = .ok (a, later)) : cur.Before n later := by
  rw [Advances, hok] at h
  exact h

theorem Advances.fault {fault : Fault} (h : Advances n reader cur) (herror : reader cur = .error fault) :
    fault.offset ≤ cur.finish := by
  rw [Advances, herror] at h
  exact h

theorem Advances.of_later {reader' : Reader α} (hbefore : cur.Before m later) (heq : reader cur = reader' later)
    (h : Advances n reader' later) : Advances (m + n) reader cur := by
  rw [Advances] at h ⊢
  rw [heq]
  split at h
  · exact hbefore.trans h
  · exact hbefore.finish_eq ▸ h

theorem Advances.bind_add (h : Advances m reader cur)
    (h' : ∀ a later, reader cur = .ok (a, later) → Advances n (f a) later) :
    Advances (m + n) (reader >>= f) cur := by
  cases hreader : reader cur with
  | error fault =>
    have heq : (reader >>= f) cur = .error fault := by
      simp only [Bind.bind, StateT.bind, hreader, Except.bind]
    rw [Advances, heq]
    exact h.fault hreader
  | ok result =>
    obtain ⟨a, later⟩ := result
    have heq : (reader >>= f) cur = f a later := by
      simp only [Bind.bind, StateT.bind, hreader, Except.bind]
    exact .of_later (h.before hreader) heq (h' a later hreader)

theorem Advances.bind (h : Advances 0 reader cur)
    (h' : ∀ a later, reader cur = .ok (a, later) → Advances n (f a) later) : Advances n (reader >>= f) cur :=
  Nat.zero_add n ▸ h.bind_add h'

/-- What comes first takes the characters. -/
theorem Advances.bind_first (h : Advances n reader cur)
    (h' : ∀ a later, reader cur = .ok (a, later) → Advances 0 (f a) later) : Advances n (reader >>= f) cur :=
  h.bind_add h'

theorem Advances.map (h : Advances n reader cur) (g : α → β) : Advances n (g <$> reader) cur := by
  rw [map_eq_pure_bind]
  exact h.bind_first fun _ later _ => Cursor.Before.refl later

theorem Advances.weaken (h : Advances n reader cur) : Advances 0 reader cur := by
  rw [Advances] at h ⊢
  split at h
  · obtain ⟨taken, -, htaken⟩ := h
    exact ⟨taken, Nat.zero_le _, htaken⟩
  · exact h

theorem advances_pure (a : α) (cur : Cursor) : Advances 0 (pure a) cur := Cursor.Before.refl cur

theorem advances_get (cur : Cursor) : Advances 0 get cur := Cursor.Before.refl cur

theorem advances_peek (cur : Cursor) : Advances 0 peek cur := Cursor.Before.refl cur

theorem advances_throw (h : offset ≤ cur.finish) (cause : Cause) :
    Advances n (fun _ => throw ⟨cause, offset⟩ : Reader α) cur := h

theorem advances_fail (cause : Cause) (cur : Cursor) : Advances n (fail cause : Reader α) cur :=
  Nat.le_add_right _ _

theorem advances_failNext (cause : Cause) (cur : Cursor) : Advances n (failNext cause : Reader α) cur := by
  obtain ⟨_ | ⟨c, rest⟩, offset⟩ := cur
  · exact Nat.le_add_right _ _
  · exact Nat.add_le_add_left (Text.byteLength_cons_pos c rest) offset

theorem advances_skip (n : Nat) (cur : Cursor) : Advances 0 (skip n) cur :=
  ⟨cur.rest.take n, Nat.zero_le _, (List.take_append_drop n _).symm, rfl⟩

theorem advances_skip_one (h : cur.rest = c :: rest) : Advances 1 (skip 1) cur :=
  ⟨cur.rest.take 1, by simp [h], (List.take_append_drop 1 _).symm, rfl⟩

theorem advances_next (cur : Cursor) : Advances 0 next cur := by
  obtain ⟨_ | ⟨c, rest⟩, offset⟩ := cur
  · exact Cursor.Before.refl _
  · exact ⟨[c], Nat.zero_le _, rfl, rfl⟩

theorem advances_next_bind {f : Option Char → Reader β} (hnone : ∀ cur, Advances 1 (f none) cur)
    (hsome : ∀ c later, next cur = .ok (some c, later) → Advances 0 (f (some c)) later) :
    Advances 1 (next >>= f) cur := by
  obtain ⟨_ | ⟨c, rest⟩, offset⟩ := cur
  · exact hnone _
  · have hbefore : Cursor.Before 1 ⟨c :: rest, offset⟩ ⟨rest, offset + c.utf8Size⟩ :=
      ⟨[c], Nat.le_refl 1, rfl, rfl⟩
    exact .of_later hbefore rfl (hsome c _ rfl)

theorem advances_takeWhile (p : Char → Bool) (cur : Cursor) : Advances 0 (takeWhile p) cur :=
  ⟨cur.rest.takeWhile p, Nat.zero_le _, (List.prefix_iff_eq_append.mp (List.takeWhile_prefix p)).symm, rfl⟩

theorem advances_takeWhile_one {p : Char → Bool} (h : cur.rest = c :: rest) (hc : p c) :
    Advances 1 (takeWhile p) cur := by
  refine ⟨cur.rest.takeWhile p, ?_, (List.prefix_iff_eq_append.mp (List.takeWhile_prefix p)).symm, rfl⟩
  rw [h, List.takeWhile_cons_of_pos hc]
  exact Nat.le_add_left 1 _

theorem advances_peekToken (cur : Cursor) : Advances 0 peekToken cur :=
  (advances_takeWhile isBlank cur).bind fun _ later _ => advances_peek later

/-- Steps that each take a character make a loop that is never stuck. -/
theorem advances_loop {step : σ → Reader (σ ⊕ α)} {stuck : Reader α} (hstep : ∀ s cur, Advances 1 (step s) cur)
    (s : σ) (cur : Cursor) : Advances 1 (loop step stuck s) cur := by
  generalize hn : cur.rest.length = n
  induction n using Nat.strongRecOn generalizing s cur with
  | ind n ih =>
    have hadvances := hstep s cur
    cases hresult : step s cur with
    | error fault =>
      rw [Advances, loop, hresult]
      exact hadvances.fault hresult
    | ok result =>
      obtain ⟨s' | a, later⟩ := result
      · have hbefore := hadvances.before hresult
        have hshorter : later.rest.length < cur.rest.length := by
          have hlength := hbefore.length_le
          omega
        have hloop : loop step stuck s cur = loop step stuck s' later := by
          rw [loop, hresult]
          exact if_pos hshorter
        exact .of_later hbefore hloop (ih _ (hn ▸ hshorter) s' later rfl).weaken
      · rw [Advances, loop, hresult]
        exact hadvances.before hresult

theorem ok_of_bind (h : (reader >>= f) cur = .ok (b, later)) :
    ∃ a mid, reader cur = .ok (a, mid) ∧ f a mid = .ok (b, later) := by
  simp only [Bind.bind, StateT.bind, Except.bind] at h
  split at h
  · cases h
  · next result hresult => exact ⟨result.1, result.2, hresult, h⟩

theorem rest_of_peek (h : peek cur = .ok (some c, later)) : ∃ rest, later.rest = c :: rest := by
  obtain ⟨hhead, hlater⟩ := Prod.mk.inj (Except.ok.inj h)
  rw [← hlater]
  exact List.head?_eq_some_iff.mp hhead

theorem rest_of_peekToken (h : peekToken cur = .ok (some c, later)) : ∃ rest, later.rest = c :: rest := by
  obtain ⟨_, mid, -, hpeek⟩ := ok_of_bind h
  exact rest_of_peek hpeek

-- ---------------------------------------------------------------------------
-- Names, strings and numbers
-- ---------------------------------------------------------------------------

theorem offset_lt_finish_of_next (h : next cur = .ok (some c, later)) : cur.offset + 1 ≤ later.finish := by
  have hbefore := (advances_next cur).before h
  obtain ⟨_ | ⟨c', rest⟩, offset⟩ := cur
  · cases h
  · rw [hbefore.finish_eq]
    exact Nat.add_le_add_left (Text.byteLength_cons_pos c' rest) offset

theorem advances_ident (es : List Char) (cur : Cursor) : Advances 0 (ident es) cur := by
  induction es generalizing cur with
  | nil => exact advances_pure () cur
  | cons e es ih =>
    refine (advances_get cur).bind fun start later hget => ?_
    cases hget
    refine (advances_next cur).bind fun c? later hnext => ?_
    cases c? with
    | none => exact advances_fail .eofInValue later
    | some c =>
      dsimp only
      split
      · exact ih later
      · exact advances_throw (offset_lt_finish_of_next hnext) _

theorem lt_of_hexValue? {c : Char} {n : Nat} (h : hexValue? c = some n) : c.toNat < 0x80 := by
  have hle (last : Char) (h : c ≤ last) : c.toNat ≤ last.toNat := UInt32.le_iff_toNat_le.mp h
  unfold hexValue? at h
  split at h
  · next hdigit => exact Nat.lt_of_le_of_lt (Char.isDigit_iff_toNat.mp hdigit).2 (by decide)
  · split at h
    · next hlower =>
      rw [Bool.and_eq_true, decide_eq_true_eq, decide_eq_true_eq] at hlower
      exact Nat.lt_of_le_of_lt (hle 'f' hlower.2) (by decide)
    · split at h
      · next hupper =>
        rw [Bool.and_eq_true, decide_eq_true_eq, decide_eq_true_eq] at hupper
        exact Nat.lt_of_le_of_lt (hle 'F' hupper.2) (by decide)
      · cases h

theorem exists_hexValue_of_mapM {cs : List Char} (h : cs.mapM hexValue? = some digits) :
    ∀ c ∈ cs, ∃ digit, hexValue? c = some digit := by
  induction cs generalizing digits with
  | nil => exact fun c hc => absurd hc List.not_mem_nil
  | cons c cs ih =>
    rw [List.mapM_cons] at h
    obtain ⟨digit, hc, h⟩ := Option.bind_eq_some_iff.mp h
    obtain ⟨rest, hcs, -⟩ := Option.bind_eq_some_iff.mp h
    exact List.forall_mem_cons.mpr ⟨⟨digit, hc⟩, ih hcs⟩

theorem byteLength_of_mapM_hexValue? {cs : List Char} (h : cs.mapM hexValue? = some digits) :
    Text.byteLength cs = cs.length :=
  Text.byteLength_eq_length_iff.mpr fun c hc =>
    let ⟨_, hdigit⟩ := exists_hexValue_of_mapM h c hc
    Text.utf8Size_eq_one (lt_of_hexValue? hdigit)

theorem hexEscape_of_digits {four rest : List Char} (hlength : four.length = 4)
    (hdigits : four.mapM hexValue? = some digits) (offset : Nat) :
    hexEscape ⟨four ++ rest, offset⟩ = .ok (digits.foldl (fun n d => 16 * n + d) 0, ⟨rest, offset + 4⟩) := by
  have hbytes := byteLength_of_mapM_hexValue? hdigits
  have htake : (four ++ rest).take 4 = four := by rw [← hlength, List.take_left]
  have hdrop : (four ++ rest).drop 4 = rest := by rw [← hlength, List.drop_left]
  have henough : ¬Text.byteLength (four ++ rest) < 4 := by
    rw [Text.byteLength_append]
    omega
  simp only [hexEscape, henough, ↓reduceIte, htake, hdigits, hdrop]
  rfl

theorem exists_of_hexEscape {n : Nat} (h : hexEscape cur = .ok (n, later)) :
    ∃ four digits, four.length = 4 ∧ cur.rest = four ++ later.rest ∧ later.offset = cur.offset + 4 ∧
      four.mapM hexValue? = some digits ∧ n = digits.foldl (fun n d => 16 * n + d) 0 := by
  unfold hexEscape at h
  dsimp only at h
  split at h
  · cases h
  · next henough =>
    split at h
    · next digits hdigits =>
      cases h
      refine ⟨cur.rest.take 4, digits, ?_, (List.take_append_drop 4 _).symm, rfl, hdigits, rfl⟩
      have hbytes := byteLength_of_mapM_hexValue? hdigits
      by_cases hlength : cur.rest.length < 4
      · rw [List.take_of_length_le (Nat.le_of_lt hlength)] at hbytes
        omega
      · rw [List.length_take]
        omega
    · cases h

theorem advances_hexEscape (cur : Cursor) : Advances 0 hexEscape cur := by
  cases hresult : hexEscape cur with
  | ok result =>
    obtain ⟨n, later⟩ := result
    obtain ⟨four, digits, hlength, hrest, hoffset, hdigits, -⟩ := exists_of_hexEscape hresult
    have hbytes := byteLength_of_mapM_hexValue? hdigits
    rw [Advances, hresult]
    exact ⟨four, Nat.zero_le _, hrest, by rw [hoffset, hbytes, hlength]⟩
  | error fault =>
    rw [Advances, hresult, Cursor.finish]
    unfold hexEscape at hresult
    dsimp only at hresult
    split at hresult
    · cases hresult
      exact Nat.le_refl _
    · next henough =>
      split at hresult
      · cases hresult
      · cases hresult
        dsimp only
        omega

theorem advances_surrogateMark (mark : Char) (cur : Cursor) : Advances 0 (surrogateMark mark) cur := by
  refine (advances_peek cur).bind fun c? later _ => ?_
  cases c? with
  | none => exact advances_fail .eofInString later
  | some c =>
    dsimp only
    split
    · exact advances_skip 1 later
    · exact advances_failNext .unexpectedEndOfHexEscape later

theorem advances_unicodeEscape (cur : Cursor) : Advances 0 unicodeEscape cur := by
  refine (advances_hexEscape cur).bind fun n later _ => ?_
  split
  · exact advances_fail .loneSurrogate later
  · split
    · exact advances_pure _ later
    · refine (advances_surrogateMark '\\' later).bind fun _ later _ => ?_
      refine (advances_surrogateMark 'u' later).bind fun _ later _ => ?_
      refine (advances_hexEscape later).bind fun low later _ => ?_
      split
      · exact advances_fail .loneSurrogate later
      · exact advances_pure _ later

theorem advances_escape (cur : Cursor) : Advances 0 escape cur := by
  refine (advances_get cur).bind fun start later hget => ?_
  cases hget
  refine (advances_next cur).bind fun c? later hnext => ?_
  split
  · exact advances_fail .eofInString later
  · exact advances_pure _ later
  · exact advances_pure _ later
  · exact advances_pure _ later
  · exact advances_pure _ later
  · exact advances_pure _ later
  · exact advances_unicodeEscape later
  · split
    · exact advances_pure _ later
    · exact advances_throw (offset_lt_finish_of_next hnext) _

theorem advances_stringStep (done : List Char) (cur : Cursor) : Advances 1 (stringStep done) cur := by
  refine advances_next_bind (advances_fail .eofInString) fun c later _ => ?_
  split
  · exact advances_fail .eofInString later
  · exact advances_pure _ later
  · exact (advances_escape later).bind fun _ later _ => advances_pure _ later
  · split
    · exact advances_fail .controlCharacter later
    · exact advances_pure _ later

theorem advances_stringRest (cur : Cursor) : Advances 1 stringRest cur :=
  advances_loop advances_stringStep [] cur

theorem offset_add_length_le_finish_of_takeWhile (h : takeWhile p cur = .ok (run, later)) :
    cur.offset + run.length ≤ later.finish := by
  cases h
  exact Nat.le_trans (Nat.add_le_add_left (Text.length_le_byteLength _) _) (Nat.le_add_right _ _)

theorem advances_readFloat (negative : Bool) (significand : Nat) (exponent : Int) (cur : Cursor) :
    Advances 0 (readFloat negative significand exponent) cur := by
  unfold readFloat
  split
  · exact advances_pure _ cur
  · exact advances_fail .numberOutOfRange cur

theorem length_exponentDigits_le (value : Nat) (ds : List Nat) :
    (exponentDigits value ds).2.length ≤ ds.length := by
  induction ds generalizing value with
  | nil => exact Nat.le_refl _
  | cons d ds ih =>
    rw [exponentDigits]
    split
    · exact Nat.le_succ_of_le (ih _)
    · exact Nat.le_refl _

theorem advances_exponentSign (cur : Cursor) : Advances 0 exponentSign cur := by
  refine (advances_peek cur).bind fun c? later _ => ?_
  split
  · exact (advances_skip 1 later).bind fun _ later _ => advances_pure _ later
  · exact (advances_skip 1 later).bind fun _ later _ => advances_pure _ later
  · exact advances_pure _ later

theorem advances_exponentPart (negative : Bool) (significand : Nat) (before : Int) (cur : Cursor) :
    Advances 0 (exponentPart negative significand before) cur := by
  refine (advances_skip 1 cur).bind fun _ later _ => ?_
  refine (advances_exponentSign later).bind fun down later _ => ?_
  refine (advances_peek later).bind fun c? later _ => ?_
  split
  · exact advances_fail .eofInValue later
  · split
    · exact advances_failNext .invalidNumber later
    · refine (advances_get later).bind fun start later hget => ?_
      cases hget
      refine (advances_takeWhile Char.isDigit later).bind fun run behind hrun => ?_
      split
      · exact advances_readFloat _ _ _ behind
      · next value excess hne hdigits =>
        split
        · have hexcess := length_exponentDigits_le 0 (digitsOf run)
          rw [hdigits, digitsOf, List.length_map] at hexcess
          have hpos := List.length_pos_iff.mpr hne
          have hwithin := offset_add_length_le_finish_of_takeWhile hrun
          refine advances_throw ?_ _
          dsimp only at hexcess
          omega
        · exact advances_pure _ behind

theorem advances_fraction (negative : Bool) (significand : Nat) (before : Int) (cur : Cursor) :
    Advances 0 (fraction negative significand before) cur := by
  refine (advances_skip 1 cur).bind fun _ later _ => ?_
  refine (advances_takeWhile Char.isDigit later).bind fun run later _ => ?_
  split
  · refine (advances_peek later).bind fun c? later _ => ?_
    split
    · exact advances_failNext .invalidNumber later
    · exact advances_fail .eofInValue later
  · refine (advances_peek later).bind fun c? later _ => ?_
    split
    · exact advances_exponentPart _ _ _ later
    · exact advances_exponentPart _ _ _ later
    · exact advances_readFloat _ _ _ later

theorem advances_behindDigits (negative : Bool) (first : Char) (run : List Char) (cur : Cursor) :
    Advances 0 (behindDigits negative first run) cur := by
  refine (advances_peek cur).bind fun c? later _ => ?_
  split
  · exact advances_fraction _ _ _ later
  · exact advances_exponentPart _ _ _ later
  · exact advances_exponentPart _ _ _ later
  · split
    · exact advances_failNext .invalidNumber later
    · split
      · exact advances_readFloat _ _ _ later
      · split
        · exact advances_pure _ later
        · split
          · exact advances_readFloat _ _ _ later
          · exact advances_pure _ later

theorem advances_readNumber (negative : Bool) (cur : Cursor) : Advances 1 (readNumber negative) cur := by
  refine (advances_peek cur).bind fun c? later hpeek => ?_
  split
  · exact advances_fail .eofInValue later
  · obtain ⟨rest, hrest⟩ := rest_of_peek hpeek
    split
    · exact advances_failNext .invalidNumber later
    · next hdigit =>
      split
      · exact (advances_skip_one hrest).bind_first fun _ later _ => advances_behindDigits _ _ _ later
      · exact (advances_takeWhile_one hrest (by simpa using hdigit)).bind_first
          fun run later _ => advances_behindDigits _ _ run later

-- ---------------------------------------------------------------------------
-- Values
-- ---------------------------------------------------------------------------

section
variable {item : Reader Json} (hitem : ∀ cur, Advances 1 item cur)
include hitem

theorem advances_arrayStep (done : List Json) (cur : Cursor) : Advances 1 (arrayStep item done) cur := by
  refine (advances_peekToken cur).bind fun c? later hpeek => ?_
  split
  · exact advances_fail .eofInList later
  · obtain ⟨rest, hrest⟩ := rest_of_peekToken hpeek
    exact (advances_skip_one hrest).bind_first fun _ later _ => advances_pure _ later
  · obtain ⟨rest, hrest⟩ := rest_of_peekToken hpeek
    split
    · exact (hitem later).bind_first fun _ later _ => advances_pure _ later
    · split
      · refine (advances_skip_one hrest).bind_first fun _ later _ => ?_
        refine (advances_peekToken later).bind fun c? later _ => ?_
        split
        · exact advances_failNext .trailingComma later
        · exact (hitem later).weaken.bind fun _ later _ => advances_pure _ later
        · exact advances_fail .eofInValue later
      · exact advances_failNext .expectedListCommaOrEnd later

theorem advances_arrayRest (cur : Cursor) : Advances 1 (arrayRest item) cur :=
  advances_loop (advances_arrayStep hitem) [] cur

theorem advances_memberRest (hrest : cur.rest = c :: rest) : Advances 1 (memberRest item) cur := by
  refine (advances_skip_one hrest).bind_first fun _ later _ => ?_
  refine (advances_stringRest later).weaken.bind fun key later _ => ?_
  refine (advances_peekToken later).bind fun c? later _ => ?_
  split
  · refine (advances_skip 1 later).bind fun _ later _ => ?_
    exact (hitem later).weaken.bind fun _ later _ => advances_pure _ later
  · exact advances_failNext .expectedColon later
  · exact advances_fail .eofInObject later

theorem advances_objectStep (done : Bool × List (String × Json)) (cur : Cursor) :
    Advances 1 (objectStep item done) cur := by
  refine (advances_peekToken cur).bind fun c? later hpeek => ?_
  split
  · exact advances_fail .eofInObject later
  · obtain ⟨rest, hrest⟩ := rest_of_peekToken hpeek
    exact (advances_skip_one hrest).bind_first fun _ later _ => advances_pure _ later
  · obtain ⟨rest, hrest⟩ := rest_of_peekToken hpeek
    split
    · split
      · exact (advances_memberRest hitem hrest).bind_first fun _ later _ => advances_pure _ later
      · exact advances_failNext .keyMustBeString later
    · split
      · refine (advances_skip_one hrest).bind_first fun _ later _ => ?_
        refine (advances_peekToken later).bind fun c? later hpeek => ?_
        split
        · obtain ⟨rest, hrest⟩ := rest_of_peekToken hpeek
          exact (advances_memberRest hitem hrest).weaken.bind fun _ later _ => advances_pure _ later
        · exact advances_failNext .trailingComma later
        · exact advances_failNext .keyMustBeString later
        · exact advances_fail .eofInValue later
      · exact advances_failNext .expectedObjectCommaOrEnd later

theorem advances_objectRest (cur : Cursor) : Advances 1 (objectRest item) cur :=
  advances_loop (advances_objectStep hitem) _ cur

end

theorem advances_valueWith {nested : Option (Reader Json)} (hnested : ∀ item ∈ nested, ∀ cur, Advances 1 item cur)
    (cur : Cursor) : Advances 1 (valueWith nested) cur := by
  refine (advances_peekToken cur).bind fun c? later hpeek => ?_
  split
  · exact advances_fail .eofInValue later
  case h_9 =>
    split
    · exact (advances_readNumber false later).map _
    · exact advances_failNext .expectedValue later
  all_goals
    obtain ⟨rest, hrest⟩ := rest_of_peekToken hpeek
    have hskip := advances_skip_one hrest
  · refine hskip.bind_first fun _ later _ => ?_
    exact (advances_ident _ later).bind fun _ later _ => advances_pure _ later
  · refine hskip.bind_first fun _ later _ => ?_
    exact (advances_ident _ later).bind fun _ later _ => advances_pure _ later
  · refine hskip.bind_first fun _ later _ => ?_
    exact (advances_ident _ later).bind fun _ later _ => advances_pure _ later
  · exact hskip.bind_first fun _ later _ => (advances_readNumber true later).weaken.map _
  · exact hskip.bind_first fun _ later _ => (advances_stringRest later).weaken.map _
  · split
    · exact advances_failNext .recursionLimit later
    · exact hskip.bind_first fun _ later _ => (advances_arrayRest (hnested _ rfl) later).weaken
  · split
    · exact advances_failNext .recursionLimit later
    · exact hskip.bind_first fun _ later _ => (advances_objectRest (hnested _ rfl) later).weaken

theorem advances_value (depth : Nat) (cur : Cursor) : Advances 1 (value depth) cur := by
  induction depth generalizing cur with
  | zero => exact advances_valueWith (fun item h => absurd h (Option.not_mem_none item)) cur
  | succ depth ih =>
    refine advances_valueWith (fun item h => ?_) cur
    cases h
    exact ih

theorem advances_document (cur : Cursor) : Advances 1 document cur := by
  refine (advances_value depthLimit cur).bind_first fun result later _ => ?_
  refine (advances_peekToken later).bind fun c? later _ => ?_
  split
  · exact advances_pure result later
  · exact advances_failNext .trailingCharacters later

theorem offset_le_of_fault {cs : List Char} {fault : Fault} (h : document ⟨cs, 0⟩ = .error fault) :
    fault.offset ≤ Text.byteLength cs := by
  have hoffset := (advances_document ⟨cs, 0⟩).fault h
  rwa [Cursor.finish, Nat.zero_add] at hoffset

-- ---------------------------------------------------------------------------
-- Places
-- ---------------------------------------------------------------------------

theorem exists_inLine_of_lineColumn {cs : List Char} {offset : Nat} (h : offset ≤ Text.byteLength cs)
    (line column : Nat) :
    ∃ n rest start, Text.InLine cs offset n rest start ∧
      lineColumn line column cs offset = (line + n, (if n = 0 then column else 0) + (offset - start)) := by
  induction cs generalizing offset line column with
  | nil =>
    cases Nat.le_zero.mp h
    exact ⟨0, [], 0, .zero [], rfl⟩
  | cons c cs ih =>
    by_cases hzero : offset = 0
    · subst hzero
      exact ⟨0, c :: cs, 0, .zero _, rfl⟩
    rw [Text.byteLength] at h
    by_cases hc : c = '\n'
    · subst hc
      have hsize : ('\n' : Char).utf8Size = 1 := rfl
      obtain ⟨n, rest, start, hplace, heq⟩ := ih (by omega : offset - 1 ≤ Text.byteLength cs) (line + 1) 0
      have hnewline := hplace.newline
      rw [Nat.sub_add_cancel (Nat.pos_of_ne_zero hzero)] at hnewline
      refine ⟨n + 1, rest, start + 1, hnewline, ?_⟩
      rw [lineColumn, if_neg hzero, if_pos rfl, heq, if_neg n.succ_ne_zero, ite_self]
      congr 1
      · omega
      · omega
    · obtain ⟨n, rest, start, hplace, heq⟩ :=
        ih (by omega : offset - c.utf8Size ≤ Text.byteLength cs) line (column + min offset c.utf8Size)
      have hle := hplace.start_le
      rw [lineColumn, if_neg hzero, if_neg hc, heq]
      cases n with
      | zero =>
        obtain ⟨rfl, rfl⟩ := hplace.eq_of_zero
        refine ⟨0, _, 0, hplace.cons_first hc hzero, ?_⟩
        rw [if_pos rfl, if_pos rfl]
        congr 1
        omega
      | succ n =>
        refine ⟨n + 1, rest, start + c.utf8Size, hplace.cons hc, ?_⟩
        rw [if_neg n.succ_ne_zero, if_neg n.succ_ne_zero]
        congr 2
        omega

end TsBuild.Json
