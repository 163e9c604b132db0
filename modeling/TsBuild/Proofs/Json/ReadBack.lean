import TsBuild.Json.Writer
import TsBuild.Proofs.Json.Reading

/-!
# Reading what was written

Compact text of strings, lists of strings and objects is read back as what it was written for, whatever
the characters of the strings (`takes_quote`, `takes_strings`, `takes_members`).
-/

namespace TsBuild.Json

open Reader

/-- Wherever it stands, the reader takes the text and comes to `a`; `rest` is what is left to read. -/
def Takes (reader : Reader α) (text : List Char) (a : α) (rest : List Char) : Prop :=
  ∀ offset, ∃ offset', reader ⟨text ++ rest, offset⟩ = .ok (a, ⟨rest, offset'⟩)

variable {rest : List Char}

-- ---------------------------------------------------------------------------
-- Steps of readers
-- ---------------------------------------------------------------------------

theorem takes_pure (a : α) : Takes (pure a) [] a rest := fun offset => ⟨offset, rfl⟩

theorem Takes.bind {reader : Reader α} {f : α → Reader β} (h : Takes reader text a (later ++ rest))
    (h' : Takes (f a) later b rest) : Takes (reader >>= f) (text ++ later) b rest := by
  intro offset
  obtain ⟨mid, hreader⟩ := h offset
  obtain ⟨offset', hf⟩ := h' mid
  refine ⟨offset', ?_⟩
  rw [List.append_assoc]
  simp only [Bind.bind, StateT.bind, hreader, Except.bind, hf]

theorem Takes.ahead {reader : Reader α} {f : α → Reader β} (h : Takes reader [] a (text ++ rest))
    (h' : Takes (f a) text b rest) : Takes (reader >>= f) text b rest := h.bind h'

theorem Takes.behind {reader : Reader α} {f : α → Reader β} (h : Takes reader text a rest)
    (h' : Takes (f a) [] b rest) : Takes (reader >>= f) text b rest := by
  rw [← List.append_nil text]
  exact Takes.bind h h'

theorem Takes.map {reader : Reader α} (h : Takes reader text a rest) (f : α → β) :
    Takes (f <$> reader) text (f a) rest := by
  intro offset
  obtain ⟨offset', hreader⟩ := h offset
  exact ⟨offset', by simp [Functor.map, StateT.map, hreader, Except.bind, Bind.bind, pure, Except.pure]⟩

theorem takes_next (c : Char) : Takes next [c] (some c) rest := fun _ => ⟨_, rfl⟩

theorem takes_skip (c : Char) : Takes (skip 1) [c] () rest := fun _ => ⟨_, rfl⟩

theorem takes_peekToken (h : isBlank c = false) : Takes peekToken [] (some c) (c :: rest) := by
  intro offset
  refine ⟨offset + 0, ?_⟩
  simp [peekToken, takeWhile, peek, h, Bind.bind, StateT.bind, Except.bind, pure, Except.pure,
    Text.byteLength]

theorem takes_loop_next {step : σ → Reader (σ ⊕ α)} {stuck : Reader α} (s' : σ)
    (h : Takes (step s) text (.inl s') (later ++ rest)) (htext : text ≠ [])
    (h' : Takes (loop step stuck s') later a rest) : Takes (loop step stuck s) (text ++ later) a rest := by
  intro offset
  obtain ⟨mid, hstep⟩ := h offset
  obtain ⟨offset', hloop⟩ := h' mid
  refine ⟨offset', ?_⟩
  have hshorter : (later ++ rest).length < (text ++ (later ++ rest)).length := by
    have hpos := List.length_pos_iff.mpr htext
    simp only [List.length_append]
    omega
  rw [loop, List.append_assoc, hstep]
  simp only [hshorter, ↓reduceIte, hloop]

theorem takes_loop_done {step : σ → Reader (σ ⊕ α)} {stuck : Reader α}
    (h : Takes (step s) text (.inr a) rest) : Takes (loop step stuck s) text a rest := by
  intro offset
  obtain ⟨offset', hstep⟩ := h offset
  exact ⟨offset', by rw [loop, hstep]⟩

/-- Items that are taken one after the other, and what stands behind the last. -/
theorem takes_loop_all {step : List β → Reader (List β ⊕ α)} {stuck : Reader α}
    {written : β → List Char} (finish : List β → α) (hwritten : ∀ item, written item ≠ [])
    (hstep : ∀ item done rest, Takes (step done) (written item) (.inl (item :: done)) rest)
    (hlast : ∀ done, Takes (step done) last (.inr (finish done)) rest) (items done : List β) :
    Takes (loop step stuck done) (items.flatMap written ++ last) (finish (items.reverse ++ done)) rest := by
  induction items generalizing done with
  | nil => exact takes_loop_done (hlast done)
  | cons item items ih =>
    rw [List.flatMap_cons, List.append_assoc, List.reverse_cons, List.append_assoc]
    exact takes_loop_next _ (hstep item done _) (hwritten item) (ih (item :: done))

-- ---------------------------------------------------------------------------
-- Strings
-- ---------------------------------------------------------------------------

theorem hex4_control : ∀ n < 32, (hex4 n).length = 4 ∧
    ((hex4 n).mapM hexValue?).map (·.foldl (fun n d => 16 * n + d) 0) = some n := by
  decide

theorem takes_hexEscape (h : n < 32) : Takes hexEscape (hex4 n) n rest := by
  obtain ⟨hlength, hdigits⟩ := hex4_control n h
  obtain ⟨digits, hdigits, hvalue⟩ := Option.map_eq_some_iff.mp hdigits
  intro offset
  refine ⟨offset + 4, ?_⟩
  rw [hexEscape_of_digits hlength hdigits, hvalue]

theorem takes_unicodeEscape {c : Char} (h : c.toNat < 32) : Takes unicodeEscape (hex4 c.toNat) c rest := by
  refine (takes_hexEscape h).behind ?_
  rw [if_neg (by simp; omega), if_pos (by simp; omega), Char.ofNat_toNat]
  exact takes_pure c

theorem takes_control {c : Char} (h : c.toNat < 32) : Takes escape ('u' :: hex4 c.toNat) c rest :=
  fun offset => takes_unicodeEscape h (offset + Char.utf8Size 'u')

theorem escapeChar_ne_nil (c : Char) : escapeChar c ≠ [] := by
  unfold escapeChar
  split <;> try split
  all_goals exact List.cons_ne_nil _ _

theorem takes_stringRest (s : String) :
    Takes stringRest (s.toList.flatMap escapeChar ++ ['"']) s rest := by
  have hreads : Takes stringRest (s.toList.flatMap escapeChar ++ ['"'])
      (String.ofList (s.toList.reverse ++ []).reverse) rest := by
    refine takes_loop_all (fun done => String.ofList done.reverse) escapeChar_ne_nil
      (fun c done rest => ?_) (fun done => fun _ => ⟨_, rfl⟩) s.toList []
    unfold escapeChar
    split
    case h_8 _ hquote hbackslash _ _ _ _ _ =>
      split
      · next hcontrol =>
        refine (takes_next '\\').bind ?_
        exact (takes_control hcontrol).behind (takes_pure _)
      · next hcontrol =>
        refine (takes_next c).behind ?_
        split
        · next h => cases h
        · next h => exact absurd (Option.some.inj h) hquote
        · next h => exact absurd (Option.some.inj h) hbackslash
        · next h =>
          cases h
          rw [if_neg hcontrol]
          exact takes_pure _
    all_goals exact fun _ => ⟨_, rfl⟩
  rwa [List.append_nil, List.reverse_reverse, String.ofList_toList] at hreads

theorem quote_toList (s : String) :
    (quote s).toList = ['"'] ++ (s.toList.flatMap escapeChar ++ ['"']) := by
  rw [quote, String.toList_ofList]
  rfl

theorem takes_string (nested : Option (Reader Json)) (s : String) :
    Takes (valueWith nested) (quote s).toList (.string s) rest := by
  rw [quote_toList]
  refine (takes_peekToken (by decide)).ahead ?_
  exact (takes_skip '"').bind ((takes_stringRest s).map _)

-- ---------------------------------------------------------------------------
-- Arrays and objects
-- ---------------------------------------------------------------------------

theorem takes_array_nil (item : Reader Json) : Takes (valueWith (some item)) ['[', ']'] (.array []) rest := by
  refine (takes_peekToken (by decide)).ahead ?_
  change Takes _ (['['] ++ [']']) _ _
  refine (takes_skip '[').bind (takes_loop_done ?_)
  refine (takes_peekToken (by decide)).ahead ?_
  exact (takes_skip ']').behind (takes_pure _)

theorem takes_array_string (nested : Option (Reader Json)) (s : String) :
    Takes (valueWith (some (valueWith nested))) (['['] ++ ((quote s).toList ++ [']']))
      (.array [.string s]) rest := by
  refine (takes_peekToken (by decide)).ahead ?_
  refine (takes_skip '[').bind ?_
  have hitem : Takes (valueWith nested) (quote s).toList (.string s) ([']'] ++ rest) := takes_string nested s
  refine takes_loop_next [.string s] ?_ (by simp [quote_toList]) ?_
  · rw [quote_toList] at hitem ⊢
    refine (takes_peekToken (by decide)).ahead ?_
    exact hitem.behind (takes_pure _)
  · refine takes_loop_done ((takes_peekToken (by decide)).ahead ?_)
    exact (takes_skip ']').behind (takes_pure _)

variable {item : Reader Json} {text : List Char} {read : Json}

theorem takes_memberRest (h : Takes item text read rest) (key : String) :
    Takes (memberRest item) ((quote key).toList ++ ([':'] ++ text)) (key, read) rest := by
  rw [quote_toList, List.append_assoc]
  refine (takes_skip '"').bind ((takes_stringRest key).bind ?_)
  refine (takes_peekToken (by decide)).ahead ?_
  exact (takes_skip ':').bind (h.behind (takes_pure _))

theorem takes_member_first (h : Takes item text read rest) (key : String) (members : List (String × Json)) :
    Takes (objectStep item (false, members)) ((quote key).toList ++ ([':'] ++ text))
      (.inl (true, insert key read members)) rest := by
  have hmember := takes_memberRest h key
  rw [quote_toList] at hmember ⊢
  refine (takes_peekToken (by decide)).ahead ?_
  exact hmember.behind (takes_pure _)

theorem takes_member_next (h : Takes item text read rest) (key : String) (members : List (String × Json)) :
    Takes (objectStep item (true, members)) ([','] ++ ((quote key).toList ++ ([':'] ++ text)))
      (.inl (true, insert key read members)) rest := by
  have hmember := takes_memberRest h key
  rw [quote_toList] at hmember ⊢
  refine (takes_peekToken (by decide)).ahead ?_
  refine (takes_skip ',').bind ?_
  refine (takes_peekToken (by decide)).ahead ?_
  exact hmember.behind (takes_pure _)

theorem takes_object_end (item : Reader Json) (done : Bool × List (String × Json)) :
    Takes (objectStep item done) ['\x7d'] (.inr (.object done.2)) rest := by
  refine (takes_peekToken (by decide)).ahead ?_
  exact (takes_skip '\x7d').behind (takes_pure _)

end TsBuild.Json
