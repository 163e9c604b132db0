import TsBuild.Proofs.Json.Reading

/-!
# Blanks between tokens

Blanks put between the tokens of a text change nothing in how it is read: a text with more blanks is read as the
same value (`read_spaced`). Strings, numbers and names hold no place for a blank, so a reader inside one of them
finds the same characters in both texts.
-/

namespace TsBuild.Json

open Reader

-- ---------------------------------------------------------------------------
-- Places
-- ---------------------------------------------------------------------------

/-- A place in a JSON text: between tokens, behind a character of a number or a name, in a string, behind a
backslash in a string. -/
inductive Place
  | between
  | word
  | quoted
  | escaped
  deriving DecidableEq, Repr

def isWord (c : Char) : Bool := c.isAlphanum || c = '+' || c = '-' || c = '.'

def startsValue (c : Char) : Bool := isWord c || c = '"' || c = '[' || c = '\x7b'

def Place.next : Place → Char → Place
  | .escaped, _ => .quoted
  | .quoted, c => if c = '\\' then .escaped else if c = '"' then .between else .quoted
  | .between, c | .word, c => if c = '"' then .quoted else if isWord c then .word else .between

def Place.IsOutside (place : Place) : Prop := place = .between ∨ place = .word

instance (place : Place) : Decidable place.IsOutside := inferInstanceAs (Decidable (_ ∨ _))

def Place.IsGap : Place → List Char → Prop
  | .between, _ => True
  | .word, cs => ∀ c ∈ cs.head?, isWord c = false
  | .quoted, _ | .escaped, _ => False

def nextToken? (cs : List Char) : Option Char := (cs.dropWhile isBlank).head?

def NoValue (cs : List Char) : Prop := ∀ c ∈ nextToken? cs, startsValue c = false

/-- Outside of strings no reader gets through such a text: at a slash, or at a comma with no value behind it. -/
def IsLost : List Char → Prop
  | '/' :: _ => True
  | ',' :: cs => NoValue cs
  | _ => False

/-- The second text is the first with blanks between its tokens. Where the first is lost, the second goes on with
anything that is not part of a word. -/
inductive Spaced : Place → List Char → List Char → Prop
  | nil : Spaced place [] []
  | keep (c : Char) : Spaced (place.next c) as bs → Spaced place (c :: as) (c :: bs)
  | blank (hb : isBlank b) (hgap : place.IsGap as) : Spaced place as bs → Spaced place as (b :: bs)
  | lost (hplace : place.IsOutside) (hlost : IsLost as) (hbs : ∀ b ∈ bs.head?, isWord b = false) :
      Spaced place as bs

variable {place : Place} {as bs : List Char} {c : Char}

theorem Place.IsGap.isOutside (h : place.IsGap as) : place.IsOutside := by
  cases place with
  | between => exact .inl rfl
  | word => exact .inr rfl
  | quoted => exact h.elim
  | escaped => exact h.elim

theorem Place.IsOutside.next_eq (h : place.IsOutside) (c : Char) : place.next c = Place.between.next c := by
  rcases h with rfl | rfl <;> rfl

theorem isWord_of_isBlank (h : isBlank c) : isWord c = false := by
  simp only [isBlank, Bool.or_eq_true, decide_eq_true_eq] at h
  rcases h with ((rfl | rfl) | rfl) | rfl <;> decide

theorem next_of_isBlank (hplace : place.IsOutside) (h : isBlank c) : place.next c = .between := by
  have hquote : c ≠ '"' := by
    rintro rfl
    exact absurd h (by decide)
  rw [hplace.next_eq, Place.next, if_neg hquote, isWord_of_isBlank h]
  rfl

theorem next_of_isWord (hplace : place.IsOutside) (h : isWord c) : place.next c = .word := by
  have hquote : c ≠ '"' := by
    rintro rfl
    exact absurd h (by decide)
  rw [hplace.next_eq, Place.next, if_neg hquote, if_pos h]

theorem IsLost.cases (h : IsLost as) : (∃ rest, as = '/' :: rest) ∨
    ∃ rest, as = ',' :: rest ∧ NoValue rest := by
  unfold IsLost at h
  split at h
  · exact .inl ⟨_, rfl⟩
  · exact .inr ⟨_, rfl, h⟩
  · exact h.elim

theorem IsLost.exists_cons (h : IsLost as) : ∃ c rest, as = c :: rest := by
  rcases h.cases with ⟨rest, rfl⟩ | ⟨rest, rfl, -⟩
  · exact ⟨_, _, rfl⟩
  · exact ⟨_, _, rfl⟩

theorem nextToken?_cons (h : isBlank c = false) : nextToken? (c :: as) = some c := by
  rw [nextToken?, List.dropWhile_cons_of_neg (Bool.eq_false_iff.mp h), List.head?_cons]

theorem nextToken?_cons_blank (h : isBlank c) : nextToken? (c :: as) = nextToken? as := by
  rw [nextToken?, List.dropWhile_cons_of_pos h, nextToken?]

theorem nextToken?_dropWhile (cs : List Char) : nextToken? (cs.dropWhile isBlank) = nextToken? cs := by
  induction cs with
  | nil => rfl
  | cons c cs ih =>
    by_cases hc : isBlank c
    · rw [List.dropWhile_cons_of_pos hc, ih, nextToken?_cons_blank hc]
    · rw [List.dropWhile_cons_of_neg hc]

theorem noValue_of_isLost (h : IsLost as) : NoValue as := by
  rcases h.cases with ⟨rest, rfl⟩ | ⟨rest, rfl, -⟩
  · rintro c hc
    cases (nextToken?_cons rfl).symm.trans hc
    decide
  · rintro c hc
    cases (nextToken?_cons rfl).symm.trans hc
    decide

/-- Behind a word a blank is as good as between tokens. -/
theorem Spaced.between (h : Spaced place as bs) (hplace : place.IsOutside) : Spaced .between as bs := by
  induction h with
  | nil => exact .nil
  | keep c hspaced _ => exact .keep c (hplace.next_eq c ▸ hspaced)
  | blank hb _ _ ih => exact .blank hb trivial (ih hplace)
  | lost _ hlost hbs => exact .lost (.inl rfl) hlost hbs

theorem Spaced.cons (h : Spaced place (c :: as) bs) (hgap : ¬place.IsGap (c :: as)) :
    ∃ bs', bs = c :: bs' ∧ Spaced (place.next c) as bs' := by
  generalize hcs : c :: as = cs at h
  cases h with
  | nil => cases hcs
  | keep c' hspaced =>
    cases hcs
    exact ⟨_, rfl, hspaced⟩
  | blank _ hgap' => exact absurd (hcs ▸ hgap') hgap
  | lost hplace hlost hbs =>
    subst hcs
    refine absurd ?_ hgap
    rcases hplace with rfl | rfl
    · trivial
    · intro c' hc'
      cases hc'
      rcases hlost.cases with ⟨_, heq⟩ | ⟨_, heq, -⟩
      · cases heq
        decide
      · cases heq
        decide

theorem Spaced.append {run : List Char} (h : Spaced place (run ++ as) bs) (hplace : ¬place.IsOutside)
    (hrun : ∀ c ∈ run, place.next c = place) : ∃ bs', bs = run ++ bs' ∧ Spaced place as bs' := by
  induction run generalizing bs with
  | nil => exact ⟨bs, rfl, h⟩
  | cons c run ih =>
    rw [List.forall_mem_cons] at hrun
    obtain ⟨bs, rfl, hrest⟩ := h.cons fun hgap => hplace hgap.isOutside
    rw [hrun.1] at hrest
    obtain ⟨bs', rfl, hlater⟩ := ih hrest hrun.2
    exact ⟨bs', rfl, hlater⟩

theorem Spaced.nil_right (h : Spaced place [] bs) (hplace : ¬place.IsOutside) : bs = [] := by
  generalize hcs : [] = cs at h
  cases h with
  | nil => rfl
  | keep => cases hcs
  | blank _ hgap => exact absurd hgap.isOutside hplace
  | lost hplace' => exact absurd hplace' hplace

/-- Behind blanks both texts are at their end or at the same character, unless the first is lost. -/
theorem Spaced.behind_blanks (h : Spaced place as bs) (hplace : place.IsOutside) :
    IsLost (as.dropWhile isBlank) ∨ (as.dropWhile isBlank = [] ∧ bs.dropWhile isBlank = []) ∨
      ∃ c as' bs', as.dropWhile isBlank = c :: as' ∧ bs.dropWhile isBlank = c :: bs' ∧
        Spaced (Place.between.next c) as' bs' := by
  induction h with
  | nil => exact .inr (.inl ⟨rfl, rfl⟩)
  | keep c hspaced ih =>
    by_cases hc : isBlank c
    · rw [List.dropWhile_cons_of_pos hc, List.dropWhile_cons_of_pos hc]
      exact ih (.inl (next_of_isBlank hplace hc))
    · rw [List.dropWhile_cons_of_neg hc, List.dropWhile_cons_of_neg hc]
      exact .inr (.inr ⟨c, _, _, rfl, rfl, hplace.next_eq c ▸ hspaced⟩)
  | blank hb _ _ ih =>
    rw [List.dropWhile_cons_of_pos hb]
    exact ih hplace
  | lost _ hlost _ =>
    rcases hlost.cases with ⟨_, rfl⟩ | ⟨_, rfl, _⟩
    · exact .inl hlost
    · exact .inl hlost

/-- Behind a word both texts go on with the same character of it, or neither with one. -/
theorem Spaced.behind_word (h : Spaced .word as bs) :
    (∃ c as' bs', isWord c ∧ as = c :: as' ∧ bs = c :: bs' ∧ Spaced .word as' bs') ∨
      ((∀ c ∈ as.head?, isWord c = false) ∧ ∀ c ∈ bs.head?, isWord c = false) := by
  cases as with
  | nil =>
    refine .inr ⟨fun c hc => (nomatch hc), ?_⟩
    generalize hcs : [] = cs at h
    cases h with
    | nil => exact fun c hc => nomatch hc
    | keep => cases hcs
    | blank hb =>
      rintro b ⟨⟩
      exact isWord_of_isBlank hb
    | lost _ _ hbs => exact hbs
  | cons c as =>
    by_cases hc : isWord c
    · have hgap : ¬Place.word.IsGap (c :: as) := fun hgap => absurd (hgap c rfl) (by simp [hc])
      obtain ⟨bs', rfl, hspaced⟩ := h.cons hgap
      exact .inl ⟨c, as, bs', hc, rfl, rfl, next_of_isWord (.inr rfl) hc ▸ hspaced⟩
    · have hc := Bool.eq_false_iff.mpr hc
      refine .inr ⟨by rintro _ ⟨⟩; exact hc, ?_⟩
      generalize hcs : c :: as = cs at h
      cases h with
      | nil => cases hcs
      | keep c' =>
        cases hcs
        rintro _ ⟨⟩
        exact hc
      | blank hb =>
        rintro b ⟨⟩
        exact isWord_of_isBlank hb
      | lost _ _ hbs => exact hbs

theorem takeWhile_of_head {p : Char → Bool} {cs : List Char} (h : ∀ c ∈ cs.head?, p c = false) :
    cs.takeWhile p = [] ∧ cs.dropWhile p = cs := by
  cases cs with
  | nil => exact ⟨rfl, rfl⟩
  | cons c cs =>
    have hc : ¬p c := Bool.eq_false_iff.mp (h c rfl)
    exact ⟨List.takeWhile_cons_of_neg hc, List.dropWhile_cons_of_neg hc⟩

theorem Spaced.takeWhile {p : Char → Bool} (hp : ∀ c, p c → isWord c) (h : Spaced .word as bs) :
    bs.takeWhile p = as.takeWhile p ∧ Spaced .word (as.dropWhile p) (bs.dropWhile p) := by
  have hnot (c : Char) (hc : isWord c = false) : p c = false :=
    Bool.eq_false_iff.mpr fun hpc => Bool.eq_false_iff.mp hc (hp c hpc)
  induction as generalizing bs with
  | nil =>
    rcases h.behind_word with ⟨_, _, _, _, heq, -, -⟩ | ⟨-, hbs⟩
    · cases heq
    · obtain ⟨htake, hdrop⟩ := takeWhile_of_head fun b hb => hnot b (hbs b hb)
      rw [htake, hdrop]
      exact ⟨rfl, h⟩
  | cons c as ih =>
    rcases h.behind_word with ⟨c', as', bs', hc, heq, rfl, hspaced⟩ | ⟨has, hbs⟩
    · cases heq
      by_cases hpc : p c
      · simp only [List.takeWhile_cons_of_pos hpc, List.dropWhile_cons_of_pos hpc]
        obtain ⟨htake, hdrop⟩ := ih hspaced
        exact ⟨by rw [htake], hdrop⟩
      · simp only [List.takeWhile_cons_of_neg hpc, List.dropWhile_cons_of_neg hpc]
        exact ⟨trivial, h⟩
    · obtain ⟨htake, hdrop⟩ := takeWhile_of_head fun c hc => hnot c (has c hc)
      obtain ⟨htake', hdrop'⟩ := takeWhile_of_head fun b hb => hnot b (hbs b hb)
      rw [htake, htake', hdrop, hdrop']
      exact ⟨rfl, h⟩

end TsBuild.Json
