import TsBuild.Proofs.Json.Members
import TsBuild.Proofs.Json.Runs

/-!
# The phrases of a JSON text

A text that is read as a value is a phrase: words, strings, and brackets around items or members, with blanks
between them (`exists_document`). The phrase tells where in the text each member of an object stands
(`Phrase.members`), which its value does not.
-/

namespace TsBuild.Json

open Reader

variable {cur later : Cursor}

-- ---------------------------------------------------------------------------
-- Phrases
-- ---------------------------------------------------------------------------

structure Gap (mark : Option Char) where
  before : Blanks
  after : Blanks

def Gap.text (gap : Gap mark) : List Char := gap.before.1 ++ (mark.toList ++ gap.after.1)

/-- A string, as it is written between its quotes and as it is read. -/
structure Quoted where
  raw : List Char
  value : String
  taken : Taken stringRest (raw ++ ['"']) value

def Quoted.text (quoted : Quoted) : List Char := '"' :: (quoted.raw ++ ['"'])

inductive Spells : List Char → Json → Prop
  | null : Spells ['n', 'u', 'l', 'l'] .null
  | true : Spells ['t', 'r', 'u', 'e'] (.bool true)
  | false : Spells ['f', 'a', 'l', 's', 'e'] (.bool false)
  | number (negative : Bool) (h : Taken (readNumber negative) digits n) :
      Spells ((if negative then ['-'] else []) ++ digits) (.number n)

/-- The kinds of phrases: a value, or what stands behind an opening bracket or behind an item or a member. -/
inductive Kind
  | value
  | items (behind : Bool)
  | members (behind : Bool)

def comma (behind : Bool) : Option Char := if behind then some ',' else none

inductive Phrase : Kind → Type
  | word (text : List Char) (value : Json) (h : Spells text value) : Phrase .value
  | string (quoted : Quoted) : Phrase .value
  | array (items : Phrase (.items false)) : Phrase .value
  | object (members : Phrase (.members false)) : Phrase .value
  | noItem (blanks : Blanks) : Phrase (.items behind)
  | item (lead : Gap (comma behind)) (value : Phrase .value) (rest : Phrase (.items true)) :
      Phrase (.items behind)
  | noMember (blanks : Blanks) : Phrase (.members behind)
  | member (lead : Gap (comma behind)) (key : Quoted) (colon : Gap (some ':')) (value : Phrase .value)
      (rest : Phrase (.members true)) : Phrase (.members behind)

namespace Phrase

def text : Phrase kind → List Char
  | word text _ _ => text
  | string quoted => quoted.text
  | array items => '[' :: items.text
  | object members => '\x7b' :: members.text
  | noItem blanks => blanks.1 ++ [']']
  | item lead value rest => lead.text ++ (value.text ++ rest.text)
  | noMember blanks => blanks.1 ++ ['\x7d']
  | member lead key colon value rest => lead.text ++ (key.text ++ (colon.text ++ (value.text ++ rest.text)))

/-- What a phrase means: a value, or the items or members that are left. -/
abbrev Meaning : Kind → Type
  | .value => Json
  | .items _ => List Json
  | .members _ => List (String × Json)

def meaning : Phrase kind → Meaning kind
  | word _ value _ => value
  | string quoted => Json.string quoted.value
  | array items => Json.array items.meaning
  | object members => Json.object (layer members.meaning [])
  | noItem _ => []
  | item _ value rest => (value.meaning :: rest.meaning : List Json)
  | noMember _ => []
  | member _ key _ value rest => ((key.value, value.meaning) :: rest.meaning : List (String × Json))

structure Member where
  start : Nat
  key : Quoted
  place : Nat
  value : Phrase .value

def members (offset : Nat) : Phrase (.members behind) → List Member
  | noMember _ => []
  | member lead key colon value rest =>
    let start := offset + Text.byteLength lead.text
    let place := start + Text.byteLength key.text + Text.byteLength colon.text
    ⟨start, key, place, value⟩ :: rest.members (place + Text.byteLength value.text)

def entries (offset : Nat) : Phrase .value → List Member
  | object members => members.members (offset + 1)
  | _ => []

/-- No key is written with an escape, and no object repeats a key. -/
def IsPlain : Phrase kind → Prop
  | word _ _ _ | string _ | noItem _ | noMember _ => True
  | array items => items.IsPlain
  | object members => Distinct members.meaning ∧ members.IsPlain
  | item _ value rest => value.IsPlain ∧ rest.IsPlain
  | member _ key _ value rest => '\\' ∉ key.raw ∧ value.IsPlain ∧ rest.IsPlain

end Phrase

structure Document where
  lead : Blanks
  value : Phrase .value
  trail : Blanks

namespace Document

def text (doc : Document) : List Char := doc.lead.1 ++ (doc.value.text ++ doc.trail.1)

def entries (doc : Document) : List Phrase.Member := doc.value.entries (Text.byteLength doc.lead.1)

end Document

-- ---------------------------------------------------------------------------
-- Words and strings
-- ---------------------------------------------------------------------------

theorem Spells.isWord {value : Json} (h : Spells text value) : ∀ c ∈ text, isWord c := by
  -- not decided: that would go through all characters, not through those of the word
  cases h with
  | null => exact List.all_eq_true.mp rfl
  | true => exact List.all_eq_true.mp rfl
  | false => exact List.all_eq_true.mp rfl
  | number negative h =>
    obtain ⟨rest, offset, offset', hok⟩ := h
    obtain ⟨word, hrest, hword⟩ := readsWord_readNumber negative _ _ _ hok
    obtain rfl := List.append_cancel_right hrest
    cases negative with
    | true => exact List.forall_mem_cons.mpr ⟨rfl, hword⟩
    | false => exact hword

namespace Quoted

theorem body (quoted : Quoted) : Body quoted.raw ∧ ('\\' ∉ quoted.raw → quoted.value.toList = quoted.raw) := by
  obtain ⟨rest, offset, offset', hok⟩ := quoted.taken
  obtain ⟨raw, hrest, hbody, hplain⟩ := stringRest_ok hok
  have hraw : quoted.raw = raw := by simpa using hrest
  rw [hraw]
  exact ⟨hbody, hplain⟩

end Quoted

theorem quoted_of_stringRest (h : stringRest cur = .ok (s, later)) :
    ∃ quoted : Quoted, cur.rest = quoted.raw ++ '"' :: later.rest ∧ quoted.value = s := by
  obtain ⟨raw, hrest, -, -⟩ := stringRest_ok h
  obtain ⟨rest, offset⟩ := cur
  obtain ⟨rest', offset'⟩ := later
  dsimp only at hrest
  subst hrest
  exact ⟨⟨raw, s, rest', offset, offset', by simpa using h⟩, rfl, rfl⟩

-- ---------------------------------------------------------------------------
-- Values
-- ---------------------------------------------------------------------------

/-- What the reader takes is a phrase behind blanks. -/
def ReadsPhrase (item : Reader Json) : Prop :=
  ∀ cur value later, item cur = .ok (value, later) →
    ∃ (blanks : Blanks) (phrase : Phrase .value), cur.rest = blanks.1 ++ (phrase.text ++ later.rest) ∧
      phrase.meaning = value

def Blanks.append (blanks more : Blanks) : Blanks :=
  ⟨blanks.1 ++ more.1, by simpa [or_imp, forall_and] using ⟨blanks.2, more.2⟩⟩

def Blanks.none : Blanks := ⟨[], by simp⟩

section
variable {item : Reader Json} (hitem : ReadsPhrase item)
include hitem

theorem arrayStep_ok (h : arrayStep item done cur = .ok (result, later)) :
    (∃ blanks : Blanks, cur.rest = blanks.1 ++ ']' :: later.rest ∧ result = .inr (.array done.reverse)) ∨
      ∃ (lead : Gap (comma !done.isEmpty)) (value : Phrase .value),
        cur.rest = lead.text ++ (value.text ++ later.rest) ∧ result = .inl (value.meaning :: done) := by
  obtain ⟨c?, mid, hpeek, h⟩ := ok_of_bind h
  obtain ⟨blanks, hrest, hc⟩ := peekToken_ok hpeek
  split at h
  · cases h
  · obtain ⟨_, next, hskip, h⟩ := ok_of_bind h
    cases h
    obtain ⟨rest, hmid⟩ := List.head?_eq_some_iff.mp hc.symm
    exact .inl ⟨blanks, by rw [hrest, hmid, skip_ok hmid hskip], rfl⟩
  · next c _ =>
    obtain ⟨rest, hmid⟩ := List.head?_eq_some_iff.mp hc.symm
    right
    cases done with
    | nil =>
      obtain ⟨value, next, hvalue, h⟩ := ok_of_bind h
      cases h
      obtain ⟨more, phrase, hphrase, rfl⟩ := hitem _ _ _ hvalue
      refine ⟨⟨blanks, more⟩, phrase, ?_, rfl⟩
      simp [Gap.text, comma, hrest, hphrase]
    | cons last done =>
      rw [if_neg (by simp)] at h
      split at h
      · next hcomma =>
        subst hcomma
        obtain ⟨_, next, hskip, h⟩ := ok_of_bind h
        obtain ⟨d?, behind, hpeek', h⟩ := ok_of_bind h
        obtain ⟨blanks', hrest', -⟩ := peekToken_ok hpeek'
        split at h
        · cases h
        · obtain ⟨value, final, hvalue, h⟩ := ok_of_bind h
          cases h
          obtain ⟨more, phrase, hphrase, rfl⟩ := hitem _ _ _ hvalue
          refine ⟨⟨blanks, blanks'.append more⟩, phrase, ?_, rfl⟩
          rw [skip_ok hmid hskip] at hrest'
          simp [Gap.text, comma, Blanks.append, hrest, hmid, hrest', hphrase]
        · cases h
      · cases h

theorem arrayRest_ok (h : arrayRest item cur = .ok (result, later)) :
    ∃ items : Phrase (.items false), cur.rest = items.text ++ later.rest ∧ result = .array items.meaning := by
  refine loop_ok (motive := fun done cur result later => ∃ items : Phrase (.items !done.isEmpty),
    cur.rest = items.text ++ later.rest ∧ result = .array (done.reverse ++ items.meaning)) (fail_ne_ok _) ?_ ?_ [] h
  · intro done cur result later hstep
    obtain ⟨blanks, hrest, hvalue⟩ | ⟨_, _, _, hvalue⟩ := arrayStep_ok hitem hstep
    · cases hvalue
      exact ⟨.noItem blanks, by simp [Phrase.text, hrest], by simp [Phrase.meaning]⟩
    · cases hvalue
  · rintro done cur done' mid result later hstep ⟨items, hitems, rfl⟩
    obtain ⟨_, _, hdone⟩ | ⟨lead, phrase, hrest, hdone⟩ := arrayStep_ok hitem hstep
    · cases hdone
    · cases hdone
      exact ⟨.item lead phrase items, by simp [Phrase.text, hrest, hitems], by simp [Phrase.meaning]⟩

theorem memberRest_ok (hrest : cur.rest = '"' :: rest) (h : memberRest item cur = .ok (member, later)) :
    ∃ (key : Quoted) (colon : Gap (some ':')) (value : Phrase .value),
      cur.rest = key.text ++ (colon.text ++ (value.text ++ later.rest)) ∧ member = (key.value, value.meaning) := by
  obtain ⟨_, mid, hskip, h⟩ := ok_of_bind h
  obtain ⟨s, behind, hkey, h⟩ := ok_of_bind h
  obtain ⟨key, hquoted, rfl⟩ := quoted_of_stringRest hkey
  rw [skip_ok hrest hskip] at hquoted
  obtain ⟨c?, next, hpeek, h⟩ := ok_of_bind h
  obtain ⟨blanks, hblanks, hc⟩ := peekToken_ok hpeek
  split at h
  · obtain ⟨rest', hcolon⟩ := List.head?_eq_some_iff.mp hc.symm
    obtain ⟨_, final, hskip', h⟩ := ok_of_bind h
    obtain ⟨value, last, hvalue, h⟩ := ok_of_bind h
    cases h
    obtain ⟨more, phrase, hphrase, rfl⟩ := hitem _ _ _ hvalue
    refine ⟨key, ⟨blanks, more⟩, phrase, ?_, rfl⟩
    rw [skip_ok hcolon hskip'] at hphrase
    simp [Quoted.text, Gap.text, hrest, hquoted, hblanks, hcolon, hphrase]
  · cases h
  · cases h

theorem objectStep_ok (h : objectStep item done cur = .ok (result, later)) :
    (∃ blanks : Blanks, cur.rest = blanks.1 ++ '\x7d' :: later.rest ∧ result = .inr (.object done.2)) ∨
      ∃ (lead : Gap (comma done.1)) (key : Quoted) (colon : Gap (some ':')) (value : Phrase .value),
        cur.rest = lead.text ++ (key.text ++ (colon.text ++ (value.text ++ later.rest))) ∧
          result = .inl (true, insert key.value value.meaning done.2) := by
  obtain ⟨c?, mid, hpeek, h⟩ := ok_of_bind h
  obtain ⟨blanks, hrest, hc⟩ := peekToken_ok hpeek
  split at h
  · cases h
  · obtain ⟨_, next, hskip, h⟩ := ok_of_bind h
    cases h
    obtain ⟨rest, hmid⟩ := List.head?_eq_some_iff.mp hc.symm
    exact .inl ⟨blanks, by rw [hrest, hmid, skip_ok hmid hskip], rfl⟩
  · next c _ =>
    obtain ⟨rest, hmid⟩ := List.head?_eq_some_iff.mp hc.symm
    right
    obtain ⟨_ | _, members⟩ := done
    · rw [if_pos (by simp)] at h
      split at h
      · next hquote =>
        subst hquote
        obtain ⟨member, next, hmember, h⟩ := ok_of_bind h
        cases h
        obtain ⟨key, colon, phrase, hphrase, rfl⟩ := memberRest_ok hitem hmid hmember
        exact ⟨⟨blanks, .none⟩, key, colon, phrase, by simp [Gap.text, comma, Blanks.none, hrest, hphrase], rfl⟩
      · cases h
    · rw [if_neg (by simp)] at h
      split at h
      · next hcomma =>
        subst hcomma
        obtain ⟨_, next, hskip, h⟩ := ok_of_bind h
        obtain ⟨d?, behind, hpeek', h⟩ := ok_of_bind h
        obtain ⟨blanks', hrest', hd⟩ := peekToken_ok hpeek'
        rw [skip_ok hmid hskip] at hrest'
        split at h
        · obtain ⟨rest', hquote⟩ := List.head?_eq_some_iff.mp hd.symm
          obtain ⟨member, final, hmember, h⟩ := ok_of_bind h
          cases h
          obtain ⟨key, colon, phrase, hphrase, rfl⟩ := memberRest_ok hitem hquote hmember
          refine ⟨⟨blanks, blanks'⟩, key, colon, phrase, ?_, rfl⟩
          simp [Gap.text, comma, hrest, hmid, hrest', hphrase]
        · cases h
        · cases h
        · cases h
      · cases h

theorem objectRest_ok (h : objectRest item cur = .ok (result, later)) :
    ∃ members : Phrase (.members false), cur.rest = members.text ++ later.rest ∧
      result = .object (layer members.meaning []) := by
  refine loop_ok (motive := fun done cur result later => ∃ members : Phrase (.members done.1),
    cur.rest = members.text ++ later.rest ∧ result = .object (layer members.meaning done.2))
    (fail_ne_ok _) ?_ ?_ (false, []) h
  · intro done cur result later hstep
    obtain ⟨blanks, hrest, hvalue⟩ | ⟨_, _, _, _, _, hvalue⟩ := objectStep_ok hitem hstep
    · cases hvalue
      exact ⟨.noMember blanks, by simp [Phrase.text, hrest], rfl⟩
    · cases hvalue
  · rintro done cur done' mid result later hstep ⟨members, hmembers, rfl⟩
    obtain ⟨_, _, hdone⟩ | ⟨lead, key, colon, phrase, hrest, hdone⟩ := objectStep_ok hitem hstep
    · cases hdone
    · cases hdone
      exact ⟨.member lead key colon phrase members, by simp [Phrase.text, hrest, hmembers], rfl⟩

end

theorem name_ok {es : List Char} (hrest : cur.rest = c :: rest)
    (h : (do skip 1; ident es; pure a : Reader α) cur = .ok (b, later)) :
    cur.rest = c :: (es ++ later.rest) ∧ b = a := by
  obtain ⟨_, next, hskip, h⟩ := ok_of_bind h
  obtain ⟨_, last, hident, h⟩ := ok_of_bind h
  obtain ⟨rfl, rfl⟩ := pure_ok h
  have hword := ident_ok hident
  rw [skip_ok hrest hskip] at hword
  exact ⟨by rw [hrest, hword], rfl⟩

theorem number_ok {negative : Bool} (h : (Json.number <$> readNumber negative) cur = .ok (result, later)) :
    ∃ digits, cur.rest = digits ++ later.rest ∧
      Spells ((if negative then ['-'] else []) ++ digits) result := by
  obtain ⟨n, hnumber, rfl⟩ := map_ok h
  obtain ⟨digits, hrest, htaken⟩ := taken_of_ok (advances_readNumber negative cur) hnumber
  exact ⟨digits, hrest, .number negative htaken⟩

theorem readsPhrase_valueWith {nested : Option (Reader Json)} (hnested : ∀ item ∈ nested, ReadsPhrase item) :
    ReadsPhrase (valueWith nested) := by
  intro cur result later h
  obtain ⟨c?, mid, hpeek, h⟩ := ok_of_bind h
  obtain ⟨blanks, hrest, hc⟩ := peekToken_ok hpeek
  refine ⟨blanks, ?_⟩
  simp only [hrest, List.append_cancel_left_eq]
  split at h
  · cases h
  case h_9 =>
    split at h
    · obtain ⟨digits, hmid, hspells⟩ := number_ok h
      exact ⟨.word _ _ hspells, by simp [Phrase.text, hmid], rfl⟩
    · cases h
  all_goals
    obtain ⟨rest, hmid⟩ := List.head?_eq_some_iff.mp hc.symm
  · obtain ⟨hword, rfl⟩ := name_ok hmid h
    exact ⟨.word _ _ .null, hword, rfl⟩
  · obtain ⟨hword, rfl⟩ := name_ok hmid h
    exact ⟨.word _ _ .true, hword, rfl⟩
  · obtain ⟨hword, rfl⟩ := name_ok hmid h
    exact ⟨.word _ _ .false, hword, rfl⟩
  · obtain ⟨_, next, hskip, h⟩ := ok_of_bind h
    obtain ⟨digits, hdigits, hspells⟩ := number_ok h
    rw [skip_ok hmid hskip] at hdigits
    exact ⟨.word _ _ hspells, by simp [Phrase.text, hmid, hdigits], rfl⟩
  · obtain ⟨_, next, hskip, h⟩ := ok_of_bind h
    obtain ⟨s, hstring, rfl⟩ := map_ok h
    obtain ⟨quoted, hquoted, rfl⟩ := quoted_of_stringRest hstring
    rw [skip_ok hmid hskip] at hquoted
    exact ⟨.string quoted, by simp [Phrase.text, Quoted.text, hmid, hquoted], rfl⟩
  · split at h
    · cases h
    · obtain ⟨_, next, hskip, h⟩ := ok_of_bind h
      obtain ⟨items, hitems, rfl⟩ := arrayRest_ok (hnested _ rfl) h
      rw [skip_ok hmid hskip] at hitems
      exact ⟨.array items, by simp [Phrase.text, hmid, hitems], rfl⟩
  · split at h
    · cases h
    · obtain ⟨_, next, hskip, h⟩ := ok_of_bind h
      obtain ⟨members, hmembers, rfl⟩ := objectRest_ok (hnested _ rfl) h
      rw [skip_ok hmid hskip] at hmembers
      exact ⟨.object members, by simp [Phrase.text, hmid, hmembers], rfl⟩

theorem readsPhrase_value (depth : Nat) : ReadsPhrase (value depth) := by
  induction depth with
  | zero => exact readsPhrase_valueWith (by simp)
  | succ depth ih => exact readsPhrase_valueWith (by simpa using ih)

/-- A text that is read is a document of its value. -/
theorem exists_document {text : String} {result : Json} (h : read text = .ok result) :
    ∃ doc : Document, doc.text = text.toList ∧ doc.value.meaning = result := by
  rw [read] at h
  split at h
  · next last hdocument =>
    cases h
    obtain ⟨_, mid, hvalue, hend⟩ := ok_of_bind hdocument
    obtain ⟨c?, final, hpeek, hend⟩ := ok_of_bind hend
    obtain ⟨lead, phrase, hphrase, rfl⟩ := readsPhrase_value depthLimit _ _ _ hvalue
    obtain ⟨trail, htrail, hc⟩ := peekToken_ok hpeek
    split at hend
    · cases hend
      have hlast := List.head?_eq_none_iff.mp hc.symm
      rw [htrail, hlast, List.append_nil] at hphrase
      exact ⟨⟨lead, phrase, trail⟩, hphrase.symm, rfl⟩
    · cases hend
  · cases h

-- ---------------------------------------------------------------------------
-- Members
-- ---------------------------------------------------------------------------

namespace Phrase

variable {member : Member}

theorem map_members (members : Phrase (.members behind)) (offset : Nat) :
    (members.members offset).map (fun member => (member.key.value, member.value.meaning)) = members.meaning := by
  match members with
  | .noMember _ => simp [Phrase.members, meaning]
  | .member lead key colon value more => simp [Phrase.members, meaning, map_members more]

theorem isPlain_of_mem {members : Phrase (.members behind)} (h : member ∈ members.members offset)
    (hplain : members.IsPlain) : '\\' ∉ member.key.raw ∧ member.value.IsPlain := by
  match members with
  | .noMember _ => simp [Phrase.members] at h
  | .member lead key colon value more =>
    obtain ⟨hslash, hvalue, hmore⟩ := hplain
    rw [Phrase.members] at h
    rcases List.mem_cons.mp h with rfl | h
    · exact ⟨hslash, hvalue⟩
    · exact isPlain_of_mem h hmore

theorem isPlain_of_mem_entries {value : Phrase .value} (h : member ∈ value.entries offset)
    (hplain : value.IsPlain) : member.value.IsPlain := by
  cases value with
  | object members => exact (isPlain_of_mem h hplain.2).2
  | word | string | array => cases h

/-- Each member of a plain object is written down. -/
theorem exists_entry {value : Phrase .value} {listed : List (String × Json)} (hplain : value.IsPlain)
    (hmeaning : value.meaning = .object listed) {result : Json} (offset : Nat) (hmem : (key, result) ∈ listed) :
    ∃ entry ∈ value.entries offset, entry.key.value = key ∧ entry.value.meaning = result := by
  cases value with
  | word text value h =>
    subst hmeaning
    cases h
  | string quoted => cases hmeaning
  | array items => cases hmeaning
  | object members =>
    have hlisted : members.meaning = listed := by
      rw [meaning, Json.object.injEq, layer_eq_append (by simpa using hplain.1)] at hmeaning
      exact hmeaning
    rw [← hlisted, ← map_members members (offset + 1)] at hmem
    obtain ⟨entry, hentry, heq⟩ := List.mem_map.mp hmem
    cases heq
    exact ⟨entry, hentry, rfl, rfl⟩

theorem le_start_of_mem {members : Phrase (.members behind)} {offset : Nat} (h : member ∈ members.members offset) :
    offset ≤ member.start ∧ member.start < member.place := by
  match members with
  | .noMember _ => simp [Phrase.members] at h
  | .member lead key colon value more =>
    rw [Phrase.members] at h
    rcases List.mem_cons.mp h with rfl | h
    · refine ⟨Nat.le_add_right _ _, ?_⟩
      have hpos := Text.byteLength_cons_pos '"' (key.raw ++ ['"'])
      dsimp only [Quoted.text]
      omega
    · have hle := le_start_of_mem h
      omega

theorem start_of_mem_entries {value : Phrase .value} (h : member ∈ value.entries offset) :
    offset < member.start ∧ member.start < member.place := by
  cases value with
  | object members => exact le_start_of_mem h
  | word | string | array => cases h

end Phrase

end TsBuild.Json
