import Mathlib.Data.List.Forall2
import TsBuild.Proofs.Config.KeyLookup
import TsBuild.Proofs.Config.Lexemes
import TsBuild.Proofs.Options.Outcomes

/-!
# Rejected options at their keys

Strings are not blanked, so a key that the scan finds in the blanked text stands at the same bytes of the text as
it was written (`Key.standsAt_of_find`). An option of a configuration file that is rejected is therefore reported
at its own key, but for one that is named like the section of the options: that name stands for the section itself,
and its error is reported there (`rejected_isAtKey`, `rejected_atSection`).
-/

namespace TsBuild.Config

open Comments
open Json (Phrase Document)
open Key (Span)
open Text (byteLength)

-- ---------------------------------------------------------------------------
-- Strings are not blanked
-- ---------------------------------------------------------------------------

namespace Comments

def Region.next : Region → Char → Region
  | .quoted, c => if c = '\\' then .escaped else if c = '"' then .plain else .quoted
  | .escaped, _ => .quoted
  | _, c => if c = '"' then .quoted else .plain

/-- The second text is the first from a region on, with some characters blanked outside of strings. -/
inductive BlankedOutside : Region → List Char → List Char → Prop
  | nil {region : Region} : BlankedOutside region [] []
  | keep (region : Region) (c : Char) : BlankedOutside (region.next c) as bs →
      BlankedOutside region (c :: as) (c :: bs)
  | blank (c : Char) : BlankedOutside .plain as bs → BlankedOutside .plain (c :: as) (blank c ++ bs)

theorem blankedOutside (region : Region) (cs : List Char) :
    BlankedOutside region.outside cs (blankCommas region.outside (blankComments region cs)) := by
  fun_induction blankComments region cs with
  | case1 region => exact .nil
  | case2 c cs ih =>
    rw [outside_quoted] at ih
    exact .keep .quoted c ih
  | case3 c cs ih => exact .keep .escaped c ih
  | case4 cs ih => exact .keep .plain '\n' ih
  | case5 c cs _ ih =>
    rw [Region.outside, blankCommas_blanks fun _ => isBlank_of_mem_blank]
    exact ih.blank c
  | case6 cs ih =>
    rw [Region.outside, blankCommas_space, blankCommas_space]
    exact (ih.blank '/').blank '*'
  | case7 c cs _ ih =>
    rw [Region.outside, blankCommas_blanks fun _ => isBlank_of_mem_blank]
    exact ih.blank c
  | case8 cs ih =>
    rw [Region.outside, blankCommas_space, blankCommas_space]
    exact (ih.blank '/').blank '/'
  | case9 cs ih =>
    rw [Region.outside, blankCommas_space, blankCommas_space]
    exact (ih.blank '*').blank '/'
  | case10 c cs hline hblock ih =>
    rw [outside_plain] at ih
    by_cases hcomma : (c = ',' && closesNext (blankComments .plain cs)) = true
    · simp only [Bool.and_eq_true, decide_eq_true_eq] at hcomma
      obtain ⟨rfl, hcloses⟩ := hcomma
      rw [Region.outside, if_neg (by decide), blankCommas_comma hcloses]
      exact ih.blank ','
    · -- only a comma can be blanked by the second scan
      have hkeep : (c = ',' && closesNext (blankComments (if c = '"' then .quoted else .plain) cs)) = false := by
        by_cases hc : c = ','
        · subst hc
          simpa using hcomma
        · simp [hc]
      rw [Region.outside, blankCommas_plain hkeep]
      exact .keep .plain c ih

theorem blankedOutside_strip (text : String) : BlankedOutside .plain text.toList (strip text).toList := by
  rw [strip, String.toList_ofList]
  exact blankedOutside .plain text.toList

end Comments

-- ---------------------------------------------------------------------------
-- What the scan finds stands in the text
-- ---------------------------------------------------------------------------

def StandsAt (piece : List Char) (offset : Nat) (text : List Char) : Prop :=
  ∃ before after, text = before ++ (piece ++ after) ∧ byteLength before = offset

def quote (name : List Char) : List Char := '"' :: (name ++ ['"'])

namespace Key

/-- Behind some characters a scan stands in this region, and holds what it has read of a string since its quote. -/
inductive Reads : List Char → Region → Option Quoted → Prop
  | plain (front : List Char) : Reads front .plain none
  | quoted (before done : List Char) :
      Reads (before ++ '"' :: done.reverse) .quoted (some ⟨byteLength before, done, false⟩)
  | escaped (before done : List Char) :
      Reads (before ++ '"' :: done.reverse) .escaped (some ⟨byteLength before, done, true⟩)

variable {path : List (List Char)} {depth matched : Nat} {front as bs : List Char} {region : Region}
  {inside : Option Quoted} {span : Span}

theorem Reads.quoted_snoc (before done : List Char) (c : Char) :
    Reads (before ++ '"' :: done.reverse ++ [c]) .quoted (some ⟨byteLength before, c :: done, false⟩) := by
  simpa using Reads.quoted before (c :: done)

theorem Reads.escaped_snoc (before done : List Char) (c : Char) :
    Reads (before ++ '"' :: done.reverse ++ [c]) .escaped (some ⟨byteLength before, c :: done, true⟩) := by
  simpa using Reads.escaped before (c :: done)

/-- What the scan finds: the last key of the path, in quotes and just behind `before`. -/
def Finds (path : List (List Char)) (span : Span) (text : List Char) : Prop :=
  ∃ before key, path.getLast? = some key ∧ text = before ++ quote key ∧
    span = ⟨byteLength before, byteLength (quote key)⟩

theorem finds_or_scan_of_close {before done : List Char}
    (hscan : scan path (byteLength (before ++ '"' :: done.reverse)) depth matched
      (some ⟨byteLength before, done, false⟩) ('"' :: bs) = some span) :
    Finds path span (before ++ '"' :: done.reverse ++ ['"']) ∨
      ∃ matched, scan path (byteLength (before ++ '"' :: done.reverse) + 1) depth matched none bs = some span := by
  rw [scan_close] at hscan
  split at hscan
  · next hkey =>
    split at hscan
    · next hlast =>
      simp only [Bool.and_eq_true, decide_eq_true_eq] at hkey
      refine .inl ⟨before, done.reverse, ?_, by simp [quote], ?_⟩
      · rw [List.getLast?_eq_getElem?, ← hlast, Nat.add_sub_cancel, hkey.2]
      · rw [← Option.some.inj hscan, Span.mk.injEq]
        refine ⟨rfl, ?_⟩
        have hsize : ('"' : Char).utf8Size = 1 := rfl
        rw [quote, byteLength_quoted, Text.byteLength_append, byteLength, hsize]
        omega
    · exact .inr ⟨_, hscan⟩
  · exact .inr ⟨_, hscan⟩

theorem Reads.step (h : Reads front region inside)
    (hscan : scan path (byteLength front) depth matched inside (c :: bs) = some span) :
    Finds path span (front ++ [c]) ∨
      ∃ depth matched inside, Reads (front ++ [c]) (region.next c) inside ∧
        scan path (byteLength (front ++ [c])) depth matched inside bs = some span := by
  have hnext : byteLength (front ++ [c]) = byteLength front + c.utf8Size := Text.byteLength_append front [c]
  rw [hnext]
  cases h with
  | plain =>
    right
    by_cases hquote : c = '"'
    · subst hquote
      exact ⟨_, _, _, .quoted front [], hscan⟩
    · have hregion : Region.plain.next c = .plain := if_neg hquote
      rw [hregion]
      simp only [scan, if_neg hquote] at hscan
      split at hscan
      · exact ⟨_, _, _, .plain _, hscan⟩
      · split at hscan
        · split at hscan
          · cases hscan
          · exact ⟨_, _, _, .plain _, hscan⟩
        · exact ⟨_, _, _, .plain _, hscan⟩
  | quoted before done =>
    rw [Region.next]
    by_cases hescape : c = '\\'
    · subst hescape
      exact .inr ⟨_, _, _, .escaped_snoc before done '\\', hscan⟩
    · by_cases hquote : c = '"'
      · subst hquote
        obtain hfinds | ⟨matched, hscan⟩ := finds_or_scan_of_close hscan
        · exact .inl hfinds
        · exact .inr ⟨_, _, _, .plain _, hscan⟩
      · simp only [scan, Bool.false_eq_true, if_false, if_neg hescape, if_neg hquote] at hscan
        rw [if_neg hescape, if_neg hquote]
        exact .inr ⟨_, _, _, .quoted_snoc before done c, hscan⟩
  | escaped before done => exact .inr ⟨_, _, _, .quoted_snoc before done c, hscan⟩

/-- What the scan finds in the blanked text stands in the text. -/
theorem standsAt_of_scan (hblanked : BlankedOutside region as bs) (h : Reads front region inside)
    (hscan : scan path (byteLength front) depth matched inside bs = some span) :
    ∃ key, path.getLast? = some key ∧ StandsAt (quote key) span.start (front ++ as) ∧
      span.length = byteLength (quote key) := by
  -- the scan reads the blanked text; the text before its place is taken from the other one
  induction hblanked generalizing front inside depth matched with
  | nil => cases hscan
  | keep region c _ ih =>
    obtain ⟨before, key, hkey, hbefore, rfl⟩ | ⟨_, _, _, hreads, hscan⟩ := h.step hscan
    · exact ⟨key, hkey, ⟨before, _, by rw [List.append_cons, hbefore, List.append_assoc], rfl⟩, rfl⟩
    · rw [List.append_cons]
      exact ih hreads hscan
  | @blank as bs c _ ih =>
    cases h
    have hidle : ∀ b ∈ blank c, IsIdle b := fun b hb => isIdle_of_isBlank (isBlank_of_mem_blank hb)
    have hnext : byteLength front + byteLength (blank c) = byteLength (front ++ [c]) := by
      rw [byteLength_blank, Text.byteLength_append]
      rfl
    rw [scan_idle hidle, hnext] at hscan
    rw [List.append_cons]
    exact ih (.plain _) hscan

theorem standsAt_of_find {text name : String} {names : List String} {start length : Nat}
    (h : find? (strip text) names = some ⟨start, length⟩) (hname : names.getLast? = some name) :
    StandsAt (quote name.toList) start text.toList ∧ length = byteLength (quote name.toList) := by
  obtain ⟨key, hkey, hstands, hlength⟩ := standsAt_of_scan (blankedOutside_strip text) (.plain []) h
  rw [List.getLast?_map, hname, Option.map_some, Option.some.injEq] at hkey
  subst hkey
  exact ⟨hstands, hlength⟩

end Key

-- ---------------------------------------------------------------------------
-- Rejected options
-- ---------------------------------------------------------------------------

/-- The rejected option is a member of the section, its quoted name stands in the file where the member begins, and
this is where the diagnostic points; for an option with the name of the section it points at the section. -/
def IsAtKey (file : SourceFile) (outer : Phrase.Member) (rejected : String × OptionError) (diagnostic : Diagnostic) :
    Prop :=
  ∃ entry ∈ outer.value.entries outer.place, entry.key.value = rejected.1 ∧
    StandsAt (quote rejected.1.toList) entry.start file.text.toList ∧ outer.start < entry.start ∧
    diagnostic = (Diagnostic.error rejected.2.code rejected.2.message).pointingAt file
      (if rejected.1 = OptionSet.sectionName then outer.start else entry.start)
      (byteLength (quote rejected.1.toList))

variable {name text : String} {members entries : List (String × Json)} {file : SourceFile}

theorem parse_eq_ok_iff :
    parse name text = .ok (value, file) ↔ Json.read (strip text) = .ok value ∧ file = ⟨name, text⟩ := by
  constructor
  · intro h
    rw [parse] at h
    split at h
    · next hread =>
      cases h
      exact ⟨hread, rfl⟩
    · cases h
  · rintro ⟨hread, rfl⟩
    rw [parse, hread]

theorem atKey_of_find {path : List String} {start length : Nat}
    (h : Key.find? (strip file.text) path = some ⟨start, length⟩) (diagnostic : Diagnostic) :
    atKey diagnostic path file = diagnostic.pointingAt file start length := by
  rw [atKey, h]

theorem isAtKey_optionDiagnostic (file : SourceFile) {doc : Document} {outer : Phrase.Member}
    (hdoc : doc.text = (strip file.text).toList) (hplain : doc.value.IsPlain) (houter : outer ∈ doc.entries)
    (hkey : outer.key.value = OptionSet.sectionName) (hentries : outer.value.meaning = .object entries)
    {rejected : String × OptionError} (hrejected : rejected ∈ OptionSet.rejections entries) :
    IsAtKey file outer rejected (optionDiagnostic (some file) rejected.1 rejected.2) := by
  have hname : rejected.1 ∈ entries.map Prod.fst :=
    (OptionSet.sublist_names_rejections entries).subset (List.mem_map_of_mem hrejected)
  obtain ⟨⟨_, value⟩, hmem, rfl⟩ := List.mem_map.mp hname
  obtain ⟨entry, hentry, hvalue, -⟩ :=
    Phrase.exists_entry (Phrase.isPlain_of_mem_entries houter hplain) hentries outer.place hmem
  obtain ⟨hfind, hfinds⟩ := Key.find_entry hdoc hplain houter
  have hfound := hfinds entry hentry
  rw [hkey] at hfind hfound
  rw [hvalue] at hfound
  have hlast : [OptionSet.sectionName, rejected.1].getLast? = some rejected.1 := rfl
  obtain ⟨hstands, hlength⟩ := Key.standsAt_of_find hfound hlast
  have hbefore := (Phrase.start_of_mem_entries houter).2
  have hbehind := (Phrase.start_of_mem_entries hentry).1
  refine ⟨entry, hentry, hvalue, hstands, Nat.lt_trans hbefore hbehind, ?_⟩
  -- the name of the section is looked for one key short of the option
  by_cases hsection : rejected.1 = OptionSet.sectionName
  · have hlast : [OptionSet.sectionName].getLast? = some OptionSet.sectionName := rfl
    have hlength := (Key.standsAt_of_find hfind hlast).2
    rw [optionDiagnostic, if_pos hsection, if_pos hsection, Option.elim_some, atKey_of_find hfind, hlength, hsection]
  · rw [optionDiagnostic, if_neg hsection, if_neg hsection, Option.elim_some, atKey_of_find hfound, hlength]

/-- A rejected option of a configuration without escapes and repetitions in its keys is reported at its own key, but
for one that is named like the section: that is reported at the section. -/
theorem rejected_isAtKey (hparse : parse name text = .ok (.object members, file))
    (hsection : members.lookup OptionSet.sectionName = some (.object entries)) :
    (∃ doc : Document, doc.text = (strip text).toList ∧ doc.value.meaning = .object members) ∧
      ∀ doc : Document, doc.text = (strip text).toList → doc.value.meaning = .object members → doc.value.IsPlain →
        ∃ outer ∈ doc.entries, outer.key.value = OptionSet.sectionName ∧ outer.value.meaning = .object entries ∧
          List.Forall₂ (IsAtKey file outer) (OptionSet.ofJson (.object entries)).2
            (readOptions (.object entries) (some file)).2 := by
  obtain ⟨hread, rfl⟩ := parse_eq_ok_iff.mp hparse
  refine ⟨Json.exists_document hread, ?_⟩
  intro doc hdoc hmeaning hplain
  have hmember : (OptionSet.sectionName, .object entries) ∈ members := by
    obtain ⟨before, after, rfl, -⟩ := List.lookup_eq_some_iff.mp hsection
    simp
  obtain ⟨outer, houter, hkey, hentries⟩ :=
    Phrase.exists_entry hplain hmeaning (byteLength doc.lead.1) hmember
  refine ⟨outer, houter, hkey, hentries, ?_⟩
  rw [readOptions, List.forall₂_map_right_iff, OptionSet.errors_ofJson_object, List.forall₂_same]
  intro rejected hrejected
  exact isAtKey_optionDiagnostic ⟨name, text⟩ hdoc hplain houter hkey hentries hrejected

def sectionWith (option : Json.Quoted) (trail : Json.Blanks) : Document where
  lead := .none
  value := .object (.member ⟨.none, .none⟩
    ⟨OptionSet.sectionName.toList, OptionSet.sectionName, [], 0, 16, by decide +kernel⟩ ⟨.none, .none⟩
    (.object (.member ⟨.none, .none⟩ option ⟨.none, .none⟩ (.word _ _ .true) (.noMember trail)))
    (.noMember .none))
  trail := .none

theorem isPlain_sectionWith {option : Json.Quoted} (h : '\\' ∉ option.raw) (trail : Json.Blanks) :
    (sectionWith option trail).value.IsPlain := by
  refine ⟨?_, by decide +kernel, ⟨?_, h, trivial, trivial⟩, trivial⟩ <;> simp [Json.Distinct, Phrase.meaning]

def misspelt : SourceFile where
  name := "tsconfig.json"
  text := "\x7b\"compilerOptions\":\x7b\"tarjet\":true,\x7d\x7d"

def misspeltEntries : List (String × Json) := [("tarjet", .bool true)]

def misspeltDocument : Document :=
  sectionWith ⟨"tarjet".toList, "tarjet", [], 0, 7, by decide +kernel⟩ ⟨[' '], List.all_eq_true.mp rfl⟩

theorem rejected_isAtKey_misspelt :
    parse misspelt.name misspelt.text =
        .ok (.object [(OptionSet.sectionName, .object misspeltEntries)], misspelt) ∧
      misspeltDocument.text = (strip misspelt.text).toList ∧ misspeltDocument.value.IsPlain ∧
      (OptionSet.ofJson (.object misspeltEntries)).2.map Prod.fst = ["tarjet"] ∧
      ∃ outer ∈ misspeltDocument.entries,
        List.Forall₂ (IsAtKey misspelt outer) (OptionSet.ofJson (.object misspeltEntries)).2
          (readOptions (.object misspeltEntries) (some misspelt)).2 := by
  have hparse : parse misspelt.name misspelt.text =
      .ok (.object [(OptionSet.sectionName, .object misspeltEntries)], misspelt) :=
    parse_eq_ok_iff.mpr ⟨by decide +kernel, rfl⟩
  have htext : misspeltDocument.text = (strip misspelt.text).toList := by decide +kernel
  have hplain : misspeltDocument.value.IsPlain := isPlain_sectionWith (by decide +kernel) _
  obtain ⟨outer, houter, -, -, hrejected⟩ := (rejected_isAtKey hparse rfl).2 misspeltDocument htext rfl hplain
  exact ⟨hparse, htext, hplain, by decide +kernel, outer, houter, hrejected⟩

def repeated : SourceFile where
  name := "tsconfig.json"
  text := "\x7b\"compilerOptions\":\x7b\"compilerOptions\":true\x7d\x7d"

def repeatedEntries : List (String × Json) := [(OptionSet.sectionName, .bool true)]

def repeatedDocument : Document :=
  sectionWith ⟨OptionSet.sectionName.toList, OptionSet.sectionName, [], 0, 16, by decide +kernel⟩ .none

theorem rejected_atSection :
    parse repeated.name repeated.text =
        .ok (.object [(OptionSet.sectionName, .object repeatedEntries)], repeated) ∧
      repeatedDocument.text = (strip repeated.text).toList ∧ repeatedDocument.value.IsPlain ∧
      (OptionSet.ofJson (.object repeatedEntries)).2.map Prod.fst = [OptionSet.sectionName] ∧
      (repeatedDocument.entries.flatMap fun outer => outer.value.entries outer.place).map Phrase.Member.start =
        [20] ∧
      (readOptions (.object repeatedEntries) (some repeated)).2.map Diagnostic.start = [some 1] := by
  have hparse : parse repeated.name repeated.text =
      .ok (.object [(OptionSet.sectionName, .object repeatedEntries)], repeated) :=
    parse_eq_ok_iff.mpr ⟨by decide +kernel, rfl⟩
  refine ⟨hparse, by decide +kernel, isPlain_sectionWith (by decide +kernel) _, ?_, ?_, ?_⟩ <;> decide +kernel

end TsBuild.Config
