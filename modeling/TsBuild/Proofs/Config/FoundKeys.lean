import TsBuild.Proofs.Config.OptionKeys

/-!
# Own and foreign keys

In a text whose keys are written without escapes and are not repeated, a path of one or two names finds the quoted key
that it leads to, and nothing if there is none in the object, wherever else the same text stands (`find_addressed`).
If the first name leads to a value without brackets, the second one is looked for in the first brackets behind it
(`find_bracketed_iff`), so that a key of another object can be found (`find_foreign`).
-/

namespace TsBuild.Config

open Json (Phrase Document)
open Key (Span)
open Text (byteLength)

variable {piece more text : List Char} {place : Nat} {member : Phrase.Member} {doc : Document}

-- ---------------------------------------------------------------------------
-- Where members stand
-- ---------------------------------------------------------------------------

theorem StandsAt.append {offset : Nat} (h : StandsAt (piece ++ more) offset text) :
    StandsAt piece offset text ∧ StandsAt more (offset + byteLength piece) text := by
  obtain ⟨before, after, rfl, rfl⟩ := h
  exact ⟨⟨before, more ++ after, by simp, rfl⟩, before ++ piece, after, by simp, Text.byteLength_append _ _⟩

theorem standsAt_of_mem {members : Phrase (.members behind)} {offset : Nat} (h : StandsAt members.text offset text)
    (hmem : member ∈ members.members offset) :
    StandsAt member.key.text member.start text ∧ StandsAt member.value.text member.place text := by
  match members with
  | .noMember _ => simp [Phrase.members] at hmem
  | .member lead key colon value more =>
    rw [Phrase.text] at h
    obtain ⟨-, h⟩ := h.append
    obtain ⟨hkey, h⟩ := h.append
    obtain ⟨-, h⟩ := h.append
    obtain ⟨hvalue, hmore⟩ := h.append
    rw [Phrase.members] at hmem
    rcases List.mem_cons.mp hmem with rfl | hmem
    · exact ⟨hkey, hvalue⟩
    · exact standsAt_of_mem hmore hmem

theorem standsAt_of_mem_entries {value : Phrase .value} (h : StandsAt value.text place text)
    (hmem : member ∈ value.entries place) :
    StandsAt member.key.text member.start text ∧ StandsAt member.value.text member.place text := by
  cases value with
  | object members =>
    have hbrace : StandsAt (['\x7b'] ++ members.text) place text := h
    exact standsAt_of_mem hbrace.append.2 hmem
  | word | string | array => cases hmem

theorem standsAt_of_mem_document (hmem : member ∈ doc.entries) :
    StandsAt member.key.text member.start doc.text ∧ StandsAt member.value.text member.place doc.text := by
  have hvalue : StandsAt doc.value.text (byteLength doc.lead.1) doc.text := ⟨doc.lead.1, doc.trail.1, rfl, rfl⟩
  exact standsAt_of_mem_entries hvalue hmem

namespace Key

variable {text : String} {value : Json} {listed : List (String × Json)} {path : List String} {name key : String}
  {members : List Phrase.Member} {span : Span}

-- ---------------------------------------------------------------------------
-- Own keys
-- ---------------------------------------------------------------------------

structure IsKeySpan (text : String) (member : Phrase.Member) (span : Span) : Prop where
  span_eq : span = ⟨member.start, byteLength member.key.text⟩
  standsAt : StandsAt member.key.text member.start text.toList

/-- Of these members the path finds the key of the one with the name, and nothing if there is none. -/
structure FindsAmong (text : String) (path : List String) (name : String) (members : List Phrase.Member) : Prop where
  found : ∀ member ∈ members, member.key.value = name →
    ∃ span, find? text path = some span ∧ IsKeySpan text member span
  absent : (∀ member ∈ members, member.key.value ≠ name) → find? text path = none

theorem findsAmong_of_lookup (hfind : find? text path = lookup [name] members)
    (hnodup : (members.map fun member => member.key.value).Nodup)
    (hstands : ∀ member ∈ members, StandsAt member.key.text member.start text.toList) :
    FindsAmong text path name members where
  found := by
    rintro member hmem rfl
    exact ⟨spanOf member, by rw [hfind, lookup_last hnodup hmem], rfl, hstands member hmem⟩
  absent := by
    intro habsent
    rw [hfind, lookup_of_absent habsent]

/-- A path of one name finds the key of the member of that name, a path of two names that of the member of the object
that the first one names, and nothing is found in place of a member that is not there. -/
theorem find_addressed (hread : Json.read text = .ok (.object listed)) :
    (∃ doc : Document, doc.text = text.toList ∧ doc.value.meaning = .object listed) ∧
      ∀ doc : Document, doc.text = text.toList → doc.value.meaning = .object listed → doc.value.IsPlain →
        ∀ name, FindsAmong text [name] name doc.entries ∧ ∀ key,
          (∀ outer ∈ doc.entries, outer.key.value = name → ∀ members, outer.value = .object members →
            FindsAmong text [name, key] key (outer.value.entries outer.place)) ∧
          ((∀ outer ∈ doc.entries, outer.key.value ≠ name) → find? text [name, key] = none) := by
  refine ⟨Json.exists_document hread, ?_⟩
  intro doc htext _ hplain name
  have hnodup : (doc.entries.map fun member => member.key.value).Nodup := nodup_keys hplain _
  have hfind := find_eq_lookup htext hplain name
  refine ⟨findsAmong_of_lookup (hfind []) hnodup ?_, ?_⟩
  · intro member hmem
    rw [← htext]
    exact (standsAt_of_mem_document hmem).1
  intro key
  refine ⟨?_, ?_⟩
  · rintro outer houter rfl members hobject
    have hbracketed : isBracketed outer.value = true := by
      rw [hobject]
      rfl
    refine findsAmong_of_lookup ?_ (nodup_keys (Phrase.isPlain_of_mem_entries houter hplain) _) ?_
    · rw [hfind, lookup_bracketed hnodup houter hbracketed]
    · intro entry hentry
      rw [← htext]
      exact (standsAt_of_mem_entries (standsAt_of_mem_document houter).2 hentry).1
  · intro habsent
    rw [hfind, lookup_of_absent habsent]

def listedBeside : String := "\x7b\"include\":[\"module\"],\"compilerOptions\":\x7b\"module\":true\x7d\x7d"

def besideDocument : Document where
  lead := .none
  value := .object
    (.member ⟨.none, .none⟩ ⟨"include".toList, "include", [], 0, 8, by decide +kernel⟩ ⟨.none, .none⟩
      (.array (.item ⟨.none, .none⟩
        (.string ⟨"module".toList, "module", [], 0, 7, by decide +kernel⟩) (.noItem .none)))
    (.member ⟨.none, .none⟩
      ⟨"compilerOptions".toList, "compilerOptions", [], 0, 16, by decide +kernel⟩ ⟨.none, .none⟩
      (.object (.member ⟨.none, .none⟩
        ⟨"module".toList, "module", [], 0, 7, by decide +kernel⟩ ⟨.none, .none⟩
        (.word _ _ .true) (.noMember .none)))
    (.noMember .none)))
  trail := .none

theorem find_addressed_beside :
    Json.read listedBeside =
        .ok (.object [("include", .array [.string "module"]), ("compilerOptions", .object [("module", .bool true)])]) ∧
      besideDocument.text = listedBeside.toList ∧ besideDocument.value.IsPlain ∧
      FindsAmong listedBeside ["module"] "module" besideDocument.entries ∧
      (∀ outer ∈ besideDocument.entries, outer.key.value = "compilerOptions" →
        ∀ members, outer.value = .object members →
          FindsAmong listedBeside ["compilerOptions", "module"] "module" (outer.value.entries outer.place)) ∧
      find? listedBeside ["module"] = none ∧
      find? listedBeside ["compilerOptions", "module"] = some ⟨41, 8⟩ := by
  have hread : Json.read listedBeside =
      .ok (.object [("include", .array [.string "module"]), ("compilerOptions", .object [("module", .bool true)])]) := by
    decide +kernel
  have htext : besideDocument.text = listedBeside.toList := by decide +kernel
  have hplain : besideDocument.value.IsPlain := by
    simp +decide [besideDocument, Phrase.IsPlain, Json.Distinct]
  have hfinds := (find_addressed hread).2 besideDocument htext rfl hplain
  exact ⟨hread, htext, hplain, (hfinds "module").1, ((hfinds "compilerOptions").2 "module").1,
    by decide +kernel, by decide +kernel⟩

-- ---------------------------------------------------------------------------
-- Foreign keys
-- ---------------------------------------------------------------------------

/-- The span is that of a key of the value of the member. -/
def IsKeyIn (text key : String) (span : Span) (member : Phrase.Member) : Prop :=
  ∃ entry ∈ member.value.entries member.place, entry.key.value = key ∧ IsKeySpan text entry span

theorem isBracketed_of_isKeyIn (h : IsKeyIn text key span member) : isBracketed member.value = true := by
  obtain ⟨entry, hentry, -⟩ := h
  exact isBracketed_of_mem_entries hentry

theorem lookup_iff_isKeyIn (hplain : doc.value.IsPlain) (htext : doc.text = text.toList)
    (hmem : member ∈ doc.entries) :
    lookup [key] (member.value.entries member.place) = some span ↔ IsKeyIn text key span member := by
  have hstands := (standsAt_of_mem_document hmem).2
  rw [htext] at hstands
  rw [lookup_one_iff (nodup_keys (Phrase.isPlain_of_mem_entries hmem hplain) _)]
  constructor
  · rintro ⟨entry, hentry, hkey, hspan⟩
    exact ⟨entry, hentry, hkey, hspan, (standsAt_of_mem_entries hstands hentry).1⟩
  · rintro ⟨entry, hentry, hkey, hspan, -⟩
    exact ⟨entry, hentry, hkey, hspan⟩

/-- The second name of a path finds a key in the first brackets from the member of the first name on. This is a key of
the value of that member exactly if the value has brackets. -/
theorem find_bracketed_iff (hread : Json.read text = .ok value) :
    (∃ doc : Document, doc.text = text.toList ∧ doc.value.meaning = value) ∧
      ∀ doc : Document, doc.text = text.toList → doc.value.meaning = value → doc.value.IsPlain → ∀ name key span,
        (find? text [name, key] = some span ↔
          ∃ before outer behind holder, doc.entries = before ++ outer :: behind ∧ outer.key.value = name ∧
            holder? (outer :: behind) = some holder ∧ IsKeyIn text key span holder) ∧
        ∀ outer ∈ doc.entries, outer.key.value = name → find? text [name, key] = some span →
          (IsKeyIn text key span outer ↔ isBracketed outer.value = true) := by
  refine ⟨Json.exists_document hread, ?_⟩
  intro doc htext _ hplain name key span
  have hnodup : (doc.entries.map fun member => member.key.value).Nodup := nodup_keys hplain _
  have hfind := find_eq_lookup htext hplain name [key]
  refine ⟨?_, ?_⟩
  · rw [hfind, lookup_two_iff hnodup]
    have hiff {before outer behind holder} (hentries : doc.entries = before ++ outer :: behind)
        (hholder : holder? (outer :: behind) = some holder) :
        lookup [key] (holder.value.entries holder.place) = some span ↔ IsKeyIn text key span holder := by
      have hmem : holder ∈ doc.entries := by
        rw [hentries]
        exact List.mem_append_right _ (List.mem_of_find?_eq_some hholder)
      exact lookup_iff_isKeyIn hplain htext hmem
    constructor
    · rintro ⟨before, outer, behind, holder, hentries, hname, hholder, hlookup⟩
      exact ⟨before, outer, behind, holder, hentries, hname, hholder, (hiff hentries hholder).mp hlookup⟩
    · rintro ⟨before, outer, behind, holder, hentries, hname, hholder, hkey⟩
      exact ⟨before, outer, behind, holder, hentries, hname, hholder, (hiff hentries hholder).mpr hkey⟩
  · rintro outer houter rfl hfound
    refine ⟨isBracketed_of_isKeyIn, ?_⟩
    intro hbracketed
    rw [hfind, lookup_bracketed hnodup houter hbracketed] at hfound
    exact (lookup_iff_isKeyIn hplain htext houter).mp hfound

def optionBehind : String := "\x7b\"compilerOptions\":null,\"other\":\x7b\"bogus\":true\x7d\x7d"

def behindDocument : Document where
  lead := .none
  value := .object
    (.member ⟨.none, .none⟩ ⟨"compilerOptions".toList, "compilerOptions", [], 0, 16, by decide +kernel⟩ ⟨.none, .none⟩
      (.word _ _ .null)
    (.member ⟨.none, .none⟩ ⟨"other".toList, "other", [], 0, 6, by decide +kernel⟩ ⟨.none, .none⟩
      (.object (.member ⟨.none, .none⟩ ⟨"bogus".toList, "bogus", [], 0, 6, by decide +kernel⟩ ⟨.none, .none⟩
        (.word _ _ .true) (.noMember .none)))
    (.noMember .none)))
  trail := .none

theorem find_optionBehind :
    Json.read optionBehind = .ok (.object [("compilerOptions", .null), ("other", .object [("bogus", .bool true)])]) ∧
      behindDocument.text = optionBehind.toList ∧ behindDocument.value.IsPlain ∧
      find? optionBehind ["compilerOptions", "bogus"] = some ⟨33, 7⟩ := by
  refine ⟨by decide +kernel, by decide +kernel, ?_, by decide +kernel⟩
  simp +decide [behindDocument, Phrase.IsPlain, Json.Distinct]

theorem find_bracketed_iff_behind :
    Json.read optionBehind = .ok (.object [("compilerOptions", .null), ("other", .object [("bogus", .bool true)])]) ∧
      behindDocument.text = optionBehind.toList ∧ behindDocument.value.IsPlain ∧
      find? optionBehind ["compilerOptions", "bogus"] = some ⟨33, 7⟩ ∧
      ∃ before outer behind holder, behindDocument.entries = before ++ outer :: behind ∧
        outer.key.value = "compilerOptions" ∧ holder? (outer :: behind) = some holder ∧
        IsKeyIn optionBehind "bogus" ⟨33, 7⟩ holder := by
  obtain ⟨hread, htext, hplain, hfound⟩ := find_optionBehind
  have hiff := ((find_bracketed_iff hread).2 behindDocument htext rfl hplain "compilerOptions" "bogus" ⟨33, 7⟩).1
  exact ⟨hread, htext, hplain, hfound, hiff.mp hfound⟩

/-- A key that is found is not always one of the object that the first name leads to. -/
theorem find_foreign :
    ¬∀ (text : String) (value : Json) (doc : Document), Json.read text = .ok value → doc.text = text.toList →
      doc.value.meaning = value → doc.value.IsPlain → ∀ name key span, find? text [name, key] = some span →
        ∃ outer ∈ doc.entries, outer.key.value = name ∧ (∃ members, outer.value = .object members) ∧
          IsKeyIn text key span outer := by
  intro hall
  obtain ⟨hread, htext, hplain, hfound⟩ := find_optionBehind
  obtain ⟨outer, houter, hname, ⟨members, hobject⟩, -⟩ :=
    hall optionBehind _ behindDocument hread htext rfl hplain "compilerOptions" "bogus" ⟨33, 7⟩ hfound
  simp only [Document.entries, behindDocument, Phrase.entries, Phrase.members, List.mem_cons, List.not_mem_nil,
    or_false] at houter
  rcases houter with rfl | rfl
  · cases hobject
  · exact absurd hname (by decide)

end Key

end TsBuild.Config
