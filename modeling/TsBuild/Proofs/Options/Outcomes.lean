import Mathlib.Logic.ExistsUnique
import TsBuild.Proofs.Options.WriteRead

/-!
# Every entry counts once

An entry of a raw object sets the option of its name, is kept as it is, or is rejected with one error under its
name, and which of these it is depends on the entry alone (`exists_outcome`). The names of the options and of the
entries that are kept do not overlap, so with distinct keys no entry undoes another: what an object is read as
does not depend on the order of its entries (`ofJson_accounts`).
-/

namespace TsBuild.OptionSet

inductive Outcome
  | sets (option : OptionName) (value : option.Value)
  | keeps
  | rejects (error : OptionError)

namespace Outcome

def after (entry : String × Json) (read : OptionSet × List (String × OptionError)) :
    Outcome → OptionSet × List (String × OptionError)
  | sets option value => (read.1.set option value, read.2)
  | keeps => ({ read.1 with passthrough := read.1.passthrough ++ [entry] }, read.2)
  | rejects error => (read.1, read.2 ++ [(entry.1, error)])

/-- An entry sets no option but that of its name, and options are not kept. -/
def Concerns (key : String) : Outcome → Prop
  | sets option _ => key = option.text
  | keeps => key ∈ passthroughNames
  | rejects _ => True

theorem after_inj {entry : String × Json} {read : OptionSet × List (String × OptionError)} {outcome other : Outcome}
    (hconcerns : outcome.Concerns entry.1) (hother : other.Concerns entry.1)
    (h : outcome.after entry read = other.after entry read) : outcome = other := by
  cases outcome with
  | sets option value =>
    cases other with
    | sets option' value' =>
      obtain rfl := OptionName.text_inj (hconcerns.symm.trans hother)
      have hvalue := congrArg (fun read => read.1.value? option) h
      simp only [after, value_set_self, Option.some.injEq] at hvalue
      rw [hvalue]
    | keeps => simpa [after, set] using congrArg (fun read => read.1.passthrough.length) h
    | rejects error => simpa [after] using congrArg (fun read => read.2.length) h
  | keeps =>
    cases other with
    | sets option value => simpa [after, set] using congrArg (fun read => read.1.passthrough.length) h
    | keeps => rfl
    | rejects error => simpa [after] using congrArg (fun read => read.2.length) h
  | rejects error =>
    cases other with
    | sets option value => simpa [after] using congrArg (fun read => read.2.length) h
    | keeps => simpa [after] using congrArg (fun read => read.2.length) h
    | rejects error' => simpa [after] using congrArg Prod.snd h

end Outcome

-- ---------------------------------------------------------------------------
-- One more entry
-- ---------------------------------------------------------------------------

theorem readEntries_append (options : OptionSet) (first last : List (String × Json)) :
    readEntries options (first ++ last) =
      ((readEntries (readEntries options first).1 last).1,
        (readEntries options first).2 ++ (readEntries (readEntries options first).1 last).2) := by
  induction first generalizing options with
  | nil => rfl
  | cons entry rest ih =>
    cases hentry : options.readEntry entry.1 entry.2 with
    | ok next => simp only [List.cons_append, readEntries_ok hentry, ih]
    | error error => simp only [List.cons_append, readEntries_error hentry, ih]

theorem exists_outcome {options : OptionSet} (entry : String × Json) (errors : List (String × OptionError))
    (hnew : entry.1 ∉ options.passthrough.map Prod.fst) :
    ∃ outcome : Outcome, outcome.Concerns entry.1 ∧
      ((readEntries options [entry]).1, errors ++ (readEntries options [entry]).2) =
        outcome.after entry (options, errors) := by
  obtain ⟨key, value⟩ := entry
  cases hoption : OptionName.ofText? key with
  | some option =>
    have hentry := readEntry_option options value hoption
    cases hread : option.kind.read key value with
    | ok read =>
      rw [hread] at hentry
      refine ⟨.sets option read, OptionName.ofText_eq_some.mp hoption, ?_⟩
      rw [readEntries_ok hentry]
      simp [readEntries, Outcome.after]
    | error error =>
      rw [hread] at hentry
      refine ⟨.rejects error, trivial, ?_⟩
      rw [readEntries_error hentry]
      rfl
  | none =>
    by_cases hkept : key ∈ passthroughNames
    · refine ⟨.keeps, hkept, ?_⟩
      rw [readEntries_ok (readEntry_passthrough hoption hkept), Json.insert_of_notMem hnew]
      simp [readEntries, Outcome.after]
    · refine ⟨.rejects (.unknown key), trivial, ?_⟩
      rw [readEntries_error (readEntry_unknown hoption hkept)]
      rfl

-- ---------------------------------------------------------------------------
-- Distinct keys
-- ---------------------------------------------------------------------------

variable {members permuted : List (String × Json)} {name : OptionName}

theorem passthrough_ofJson (h : Json.Distinct members) :
    (ofJson (.object members)).1.passthrough = members.filter fun entry => entry.1 ∈ passthroughNames := by
  have hkept : Json.Distinct ([] ++ members.filter fun entry => entry.1 ∈ passthroughNames) :=
    (List.filter_sublist.map Prod.fst).nodup h
  exact (passthrough_readEntries empty members).trans (Json.layer_eq_append hkept)

theorem errors_ofJson_object (members : List (String × Json)) :
    (ofJson (.object members)).2 = rejections members := errors_ofJson (.object members)

theorem ownValue_eq_none (h : name.text ∉ members.map Prod.fst) : ownValue? members name = none := by
  simp only [ownValue?, List.findSome?_eq_none_iff, List.mem_reverse]
  intro entry hmem
  have hname : entry.1 ≠ name.text := fun heq => h (heq ▸ List.mem_map_of_mem hmem)
  simp [entryValue?, hname]

theorem value_ofJson_iff (h : Json.Distinct members) (value : name.Value) :
    (ofJson (.object members)).1.value? name = some value ↔
      ∃ raw, (name.text, raw) ∈ members ∧ name.kind.read name.text raw = .ok value := by
  rw [value_ofJson, entriesOf, Json.asObject?, Option.getD_some]
  induction members with
  | nil => simp [ownValue?]
  | cons entry rest ih =>
    obtain ⟨key, raw⟩ := entry
    obtain ⟨hkey, hrest⟩ := List.nodup_cons.mp h
    rw [ownValue_cons, entryValue?]
    by_cases hname : key = name.text
    · subst hname
      have hothers (raw' : Json) : (name.text, raw') ∉ rest :=
        fun hmem => hkey (List.mem_map.mpr ⟨_, hmem, rfl⟩)
      cases hread : name.kind.read name.text raw <;>
        simp [ownValue_eq_none hkey, hread, hothers, Except.toOption]
    · simpa [hname, Ne.symm hname] using ih hrest

theorem sublist_names_rejections (members : List (String × Json)) :
    ((rejections members).map Prod.fst).Sublist (members.map Prod.fst) := by
  induction members with
  | nil => exact .slnil
  | cons entry rest ih =>
    rw [rejections, List.filterMap_cons, ← rejections]
    cases rejection? entry.1 entry.2 with
    | none => exact ih.cons entry.1
    | some error => exact ih.cons_cons entry.1

/-- With distinct keys, every entry has one outcome, and it is what the entry adds to what was read before it. An
option has the value of the entry of its name, the kept entries and the errors come in the order of the entries,
and any other order gives the same options, the same kept entries and the same errors. -/
theorem ofJson_accounts (h : Json.Distinct members) :
    (∀ before entry after, members = before ++ entry :: after →
      ∃! outcome : Outcome, outcome.Concerns entry.1 ∧
        ofJson (.object (before ++ [entry])) = outcome.after entry (ofJson (.object before))) ∧
    (∀ (name : OptionName) (value : name.Value), (ofJson (.object members)).1.value? name = some value ↔
      ∃ raw, (name.text, raw) ∈ members ∧ name.kind.read name.text raw = .ok value) ∧
    (ofJson (.object members)).1.passthrough.Sublist members ∧
    ((ofJson (.object members)).2.map Prod.fst).Sublist (members.map Prod.fst) ∧
    ∀ permuted, members.Perm permuted →
      (ofJson (.object permuted)).1.value? = (ofJson (.object members)).1.value? ∧
      (∀ key, (ofJson (.object permuted)).1.kept? key = (ofJson (.object members)).1.kept? key) ∧
      (ofJson (.object members)).1.passthrough.Perm (ofJson (.object permuted)).1.passthrough ∧
      (ofJson (.object members)).2.Perm (ofJson (.object permuted)).2 := by
  refine ⟨?_, fun name => value_ofJson_iff h, ?_, ?_, ?_⟩
  · rintro before entry after rfl
    have hsplit : (before.map Prod.fst ++ entry.1 :: after.map Prod.fst).Nodup := by
      simpa [Json.Distinct] using h
    obtain ⟨hbefore, -, hdisjoint⟩ := List.nodup_append.mp hsplit
    have hnew : entry.1 ∉ (ofJson (.object before)).1.passthrough.map Prod.fst := by
      rw [passthrough_ofJson hbefore]
      intro hmem
      exact hdisjoint _ ((List.filter_sublist.map Prod.fst).subset hmem) _ List.mem_cons_self rfl
    obtain ⟨outcome, hconcerns, hafter⟩ := exists_outcome entry (ofJson (.object before)).2 hnew
    have hread : ofJson (.object (before ++ [entry])) = outcome.after entry (ofJson (.object before)) :=
      (readEntries_append empty before [entry]).trans hafter
    refine ⟨outcome, ⟨hconcerns, hread⟩, ?_⟩
    rintro other ⟨hother, hreadOther⟩
    exact Outcome.after_inj hother hconcerns (hreadOther.symm.trans hread)
  · rw [passthrough_ofJson h]
    exact List.filter_sublist
  · rw [errors_ofJson_object]
    exact sublist_names_rejections members
  · intro permuted hperm
    have hpermuted : Json.Distinct permuted := (hperm.map Prod.fst).nodup h
    have hpassthrough : (ofJson (.object members)).1.passthrough.Perm (ofJson (.object permuted)).1.passthrough := by
      rw [passthrough_ofJson h, passthrough_ofJson hpermuted]
      exact hperm.filter _
    refine ⟨?_, fun key => ?_, hpassthrough, ?_⟩
    · funext name
      refine Option.ext fun value => ?_
      simp only [value_ofJson_iff h, value_ofJson_iff hpermuted, hperm.mem_iff]
    · exact Json.lookup_perm (isDistinct_ofJson _) hpassthrough key
    · rw [errors_ofJson_object, errors_ofJson_object]
      exact hperm.filterMap _

def mixedEntries : List (String × Json) :=
  [("strict", .bool true), ("paths", .object [("a/*", .array [.string "x", .number (.int 1)])]),
    ("newLine", .string "lf"), ("constructor", .null)]

theorem ofJson_accounts_mixedEntries :
    Json.Distinct mixedEntries ∧
      (∃! outcome : Outcome, outcome.Concerns "paths" ∧
        ofJson (.object (mixedEntries.take 2)) =
          outcome.after mixedEntries[1] (ofJson (.object (mixedEntries.take 1)))) ∧
      (ofJson (.object mixedEntries)).2.Perm (ofJson (.object mixedEntries.reverse)).2 ∧
      (ofJson (.object mixedEntries)).2.map Prod.fst = ["paths", "constructor"] := by
  have hdistinct : (mixedEntries.map Prod.fst).Nodup := by decide +kernel
  obtain ⟨houtcome, -, -, -, hpermuted⟩ := ofJson_accounts hdistinct
  obtain ⟨-, -, -, herrors⟩ := hpermuted mixedEntries.reverse (List.reverse_perm _).symm
  exact ⟨hdistinct, houtcome (mixedEntries.take 1) mixedEntries[1] (mixedEntries.drop 2) rfl, herrors,
    by decide +kernel⟩

end TsBuild.OptionSet
