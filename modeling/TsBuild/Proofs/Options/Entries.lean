import TsBuild.Options.Basic
import TsBuild.Proofs.Json.Members

/-!
# What the entries of an option set come to

Each entry of a raw object sets an option, is kept, or is rejected by itself. The value of an option is
that of the last entry of its name that reads cleanly (`value_readEntries`, `kept_readEntries`), and the
errors are those of the rejected entries, in the order of the entries (`errors_readEntries`). In a
layered set the upper value wins for options of either kind (`value_layeredOver`, `kept_layeredOver`).
-/

namespace TsBuild

namespace OptionName

theorem text_injective : ∀ name ∈ all, ∀ other ∈ all, name.text = other.text → name = other := by
  decide +kernel

theorem text_inj {name other : OptionName} (h : name.text = other.text) : name = other :=
  text_injective name (mem_all name) other (mem_all other) h

theorem ofText_eq_some {name : OptionName} : ofText? s = some name ↔ s = name.text := by
  unfold ofText?
  constructor
  · intro h
    have htext := List.find?_some h
    exact (of_decide_eq_true htext).symm
  · rintro rfl
    cases h : all.find? fun other => other.text = name.text with
    | none =>
      have hnone := List.find?_eq_none.mp h name (mem_all name)
      simp at hnone
    | some other =>
      have htext := List.find?_some h
      rw [text_inj (of_decide_eq_true htext)]

theorem ofText_passthrough : ∀ s ∈ passthroughNames, ofText? s = none := by
  decide +kernel

end OptionName

namespace OptionSet

variable {options upper lower : OptionSet} {members : List (String × Json)}

def entryValue? (key : String) (value : Json) (name : OptionName) : Option name.Value :=
  if key = name.text then (name.kind.read key value).toOption else none

def entryKept? (key : String) (value : Json) (name : String) : Option Json :=
  if key = name ∧ name ∈ passthroughNames then some value else none

def rejection? (key : String) (value : Json) : Option OptionError :=
  match OptionName.ofText? key with
  | some option =>
    match option.kind.read key value with
    | .ok _ => none
    | .error error => some error
  | none => if key ∈ passthroughNames then none else some (.unknown key)

/-- The value that an option gets from the entries of a raw object: the last one wins. -/
def ownValue? (members : List (String × Json)) (name : OptionName) : Option name.Value :=
  members.reverse.findSome? fun entry => entryValue? entry.1 entry.2 name

def ownKept? (members : List (String × Json)) (name : String) : Option Json :=
  members.reverse.findSome? fun entry => entryKept? entry.1 entry.2 name

def rejections (members : List (String × Json)) : List (String × OptionError) :=
  members.filterMap fun entry => (rejection? entry.1 entry.2).map (entry.1, ·)

def kept? (options : OptionSet) (name : String) : Option Json := options.passthrough.lookup name

def IsDistinct (options : OptionSet) : Prop := Json.Distinct options.passthrough

-- ---------------------------------------------------------------------------
-- Single entries
-- ---------------------------------------------------------------------------

theorem readEntry_option (options : OptionSet) (value : Json) {option : OptionName}
    (h : OptionName.ofText? key = some option) :
    options.readEntry key value = (option.kind.read key value).map (options.set option) := by
  unfold readEntry setJson
  rw [h]
  cases hread : option.kind.read key value with
  | error => simp only [hread]; rfl
  | ok => simp only [hread]; rfl

theorem readEntry_passthrough (h : OptionName.ofText? key = none) (hkept : key ∈ passthroughNames) :
    options.readEntry key value =
      .ok { options with passthrough := Json.insert key value options.passthrough } := by
  unfold readEntry setJson
  rw [h]
  simp [hkept]
  rfl

theorem readEntry_unknown (h : OptionName.ofText? key = none) (hkept : key ∉ passthroughNames) :
    options.readEntry key value = .error (.unknown key) := by
  unfold readEntry setJson
  rw [h]
  simp [hkept]
  rfl

theorem value_set_self (options : OptionSet) (name : OptionName) (value : name.Value) :
    (options.set name value).value? name = some value := by
  simp [set]

theorem value_set_ne (h : name ≠ other) (value : name.Value) :
    (options.set name value).value? other = options.value? other := by
  simp [set, h]

theorem readEntries_ok (h : options.readEntry key value = .ok next) (rest : List (String × Json)) :
    readEntries options ((key, value) :: rest) = readEntries next rest := by
  rw [readEntries, h]

theorem readEntries_error (h : options.readEntry key value = .error error) (rest : List (String × Json)) :
    readEntries options ((key, value) :: rest) =
      ((readEntries options rest).1, (key, error) :: (readEntries options rest).2) := by
  rw [readEntries, h]

/-- An entry changes nothing but the option of its name, or is rejected and changes nothing. -/
theorem readEntries_cons (options : OptionSet) (key : String) (value : Json)
    (rest : List (String × Json)) :
    ∃ next : OptionSet, readEntries options ((key, value) :: rest) =
        ((readEntries next rest).1,
          (rejection? key value).toList.map (key, ·) ++ (readEntries next rest).2) ∧
      (∀ name, next.value? name = (entryValue? key value name <|> options.value? name)) ∧
      (∀ name, next.kept? name = (entryKept? key value name <|> options.kept? name)) ∧
      (options.IsDistinct → next.IsDistinct) := by
  cases hoption : OptionName.ofText? key with
  | some option =>
    obtain rfl := OptionName.ofText_eq_some.mp hoption
    have hkept : ∀ name, entryKept? option.text value name = none := by
      intro name
      refine if_neg ?_
      rintro ⟨rfl, hmem⟩
      rw [OptionName.ofText_passthrough _ hmem] at hoption
      cases hoption
    have hentry := readEntry_option options value hoption
    cases hread : option.kind.read option.text value with
    | ok read =>
      rw [hread] at hentry
      refine ⟨options.set option read, ?_, fun name => ?_, fun name => ?_, id⟩
      · rw [readEntries_ok hentry, rejection?, hoption]
        simp only [hread]
        rfl
      · by_cases hname : option = name
        · subst hname
          rw [value_set_self, entryValue?, if_pos rfl, hread]
          rfl
        · rw [value_set_ne hname, entryValue?, if_neg fun htext => hname (OptionName.text_inj htext)]
          rfl
      · rw [hkept]
        rfl
    | error error =>
      rw [hread] at hentry
      refine ⟨options, ?_, fun name => ?_, fun name => ?_, id⟩
      · rw [readEntries_error hentry, rejection?, hoption]
        simp only [hread]
        rfl
      · unfold entryValue?
        split
        · rename_i htext
          obtain rfl := OptionName.text_inj htext
          rw [hread]
          rfl
        · rfl
      · rw [hkept]
        rfl
  | none =>
    have hvalue : ∀ name : OptionName, entryValue? key value name = none := by
      intro name
      refine if_neg fun htext => ?_
      rw [OptionName.ofText_eq_some.mpr htext] at hoption
      cases hoption
    by_cases hmem : key ∈ passthroughNames
    · refine ⟨{ options with passthrough := Json.insert key value options.passthrough }, ?_,
        fun name => ?_, fun name => ?_, fun h => Json.Distinct.insert h key value⟩
      · rw [readEntries_ok (readEntry_passthrough hoption hmem), rejection?, hoption]
        simp only [hmem, ↓reduceIte]
        rfl
      · rw [hvalue]
        rfl
      · rw [kept?, Json.lookup_insert]
        by_cases hname : name = key
        · rw [if_pos hname, hname, entryKept?, if_pos ⟨rfl, hmem⟩]
          rfl
        · rw [if_neg hname, entryKept?, if_neg fun h => hname h.1.symm]
          rfl
    · refine ⟨options, ?_, fun name => ?_, fun name => ?_, id⟩
      · rw [readEntries_error (readEntry_unknown hoption hmem), rejection?, hoption]
        simp only [hmem, ↓reduceIte]
        rfl
      · rw [hvalue]
        rfl
      · have hkept : ¬(key = name ∧ name ∈ passthroughNames) := fun h => hmem (h.1.symm ▸ h.2)
        rw [entryKept?, if_neg hkept]
        rfl

-- ---------------------------------------------------------------------------
-- All entries
-- ---------------------------------------------------------------------------

theorem ownValue_cons (key : String) (value : Json) (rest : List (String × Json)) (name : OptionName) :
    ownValue? ((key, value) :: rest) name = (ownValue? rest name <|> entryValue? key value name) := by
  rw [ownValue?, List.reverse_cons, List.findSome?_append, List.findSome?_singleton, ← ownValue?]
  cases ownValue? rest name <;> rfl

theorem ownKept_cons (key : String) (value : Json) (rest : List (String × Json)) (name : String) :
    ownKept? ((key, value) :: rest) name = (ownKept? rest name <|> entryKept? key value name) := by
  rw [ownKept?, List.reverse_cons, List.findSome?_append, List.findSome?_singleton, ← ownKept?]
  cases ownKept? rest name <;> rfl

theorem value_readEntries (options : OptionSet) (members : List (String × Json)) (name : OptionName) :
    (readEntries options members).1.value? name = (ownValue? members name <|> options.value? name) := by
  induction members generalizing options with
  | nil => rfl
  | cons entry rest ih =>
    obtain ⟨next, heq, hvalue, -⟩ := readEntries_cons options entry.1 entry.2 rest
    rw [heq, ih, hvalue, ownValue_cons]
    cases ownValue? rest name <;> rfl

theorem kept_readEntries (options : OptionSet) (members : List (String × Json)) (name : String) :
    (readEntries options members).1.kept? name = (ownKept? members name <|> options.kept? name) := by
  induction members generalizing options with
  | nil => rfl
  | cons entry rest ih =>
    obtain ⟨next, heq, -, hkept, -⟩ := readEntries_cons options entry.1 entry.2 rest
    rw [heq, ih, hkept, ownKept_cons]
    cases ownKept? rest name <;> rfl

theorem errors_readEntries (options : OptionSet) (members : List (String × Json)) :
    (readEntries options members).2 = rejections members := by
  induction members generalizing options with
  | nil => rfl
  | cons entry rest ih =>
    obtain ⟨next, heq, -⟩ := readEntries_cons options entry.1 entry.2 rest
    rw [heq, ih, rejections, rejections, List.filterMap_cons]
    cases rejection? entry.1 entry.2 <;> rfl

theorem isDistinct_readEntries (h : options.IsDistinct) (members : List (String × Json)) :
    (readEntries options members).1.IsDistinct := by
  induction members generalizing options with
  | nil => exact h
  | cons member rest ih =>
    obtain ⟨next, heq, -, -, hnext⟩ := readEntries_cons options member.1 member.2 rest
    rw [heq]
    exact ih (hnext h)

def entriesOf (raw : Json) : List (String × Json) := raw.asObject?.getD []

def ownErrors (raw : Json) : List (String × OptionError) :=
  match raw.asObject? with
  | none => [(sectionName, .wrongType sectionName "object")]
  | some members => rejections members

theorem value_ofJson (raw : Json) (name : OptionName) :
    (ofJson raw).1.value? name = ownValue? (entriesOf raw) name := by
  rw [ofJson, entriesOf]
  cases raw.asObject? with
  | none => rfl
  | some members =>
    refine (value_readEntries empty members name).trans ?_
    change (ownValue? members name <|> none) = ownValue? members name
    cases ownValue? members name <;> rfl

theorem kept_ofJson (raw : Json) (name : String) :
    (ofJson raw).1.kept? name = ownKept? (entriesOf raw) name := by
  rw [ofJson, entriesOf]
  cases raw.asObject? with
  | none => rfl
  | some members =>
    refine (kept_readEntries empty members name).trans ?_
    change (ownKept? members name <|> none) = ownKept? members name
    cases ownKept? members name <;> rfl

theorem errors_ofJson (raw : Json) : (ofJson raw).2 = ownErrors raw := by
  rw [ofJson, ownErrors]
  cases raw.asObject? with
  | none => rfl
  | some members => exact errors_readEntries empty members

theorem isDistinct_empty : empty.IsDistinct := List.nodup_nil

theorem isDistinct_ofJson (raw : Json) : (ofJson raw).1.IsDistinct := by
  rw [ofJson]
  cases raw.asObject? with
  | none => exact isDistinct_empty
  | some members => exact isDistinct_readEntries isDistinct_empty members

-- ---------------------------------------------------------------------------
-- Layers
-- ---------------------------------------------------------------------------

theorem value_layeredOver (upper lower : OptionSet) (name : OptionName) :
    (upper.layeredOver lower).value? name = (upper.value? name <|> lower.value? name) := rfl

theorem kept_layeredOver (h : upper.IsDistinct) (lower : OptionSet) (name : String) :
    (upper.layeredOver lower).kept? name = (upper.kept? name <|> lower.kept? name) :=
  Json.lookup_layer h lower.passthrough name

theorem isDistinct_layeredOver (upper : OptionSet) (h : lower.IsDistinct) :
    (upper.layeredOver lower).IsDistinct := Json.Distinct.layer h upper.passthrough

end OptionSet

end TsBuild
