import TsBuild.Proofs.Options.Entries

/-!
# An option set that is written is read back

Every value is read from the form it is written in (`read_write`), whatever the spelling it came by. A set also
keeps entries without a meaning; it is read back as long as these have valid names and none has two
(`IsClean`), and every way to come by a set sees to that (`Reachable.isClean`). So reading what was written gives
the set again, with the kept entries in their order (`ofJson_toJson`).
-/

namespace TsBuild

-- ---------------------------------------------------------------------------
-- Values
-- ---------------------------------------------------------------------------

namespace Options

theorem parse_target (t : Target) : Enumerated.parse? t.text = some t := by
  cases t <;> decide +kernel

theorem parse_module (m : ModuleKind) : Enumerated.parse? m.text = some m := by
  cases m <;> decide +kernel

theorem parse_moduleResolution (m : ModuleResolution) : Enumerated.parse? m.text = some m := by
  cases m <;> decide +kernel

theorem parse_jsx (mode : JsxMode) : Enumerated.parse? mode.text = some mode := by
  cases mode <;> decide +kernel

theorem readEnumerated_string [Enumerated α] {a : α} (h : Enumerated.parse? s = some a) (name : String) :
    readEnumerated name (.string s) = .ok a := by
  simp [readEnumerated, Json.asString?, h]

theorem mapM_string {read : Json → Except OptionError String} (h : ∀ s, read (.string s) = .ok s)
    (items : List String) : (items.map Json.string).mapM read = .ok items := by
  induction items with
  | nil => rfl
  | cons item rest ih =>
    simp only [List.map_cons, List.mapM_cons, h, ih]
    rfl

theorem readList_strings (name : String) (items : List String) :
    readList name (.array (items.map .string)) = .ok items :=
  mapM_string (fun _ => rfl) items

theorem readPaths_object (name : String) (patterns : List (String × List String)) :
    readPaths name (.object (patterns.map fun (pattern, targets) =>
      (pattern, .array (targets.map .string)))) = .ok patterns := by
  have htargets : ∀ pattern targets, readSubstitutions pattern (.array (targets.map .string)) = .ok targets :=
    fun _ targets => mapM_string (fun _ => rfl) targets
  simp only [readPaths, Json.asObject?]
  induction patterns with
  | nil => rfl
  | cons entry rest ih =>
    simp only [List.map_cons, List.mapM_cons, htargets, ih]
    rfl

end Options

theorem OptionKind.read_write (kind : OptionKind) (name : String) (value : kind.Value) :
    kind.read name (kind.write value) = .ok value := by
  cases kind with
  | flag | text => rfl
  | list => exact Options.readList_strings name value
  | paths => exact Options.readPaths_object name value
  | target => exact Options.readEnumerated_string (Options.parse_target value) name
  | module => exact Options.readEnumerated_string (Options.parse_module value) name
  | moduleResolution => exact Options.readEnumerated_string (Options.parse_moduleResolution value) name
  | jsx => exact Options.readEnumerated_string (Options.parse_jsx value) name

namespace OptionSet

-- ---------------------------------------------------------------------------
-- Entries that are written
-- ---------------------------------------------------------------------------

def written? (options : OptionSet) (name : OptionName) : Option (String × Json) :=
  (options.value? name).map fun value => (name.text, name.kind.write value)

theorem toJson_eq (options : OptionSet) :
    options.toJson = .object (OptionName.all.filterMap options.written? ++ options.passthrough) := rfl

section
variable {options upper lower : OptionSet} {members : List (String × Json)}

theorem ownValue_append (first last : List (String × Json)) (name : OptionName) :
    ownValue? (first ++ last) name = (ownValue? last name <|> ownValue? first name) := by
  rw [ownValue?, List.reverse_append, List.findSome?_append]
  cases h : last.reverse.findSome? fun entry => entryValue? entry.1 entry.2 name <;> simp [ownValue?, h]

theorem rejections_append (first last : List (String × Json)) :
    rejections (first ++ last) = rejections first ++ rejections last := List.filterMap_append

theorem ownValue_written (options : OptionSet) (names : List OptionName) (name : OptionName) :
    ownValue? (names.filterMap options.written?) name = if name ∈ names then options.value? name else none := by
  induction names with
  | nil => rfl
  | cons first rest ih =>
    cases hvalue : options.value? first with
    | none =>
      have hfirst : options.written? first = none := by simp [written?, hvalue]
      rw [List.filterMap_cons_none hfirst, ih]
      by_cases hname : name = first
      · subst hname
        simp [hvalue]
      · simp [hname]
    | some value =>
      have hfirst : options.written? first = some (first.text, first.kind.write value) := by
        simp [written?, hvalue]
      rw [List.filterMap_cons_some hfirst, ownValue_cons, ih]
      by_cases hname : name = first
      · subst hname
        simp only [entryValue?, ↓reduceIte, OptionKind.read_write, List.mem_cons, true_or, hvalue]
        split <;> rfl
      · have htext : first.text ≠ name.text := fun h => hname (OptionName.text_inj h).symm
        simp [entryValue?, htext, hname]

theorem rejections_written (options : OptionSet) (names : List OptionName) :
    rejections (names.filterMap options.written?) = [] := by
  simp only [rejections, List.filterMap_filterMap, List.filterMap_eq_nil_iff]
  intro name _
  cases hvalue : options.value? name with
  | none => simp [written?, hvalue]
  | some value =>
    have hname := OptionName.ofText_eq_some.mpr (Eq.refl name.text)
    simp [written?, hvalue, rejection?, hname, OptionKind.read_write]

def KeepsOnly (members : List (String × Json)) : Prop :=
  ∀ key ∈ members.map Prod.fst, key ∈ passthroughNames

theorem ownValue_kept (h : KeepsOnly members) (name : OptionName) : ownValue? members name = none := by
  simp only [ownValue?, List.findSome?_eq_none_iff, List.mem_reverse]
  intro entry hmem
  have hnone := OptionName.ofText_passthrough _ (h entry.1 (List.mem_map_of_mem hmem))
  have htext : entry.1 ≠ name.text := by
    intro heq
    simp [OptionName.ofText_eq_some.mpr heq] at hnone
  simp [entryValue?, htext]

theorem rejections_kept (h : KeepsOnly members) : rejections members = [] := by
  simp only [rejections, List.filterMap_eq_nil_iff]
  intro entry hmem
  have hkey := h entry.1 (List.mem_map_of_mem hmem)
  simp [rejection?, OptionName.ofText_passthrough _ hkey, hkey]

-- ---------------------------------------------------------------------------
-- Entries that are kept
-- ---------------------------------------------------------------------------

/-- The entries of valid names without a meaning are kept, each in the place of its name. -/
theorem passthrough_readEntries (options : OptionSet) (members : List (String × Json)) :
    (readEntries options members).1.passthrough =
      Json.layer (members.filter fun entry => entry.1 ∈ passthroughNames) options.passthrough := by
  induction members generalizing options with
  | nil => rfl
  | cons entry rest ih =>
    obtain ⟨key, value⟩ := entry
    cases hoption : OptionName.ofText? key with
    | some option =>
      have hkey : key ∉ passthroughNames := by
        intro hmem
        rw [OptionName.ofText_passthrough _ hmem] at hoption
        cases hoption
      have hentry := readEntry_option options value hoption
      cases hread : option.kind.read key value with
      | ok read =>
        rw [hread] at hentry
        rw [readEntries_ok hentry, ih]
        simp [hkey, set]
      | error error =>
        rw [hread] at hentry
        rw [readEntries_error hentry]
        simp [ih, hkey]
    | none =>
      by_cases hkey : key ∈ passthroughNames
      · rw [readEntries_ok (readEntry_passthrough hoption hkey), ih]
        simp [hkey, Json.layer]
      · rw [readEntries_error (readEntry_unknown hoption hkey)]
        simp [ih, hkey]

/-- Each kept entry has a valid name of its own. -/
structure IsClean (options : OptionSet) : Prop where
  distinct : options.IsDistinct
  valid : KeepsOnly options.passthrough

theorem isClean_of_nil (h : options.passthrough = []) : options.IsClean where
  distinct := by simp [IsDistinct, Json.Distinct, h]
  valid := by simp [KeepsOnly, h]

theorem isClean_ofJson (raw : Json) : (ofJson raw).1.IsClean where
  distinct := isDistinct_ofJson raw
  valid := by
    rw [ofJson]
    cases raw.asObject? with
    | none => simp [KeepsOnly, empty]
    | some members =>
      intro key hkey
      rw [passthrough_readEntries] at hkey
      rcases Json.mem_keys_layer hkey with hkey | hkey
      · obtain ⟨entry, hentry, rfl⟩ := List.mem_map.mp hkey
        simpa using (List.mem_filter.mp hentry).2
      · cases hkey

theorem IsClean.layeredOver (hupper : upper.IsClean) (hlower : lower.IsClean) :
    (upper.layeredOver lower).IsClean where
  distinct := isDistinct_layeredOver upper hlower.distinct
  valid := by
    intro key hkey
    rcases Json.mem_keys_layer hkey with hkey | hkey
    · exact hupper.valid key hkey
    · exact hlower.valid key hkey

-- ---------------------------------------------------------------------------
-- Reading what was written
-- ---------------------------------------------------------------------------

theorem IsClean.distinct_written (h : options.IsClean) :
    Json.Distinct (OptionName.all.filterMap options.written? ++ options.passthrough) := by
  have hwritten : ∀ names : List OptionName,
      ((names.filterMap options.written?).map Prod.fst).Sublist (names.map OptionName.text) := by
    intro names
    induction names with
    | nil => exact .slnil
    | cons name rest ih =>
      cases hvalue : options.value? name with
      | none => simpa [written?, hvalue] using ih.cons name.text
      | some value => simpa [written?, hvalue] using ih.cons_cons name.text
  rw [Json.Distinct, List.map_append, List.nodup_append]
  refine ⟨(hwritten _).nodup (by decide +kernel), h.distinct, fun key hkey other hother heq => ?_⟩
  obtain ⟨name, -, rfl⟩ := List.mem_map.mp ((hwritten _).subset hkey)
  have hnone := OptionName.ofText_passthrough _ (h.valid other hother)
  rw [← heq, OptionName.ofText_eq_some.mpr rfl] at hnone
  cases hnone

theorem IsClean.reads_back (h : options.IsClean) : ofJson options.toJson = (options, []) := by
  have hvalue : (ofJson options.toJson).1.value? = options.value? := by
    funext name
    rw [value_ofJson, toJson_eq, entriesOf, Json.asObject?, Option.getD_some, ownValue_append,
      ownValue_kept h.valid, ownValue_written, if_pos (OptionName.mem_all name)]
    rfl
  have hpassthrough : (ofJson options.toJson).1.passthrough = options.passthrough := by
    have hnone : (OptionName.all.filterMap options.written?).filter (fun entry => entry.1 ∈ passthroughNames) =
        [] := by
      simp only [List.filter_eq_nil_iff, List.mem_filterMap, decide_eq_true_eq]
      rintro entry ⟨name, -, hentry⟩ hkey
      obtain ⟨value, -, rfl⟩ := Option.map_eq_some_iff.mp hentry
      have hoption := OptionName.ofText_passthrough _ hkey
      rw [OptionName.ofText_eq_some.mpr rfl] at hoption
      cases hoption
    have hall : options.passthrough.filter (fun entry => entry.1 ∈ passthroughNames) = options.passthrough :=
      List.filter_eq_self.mpr fun entry hmem => by simpa using h.valid entry.1 (List.mem_map_of_mem hmem)
    change (readEntries empty (OptionName.all.filterMap options.written? ++ options.passthrough)).1.passthrough = _
    rw [passthrough_readEntries, List.filter_append, hnone, hall, List.nil_append]
    exact Json.layer_eq_append h.distinct
  have herrors : (ofJson options.toJson).2 = [] := by
    rw [errors_ofJson, toJson_eq]
    simp only [ownErrors, Json.asObject?]
    rw [rejections_append, rejections_written, rejections_kept h.valid, List.append_nil]
  refine Prod.ext ?_ herrors
  cases hread : (ofJson options.toJson).1 with
  | mk value? passthrough =>
    rw [hread] at hvalue hpassthrough
    subst hvalue hpassthrough
    rfl

-- ---------------------------------------------------------------------------
-- Sets that are come by
-- ---------------------------------------------------------------------------

def afterSet (options : OptionSet) (name : String) (value : Json) : OptionSet :=
  match options.setJson name value with
  | .ok (some next) => next
  | _ => options

theorem passthrough_afterSet (options : OptionSet) (name : String) (value : Json) :
    (options.afterSet name value).passthrough = options.passthrough := by
  unfold afterSet setJson
  cases OptionName.ofText? name with
  | none => rfl
  | some option =>
    cases hread : option.kind.read name value with
    | error => simp only [hread]; rfl
    | ok => simp only [hread]; rfl

end

/-- The sets that can be come by: from none or the baseline by setting options, whether the values are taken or
not, by reading raw objects and by layering. -/
inductive Reachable : OptionSet → Prop
  | empty : Reachable empty
  | baseline : Reachable baseline
  | set (h : Reachable options) (name : String) (value : Json) : Reachable (options.afterSet name value)
  | read (raw : Json) : Reachable (ofJson raw).1
  | layered (hupper : Reachable upper) (hlower : Reachable lower) : Reachable (upper.layeredOver lower)

section
variable {options : OptionSet}

theorem Reachable.isClean (h : Reachable options) : options.IsClean := by
  induction h with
  | empty => exact isClean_of_nil rfl
  | baseline => exact isClean_of_nil rfl
  | @set options _ name value ih =>
    have hkept := passthrough_afterSet options name value
    constructor
    · rw [IsDistinct, hkept]
      exact ih.distinct
    · rw [hkept]
      exact ih.valid
  | read raw => exact isClean_ofJson raw
  | layered _ _ hupper hlower => exact hupper.layeredOver hlower

/-- A set is written as an object that names each option once. It is read back as it is, without an error; so
what reading and writing make of a raw value is not changed by doing it again. -/
theorem ofJson_toJson (h : Reachable options) :
    (∃ members, options.toJson = .object members ∧ Json.Distinct members) ∧
      ofJson options.toJson = (options, []) ∧
      ∀ raw, (ofJson (ofJson raw).1.toJson).1.toJson = (ofJson raw).1.toJson := by
  refine ⟨⟨_, toJson_eq options, h.isClean.distinct_written⟩, h.isClean.reads_back, fun raw => ?_⟩
  rw [(isClean_ofJson raw).reads_back]

end

def mixed : OptionSet :=
  ((ofJson (.object [("target", .string "ES6"), ("newLine", .string "lf"), ("strict", .null),
      ("paths", .object [("b/*", .array [.string "x"]), ("a/*", .array [])]), ("locale", .null)])).1.layeredOver
    baseline).afterSet "jsx" (.string "react-JSX")

theorem ofJson_toJson_mixed :
    Reachable mixed ∧ ofJson mixed.toJson = (mixed, []) ∧ (mixed.value? .target).map Target.text = some "es2015" ∧
      mixed.passthrough.map Prod.fst = ["newLine", "locale"] := by
  have hreachable : Reachable mixed := .set (.layered (.read _) .baseline) _ _
  obtain ⟨-, hread, -⟩ := ofJson_toJson hreachable
  exact ⟨hreachable, hread, by decide +kernel, by decide +kernel⟩

end OptionSet

end TsBuild
