import TsBuild.Config.Resolve
import TsBuild.Proofs.Config.Layers
import TsBuild.Proofs.FileTree.Files
import TsBuild.Proofs.Path.Ending

/-!
# What configurations mean

The main statement is `resolve_layered`: what a configuration below an absolute directory comes to is
the one layer that `Expands` gives it, in which each option has the value of the file itself or else of
the last of its bases that has one, and the errors are those of `extends`, of the bases in order and of
the file. `Expands` has no bound on the depth; that the bound of `expand` is enough is
`expands_expandTo`. What a text is parsed to and what a base is called are taken as they are.
-/

namespace TsBuild.Config

-- ---------------------------------------------------------------------------
-- Bases and their layers
-- ---------------------------------------------------------------------------

structure Base where
  path : String
  config : Json
  file : SourceFile

/-- The base that a specifier stands for while the files of `stack` are expanded, or the error that is
all it contributes. -/
def findBase (fs : FileSystem) (dir : String) (file : SourceFile) (stack : List String) (spec : String) :
    Except Diagnostic Base :=
  match resolveBase? fs dir spec with
  | none => .error (atKey (.error 6053 ("File '" ++ spec ++ "' not found.")) ["extends"] file)
  | some path =>
    if path ∈ stack then
      let chain := " -> ".intercalate (stack ++ [path])
      .error (atKey
        (.error 18000 ("Circularity detected while resolving configuration: " ++ chain)) ["extends"] file)
    else
      match fs.readText path with
      | .error error => .error (.error 5083 ("Cannot read file '" ++ path ++ "': " ++ error.message ++ "."))
      | .ok text => (parse path text).map fun (config, file) => ⟨path, config, file⟩

def contribution (found : Except Diagnostic Base) (inner : Layer) : Layer :=
  match found with
  | .error error => .failed error
  | .ok base => { inner with files := base.path :: inner.files }

def directory (basePath : String) (file : SourceFile) : String := (Path.parent? file.name).getD basePath

def rootError (file : SourceFile) : Diagnostic :=
  (Diagnostic.error 5092 "The root value of a 'tsconfig.json' file must be an object.").within file

def extendsError (file : SourceFile) : Diagnostic :=
  atKey (.error 5024 "Compiler option 'extends' requires a value of type string or Array.") ["extends"] file

/-- The bases that an `extends` entry names, and the errors of the entry itself: a text is one base, and of an array
the texts are bases in order. What is no text is one error, however much of it there is. -/
inductive NamesBases (file : SourceFile) : Option Json → List String → List Diagnostic → Prop
  | absent : NamesBases file none [] []
  | text : NamesBases file (some (.string spec)) [spec] []
  | texts : NamesBases file (some (.array (specs.map .string))) specs []
  | mixed (hspecs : items.filter (· matches .string _) = specs.map .string) (hitem : item ∈ items)
      (hother : ∀ text, item ≠ .string text) : NamesBases file (some (.array items)) specs [extendsError file]
  | other (htext : ∀ text, value ≠ .string text) (harray : ∀ items, value ≠ .array items) :
      NamesBases file (some value) [] [extendsError file]

theorem filter_isString (items : List Json) :
    items.filter (· matches .string _) = (items.filterMap Json.asString?).map .string := by
  induction items with
  | nil => rfl
  | cons item rest ih => cases item <;> simp [List.filterMap_cons, Json.asString?, ih]

theorem length_texts_iff {items : List Json} :
    (items.filterMap Json.asString?).length = items.length ↔ ∀ item ∈ items, ∃ text, item = .string text := by
  rw [← List.length_map (f := Json.string), ← filter_isString, List.length_filter_eq_length_iff]
  refine forall₂_congr fun item _ => ?_
  cases item <;> simp

theorem extendsEntry_eq_iff :
    extendsEntry file value? = (specs, malformed) ↔ NamesBases file value? specs malformed := by
  constructor
  · intro h
    unfold extendsEntry at h
    split at h
    · cases h
      exact .absent
    · cases h
      exact .text
    · rename_i items
      have hfilter := filter_isString items
      simp only [Prod.mk.injEq] at h
      obtain ⟨rfl, rfl⟩ := h
      split
      · rename_i hlength
        have hall : ∀ item ∈ items, (item matches .string _) = true := fun item hitem => by
          obtain ⟨text, rfl⟩ := length_texts_iff.mp hlength item hitem
          rfl
        rw [List.filter_eq_self.mpr hall] at hfilter
        nth_rewrite 1 [hfilter]
        exact .texts
      · rename_i hlength
        have hother := mt length_texts_iff.mpr hlength
        push Not at hother
        obtain ⟨item, hitem, hother⟩ := hother
        exact .mixed hfilter hitem hother
    · rename_i htext harray
      cases h
      exact .other htext harray
  · intro h
    cases h with
    | absent | text => rfl
    | texts =>
      have hspecs : (specs.map Json.string).filterMap Json.asString? = specs := by
        rw [List.filterMap_map]
        exact List.filterMap_some
      simp only [extendsEntry, hspecs, List.length_map, ↓reduceIte]
    | @mixed items item _ hspecs hitem hother =>
      rw [filter_isString] at hspecs
      have hsame := List.map_injective_iff.mpr (fun _ _ => Json.string.inj) hspecs
      have hlength : (items.filterMap Json.asString?).length ≠ items.length := fun hlength => by
        obtain ⟨text, htext⟩ := length_texts_iff.mp hlength item hitem
        exact hother text htext
      rw [hsame] at hlength
      simp only [extendsEntry, hsame, hlength, ↓reduceIte]
      rfl
    | @other value htext harray =>
      cases value with
      | string text => exact absurd rfl (htext text)
      | array items => exact absurd rfl (harray items)
      | null | bool | number | object => rfl

theorem NamesBases.unique (h : NamesBases file value? specs malformed)
    (h' : NamesBases file value? others errors) : specs = others ∧ malformed = errors := by
  have hsame := (extendsEntry_eq_iff.mpr h).symm.trans (extendsEntry_eq_iff.mpr h')
  exact Prod.mk.injEq .. ▸ hsame

theorem exists_namesBases (file : SourceFile) (value? : Option Json) :
    ∃ specs malformed, NamesBases file value? specs malformed :=
  ⟨_, _, extendsEntry_eq_iff.mp rfl⟩

/-- The layer of a configuration while the files of a stack are expanded, itself among them. -/
inductive Expands (fs : FileSystem) (basePath : String) : Json → SourceFile → List String → Layer → Prop
  | notObject (h : config.asObject? = none) :
      Expands fs basePath config file stack (.failed (rootError file))
  | object (h : config.asObject? = some members)
      (hspecs : NamesBases file (members.lookup "extends") specs malformed)
      (inner : String → Layer)
      (hbases : ∀ spec ∈ specs, ∀ base,
        findBase fs (directory basePath file) file stack spec = .ok base →
        Expands fs basePath base.config base.file (stack ++ [base.path]) (inner spec)) :
      Expands fs basePath config file stack
        ((Layer.own (members.lookup OptionSet.sectionName) file).onto malformed
          (specs.map fun spec =>
            contribution (findBase fs (directory basePath file) file stack spec) (inner spec)))

theorem Expands.unique (h : Expands fs basePath config file stack layer)
    (h' : Expands fs basePath config file stack other) : layer = other := by
  induction h generalizing other with
  | notObject hroot =>
    cases h' with
    | notObject => rfl
    | object hroot' =>
      rw [hroot] at hroot'
      cases hroot'
  | object hroot hspecs inner hbases ih =>
    cases h' with
    | notObject hroot' =>
      rw [hroot] at hroot'
      cases hroot'
    | object hroot' hspecs' inner' hbases' =>
      rw [hroot, Option.some.injEq] at hroot'
      subst hroot'
      obtain ⟨rfl, rfl⟩ := hspecs.unique hspecs'
      congr 1
      refine List.map_congr_left fun spec hmem => ?_
      cases hfound : findBase fs _ _ _ spec with
      | error => rfl
      | ok base => rw [ih spec hmem base hfound (hbases' spec hmem base hfound)]

-- ---------------------------------------------------------------------------
-- One level of an expansion
-- ---------------------------------------------------------------------------

section
variable {fs : FileSystem} {expand : Json → SourceFile → List String → Expansion}

theorem expandBase_eq (dir : String) (file : SourceFile) (stack : List String) (spec : String) :
    expandBase fs expand dir file stack spec =
      match findBase fs dir file stack spec with
      | .error error => .failed error
      | .ok base =>
        let expansion := expand base.config base.file (stack ++ [base.path])
        { expansion with files := base.path :: expansion.files } := by
  unfold expandBase findBase
  cases resolveBase? fs dir spec with
  | none => rfl
  | some path =>
    by_cases hstack : path ∈ stack
    · simp only [List.contains_iff_mem.mpr hstack, hstack, ↓reduceIte]
    · simp only [hstack, List.contains_iff_mem, ↓reduceIte]
      cases fs.readText path with
      | error => rfl
      | ok text =>
        cases hparse : parse path text <;> simp only [hparse, Except.map]

theorem isDistinct_failed (error : Diagnostic) : (Expansion.failed error).IsDistinct :=
  OptionSet.isDistinct_empty

theorem isDistinct_ofErrors (errors : List Diagnostic) :
    Expansion.IsDistinct { Expansion.empty with errors } := OptionSet.isDistinct_empty

theorem isDistinct_expandBase (h : ∀ config file stack, (expand config file stack).IsDistinct)
    (dir : String) (file : SourceFile) (stack : List String) (spec : String) :
    (expandBase fs expand dir file stack spec).IsDistinct := by
  rw [expandBase_eq]
  cases findBase fs dir file stack spec with
  | error error => exact isDistinct_failed error
  | ok base => exact h base.config base.file (stack ++ [base.path])

def ownExpansion (raw? : Option Json) (file : SourceFile) : Expansion :=
  match raw? with
  | some raw => ⟨(readOptions raw (some file)).1, (readOptions raw (some file)).2, []⟩
  | none => .empty

theorem isDistinct_ownExpansion (raw? : Option Json) (file : SourceFile) :
    (ownExpansion raw? file).IsDistinct := by
  cases raw? with
  | none => exact OptionSet.isDistinct_empty
  | some raw => exact OptionSet.isDistinct_ofJson raw

theorem layer_ownExpansion (raw? : Option Json) (file : SourceFile) :
    (ownExpansion raw? file).layer = Layer.own raw? file := by
  cases raw? with
  | none => rfl
  | some raw =>
    have hvalue := funext (OptionSet.value_ofJson raw)
    have hkept := funext (OptionSet.kept_ofJson raw)
    have hread : readOptions raw (some file) = ((OptionSet.ofJson raw).1,
        (OptionSet.ofJson raw).2.map fun wrong => optionDiagnostic (some file) wrong.1 wrong.2) := rfl
    simp only [ownExpansion, hread, Expansion.layer, Layer.own, hvalue, hkept, OptionSet.errors_ofJson]

theorem expandWith_object {config : Json} (hroot : config.asObject? = some members)
    (hspecs : NamesBases file (members.lookup "extends") specs malformed) :
    expandWith fs expand basePath config file stack =
      (specs.foldl (fun (inherited : Expansion) spec =>
          inherited.then' (expandBase fs expand (directory basePath file) file stack spec))
        { Expansion.empty with errors := malformed }).then'
        (ownExpansion (members.lookup OptionSet.sectionName) file) := by
  unfold expandWith
  simp only [hroot, extendsEntry_eq_iff.mpr hspecs]
  cases members.lookup OptionSet.sectionName <;> rfl

theorem isDistinct_expandWith (basePath : String) (config : Json) (file : SourceFile)
    (stack : List String) : (expandWith fs expand basePath config file stack).IsDistinct := by
  cases hroot : config.asObject? with
  | none =>
    unfold expandWith
    rw [hroot]
    exact isDistinct_failed _
  | some members =>
    obtain ⟨specs, malformed, hspecs⟩ := exists_namesBases file (members.lookup "extends")
    rw [expandWith_object hroot hspecs]
    exact Expansion.isDistinct_then (Expansion.isDistinct_foldl _ (isDistinct_ofErrors _)) _

theorem layer_expandWith (h : ∀ config file stack, (expand config file stack).IsDistinct)
    {config : Json} (hroot : config.asObject? = some members)
    (hspecs : NamesBases file (members.lookup "extends") specs malformed) :
    (expandWith fs expand basePath config file stack).layer =
      (Layer.own (members.lookup OptionSet.sectionName) file).onto malformed
        (specs.map fun spec => (expandBase fs expand (directory basePath file) file stack spec).layer) := by
  have hfiles : ∀ raw?, (Layer.own raw? file).files = [] := fun raw? => by cases raw? <;> rfl
  rw [expandWith_object hroot hspecs, Expansion.layer_then _ (isDistinct_ownExpansion _ _),
    Expansion.layer_foldl (isDistinct_expandBase h _ file stack), layer_ownExpansion,
    Layer.onto_eq (hfiles _)]
  rfl

theorem isDistinct_expandTo (basePath : String) (depth : Nat) (config : Json) (file : SourceFile)
    (stack : List String) : (expandTo fs basePath depth config file stack).IsDistinct := by
  cases depth with
  | zero => exact OptionSet.isDistinct_empty
  | succ depth => exact isDistinct_expandWith basePath config file stack

end

-- ---------------------------------------------------------------------------
-- The files that bases are
-- ---------------------------------------------------------------------------

theorem resolveBase_normal {fs : FileSystem} (hdir : Path.isAbsolute dir = true)
    (h : resolveBase? fs dir spec = some path) :
    Path.isAbsolute path = true ∧ Path.normalize path = path := by
  unfold resolveBase? at h
  split at h
  · -- A path: as it is written, or with the extension.
    have habsolute := Path.isAbsolute_join_of_base hdir spec
    rw [← Path.isAbsolute_normalize] at habsolute
    have hnormal := Path.normalize_normalize (Path.join dir spec)
    simp only at h
    split at h
    · cases h
      exact ⟨habsolute, hnormal⟩
    · split at h
      · cases h
        obtain ⟨hlonger, hsame⟩ := Path.normal_append hnormal (by decide : Path.IsEnding ".json".toList)
        exact ⟨hsame.trans habsolute, hlonger⟩
      · cases h
  · -- A package: found in a directory above, and then normalized.
    obtain ⟨above, habove, h⟩ := List.exists_of_findSome?_eq_some h
    obtain ⟨found, hfound, rfl⟩ := Option.map_eq_some_iff.mp h
    have hpackage := Path.isAbsolute_join_of_base
      (Path.isAbsolute_join_of_base (Path.isAbsolute_of_mem_ancestors hdir habove) Path.dependencyDir) spec
    refine ⟨?_, Path.normalize_normalize found⟩
    rw [Path.isAbsolute_normalize]
    have hmem := List.mem_of_find?_eq_some hfound
    simp only [List.mem_cons, List.not_mem_nil, or_false] at hmem
    rcases hmem with rfl | rfl | rfl
    · exact hpackage
    · exact Path.isAbsolute_join_of_base hpackage _
    · exact Path.isAbsolute_append hpackage _

theorem name_of_parse (h : parse name text = .ok (config, file)) : file.name = name := by
  unfold parse at h
  split at h
  · cases h
    rfl
  · cases h

theorem findBase_read {fs : FileSystem} (h : findBase fs dir file stack spec = .ok base) :
    resolveBase? fs dir spec = some base.path ∧ base.path ∉ stack ∧
      ∃ text, fs.readText base.path = .ok text ∧ parse base.path text = .ok (base.config, base.file) := by
  unfold findBase at h
  split at h
  · cases h
  · rename_i path hresolve
    split at h
    · cases h
    · rename_i hstack
      split at h
      · cases h
      · rename_i text hread
        cases hparse : parse path text with
        | error => rw [hparse] at h; cases h
        | ok parsed =>
          rw [hparse] at h
          cases h
          exact ⟨hresolve, hstack, text, hread, hparse⟩

/-- A base that is found is a file of the tree, is not under expansion, and is named by its path. -/
theorem findBase_ok {fs : FileSystem} (hdir : Path.isAbsolute dir = true)
    (h : findBase fs dir file stack spec = .ok base) :
    base.path ∈ fs.fileNames ∧ base.path ∉ stack ∧ base.file.name = base.path ∧
      Path.isAbsolute base.path = true := by
  obtain ⟨hresolve, hstack, text, hread, hparse⟩ := findBase_read h
  obtain ⟨habsolute, hnormal⟩ := resolveBase_normal hdir hresolve
  have hfile := FileSystem.mem_fileNames habsolute hnormal (FileSystem.resolve_of_readText hread)
  exact ⟨hfile, hstack, name_of_parse hparse, habsolute⟩

theorem isAbsolute_directory (hfile : Path.isAbsolute file.name = true)
    (hbase : Path.isAbsolute basePath = true) : Path.isAbsolute (directory basePath file) = true := by
  unfold directory
  cases hparent : Path.parent? file.name with
  | none => exact hbase
  | some dir => exact Path.isAbsolute_parent hfile hparent

def remaining (fs : FileSystem) (stack : List String) : List String :=
  fs.fileNames.filter fun name => name ∉ stack

theorem length_remaining_lt {fs : FileSystem} (hfile : path ∈ fs.fileNames) (hstack : path ∉ stack) :
    (remaining fs (stack ++ [path])).length < (remaining fs stack).length := by
  have hfewer : remaining fs (stack ++ [path]) = (remaining fs stack).filter fun name => name ≠ path := by
    rw [remaining, remaining, List.filter_filter]
    refine List.filter_congr fun name _ => ?_
    simp [and_comm]
  rw [hfewer, List.length_filter_lt_length_iff_exists]
  exact ⟨path, List.mem_filter.mpr ⟨hfile, by simpa using hstack⟩, by simp⟩

theorem length_remaining_lt_bound (fs : FileSystem) (stack : List String) :
    (remaining fs stack).length < depthBound fs + 1 := by
  have hfewer : (remaining fs stack).length ≤ fs.fileNames.length := List.length_filter_le _ _
  rw [FileSystem.length_fileNames] at hfewer
  have hbound : fs.fileCount ≤ depthBound fs := Nat.le_mul_of_pos_right _ (by decide)
  exact Nat.lt_succ_of_le (Nat.le_trans hfewer hbound)

-- ---------------------------------------------------------------------------
-- Enough depth
-- ---------------------------------------------------------------------------

def innerLayer (expand : Json → SourceFile → List String → Expansion) (stack : List String)
    (found : Except Diagnostic Base) : Layer :=
  match found with
  | .error _ => .empty
  | .ok base => (expand base.config base.file (stack ++ [base.path])).layer

theorem layer_expandBase (fs : FileSystem) (expand : Json → SourceFile → List String → Expansion)
    (dir : String) (file : SourceFile) (stack : List String) (spec : String) :
    (expandBase fs expand dir file stack spec).layer =
      contribution (findBase fs dir file stack spec)
        (innerLayer expand stack (findBase fs dir file stack spec)) := by
  rw [expandBase_eq]
  cases findBase fs dir file stack spec <;> rfl

/-- Expansion through more levels than there are files left finds the layer. -/
theorem expands_expandTo {fs : FileSystem} (hbase : Path.isAbsolute basePath = true)
    (hfile : Path.isAbsolute file.name = true) (hdepth : (remaining fs stack).length < depth) :
    Expands fs basePath config file stack (expandTo fs basePath depth config file stack).layer := by
  induction depth generalizing config file stack with
  | zero => cases hdepth
  | succ depth ih =>
    cases hroot : config.asObject? with
    | none =>
      rw [expandTo, expandWith, hroot]
      exact .notObject hroot
    | some members =>
      have hdir := isAbsolute_directory hfile hbase
      obtain ⟨specs, malformed, hspecs⟩ := exists_namesBases file (members.lookup "extends")
      rw [expandTo, layer_expandWith (isDistinct_expandTo basePath depth) hroot hspecs]
      simp only [layer_expandBase]
      refine .object hroot hspecs _ fun spec _ base hfound => ?_
      obtain ⟨hmem, hstack, hname, habsolute⟩ := findBase_ok hdir hfound
      rw [hfound]
      refine ih (hname ▸ habsolute) ?_
      have hless := length_remaining_lt hmem hstack
      omega

-- ---------------------------------------------------------------------------
-- The options of a directory
-- ---------------------------------------------------------------------------

theorem expand_layer (fs : FileSystem) (hbase : Path.isAbsolute basePath = true)
    (hfile : Path.isAbsolute file.name = true) (config : Json) :
    ∃ layer, Expands fs basePath config file [Path.normalize file.name] layer ∧
      (expand fs config file basePath).layer =
        { layer with files := Path.normalize file.name :: layer.files } :=
  ⟨_, expands_expandTo hbase hfile (length_remaining_lt_bound fs _), rfl⟩

theorem kept_baseline (name : String) : OptionSet.baseline.kept? name = none := rfl

theorem resolve_eq {fs : FileSystem} (hread : fs.readText (Path.join cwd fileName) = .ok text)
    (hparse : parse (Path.join cwd fileName) text = .ok (config, file)) :
    resolve fs none cwd =
      match Diagnostic.failure? (expand fs config file cwd).errors with
      | some error => .error error
      | none => .ok ((expand fs config file cwd).options.layeredOver .baseline) := by
  unfold resolve readFile
  simp only [hread, hparse]
  cases Diagnostic.failure? (expand fs config file cwd).errors <;> rfl

/-- The configuration of an absolute directory has one layer, and that is what its expansion makes, with
the file itself first among the files. A build has the first error of the layer, or the options of the
layer over the baseline. -/
theorem resolve_layered {fs : FileSystem} (hcwd : Path.isAbsolute cwd = true)
    (hparse : parse (Path.join cwd fileName) text = .ok (config, file)) :
    ∃ layer, (∀ other, Expands fs cwd config file [Path.normalize file.name] other ↔ other = layer) ∧
      (expand fs config file cwd).layer =
        { layer with files := Path.normalize file.name :: layer.files } ∧
      (fs.readText (Path.join cwd fileName) = .ok text →
        match Diagnostic.failure? layer.errors with
        | some error => resolve fs none cwd = .error error
        | none => ∃ options, resolve fs none cwd = .ok options ∧
            (∀ name, options.value? name = (layer.value? name <|> OptionSet.baseline.value? name)) ∧
            ∀ name, options.kept? name = layer.kept? name) := by
  have hfile : Path.isAbsolute file.name = true := by
    rw [name_of_parse hparse]
    exact Path.isAbsolute_join_of_base hcwd fileName
  obtain ⟨layer, hexpands, hlayer⟩ := expand_layer fs hcwd hfile config
  refine ⟨layer, fun other => ⟨fun h => h.unique hexpands, fun h => h ▸ hexpands⟩, hlayer, fun hread => ?_⟩
  have hvalue : (expand fs config file cwd).options.value? = layer.value? := congrArg Layer.value? hlayer
  have hkept : (expand fs config file cwd).options.kept? = layer.kept? := congrArg Layer.kept? hlayer
  have herrors : (expand fs config file cwd).errors = layer.errors := congrArg Layer.errors hlayer
  have hdistinct : (expand fs config file cwd).options.IsDistinct :=
    isDistinct_expandTo cwd _ config file _
  have hresolve := resolve_eq hread hparse
  rw [herrors] at hresolve
  cases hfailure : Diagnostic.failure? layer.errors with
  | some error =>
    rw [hfailure] at hresolve
    exact hresolve
  | none =>
    rw [hfailure] at hresolve
    refine ⟨_, hresolve, fun name => ?_, fun name => ?_⟩
    · rw [OptionSet.value_layeredOver, hvalue]
    · rw [OptionSet.kept_layeredOver hdistinct, hkept, kept_baseline]
      cases layer.kept? name <;> rfl

def extendingText : String :=
  "\x7b\"extends\":[\"./a.json\",1,\"./b\"],\"compilerOptions\":\x7b\"strict\":true\x7d\x7d"

def extending : FileSystem where
  root := .dir [("w", .dir [("tsconfig.json", .file (some extendingText)),
    ("a.json", .file (some "\x7b\"compilerOptions\":\x7b\"strict\":false,\"lib\":[]\x7d\x7d"))])]
  cwd := "/"

/-- One option is inherited and one is not, and the errors are those of `extends` and of the missing base. -/
theorem resolve_layered_extending :
    extending.readText (Path.join "/w" fileName) = .ok extendingText ∧
      ∃ config file layer, parse (Path.join "/w" fileName) extendingText = .ok (config, file) ∧
        (∀ other, Expands extending "/w" config file [Path.normalize file.name] other ↔ other = layer) ∧
        layer.value? .strict = some true ∧ layer.value? .lib = some [] ∧ layer.errors.map (·.code) = [5024, 6053] ∧
        ∃ error, resolve extending none "/w" = .error error := by
  have hread : extending.readText (Path.join "/w" fileName) = .ok extendingText := by
    have htext : (extending.readText (Path.join "/w" fileName)).toOption = some extendingText := by decide +kernel
    cases hread : extending.readText (Path.join "/w" fileName) with
    | error =>
      rw [hread] at htext
      cases htext
    | ok text =>
      rw [hread] at htext
      rw [Option.some.inj htext]
  have hparses : (parse (Path.join "/w" fileName) extendingText).toOption.map
      (fun (config, file) =>
        let expansion := expand extending config file "/w"
        (expansion.options.value? .strict, expansion.options.value? .lib, expansion.errors.map (·.code),
          (Diagnostic.failure? expansion.errors).isSome)) =
        some (some true, some [], [5024, 6053], true) := by decide +kernel
  cases hparse : parse (Path.join "/w" fileName) extendingText with
  | error =>
    rw [hparse] at hparses
    cases hparses
  | ok parsed =>
    obtain ⟨config, file⟩ := parsed
    rw [hparse] at hparses
    have hvalues := Option.some.inj hparses
    have hstrict : (expand extending config file "/w").options.value? .strict = some true :=
      congrArg Prod.fst hvalues
    have hlib : (expand extending config file "/w").options.value? .lib = some [] :=
      congrArg (·.2.1) hvalues
    have hcodes : (expand extending config file "/w").errors.map (·.code) = [5024, 6053] :=
      congrArg (·.2.2.1) hvalues
    have hfails : (Diagnostic.failure? (expand extending config file "/w").errors).isSome = true :=
      congrArg (·.2.2.2) hvalues
    obtain ⟨layer, hunique, hlayer, hresolve⟩ :=
      @resolve_layered "/w" _ _ _ extending (by decide) hparse
    have hvalue : (expand extending config file "/w").options.value? = layer.value? := congrArg Layer.value? hlayer
    have herrors : (expand extending config file "/w").errors = layer.errors := congrArg Layer.errors hlayer
    rw [hvalue] at hstrict hlib
    rw [herrors] at hcodes hfails
    obtain ⟨error, herror⟩ := Option.isSome_iff_exists.mp hfails
    have hresolve := hresolve hread
    rw [herror] at hresolve
    exact ⟨hread, config, file, layer, rfl, hunique, hstrict, hlib, hcodes, error, hresolve⟩

end TsBuild.Config
