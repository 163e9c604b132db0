import TsBuild.Program.Check
import TsBuild.Proofs.Script.Located

/-!
# What literal checks report

The checks have a meaning that follows the syntax: `HasLiteralType` says what the type of a literal is,
`IsOfKeywords` which annotations are looked at, and `Accepts` when such an annotation takes a literal. A site is
a variable or a class property with an annotation. What is reported about it is given by this meaning
(`isSome_report`), and what is reported in a file are the reports of its sites, each site being there once
(`literalDiagnostics_eq_reports`).
-/

namespace TsBuild.Program

open Script (Node Keyword)

-- ---------------------------------------------------------------------------
-- Literals
-- ---------------------------------------------------------------------------

/-- The type of a literal. Parentheses count for nothing; a sign keeps numbers, and `-` bigints too. -/
inductive HasLiteralType : Node → LiteralType → Prop
  | string : HasLiteralType (.mk (.str value raw) span children) .string
  | template : HasLiteralType (.mk .template span [quasi]) .string
  | number : HasLiteralType (.mk (.num value raw) span children) .number
  | boolean : HasLiteralType (.mk (.bool value) span children) .boolean
  | bigint : HasLiteralType (.mk (.bigint raw) span children) .bigint
  | null : HasLiteralType (.mk .null span children) .null
  | undefined : HasLiteralType (.mk (.ident "undefined" scope) span children) .undefined
  | paren (inner : HasLiteralType expression literal) :
      HasLiteralType (.mk .paren span (expression :: rest)) literal
  | signed (sign : op = .plus ∨ op = .minus) (operand : HasLiteralType expression .number) :
      HasLiteralType (.mk (.unary op) span (expression :: rest)) .number
  | negative (operand : HasLiteralType expression .bigint) :
      HasLiteralType (.mk (.unary .minus) span (expression :: rest)) .bigint

theorem LiteralType.of_eq_some {node : Node} {literal : LiteralType} :
    LiteralType.of? node = some literal ↔ HasLiteralType node literal := by
  constructor
  · intro h
    fun_induction LiteralType.of? node generalizing literal with
    | case1 => cases h; exact .string
    | case2 => cases h; exact .number
    | case3 => cases h; exact .boolean
    | case4 => cases h; exact .bigint
    | case5 => cases h; exact .null
    | case6 => cases h; exact .template
    | case7 => cases h; exact .undefined
    | case8 => cases h
    | case9 span operand rest ih =>
      obtain ⟨inner, hinner, hnegated⟩ := Option.bind_eq_some_iff.mp h
      cases inner <;> cases hnegated
      · exact .signed (.inr rfl) (ih hinner)
      · exact .negative (ih hinner)
    | case10 span operand rest ih =>
      obtain ⟨inner, hinner, haffirmed⟩ := Option.bind_eq_some_iff.mp h
      cases inner <;> cases haffirmed
      exact .signed (.inl rfl) (ih hinner)
    | case11 span inner rest ih => exact .paren (ih h)
    | case12 => cases h
  · intro h
    induction h with
    | string | template | number | boolean | bigint | null => rfl
    | undefined => exact if_pos rfl
    | paren _ ih => exact ih
    | signed sign _ ih =>
      rcases sign with rfl | rfl
      · rw [of?, ih]
        rfl
      · rw [of?, ih]
        rfl
    | negative _ ih =>
      rw [of?, ih]
      rfl

-- ---------------------------------------------------------------------------
-- Annotations
-- ---------------------------------------------------------------------------

def LiteralType.ownKeywords : LiteralType → List Keyword
  | string => [.string]
  | number => [.number]
  | boolean => [.boolean]
  | bigint => [.bigint]
  | null => [.null]
  | undefined => [.undefined, .void]

def Keyword.Takes (strict : Bool) (literal : LiteralType) (keyword : Keyword) : Prop :=
  keyword ∈ [.any, .unknown, .intrinsic] ∨ (strict = false ∧ literal ∈ [.null, .undefined]) ∨
    keyword ∈ literal.ownKeywords

theorem fits_iff (strict : Bool) (literal : LiteralType) (keyword : Keyword) :
    literal.fits strict keyword = true ↔ Keyword.Takes strict literal keyword := by
  unfold Keyword.Takes
  cases strict <;> cases literal <;> cases keyword <;> decide

inductive IsOfKeywords : Node → Prop
  | keyword : IsOfKeywords (.mk (.keyword keyword) span children)
  | paren (inner : IsOfKeywords type) : IsOfKeywords (.mk .typeParen span (type :: rest))
  | union (members : ∀ type ∈ types, IsOfKeywords type) : IsOfKeywords (.mk .union span types)

/-- A type takes a literal: a union if one of its members does. -/
inductive Accepts (strict : Bool) (literal : LiteralType) : Node → Prop
  | keyword (takes : Keyword.Takes strict literal keyword) :
      Accepts strict literal (.mk (.keyword keyword) span children)
  | paren (inner : Accepts strict literal type) : Accepts strict literal (.mk .typeParen span (type :: rest))
  | union (among : type ∈ types) (member : Accepts strict literal type) :
      Accepts strict literal (.mk .union span types)

def AreLeaves (keywords : List Keyword) (type : Node) : Prop :=
  keywords? type = some keywords ∧
    ∀ strict literal, keywords.any (literal.fits strict) = true ↔ Accepts strict literal type

theorem exists_unionLeaves {types : List Node} (h : ∀ type ∈ types, ∃ keywords, AreLeaves keywords type) :
    ∃ keywords, unionKeywords? types = some keywords ∧ ∀ strict literal,
      (keywords.any (literal.fits strict) = true ↔ ∃ type ∈ types, Accepts strict literal type) := by
  induction types with
  | nil => exact ⟨[], rfl, by simp⟩
  | cons first rest ih =>
    obtain ⟨hfirst, hrest⟩ := List.forall_mem_cons.mp h
    obtain ⟨leaves, hleaves, haccepts⟩ := hfirst
    obtain ⟨others, hothers, hacceptsRest⟩ := ih hrest
    refine ⟨leaves ++ others, by simp [unionKeywords?, hleaves, hothers], fun strict literal => ?_⟩
    rw [List.any_append, Bool.or_eq_true, haccepts, hacceptsRest]
    simp

theorem IsOfKeywords.exists_leaves {type : Node} (h : IsOfKeywords type) :
    ∃ keywords, AreLeaves keywords type := by
  induction h with
  | @keyword keyword =>
    refine ⟨[keyword], rfl, fun strict literal => ?_⟩
    rw [List.any_cons, List.any_nil, Bool.or_false, fits_iff]
    exact ⟨.keyword, fun haccepts => by cases haccepts; assumption⟩
  | paren _ ih =>
    obtain ⟨keywords, hleaves, haccepts⟩ := ih
    refine ⟨keywords, hleaves, fun strict literal => (haccepts strict literal).trans ?_⟩
    exact ⟨.paren, fun h => by cases h; assumption⟩
  | union _ ih =>
    obtain ⟨keywords, hleaves, haccepts⟩ := exists_unionLeaves ih
    refine ⟨keywords, hleaves, fun strict literal => (haccepts strict literal).trans ?_⟩
    constructor
    · rintro ⟨type, hmem, hmember⟩
      exact .union hmem hmember
    · intro h
      cases h with
      | union among member => exact ⟨_, among, member⟩

theorem isOfKeywords_of_isSome :
    (∀ type, (keywords? type).isSome → IsOfKeywords type) ∧
      ∀ types, (unionKeywords? types).isSome → ∀ type ∈ types, IsOfKeywords type := by
  refine keywords?.mutual_induct _ _ ?keyword ?paren ?union ?other ?none ?some
  case keyword => exact fun _ _ _ _ => .keyword
  case paren => exact fun _ _ _ ih h => .paren (ih h)
  case union => exact fun _ _ ih h => .union (ih h)
  case other =>
    intro type hkeyword hparen hunion h
    rw [keywords?] at h
    · cases h
    · exact hkeyword
    · exact hparen
    · exact hunion
  case none => exact fun _ type hmem => absurd hmem List.not_mem_nil
  case some =>
    intro first rest ihFirst ihRest h
    obtain ⟨keywords, hkeywords⟩ := Option.isSome_iff_exists.mp h
    obtain ⟨leaves, hleaves, hothers⟩ := Option.bind_eq_some_iff.mp hkeywords
    obtain ⟨others, hothers, -⟩ := Option.bind_eq_some_iff.mp hothers
    exact List.forall_mem_cons.mpr ⟨ihFirst (by rw [hleaves]; rfl), ihRest (by rw [hothers]; rfl)⟩

-- ---------------------------------------------------------------------------
-- Sites
-- ---------------------------------------------------------------------------

structure Site where
  name : Script.Span
  type : Node
  init : Node

/-- Variables with an annotation are sites, and class properties with one that are neither private nor only
declared. -/
inductive IsSite : Node → Site → Prop
  | declarator (annotated : type.isAbsent = false) :
      IsSite (.mk (.declarator isDefinite) span
        (.mk (.binding isOptional) bindingSpan (name :: type :: others) :: init :: rest)) ⟨name.span, type, init⟩
  | property (annotated : type.isAbsent = false) (present : modifiers.isDeclared = false)
      (shared : ∀ text, key.kind ≠ .privateName text) :
      IsSite (.mk (.property modifiers) span (decorators :: key :: init :: type :: rest)) ⟨key.span, type, init⟩

def isPrivate (key : Node) : Bool := key.kind matches .privateName _

theorem isPrivate_eq_false {key : Node} : isPrivate key = false ↔ ∀ text, key.kind ≠ .privateName text := by
  rw [isPrivate]
  cases key.kind <;> simp

def siteAt? : Node → Option Site
  | .mk (.declarator _) _ (.mk (.binding _) _ (name :: type :: _) :: init :: _) =>
    if type.isAbsent then none else some ⟨name.span, type, init⟩
  | .mk (.property modifiers) _ (_ :: key :: init :: type :: _) =>
    if type.isAbsent || modifiers.isDeclared || isPrivate key then none else some ⟨key.span, type, init⟩
  | _ => none

theorem siteAt_eq_some {node : Node} {site : Site} : siteAt? node = some site ↔ IsSite node site := by
  constructor
  · intro h
    unfold siteAt? at h
    split at h
    · split at h
      · cases h
      · rename_i hannotated
        cases h
        exact .declarator (by simpa using hannotated)
    · split at h
      · cases h
      · rename_i hproperty
        cases h
        simp only [Bool.or_eq_true, not_or, Bool.not_eq_true] at hproperty
        obtain ⟨⟨hannotated, hpresent⟩, hshared⟩ := hproperty
        exact .property hannotated hpresent (isPrivate_eq_false.mp hshared)
    · cases h
  · intro h
    cases h with
    | declarator annotated => simp [siteAt?, annotated]
    | property annotated present shared => simp [siteAt?, annotated, present, isPrivate_eq_false.mpr shared]

namespace Site

def report? (strict : Bool) (file : SourceFile) (site : Site) : Option Diagnostic :=
  ((annotatedLiteral? file.text.toList site.name site.type site.init).filter fun annotated =>
    !annotated.accepted strict).map (AnnotatedLiteral.diagnostic file)

variable {site : Site} {strict : Bool} {file : SourceFile}

theorem annotatedLiteral_eq_some {text : List Char} {name : Script.Span} {type init : Node}
    (h : annotatedLiteral? text name type init = some annotated) :
    LiteralType.of? init = some annotated.literal ∧ keywords? type = some annotated.keywords ∧
      annotated.start = name.lo - 1 ∧ annotated.length = name.hi - name.lo := by
  obtain ⟨literal, hliteral, h⟩ := Option.bind_eq_some_iff.mp h
  obtain ⟨keywords, hkeywords, h⟩ := Option.bind_eq_some_iff.mp h
  cases h
  exact ⟨hliteral, hkeywords, rfl, rfl⟩

/-- A site is reported if its literal has a type, its annotation consists of keywords and does not take the
literal. -/
theorem isSome_report : (site.report? strict file).isSome ↔ ∃ literal, HasLiteralType site.init literal ∧
    IsOfKeywords site.type ∧ ¬Accepts strict literal site.type := by
  rw [report?, Option.isSome_map]
  constructor
  · intro h
    obtain ⟨annotated, hrejected⟩ := Option.isSome_iff_exists.mp h
    obtain ⟨hfound, hrejected⟩ := Option.filter_eq_some_iff.mp hrejected
    obtain ⟨hliteral, hkeywords, -⟩ := annotatedLiteral_eq_some hfound
    have htype : IsOfKeywords site.type := isOfKeywords_of_isSome.1 _ (by rw [hkeywords]; rfl)
    obtain ⟨keywords, hleaves, haccepts⟩ := htype.exists_leaves
    obtain rfl : annotated.keywords = keywords := Option.some.inj (hkeywords.symm.trans hleaves)
    refine ⟨annotated.literal, LiteralType.of_eq_some.mp hliteral, htype, fun htakes => ?_⟩
    have haccepted : annotated.accepted strict = true := (haccepts strict annotated.literal).mpr htakes
    simp [haccepted] at hrejected
  · rintro ⟨literal, hliteral, htype, hrejected⟩
    obtain ⟨keywords, hleaves, haccepts⟩ := htype.exists_leaves
    have hany : keywords.any (literal.fits strict) = false := by
      rw [← Bool.not_eq_true, haccepts]
      exact hrejected
    simp [annotatedLiteral?, LiteralType.of_eq_some.mpr hliteral, hleaves, AnnotatedLiteral.accepted, hany]

theorem of_mem_report (h : site.report? strict file = some diagnostic) :
    diagnostic.category = .error ∧ diagnostic.code = 2322 ∧ diagnostic.file = some file ∧
      diagnostic.start = some (site.name.lo - 1) ∧ diagnostic.length = some (site.name.hi - site.name.lo) := by
  obtain ⟨annotated, hrejected, rfl⟩ := Option.map_eq_some_iff.mp h
  obtain ⟨-, -, hstart, hlength⟩ := annotatedLiteral_eq_some (Option.filter_eq_some_iff.mp hrejected).1
  exact ⟨rfl, rfl, rfl, congrArg some hstart, congrArg some hlength⟩

end Site

theorem annotatedLiteral_of_absent {type : Node} (h : type.isAbsent = true) (text : List Char)
    (name : Script.Span) (init : Node) : annotatedLiteral? text name type init = none := by
  have hkeywords : keywords? type = none := by
    obtain ⟨kind, span, children⟩ := type
    cases kind <;> first | rfl | cases h
  rw [annotatedLiteral?, hkeywords]
  cases LiteralType.of? init <;> rfl

theorem annotatedLiteralAt_eq (text : List Char) (node : Node) :
    annotatedLiteralAt? text node =
      (siteAt? node).bind fun site => annotatedLiteral? text site.name site.type site.init := by
  fun_cases siteAt? node with
  | case1 _ _ _ _ _ _ _ _ _ habsent => exact annotatedLiteral_of_absent habsent ..
  | case2 => rfl
  | case3 modifiers span decorators key init type rest hskipped =>
    simp only [Bool.or_eq_true] at hskipped
    change (if (modifiers.isDeclared || isPrivate key) = true then none else _) = none
    rcases hskipped with (habsent | hdeclared) | hprivate
    · split
      · rfl
      · exact annotatedLiteral_of_absent habsent ..
    · rw [if_pos (by simp [hdeclared])]
    · rw [if_pos (by simp [hprivate])]
  | case4 modifiers span decorators key init type rest hchecked =>
    simp only [Bool.or_eq_true, not_or] at hchecked
    change (if (modifiers.isDeclared || isPrivate key) = true then none else _) = _
    rw [if_neg (by simp [hchecked.1.2, hchecked.2])]
    rfl
  | case5 _ hdeclarator hproperty =>
    rw [annotatedLiteralAt?]
    · rfl
    · exact hdeclarator
    · exact hproperty

-- ---------------------------------------------------------------------------
-- Files
-- ---------------------------------------------------------------------------

def sites (tree : Node) : List (List Nat × Site) :=
  tree.located.filterMap fun entry => (siteAt? entry.2).map (entry.1, ·)

theorem mem_sites {tree : Node} {path : List Nat} {site : Site} :
    (path, site) ∈ sites tree ↔ ∃ node, tree.at? path = some node ∧ IsSite node site := by
  rw [sites, List.mem_filterMap]
  constructor
  · rintro ⟨⟨way, node⟩, hmem, hsite⟩
    obtain ⟨found, hfound, heq⟩ := Option.map_eq_some_iff.mp hsite
    cases heq
    exact ⟨node, (Node.mem_located tree way node).mp hmem, siteAt_eq_some.mp hfound⟩
  · rintro ⟨node, hat, hsite⟩
    refine ⟨(path, node), (Node.mem_located tree path node).mpr hat, ?_⟩
    rw [siteAt_eq_some.mpr hsite]
    rfl

theorem nodup_sites (tree : Node) : ((sites tree).map Prod.fst).Nodup := by
  have hways : (fun entry : List Nat × Node => ((siteAt? entry.2).map (entry.1, ·)).map Prod.fst) =
      fun entry => (siteAt? entry.2).map fun _ => entry.1 := by
    funext entry
    cases siteAt? entry.2 <;> rfl
  have hsublist : ((sites tree).map Prod.fst).Sublist (tree.located.map Prod.fst) := by
    rw [sites, List.map_filterMap, hways]
    induction tree.located with
    | nil => exact List.nil_sublist _
    | cons entry rest ih =>
      rw [List.filterMap_cons, List.map_cons]
      cases siteAt? entry.2 with
      | none => exact ih.cons entry.1
      | some site => exact ih.cons_cons entry.1
  exact hsublist.nodup (Node.nodup_located tree)

theorem reports_eq (strict : Bool) (file : SourceFile) (tree : Node) :
    ((tree.subnodes.filterMap (annotatedLiteralAt? file.text.toList)).filter fun annotated =>
      !annotated.accepted strict).map (AnnotatedLiteral.diagnostic file) =
      (sites tree).filterMap fun entry => entry.2.report? strict file := by
  rw [List.filter_filterMap, List.map_filterMap, ← Node.map_located, List.filterMap_map, sites,
    List.filterMap_filterMap]
  congr 1
  funext entry
  rw [Function.comp_apply, annotatedLiteralAt_eq]
  cases siteAt? entry.2 <;> rfl

def treeOf? (source : SourceFile) : Option Node :=
  (Script.parse (Facts.dialect source.name) (Text.withoutByteOrderMark source.text)).module?

theorem literalDiagnostics_of_tree {source : SourceFile} (checks : Checks)
    (hchecked : (source.isDeclaration && checks.skipDeclarations) = false) (htree : treeOf? source = some tree) :
    literalDiagnostics checks ⟨source, Facts.of source⟩ =
      (sites tree).filterMap fun entry => entry.2.report? checks.strictNullChecks source := by
  have hliterals : (Facts.of source).literals = tree.subnodes.filterMap (annotatedLiteralAt? source.text.toList) := by
    change (((treeOf? source).map Node.subnodes).getD []).filterMap _ = _
    rw [htree]
    rfl
  rw [literalDiagnostics, hchecked, if_neg Bool.false_ne_true, hliterals]
  exact reports_eq checks.strictNullChecks source tree

/-- Literal checks report what the annotations mean. A site is reported, with one error about its name, if the
literal it starts with has a type, its annotation consists of keywords and does not take the literal. What is
reported of a file are the reports of its sites: those of all nodes of its tree, however deep, each once. -/
theorem literalDiagnostics_eq_reports (checks : Checks) (source : SourceFile) :
    (∀ strict (site : Site), ((site.report? strict source).isSome ↔ ∃ literal,
        HasLiteralType site.init literal ∧ IsOfKeywords site.type ∧ ¬Accepts strict literal site.type) ∧
      ∀ diagnostic, site.report? strict source = some diagnostic →
        diagnostic.category = .error ∧ diagnostic.code = 2322 ∧ diagnostic.file = some source ∧
          diagnostic.start = some (site.name.lo - 1) ∧ diagnostic.length = some (site.name.hi - site.name.lo)) ∧
    ∀ tree, treeOf? source = some tree → (source.isDeclaration && checks.skipDeclarations) = false →
      ∃ sites : List (List Nat × Site), (sites.map Prod.fst).Nodup ∧
        (∀ path site, (path, site) ∈ sites ↔ ∃ node, tree.at? path = some node ∧ IsSite node site) ∧
        literalDiagnostics checks ⟨source, Facts.of source⟩ =
          sites.filterMap fun entry => entry.2.report? checks.strictNullChecks source := by
  refine ⟨fun strict site => ⟨Site.isSome_report, fun diagnostic => Site.of_mem_report⟩,
    fun tree htree hchecked => ?_⟩
  exact ⟨sites tree, nodup_sites tree, fun path site => mem_sites,
    literalDiagnostics_of_tree checks hchecked htree⟩

/-- A class inside a call. A property of it does not take `null`, a private one is not looked at, and the key of
a type in it holds two variables, of which the second does not take its number. -/
def nestedLiterals : SourceFile where
  name := "/w/a.ts"
  text := "f(class \x7b a: number | (string) = null; #b: null = 1; " ++
    "c: \x7b [(() => \x7b let d: bigint = -1n, e: bigint = -1; \x7d)()]: 0 \x7d; \x7d);"

def strictChecks : Checks where
  strictNullChecks := true
  skipDeclarations := false
  sideEffectImports := false
  bareImports := true

theorem literalDiagnostics_eq_reports_nested :
    ∃ tree, treeOf? nestedLiterals = some tree ∧
      (nestedLiterals.isDeclaration && strictChecks.skipDeclarations) = false ∧
      (∃ sites : List (List Nat × Site), (sites.map Prod.fst).Nodup ∧
        literalDiagnostics strictChecks ⟨nestedLiterals, Facts.of nestedLiterals⟩ =
          sites.filterMap fun entry => entry.2.report? true nestedLiterals) ∧
      (literalDiagnostics strictChecks ⟨nestedLiterals, Facts.of nestedLiterals⟩).map Diagnostic.start =
        [some 10, some 89] := by
  obtain ⟨tree, htree⟩ := Option.isSome_iff_exists.mp
    (show (treeOf? nestedLiterals).isSome = true by decide +kernel)
  have hchecked : (nestedLiterals.isDeclaration && strictChecks.skipDeclarations) = false := by decide
  obtain ⟨sites, hnodup, -, hreports⟩ :=
    (literalDiagnostics_eq_reports strictChecks nestedLiterals).2 tree htree hchecked
  exact ⟨tree, htree, hchecked, ⟨sites, hnodup, hreports⟩, by decide +kernel⟩

end TsBuild.Program
