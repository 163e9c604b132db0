import TsBuild.Options.Basic
import TsBuild.Program.Load

/-!
# Programs and their diagnostics

A file of a program carries the syntax errors of its text, and the literals and imports in it
that are wrong. An import that leads to no file is put off until all files are known, since any
of them may declare it; whether a package is installed is looked up once for each directory.
-/

namespace TsBuild

namespace Program

structure Checks where
  strictNullChecks : Bool
  /-- Whether declaration files go without literal checks. -/
  skipDeclarations : Bool
  sideEffectImports : Bool
  /-- Whether a bare specifier has to belong to an installed package. -/
  bareImports : Bool
  deriving DecidableEq, Repr

def Checks.ofOptions (options : OptionSet) : Checks where
  strictNullChecks := options.strictNullChecks
  skipDeclarations := options.isOn .skipLibCheck
  sideEffectImports := options.isOn .noUncheckedSideEffectImports
  bareImports := (options.value? .baseUrl).isNone && (options.value? .paths).isNone

/-- Whether the name of an ambient module covers a specifier. The first `*` in it stands for
any text. -/
def declares (declared specifier : String) : Bool :=
  match Text.cutAt? ['*'] declared.toList with
  | none => declared == specifier
  | some (before, after) =>
    (match Text.dropPrefix? before specifier.toList with
     | some rest => Text.endsWith after rest
     | none => false)

def unresolvedDiagnostic (file : SourceFile) (import_ : Import) : Diagnostic :=
  (Diagnostic.error 2307 ("Cannot find module '" ++ import_.specifier ++
    "' or its corresponding type declarations.")).pointingAt file import_.start import_.length

def literalDiagnostics (checks : Checks) (file : LoadedFile) : List Diagnostic :=
  if file.source.isDeclaration && checks.skipDeclarations then []
  else
    (file.facts.literals.filter fun literal => !literal.accepted checks.strictNullChecks).map
      (AnnotatedLiteral.diagnostic file.source)

def inTextOrder (diagnostics : List Diagnostic) : List Diagnostic :=
  diagnostics.mergeSort fun a b => a.start.getD 0 ≤ b.start.getD 0

def missingRoot (name : String) : Diagnostic :=
  .error 6053 ("File '" ++ name ++ "' not found.")

structure CheckedFile where
  source : SourceFile
  syntactic : List Diagnostic
  semantic : List Diagnostic
  deriving Repr

def checkFile (checks : Checks) (file : LoadedFile) : CheckedFile where
  source := file.source
  syntactic := file.facts.syntaxErrors
  semantic := inTextOrder (literalDiagnostics checks file)

-- ---------------------------------------------------------------------------
-- Imports put off
-- ---------------------------------------------------------------------------

structure PendingImport where
  importer : String
  import_ : Import
  deriving DecidableEq, Repr

/-- The imports of a file that lead to no file. One that nothing is taken from counts if the options ask
for it. -/
def pendingImports (fs : FileSystem) (checks : Checks) (file : LoadedFile) : List PendingImport :=
  (file.facts.imports.filter fun import_ =>
    (resolveImport? fs file.source.name import_).isNone &&
      (checks.sideEffectImports || !import_.sideEffectOnly)).map
    (⟨file.source.name, ·⟩)

/-- The packages looked up so far, by specifier and directory of the importer, and whether they are
installed. -/
abbrev PackageLookups := List ((String × String) × Bool)

def lookUpPackage (fs : FileSystem) (lookups : PackageLookups) (pending : PendingImport) :
    Bool × PackageLookups :=
  let key := (pending.import_.specifier, (Path.parent? pending.importer).getD "")
  match lookups.lookup key with
  | some found => (found, lookups)
  | none =>
    let found := packageExists fs pending.import_.specifier pending.importer
    (found, (key, found) :: lookups)

/-- Whether a pending import stands for nothing: neither an ambient module nor a package. -/
def judge (fs : FileSystem) (checks : Checks) (ambient : List String) (lookups : PackageLookups)
    (pending : PendingImport) : Bool × PackageLookups :=
  if ambient.any fun declared => declares declared pending.import_.specifier then (false, lookups)
  else if isRelative pending.import_.specifier then (true, lookups)
  else if !checks.bareImports then (false, lookups)
  else
    let (installed, lookups) := lookUpPackage fs lookups pending
    (!installed, lookups)

def CheckedFile.report (file : CheckedFile) (import_ : Import) : CheckedFile :=
  { file with semantic := inTextOrder (file.semantic ++ [unresolvedDiagnostic file.source import_]) }

def judgeAll (fs : FileSystem) (checks : Checks) (ambient : List String) :
    PackageLookups → List PendingImport → List CheckedFile → List CheckedFile
  | _, [], files => files
  | lookups, pending :: rest, files =>
    let (isUnresolved, lookups) := judge fs checks ambient lookups pending
    let files :=
      if isUnresolved then
        files.map fun file =>
          if file.source.name = pending.importer then file.report pending.import_ else file
      else files
    judgeAll fs checks ambient lookups rest files

end Program

structure Program where
  /-- The files it was asked for, in normal form. -/
  rootNames : List String
  /-- In the order in which they were loaded. -/
  files : List Program.CheckedFile
  /-- One diagnostic for each root that cannot be read. -/
  globals : List Diagnostic
  deriving Repr

namespace Program

def buildWith (fs : FileSystem) (analyse : SourceFile → Facts) (roots : List String)
    (options : OptionSet) : Program :=
  let rootNames := roots.map Path.normalize
  let typeRoots := typeRoots fs rootNames
  let requests := rootNames.map (⟨·, true⟩) ++
    (typeEntries fs typeRoots (options.value? .types)).map (⟨·, false⟩)
  let loading := load fs analyse typeRoots requests
  let checks := Checks.ofOptions options
  let ambient := loading.files.flatMap fun file => file.facts.ambientModules
  { rootNames
    files := judgeAll fs checks ambient [] (loading.files.flatMap (pendingImports fs checks))
      (loading.files.map (checkFile checks))
    globals := loading.missing.map missingRoot }

def build (fs : FileSystem) (roots : List String) (options : OptionSet) : Program :=
  buildWith fs Facts.of roots options

def file? (program : Program) (name : String) : Option CheckedFile :=
  program.files.find? fun file => file.source.name = Path.normalize name

/-- The diagnostics of a file before anything is emitted: of its syntax, of the program, of its
body. A file the program does not hold has those of the program. -/
def diagnosticsOf (program : Program) (name : String) : List Diagnostic :=
  match program.file? name with
  | none => program.globals
  | some file => file.syntactic ++ program.globals ++ file.semantic

end Program

end TsBuild
