import TsBuild.Options.Values

/-!
# Option names

`OptionName` lists the options the library gives a meaning to, in the order they
are written out, and `OptionName.kind` the kind of value each has. Options that are valid
but have no meaning here are kept as written; `passthroughNames` lists them.
-/

namespace TsBuild

inductive OptionKind
  | flag | text | list | paths | target | module | moduleResolution | jsx
  deriving DecidableEq, Repr

namespace OptionKind

def Value : OptionKind → Type
  | flag => Bool
  | text => String
  | list => List String
  | paths => List (String × List String)
  | target => Target
  | module => ModuleKind
  | moduleResolution => ModuleResolution
  | jsx => JsxMode

instance (kind : OptionKind) : DecidableEq kind.Value := by
  cases kind <;> unfold Value <;> infer_instance

end OptionKind

inductive OptionName
  | allowJs | allowSyntheticDefaultImports | baseUrl | checkJs | declaration | emitDecoratorMetadata
  | esModuleInterop | experimentalDecorators | forceConsistentCasingInFileNames | importHelpers
  | inlineSourceMap | inlineSources | isolatedModules | jsx | jsxFactory | jsxFragmentFactory
  | jsxImportSource | lib | module | moduleResolution | noEmit | noImplicitAny | noUnusedLocals
  | noUncheckedSideEffectImports | noUnusedParameters | outDir | paths | removeComments
  | resolveJsonModule | rootDir | skipLibCheck | sourceMap | strict | strictNullChecks | target
  | typeRoots | types
  deriving DecidableEq, Repr

namespace OptionName

def kind : OptionName → OptionKind
  | baseUrl | jsxFactory | jsxFragmentFactory | jsxImportSource | outDir | rootDir => .text
  | lib | typeRoots | types => .list
  | jsx => .jsx
  | module => .module
  | moduleResolution => .moduleResolution
  | paths => .paths
  | target => .target
  | allowJs | allowSyntheticDefaultImports | checkJs | declaration | emitDecoratorMetadata
  | esModuleInterop | experimentalDecorators | forceConsistentCasingInFileNames | importHelpers
  | inlineSourceMap | inlineSources | isolatedModules | noEmit | noImplicitAny | noUnusedLocals
  | noUncheckedSideEffectImports | noUnusedParameters | removeComments | resolveJsonModule
  | skipLibCheck | sourceMap | strict | strictNullChecks => .flag

abbrev Value (name : OptionName) : Type := name.kind.Value

def text : OptionName → String
  | allowJs => "allowJs"
  | allowSyntheticDefaultImports => "allowSyntheticDefaultImports"
  | baseUrl => "baseUrl"
  | checkJs => "checkJs"
  | declaration => "declaration"
  | emitDecoratorMetadata => "emitDecoratorMetadata"
  | esModuleInterop => "esModuleInterop"
  | experimentalDecorators => "experimentalDecorators"
  | forceConsistentCasingInFileNames => "forceConsistentCasingInFileNames"
  | importHelpers => "importHelpers"
  | inlineSourceMap => "inlineSourceMap"
  | inlineSources => "inlineSources"
  | isolatedModules => "isolatedModules"
  | jsx => "jsx"
  | jsxFactory => "jsxFactory"
  | jsxFragmentFactory => "jsxFragmentFactory"
  | jsxImportSource => "jsxImportSource"
  | lib => "lib"
  | module => "module"
  | moduleResolution => "moduleResolution"
  | noEmit => "noEmit"
  | noImplicitAny => "noImplicitAny"
  | noUnusedLocals => "noUnusedLocals"
  | noUncheckedSideEffectImports => "noUncheckedSideEffectImports"
  | noUnusedParameters => "noUnusedParameters"
  | outDir => "outDir"
  | paths => "paths"
  | removeComments => "removeComments"
  | resolveJsonModule => "resolveJsonModule"
  | rootDir => "rootDir"
  | skipLibCheck => "skipLibCheck"
  | sourceMap => "sourceMap"
  | strict => "strict"
  | strictNullChecks => "strictNullChecks"
  | target => "target"
  | typeRoots => "typeRoots"
  | types => "types"

def all : List OptionName :=
  [allowJs, allowSyntheticDefaultImports, baseUrl, checkJs, declaration, emitDecoratorMetadata,
    esModuleInterop, experimentalDecorators, forceConsistentCasingInFileNames, importHelpers,
    inlineSourceMap, inlineSources, isolatedModules, jsx, jsxFactory, jsxFragmentFactory,
    jsxImportSource, lib, module, moduleResolution, noEmit, noImplicitAny, noUnusedLocals,
    noUncheckedSideEffectImports, noUnusedParameters, outDir, paths, removeComments,
    resolveJsonModule, rootDir, skipLibCheck, sourceMap, strict, strictNullChecks, target,
    typeRoots, types]

theorem mem_all (name : OptionName) : name ∈ all := by
  cases name <;> decide

def ofText? (s : String) : Option OptionName :=
  all.find? fun name => name.text = s

end OptionName

/-- Options that are valid but carry no meaning here. -/
def passthroughNames : List String :=
  ["allowArbitraryExtensions", "allowImportingTsExtensions", "allowUmdGlobalAccess",
    "allowUnreachableCode", "allowUnusedLabels", "alwaysStrict",
    "assumeChangesOnlyAffectDirectDependencies", "charset", "composite", "customConditions",
    "declarationDir", "declarationMap", "diagnostics", "disableReferencedProjectLoad",
    "disableSizeLimit", "disableSolutionSearching", "disableSourceOfProjectReferenceRedirect",
    "downlevelIteration", "emitBOM", "emitDeclarationOnly", "erasableSyntaxOnly",
    "exactOptionalPropertyTypes", "explainFiles", "extendedDiagnostics", "generateCpuProfile",
    "generateTrace", "importsNotUsedAsValues", "incremental", "isolatedDeclarations",
    "keyofStringsOnly", "libReplacement", "listEmittedFiles", "listFiles", "listFilesOnly",
    "locale", "mapRoot", "maxNodeModuleJsDepth", "moduleDetection", "moduleSuffixes", "newLine",
    "noCheck", "noEmitHelpers", "noEmitOnError", "noErrorTruncation", "noFallthroughCasesInSwitch",
    "noImplicitOverride", "noImplicitReturns", "noImplicitThis", "noImplicitUseStrict", "noLib",
    "noPropertyAccessFromIndexSignature", "noResolve", "noStrictGenericChecks",
    "noUncheckedIndexedAccess", "out", "outFile", "plugins", "preserveConstEnums",
    "preserveSymlinks", "preserveValueImports", "preserveWatchOutput", "pretty", "reactNamespace",
    "resolvePackageJsonExports", "resolvePackageJsonImports", "rewriteRelativeImportExtensions",
    "rootDirs", "skipDefaultLibCheck", "sourceRoot", "strictBindCallApply",
    "strictBuiltinIteratorReturn", "strictFunctionTypes", "strictPropertyInitialization",
    "stripInternal", "suppressExcessPropertyErrors", "suppressImplicitAnyIndexErrors",
    "traceResolution", "tsBuildInfoFile", "useDefineForClassFields", "useUnknownInCatchVariables",
    "verbatimModuleSyntax"]

end TsBuild
