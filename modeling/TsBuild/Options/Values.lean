import TsBuild.Json.Basic

/-!
# Enumerated option values

Each enumeration lists its canonical spellings in table order and the aliases it
also reads. Reading ignores the case of ASCII letters.
-/

namespace TsBuild

namespace Options

class Enumerated (α : Type) where
  values : List (String × α)
  aliases : List (String × α)
  text : α → String

def asciiLower (s : String) : String :=
  String.ofList (s.toList.map fun c => if 'A' ≤ c && c ≤ 'Z' then Char.ofNat (c.toNat + 32) else c)

def Enumerated.parse? [Enumerated α] (s : String) : Option α :=
  (values ++ aliases).lookup (asciiLower s)

end Options

open Options

inductive Target
  | es3 | es5 | es2015 | es2016 | es2017 | es2018 | es2019 | es2020 | es2021 | es2022 | es2023 | esNext
  deriving DecidableEq, Repr

def Target.text : Target → String
  | es3 => "es3"
  | es5 => "es5"
  | es2015 => "es2015"
  | es2016 => "es2016"
  | es2017 => "es2017"
  | es2018 => "es2018"
  | es2019 => "es2019"
  | es2020 => "es2020"
  | es2021 => "es2021"
  | es2022 => "es2022"
  | es2023 => "es2023"
  | esNext => "esnext"

def Target.all : List Target :=
  [es3, es5, es2015, es2016, es2017, es2018, es2019, es2020, es2021, es2022, es2023, esNext]

instance : Enumerated Target where
  values := Target.all.map fun t => (t.text, t)
  aliases := [("es6", .es2015)]
  text := Target.text

inductive ModuleKind
  | none | commonJs | amd | umd | system | es2015 | es2020 | es2022 | esNext | node16 | nodeNext | preserve
  deriving DecidableEq, Repr

def ModuleKind.text : ModuleKind → String
  | none => "none"
  | commonJs => "commonjs"
  | amd => "amd"
  | umd => "umd"
  | system => "system"
  | es2015 => "es2015"
  | es2020 => "es2020"
  | es2022 => "es2022"
  | esNext => "esnext"
  | node16 => "node16"
  | nodeNext => "nodenext"
  | preserve => "preserve"

def ModuleKind.all : List ModuleKind :=
  [none, commonJs, amd, umd, system, es2015, es2020, es2022, esNext, node16, nodeNext, preserve]

/-- Whether output of this kind keeps imports and exports as they are. -/
def ModuleKind.isModule : ModuleKind → Bool
  | none | es2015 | es2020 | es2022 | esNext | preserve => true
  | commonJs | amd | umd | system | node16 | nodeNext => false

instance : Enumerated ModuleKind where
  values := ModuleKind.all.map fun k => (k.text, k)
  aliases := [("es6", .es2015)]
  text := ModuleKind.text

inductive ModuleResolution
  | classic | node10 | node16 | nodeNext | bundler
  deriving DecidableEq, Repr

def ModuleResolution.text : ModuleResolution → String
  | classic => "classic"
  | node10 => "node10"
  | node16 => "node16"
  | nodeNext => "nodenext"
  | bundler => "bundler"

def ModuleResolution.all : List ModuleResolution := [classic, node10, node16, nodeNext, bundler]

instance : Enumerated ModuleResolution where
  values := ModuleResolution.all.map fun r => (r.text, r)
  aliases := [("node", .node10)]
  text := ModuleResolution.text

inductive JsxMode
  | preserve | react | reactJsx | reactJsxDev | reactNative
  deriving DecidableEq, Repr

def JsxMode.text : JsxMode → String
  | preserve => "preserve"
  | react => "react"
  | reactJsx => "react-jsx"
  | reactJsxDev => "react-jsxdev"
  | reactNative => "react-native"

def JsxMode.all : List JsxMode := [preserve, react, reactJsx, reactJsxDev, reactNative]

instance : Enumerated JsxMode where
  values := JsxMode.all.map fun m => (m.text, m)
  aliases := []
  text := JsxMode.text

end TsBuild
