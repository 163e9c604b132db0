/-!
# Syntax errors

What can be wrong with a script, and the words for it. The comments name the kinds of errors
only where their words do not.
-/

namespace TsBuild.Script

inductive Cause
  | eof
  | expected (token got : String)
  | unexpected (got wanted : String)
  | expectedIdent
  | statementEnd
  | semicolon
  | expectedDigit (radix : Nat)
  | expression
  -- texts
  | unterminatedBlockComment
  | unterminatedString
  | unterminatedRegex
  | unterminatedJsx
  | unexpectedCharacter (shown : String)
  | badEscape (expected : String)
  | invalidEscape
  | invalidUnicodeEscape
  | unicodeEscapeExpected
  | invalidIdentCharacter
  | legacyComment
  | conflictMarker
  | legacyOctalLiteral
  | legacyOctal
  | legacyDecimal
  | separator
  | exponentDigits
  | identAfterNumber
  | unknownRegexFlags
  | duplicateRegexFlag (flag : Char)
  | jsxTextToken (suggestions : List String)
  | escapedKeyword (word : String)
  | spaceAfterHash
  -- expressions
  | notAssignable
  | notSimple
  | invalidTarget
  | notPattern
  | unaryBase
  | mixedCoalescing
  | spreadInParens
  | emptyParens
  | lineBreakBeforeArrow
  | arrowNotAllowed
  | taggedInChain
  | constructorInChain
  | superCallOptional
  | superCall
  | superAccess
  | importNotAllowed
  | nonNullOfKeyword (word : String)
  | newTargetOutside
  | awaitInFunction
  | awaitInParameters
  | awaitStar
  | yieldInParameters
  | deleteIdent
  | deleteOperand
  | evalOrArguments
  | argumentsAssigned
  | argumentsInField
  | strictIdent (word : String)
  | awaitAsIdent
  | shorthandValue
  | asyncModifier
  | commaInKey
  | jsxClosing (tag : String)
  | jsxFragmentClosing
  | jsxEmptyAttribute
  | jsxValue
  -- patterns and parameters
  | restComma
  | restNotLast
  | restWithoutIdent
  | restParameterLast
  | restOptional
  | restInitializer
  | optionalWithDefault
  | optionalPattern
  | initializerWithoutBody
  | parameterPropertyPattern
  | parameterPropertyOutside
  | getterParameters
  | setterParameter
  | restInSetter
  | useStrict
  -- statements
  | constWithoutValue
  | usingWithoutValue
  | usingPattern
  | usingInForIn
  | patternWithoutValue
  | returnOutside
  | breakOutside
  | breakLabel
  | continueLabel
  | jumpTarget
  | duplicateLabel (label : String)
  | withUnsupported
  | withStrict
  | lineBreakInThrow
  | multipleDefault
  | labelledFunction
  | labelledGenerator
  | typedForOf
  | typedForIn
  | forInPattern
  | forOfAsync
  | forOfInitializer
  | forOneBinding
  | forAwaitIn
  | declarationNotAllowed
  | trailingComma
  | emptyDeclarators
  | implementationInAmbient
  -- types
  | emptyTypeParameters
  | emptyTypeArguments
  | importTypeSource
  | requiredAfterOptional
  | indexParameters
  | privateInInterface
  | typeParameterModifier (modifier : String)
  | typeParameterModifierOfType (modifier : String)
  | typeParameterModifierOfFunction (modifier : String)
  -- classes
  | duplicateConstructor
  | abstractWithBody
  | abstractWithValue
  | abstractOutside
  | abstractModifier
  | declareModifier
  | modifierNotHere
  | privateModifier (modifier : String)
  | privateAccess
  | constructorAccessor
  | constructorField
  | constructorPrivate
  | asyncConstructor
  | generatorConstructor
  | constructorModifier (modifier : String)
  | readonlyMethod
  | readonlyAccessor
  | modifierOrder (before after : String)
  | modifierTwice (modifier : String)
  | modifierClash (modifier other : String)
  | constructorTypeParameters
  | constructorReturnType
  | overrideWithoutBase
  | extendsTwice
  | extendsAfterImplements
  | extendsSeveral
  | implementsTwice
  | invalidClassName
  | invalidInterfaceName
  | optionalMember
  -- modules and declarations
  | decoratorsTwice
  | exportNotAllowed
  | moduleItemInside
  | typeOnNamedImport
  | typeOnNamedExport
  | stringImportBinding (name : String)
  | stringExportBinding
  | exportNeedsFrom (name : String)
  | numericEnumMember
  | computedEnumMember
  | declareInAmbient
  | depth
  deriving DecidableEq, Repr, Inhabited

namespace Cause

def message : Cause → String
  | eof => "Unexpected eof"
  | expected token got => "Expected '" ++ token ++ "', got '" ++ got ++ "'"
  | unexpected got wanted => "Unexpected token `" ++ got ++ "`. Expected " ++ wanted
  | expectedIdent => "Expected ident"
  | statementEnd => "Expected ';', '\x7d' or <eof>"
  | semicolon => "Expected a semicolon"
  | expectedDigit radix =>
    match radix with
    | 2 => "Expected a binary digit"
    | 8 => "Expected an octal digit"
    | 16 => "Expected a hexadecimal digit"
    | _ => "Expected a decimal digit"
  | expression => "Expression expected"
  | unterminatedBlockComment => "Unterminated block comment"
  | unterminatedString => "Unterminated string constant"
  | unterminatedRegex => "Unterminated regexp literal"
  | unterminatedJsx => "Unterminated JSX contents"
  | unexpectedCharacter shown => "Unexpected character " ++ shown
  | badEscape what => "Bad character escape sequence, expected " ++ what
  | invalidEscape => "Invalid string escape"
  | invalidUnicodeEscape => "Invalid unicode escape"
  | unicodeEscapeExpected => "Expected unicode escape"
  | invalidIdentCharacter => "Invalid character in identifier"
  | legacyComment => "Legacy comments cannot be used in module code"
  | conflictMarker => "Merge conflict marker encountered."
  | legacyOctalLiteral => "Legacy octal literals are not available when targeting ECMAScript 5 and higher"
  | legacyOctal => "Legacy octal escape is not permitted in strict mode"
  | legacyDecimal => "Legacy decimal escape is not permitted in strict mode"
  | separator => "A numeric separator is only allowed between two digits"
  | exponentDigits => "Expected +, - or decimal digit after exponent"
  | identAfterNumber => "Identifier cannot follow number"
  | unknownRegexFlags => "Unknown regular expression flags."
  | duplicateRegexFlag flag => "Duplicated regular expression flag '" ++ flag.toString ++ "'."
  | jsxTextToken suggestions =>
    "Unexpected token. Did you mean " ++ " or ".intercalate suggestions ++ "?"
  | escapedKeyword word => "Unexpected escape sequence in reserved word: " ++ word
  | spaceAfterHash => "Unexpected space between # and identifier"
  | notAssignable =>
    "The left-hand side of an assignment expression must be a variable or a property access."
  | notSimple => "Cannot assign to this"
  | invalidTarget => "Invalid assignment target"
  | notPattern => "Not a pattern"
  | unaryBase => "'**' cannot be applied to unary/await expression."
  | mixedCoalescing =>
    "Nullish coalescing operator(??) requires parens when mixing with logical operators"
  | spreadInParens => "Parenthesized expression cannot contain spread operator"
  | emptyParens => "Parenthesized expression cannot be empty"
  | lineBreakBeforeArrow => "Unexpected line break between arrow head and arrow"
  | arrowNotAllowed => "An arrow function is not allowed here"
  | taggedInChain => "Tagged template literal is not allowed in optional chain."
  | constructorInChain => "Constructor in/after an optional chaining is not allowed."
  | superCallOptional => "Super call cannot be optional"
  | superCall => "Invalid `super()`"
  | superAccess => "Invalid access to super"
  | importNotAllowed => "Import is not allowed here"
  | nonNullOfKeyword word =>
    "Typescript non-null assertion operator is not allowed with '" ++ word ++ "'"
  | newTargetOutside => "'new.target' is only allowed in the body of a function declaration, function expression, or class."
  | awaitInFunction => "await isn't allowed in non-async function"
  | awaitInParameters => "`await` expressions cannot be used in a parameter initializer."
  | awaitStar =>
    "await* has been removed from the async functions proposal. Use Promise.all() instead."
  | yieldInParameters => "'yield' cannot be used as a parameter within generator"
  | deleteIdent => "'delete' cannot be called on an identifier in strict mode"
  | deleteOperand => "The operand of a delete must be a property reference."
  | evalOrArguments =>
    "'eval' and 'arguments' cannot be used as a binding identifier in strict mode"
  | argumentsAssigned => "Invalid use of 'arguments' in strict mode"
  | argumentsInField => "'arguments' is only allowed in functions and class methods"
  | strictIdent word => "`" ++ word ++ "` cannot be used as an identifier in strict mode"
  | awaitAsIdent => "`await` cannot be used as an identifier in an async context"
  | shorthandValue => "assignment property is invalid syntax"
  | asyncModifier => "`async` modifier cannot be used here"
  | commaInKey => "A comma expression is not allowed in a computed property name"
  | jsxClosing tag => "Expected corresponding JSX closing tag for <" ++ tag ++ ">"
  | jsxFragmentClosing => "Expected corresponding closing tag for <>"
  | jsxEmptyAttribute => "JSX attributes must only be assigned a non-empty expression"
  | jsxValue => "JSX value should be either an expression or a quoted JSX text"
  | restComma => "Trailing comma isn't permitted after a rest element"
  | restNotLast => "Rest element must be final element"
  | restWithoutIdent => "`...` must be followed by an identifier in declaration contexts"
  | restParameterLast => "A rest parameter must be last in a parameter list"
  | restOptional => "A rest parameter cannot be optional"
  | restInitializer => "A rest parameter cannot have an initializer"
  | optionalWithDefault => "Parameter cannot have question mark and initializer"
  | optionalPattern =>
    "A binding pattern parameter cannot be optional in an implementation signature."
  | initializerWithoutBody =>
    "A parameter initializer is only allowed in a function or constructor implementation"
  | parameterPropertyPattern =>
    "Typescript parameter property must be an identifier or assignment pattern"
  | parameterPropertyOutside =>
    "A parameter property is only allowed in a constructor implementation"
  | getterParameters => "A `get` accessor cannot have parameters"
  | setterParameter => "A `set` accessor must have exactly one parameter"
  | restInSetter => "Rest pattern is not allowed in setter"
  | useStrict =>
    "Illegal 'use strict' directive in function with non-simple parameter list."
  | constWithoutValue => "'const' declarations must be initialized"
  | usingWithoutValue => "Using declaration requires initializer"
  | usingPattern => "Using declaration only allows identifiers"
  | usingInForIn => "Using declaration is not allowed in for-in loop"
  | patternWithoutValue => "Destructuring bindings require initializers"
  | returnOutside => "Return statement is not allowed here"
  | breakOutside =>
    "A 'break' statement can only be used within an enclosing iteration or switch statement"
  | breakLabel => "A 'break' statement can only jump to a label of an enclosing statement"
  | continueLabel =>
    "A 'continue' statement can only jump to a label of an enclosing iteration statement"
  | jumpTarget => "Jump target cannot cross function boundary"
  | duplicateLabel label => "Label " ++ label ++ " is already declared"
  | withUnsupported =>
    "The 'with' statement is not supported. All symbols in a 'with' block will have type 'any'."
  | withStrict => "With statement are not allowed in strict mode"
  | lineBreakInThrow => "LineBreak cannot follow 'throw'"
  | multipleDefault => "A switch block cannot have multiple defaults"
  | labelledFunction => "Function cannot be labelled in strict mode"
  | labelledGenerator => "Generator or async function cannot be labelled"
  | typedForOf =>
    "The left-hand side of a 'for...of' statement cannot use a type annotation"
  | typedForIn =>
    "The left-hand side of a 'for...in' statement cannot use a type annotation"
  | forInPattern =>
    "The left-hand side of a 'for...in' statement cannot be a destructuring pattern"
  | forOfAsync => "The left-hand side of a `for...of` statement may not be `async`"
  | forOfInitializer => "Unexpected initializer in for in/of loop"
  | forOneBinding => "Expected one variable binding"
  | forAwaitIn => "for await syntax is valid only for for-of statement"
  | declarationNotAllowed => "Declaration is not allowed here"
  | trailingComma => "Trailing comma is not allowed"
  | emptyDeclarators => "Variable declaration list cannot be empty"
  | implementationInAmbient => "An implementation cannot be declared in ambient contexts"
  | emptyTypeParameters => "Type parameter list cannot be empty"
  | emptyTypeArguments => "Type argument list cannot be empty"
  | importTypeSource => "literal in an import type should be string literal"
  | requiredAfterOptional => "A required element cannot follow an optional element."
  | indexParameters => "An index signature must have exactly one parameter"
  | privateInInterface => "private names are not allowed in interface"
  | typeParameterModifier modifier =>
    "'" ++ modifier ++ "' modifier cannot appear on a type parameter"
  | typeParameterModifierOfType modifier =>
    "'" ++ modifier ++ "' modifier can only appear on a type parameter of a class, interface or type alias"
  | typeParameterModifierOfFunction modifier =>
    "'" ++ modifier ++ "' modifier can only appear on a type parameter of a function, method or class"
  | duplicateConstructor => "A class can only have one constructor"
  | abstractWithBody => "Abstract method cannot have an implementation."
  | abstractWithValue => "Abstract property cannot have an initializer."
  | abstractOutside => "Abstract methods can only appear within an abstract class."
  | abstractModifier => "`abstract` modifier can only appear on a class or method declaration"
  | declareModifier => "`declare` modifier cannot appear on class elements of this kind"
  | modifierNotHere => "Modifiers cannot appear here"
  | privateModifier modifier =>
    "'" ++ modifier ++ "' modifier cannot be used with a private identifier"
  | privateAccess => "An accessibility modifier cannot be used with a private identifier."
  | constructorAccessor => "Class constructor can't be an accessor."
  | constructorField => "Classes may not have a non-static field named 'constructor'"
  | constructorPrivate => "Classes can't have a private field named '#constructor'."
  | asyncConstructor => "Constructor can't be an async function"
  | generatorConstructor => "Constructor can't be a generator"
  | constructorModifier modifier =>
    "'" ++ modifier ++ "' modifier cannot appear on a constructor declaration"
  | readonlyMethod => "A method cannot be readonly"
  | readonlyAccessor => "A getter or a setter cannot be readonly"
  | modifierOrder before after =>
    "'" ++ before ++ "' modifier must precede '" ++ after ++ "' modifier."
  | modifierTwice modifier => "'" ++ modifier ++ "' modifier already seen."
  | modifierClash modifier other =>
    "'" ++ modifier ++ "' modifier cannot be used with '" ++ other ++ "' modifier."
  | constructorTypeParameters => "Type parameters cannot appear on a constructor declaration"
  | constructorReturnType => "Type annotation cannot appear on a constructor declaration"
  | overrideWithoutBase =>
    "This member cannot have an 'override' modifier because its containing class does not extend another class."
  | extendsTwice => "`extends` clause already seen."
  | extendsAfterImplements => "'extends' clause must precede 'implements' clause."
  | extendsSeveral => "Classes can only extend a single class"
  | implementsTwice => "`implements` clause already seen."
  | invalidClassName => "Invalid class name"
  | invalidInterfaceName => "interface name is invalid"
  | optionalMember => "An object member cannot be declared optional"
  | decoratorsTwice =>
    "Decorators may not appear after `export` or `export default` if they also appear before `export`."
  | exportNotAllowed => "`export` is not allowed here"
  | moduleItemInside => "'import', and 'export' cannot be used outside of module code"
  | typeOnNamedImport =>
    "The 'type' modifier cannot be used on a named import when 'import type' is used on its import statement."
  | typeOnNamedExport =>
    "The 'type' modifier cannot be used on a named export when 'export type' is used on its export statement."
  | stringImportBinding name =>
    "A string literal cannot be used as an imported binding.\n- Did you mean `import \x7b \"" ++ name ++
      "\" as foo \x7d`?"
  | stringExportBinding =>
    "A string literal cannot be used as an exported binding without `from`."
  | exportNeedsFrom name => "`" ++ name ++ "` cannot be used without `from` clause"
  | numericEnumMember => "An enum member cannot have a numeric name"
  | computedEnumMember => "Computed property names are not allowed in enums"
  | declareInAmbient => "`declare` modifier not allowed for code already in an ambient context"
  | depth => "Nesting is too deep"

end Cause

end TsBuild.Script
