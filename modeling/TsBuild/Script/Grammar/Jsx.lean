import TsBuild.Script.Grammar.Type

/-!
# JSX

Elements are cut into tokens of their own: names with hyphens, text up to the next tag, and the
ends of tags.
-/

namespace TsBuild.Script.Grammar

open Read

variable [Descent]

def isTagStart : TokenKind → Bool
  | .jsxTagStart => true
  | _ => false

def isTagEnd : TokenKind → Bool
  | .jsxTagEnd => true
  | _ => false

def jsxIdentifier : Read Node := do
  match ← require with
  | ⟨.jsxName name, span, _⟩ =>
    bump
    return .mk (.ident name 0) span []
  | _ => failUnexpected "jsx identifier"

def jsxName : Read Node := do
  let start ← pos
  let first ← jsxIdentifier
  if ← eatPunct ":" then
    let second ← jsxIdentifier
    return .mk .jsxNamespaced (← spanFrom start)
      [first.withKind (.name first.nameText), second.withKind (.name second.nameText)]
  else return first

def jsxElementName : Read Node := do
  let start ← pos
  let first ← jsxName
  loop first fun object => do
    if ← eatPunct "." then
      let property ← jsxIdentifier
      return .inl (.mk .member (← spanFrom start)
        [object, property.withKind (.name property.nameText)])
    else return .inr object

/-- The name as it is written, for comparing the tags of an element. -/
def tagText : Node → String
  | .mk .member _ [object, property] => tagText object ++ "." ++ property.nameText
  | .mk .jsxNamespaced _ [space, name] => space.nameText ++ ":" ++ name.nameText
  | .mk kind _ _ => (Node.mk kind .none []).nameText

def jsxContainer : Read Node := do
  let start ← pos
  bump
  let expression ←
    if ← isPunct "\x7d" then do
      let here ← pos
      pure (Node.mk .absent ⟨here, here⟩ [])
    else read .expression
  expectPunct "\x7d"
  return .mk .jsxContainer (← spanFrom start) [expression]

def jsxSpread (kind : Kind) : Read Node := do
  let start ← pos
  bump
  let inner ← pos
  expectPunct "..."
  let expression ← if kind matches .spread then read .assignment else read .expression
  let span ← spanFrom (if kind matches .spread then inner else start)
  expectPunct "\x7d"
  let span ← if kind matches .spread then pure span else spanFrom start
  return .mk kind span [expression]

def jsxAttributeValue : Read Node := do
  let token ← require
  match token.kind with
  | .punct "\x7b" =>
    let container ← jsxContainer
    if (container.child 0).isAbsent then failAt container.span .jsxEmptyAttribute
    return container
  | .str value raw =>
    bump
    return .mk (.str value (some raw)) token.span []
  | .jsxTagStart => read .jsxElement
  | _ => failHere .jsxValue

def jsxAttribute : Read Node := do
  if ← isPunct "\x7b" then return ← jsxSpread .spread
  let start ← pos
  let name ← jsxName
  let name := if name.kind matches .ident .. then name.withKind (.name name.nameText) else name
  let value ← if ← eatPunct "=" then jsxAttributeValue else pure .absent
  return .mk .jsxAttribute (← spanFrom start) [name, value]

/-- What stands between the tags of an element: children, and where the closing tag begins. -/
def jsxChildren : Read (List Node × Pos) := do
  loop ([] : List Node) fun children => do
    let token ← require
    match token.kind with
    | .jsxTagStart =>
      if ← nextIsPunct "/" then
        bump
        bump
        return .inr (children.reverse, token.span.lo)
      else return .inl ((← read .jsxElement) :: children)
    | .jsxText value raw =>
      bump
      return .inl (.mk (.jsxText value raw) token.span [] :: children)
    | .punct "\x7b" =>
      let child ←
        if ← nextIsPunct "..." then jsxSpread .jsxSpreadChild else jsxContainer
      return .inl (child :: children)
    | _ => failUnexpected "< (jsx tag start), jsx text or \x7b"

def endClosingTag : Read Unit := do
  unless ← eat isTagEnd do failHere (.expected "> (jsx tag end)" (← shown))

def jsxFragment (start : Pos) : Read Node := do
  let opening ← spanFrom start
  let (children, closingStart) ← jsxChildren
  unless ← eat isTagEnd do
    let _ ← jsxElementName
    endClosingTag
    failAt (← spanFrom closingStart) .jsxFragmentClosing
  let closing ← spanFrom closingStart
  return .mk .jsxFragment (← spanFrom start)
    [.mk .list opening [], .mk .list .none children, .mk .list closing []]

def jsxElement : Read Node := do
  let start ← pos
  bump
  if ← eat isTagEnd then return ← jsxFragment start
  let name ← jsxElementName
  let types ← if ← isPunct "<" then attempt (do return some (← typeArguments)) else pure none
  let attributes ← whileM
    (do
      if ← atEnd then return false
      isKind fun kind => !(kind.isPunct "/" || isTagEnd kind))
    jsxAttribute
  let closesItself ← eatPunct "/"
  unless ← eat isTagEnd do failUnexpected "> (jsx closing tag)"
  let attributes := Node.mk .list (← spanFrom start) attributes
  if closesItself then
    return .mk .jsxElement (← spanFrom start) ([name, attributes, .list [], .absent] ++ types.toList)
  let (children, closingStart) ← jsxChildren
  if ← eat isTagEnd then failAt (← spanFrom closingStart) (.jsxClosing (tagText name))
  let closing ← jsxElementName
  endClosingTag
  let closingSpan ← spanFrom closingStart
  unless tagText closing = tagText name do failAt closingSpan (.jsxClosing (tagText name))
  return .mk .jsxElement (← spanFrom start)
    ([name, attributes, .list children, .mk .list closingSpan [closing]] ++ types.toList)

end TsBuild.Script.Grammar
