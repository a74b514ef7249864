import SyntaxForest.Yaml.Cursor

/-!
The tokens of a YAML text: signs, scalars, what is said about nodes, and the beginnings and ends of
blocks, which are seen from the indentation.
-/

namespace SyntaxForest.Yaml

/-- What a line that begins with a percent sign says. -/
inductive Directive where
  | version (major minor : Nat)
  | handle (name meaning : String)
  | unknown
deriving DecidableEq, Repr

inductive TokenKind where
  | streamEnd
  | directive (d : Directive)
  | documentStart
  | documentEnd
  | blockSequenceStart
  | blockMappingStart
  | blockEnd
  | flowSequenceStart
  | flowMappingStart
  | flowSequenceEnd
  | flowMappingEnd
  | blockEntry
  | flowEntry
  | key
  | value
  | reference (name : String)
  | anchor (name : String)
  /-- The tag of a node: a handle, if it has one, and the rest. -/
  | tag (handle : Option String) (suffix : String)
  | scalar (text : WideText) (bare : Bool)
deriving DecidableEq, Repr

namespace TokenKind

/-- The kind of token as it is shown in messages. -/
def shown : TokenKind → String
  | streamEnd => "<stream end>"
  | directive _ => "<directive>"
  | documentStart => "<document start>"
  | documentEnd => "<document end>"
  | blockSequenceStart => "<block sequence start>"
  | blockMappingStart => "<block mapping start>"
  | blockEnd => "<block end>"
  | flowSequenceStart => "["
  | flowMappingStart => "\x7b"
  | flowSequenceEnd => "]"
  | flowMappingEnd => "\x7d"
  | blockEntry => "-"
  | flowEntry => ","
  | key => "?"
  | value => ":"
  | reference _ => "<alias>"
  | anchor _ => "<anchor>"
  | tag _ _ => "<tag>"
  | scalar _ _ => "<scalar>"

def isDirective : TokenKind → Bool
  | directive _ => true
  | _ => false

end TokenKind

/-- A token with the places where it begins and ends. -/
structure Token where
  kind : TokenKind
  start : Mark
  stop : Mark

end SyntaxForest.Yaml
