/-!
Beginnings, ends and parts of a text, compared character by character.
-/

namespace SyntaxForest.Text

/-- The list has `part` somewhere inside it. -/
def hasPart (part : List Char) : List Char → Bool
  | [] => part.isEmpty
  | c :: rest => part.isPrefixOf (c :: rest) || hasPart part rest

/-- The text has `part` somewhere inside it. -/
def mentions (s part : String) : Bool := hasPart part.toList s.toList

def startsWith (s beginning : String) : Bool := beginning.toList.isPrefixOf s.toList

def endsWith (s ending : String) : Bool := ending.toList.isSuffixOf s.toList

end SyntaxForest.Text
