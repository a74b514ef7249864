/-!
Line ends. A line ends with a line feed, a carriage return, or both; text that is read from a file
has line feeds only.
-/

namespace SyntaxForest.Text

/-- The text with a line feed at the end of every line. -/
def unifyBreaks : List Char → List Char
  | [] => []
  | '\r' :: '\n' :: rest => '\n' :: unifyBreaks rest
  | '\r' :: rest => '\n' :: unifyBreaks rest
  | c :: rest => c :: unifyBreaks rest

end SyntaxForest.Text
