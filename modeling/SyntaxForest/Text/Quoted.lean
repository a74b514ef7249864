import SyntaxForest.Text.Printable
import SyntaxForest.Text.WideText

/-!
Quoted text: one line that shows a text between quotes, with escapes for what cannot be shown.

The quote is a single one unless the text holds a single quote and no double quote. A backslash and
the quote itself are escaped by a backslash, line feed, carriage return and tab by their letters,
and every other unprintable character by its code point in hexadecimal: two digits after `x`, four
after `u` or eight after `U`, whichever is the first that fits.
-/

namespace SyntaxForest.Text

/-- The lower-case hexadecimal digits of `n`, with zeros in front up to `width`. -/
def hexDigits (width n : Nat) : List Char :=
  let digits := Nat.toDigits 16 n
  List.replicate (width - digits.length) '0' ++ digits

/-- The quote that needs fewer escapes, the single one if both do. -/
def quoteFor (cs : List Char) : Char :=
  if cs.contains '\'' && !cs.contains '"' then '"' else '\''

/-- The escape of a character or a half by its code point. -/
def codeEscape (code : Nat) : List Char :=
  if code < 0x100 then '\\' :: 'x' :: hexDigits 2 code
  else if code < 0x10000 then '\\' :: 'u' :: hexDigits 4 code
  else '\\' :: 'U' :: hexDigits 8 code

/-- How one character is written between quotes. -/
def quoteChar (quote c : Char) : List Char :=
  if c = quote || c = '\\' then ['\\', c]
  else if c = '\n' then ['\\', 'n']
  else if c = '\r' then ['\\', 'r']
  else if c = '\t' then ['\\', 't']
  else if isPrintable c then [c]
  else codeEscape c.toNat

/-- The text between quotes. -/
def quoted (s : String) : String :=
  let quote := quoteFor s.toList
  String.ofList (quote :: s.toList.flatMap (quoteChar quote) ++ [quote])

/-- Bytes between quotes, shown as the ASCII characters that they number, with a letter in front. -/
def quotedBytes (bytes : List UInt8) : String :=
  let cs := bytes.map fun b => Char.ofNat b.toNat
  let quote := quoteFor cs
  let shown (c : Char) : List Char :=
    if c.toNat < 127 then quoteChar quote c else codeEscape c.toNat
  String.ofList ('b' :: quote :: cs.flatMap shown ++ [quote])

/-- The text with escapes for its characters from outside the ASCII range. -/
def asciiOnly (s : String) : String :=
  String.ofList (s.toList.flatMap fun c => if c.toNat < 128 then [c] else codeEscape c.toNat)

end SyntaxForest.Text

namespace SyntaxForest.WideText

/-- How a code point, that of a character or a half, is written between quotes. -/
def quoteCode (quote : Char) (code : Nat) : List Char :=
  if isHalf code then Text.codeEscape code else Text.quoteChar quote (Char.ofNat code)

/-- The text between quotes, its halves as escapes. -/
def quoted (w : WideText) : String :=
  let quote := Text.quoteFor w.spelling.toList
  String.ofList (quote :: w.codes.flatMap (quoteCode quote) ++ [quote])

end SyntaxForest.WideText
