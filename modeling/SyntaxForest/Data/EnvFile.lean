import SyntaxForest.Data.Assoc
import SyntaxForest.Text.Blank
import SyntaxForest.Text.Lines

/-!
Files of variables: one assignment of a value to a name on each line.

A value stands between quotes, and then may take several lines and hold escapes, or it is the rest
of its line without a comment that follows a blank. A name without an equals sign is kept without a
value. A line that cannot be read is left out, and reading goes on after it.

Values may refer to other variables, `${name}` or `${name:-default}`: to those given earlier in the
file, and then to those of the environment.
-/

namespace SyntaxForest.EnvFile

open SyntaxForest

/-- A name with the value that is assigned to it, if there is one. -/
abbrev Binding := String × Option String

/-! ### Lines -/

/-- A blank that does not end a line. -/
def isInnerBlank (c : Char) : Bool := Text.isBlank c && c ≠ '\n'

def skipInner (cs : List Char) : List Char := cs.dropWhile isInnerBlank

/-- The text after the current line. -/
def skipLine (cs : List Char) : List Char := (cs.dropWhile (· ≠ '\n')).drop 1

/-- The text after the end of a line on which at most a comment is left. -/
def endLine? (cs : List Char) : Option (List Char) :=
  match skipInner cs with
  | [] => some []
  | c :: rest => if c = '\n' then some rest else if c = '#' then some (skipLine rest) else none

/-! ### Names -/

/-- The text without the word that marks an exported name. -/
def skipExport (cs : List Char) : List Char :=
  match cs with
  | 'e' :: 'x' :: 'p' :: 'o' :: 'r' :: 't' :: c :: rest =>
    if isInnerBlank c then skipInner rest else cs
  | _ => cs

/-- A name between single quotes, or up to an equals sign, a hash mark or a blank. It is not
empty. -/
def readName? (cs : List Char) : Option (String × List Char) :=
  let (name, rest) := match cs with
    | '\'' :: rest =>
      let after := rest.dropWhile (· ≠ '\'')
      (if after.isEmpty then [] else rest.takeWhile (· ≠ '\''), after.drop 1)
    | _ =>
      let inName (c : Char) : Bool := c ≠ '=' && c ≠ '#' && !Text.isBlank c
      (cs.takeWhile inName, cs.dropWhile inName)
  if name.isEmpty then none else some (String.ofList name, rest)

/-! ### Values -/

/-- The text up to the closing quote and what follows the quote. A backslash and the character after
it belong together, so that a quote after a backslash does not close the text. -/
def untilQuote? (quote : Char) : List Char → Option (List Char × List Char)
  | [] => none
  | '\\' :: c :: rest => (untilQuote? quote rest).map fun r => ('\\' :: c :: r.1, r.2)
  | c :: rest =>
    if c = quote then some ([], rest)
    else (untilQuote? quote rest).map fun r => (c :: r.1, r.2)

/-- What a letter after a backslash stands for inside double quotes. -/
def escape? (c : Char) : Option Char :=
  if c = '\\' || c = '\'' || c = '"' then some c
  else if c = 'a' then some (Char.ofNat 7)
  else if c = 'b' then some (Char.ofNat 8)
  else if c = 't' then some '\t'
  else if c = 'n' then some '\n'
  else if c = 'v' then some (Char.ofNat 11)
  else if c = 'f' then some (Char.ofNat 12)
  else if c = 'r' then some '\r'
  else none

/-- What may follow a backslash inside single quotes. -/
def plainEscape? (c : Char) : Option Char := if c = '\\' || c = '\'' then some c else none

/-- The text with its escapes replaced. -/
def unescape (escape : Char → Option Char) : List Char → List Char
  | '\\' :: c :: rest =>
    match escape c with
    | some e => e :: unescape escape rest
    | none => '\\' :: unescape escape (c :: rest)
  | c :: rest => c :: unescape escape rest
  | [] => []

/-- The text without a comment that follows a blank. -/
def withoutComment (blank : Bool) : List Char → List Char
  | [] => []
  | c :: rest => if blank && c = '#' then [] else c :: withoutComment (Text.isBlank c) rest

/-- The value after an equals sign, and what follows it. -/
def readValue? (cs : List Char) : Option (String × List Char) :=
  match skipInner cs with
  | '\'' :: rest =>
    (untilQuote? '\'' rest).map fun r => (String.ofList (unescape plainEscape? r.1), r.2)
  | '"' :: rest =>
    (untilQuote? '"' rest).map fun r => (String.ofList (unescape escape? r.1), r.2)
  | _ =>
    let line := cs.takeWhile (· ≠ '\n')
    some (Text.trim (String.ofList (withoutComment false line)), cs.dropWhile (· ≠ '\n'))

/-! ### Files -/

/-- What stands after a name: an equals sign and a value, or nothing. -/
def readAssigned? (cs : List Char) : Option (Option String × List Char) :=
  match skipInner cs with
  | '=' :: rest => (readValue? rest).map fun r => (some r.1, r.2)
  | rest => some (none, rest)

/-- The binding that begins here, if there is one, and what follows its line. The text has no blanks
in front. -/
def readBinding (cs : List Char) : Option Binding × List Char :=
  let start := skipExport cs
  if start.head? = some '#' then (none, skipLine start)
  else
    match readName? start with
    | none => (none, skipLine start)
    | some (name, afterName) =>
      match readAssigned? afterName with
      | none => (none, skipLine (skipInner afterName))
      | some (value, afterValue) =>
        match endLine? afterValue with
        | some rest => (some (name, value), rest)
        | none => (none, skipLine afterValue)

/-- The bindings of a text, at most `fuel` of them. -/
def readBindings : Nat → List Char → List Binding
  | 0, _ => []
  | fuel + 1, cs =>
    match cs.dropWhile Text.isBlank with
    | [] => []
    | start =>
      let (binding, rest) := readBinding start
      binding.toList ++ readBindings fuel rest

/-- The bindings of a file, in order. A mark of the byte order at its beginning does not count. -/
def bindings (file : String) : List Binding :=
  let cs := Text.unifyBreaks file.toList
  let cs := if cs.head? = some (Char.ofNat 0xFEFF) then cs.tail else cs
  readBindings cs.length cs

/-! ### References -/

/-- The name and the default of a reference whose text begins after its opening brace. -/
def reference? (cs : List Char) : Option (String × String × List Char) :=
  let inName (c : Char) : Bool := c ≠ '\x7d' && c ≠ ':'
  let name := String.ofList (cs.takeWhile inName)
  match cs.dropWhile inName with
  | '\x7d' :: rest => some (name, "", rest)
  | ':' :: '-' :: rest =>
    match rest.dropWhile (· ≠ '\x7d') with
    | _ :: after => some (name, String.ofList (rest.takeWhile (· ≠ '\x7d')), after)
    | [] => none
  | _ => none

/-- The text with its references replaced by what `lookup` says of a name and a default; at most
`fuel` characters and references. -/
def resolve (lookup : String → String → String) : Nat → List Char → List Char
  | 0, cs => cs
  | _, [] => []
  | fuel + 1, '$' :: '\x7b' :: rest =>
    match reference? rest with
    | some (name, default, after) => (lookup name default).toList ++ resolve lookup fuel after
    | none => '$' :: resolve lookup fuel ('\x7b' :: rest)
  | fuel + 1, c :: rest => c :: resolve lookup fuel rest

/-- The value of a variable: that of the file so far, that of the environment, the default. A name
without a value stands for the empty text. -/
def valueOf (environment : Assoc String String) (sofar : Assoc String (Option String))
    (name default : String) : String :=
  match Assoc.get? sofar name with
  | some value => value.getD ""
  | none => (Assoc.get? environment name).getD default

/-- The variables of a file, with the references in their values resolved one after another. -/
def read (environment : Assoc String String) (file : String) : Assoc String (Option String) :=
  (bindings file).foldl (fun sofar binding =>
    Assoc.set sofar binding.1 (binding.2.map fun value =>
      String.ofList (resolve (valueOf environment sofar) value.length value.toList))) []

end SyntaxForest.EnvFile
