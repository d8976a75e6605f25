import TypeLoom.Number.Shortest
import TypeLoom.Text.Basic
import TypeLoom.Text.Visible

/-! Texts inside C# source: string literals, number literals, doc comments, indentation. -/
namespace TypeLoom.Code

/-- Control characters: C0, delete and C1. -/
def isControl (c : Char) : Bool :=
  c.toNat < 0x20 || (0x7F ≤ c.toNat && c.toNat < 0xA0)

/-- Four or more hexadecimal digits. -/
def fourHexDigits (n : Nat) : List Char :=
  let digits := Text.hexDigits n
  List.replicate (4 - digits.length) '0' ++ digits

/-- The spelling of one character in a string literal. -/
def escapeChar (c : Char) : List Char :=
  if c = '\\' then ['\\', '\\']
  else if c = '"' then ['\\', '"']
  else if c = '\n' then ['\\', 'n']
  else if c = '\r' then ['\\', 'r']
  else if c = '\t' then ['\\', 't']
  else if c = '\x00' then ['\\', '0']
  else if isControl c then '\\' :: 'u' :: fourHexDigits c.toNat
  else [c]

def escapeChars (text : List Char) : List Char :=
  text.flatMap escapeChar

/-- The text between the quotes of a string literal. -/
def escape (text : String) : String :=
  String.ofList (escapeChars text.toList)

def stringLiteral (text : String) : String :=
  "\"" ++ escape text ++ "\""

def escapeXmlChar (c : Char) : List Char :=
  if c = '&' then "&amp;".toList
  else if c = '<' then "&lt;".toList
  else if c = '>' then "&gt;".toList
  else [c]

def escapeXmlChars (text : List Char) : List Char :=
  text.flatMap escapeXmlChar

/-- Text of an XML doc comment. -/
def escapeXml (text : String) : String :=
  String.ofList (escapeXmlChars text.toList)

/-- A literal of type `double`: integers below 10^15 without a point, everything else with one. -/
def numberLiteral (x : Double) : String :=
  if x.isNaN then "double.NaN"
  else if x.isInfinite then
    if x.negative then "double.NegativeInfinity" else "double.PositiveInfinity"
  else match x.integer? with
    | some n => if n.natAbs < 1000000000000000 then toString n else x.text ++ ".0"
    | none => x.text

def commentLine (line : List Char) : List Char :=
  match Text.trimEnd line with
  | [] => "///\n".toList
  | text => "/// ".toList ++ escapeXmlChars text ++ ['\n']

/-- A summary block with one comment line for every line of the text. -/
def docComment (comment : String) : String :=
  "/// <summary>\n" ++ String.ofList ((Text.lines comment.toList).flatMap commentLine) ++
    "/// </summary>\n"

def optionalDocComment (comment : Option String) : String :=
  (comment.map docComment).getD ""

/-- Indent every line that is not empty by `levels` steps of four blanks. -/
def indent (text : String) (levels : Nat) : String :=
  let margin := List.replicate (4 * levels) ' '
  "\n".intercalate ((Text.lines text.toList).map fun line =>
    if line = [] then "" else String.ofList (margin ++ line))

end TypeLoom.Code
