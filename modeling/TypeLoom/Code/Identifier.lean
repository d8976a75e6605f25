import TypeLoom.Text.Alphabetic

/-! Valid C# identifiers. -/
namespace TypeLoom.Code

def reservedWords : List String :=
  ["abstract", "as", "base", "bool", "break", "byte", "case", "catch", "char", "checked", "class",
   "const", "continue", "decimal", "default", "delegate", "do", "double", "else", "enum", "event",
   "explicit", "extern", "false", "finally", "fixed", "float", "for", "foreach", "goto", "if",
   "implicit", "in", "int", "interface", "internal", "is", "lock", "long", "namespace", "new",
   "null", "object", "operator", "out", "override", "params", "private", "protected", "public",
   "readonly", "ref", "return", "sbyte", "sealed", "short", "sizeof", "stackalloc", "static",
   "string", "struct", "switch", "this", "throw", "true", "try", "typeof", "uint", "ulong",
   "unchecked", "unsafe", "ushort", "using", "virtual", "void", "volatile", "while"]

def identifierChar (c : Char) : Char :=
  if Text.isAlphanumeric c || c == '_' then c else '_'

/-- An underscore in front of a leading digit, or in place of nothing. -/
def guardDigit : List Char → List Char
  | [] => ['_']
  | c :: rest => if c.isDigit then '_' :: c :: rest else c :: rest

/-- A valid identifier: other characters become underscores, and a reserved word gets a mark. -/
def identifier (name : String) : String :=
  let word := String.ofList (guardDigit (name.toList.map identifierChar))
  if reservedWords.contains word then "@" ++ word else word

end TypeLoom.Code
