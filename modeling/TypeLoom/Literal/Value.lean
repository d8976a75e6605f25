import TypeLoom.Number.Shortest
import TypeLoom.Text.Visible

/-! Constant values, and why a text is not one. -/
namespace TypeLoom.Literal

inductive Value where
  | null
  | bool (value : Bool)
  | number (value : Double)
  | text (value : String)
  | array (items : List Value)

def Value.isNull : Value → Bool
  | null => true
  | _ => false

mutual

/-- The value as text: strings are quoted, arrays bracketed. -/
def Value.display : Value → String
  | .null => "null"
  | .bool value => if value then "true" else "false"
  | .number value => value.text
  | .text value => String.ofList (Text.quote value.toList)
  | .array items => "[" ++ ", ".intercalate (displayAll items) ++ "]"

def displayAll : List Value → List String
  | [] => []
  | item :: rest => item.display :: displayAll rest

end

/-- Why a text is not a constant. Offsets count characters from the first one that is not blank. -/
inductive Error where
  | empty
  | unexpected (found : Char) (offset : Nat)
  | unterminatedString (offset : Nat)
  | interpolation
  | invalidEscape (escape : Char)
  | invalidNumber (text : String)
  | unterminatedArray
  | unsupported (word : String)
  | trailingInput (rest : String)
deriving DecidableEq, Repr

def Error.message : Error → String
  | empty => "empty initializer"
  | unexpected found offset =>
    "unexpected character '" ++ found.toString ++ "' at offset " ++ toString offset
  | unterminatedString offset =>
    "unterminated string literal starting at offset " ++ toString offset
  | interpolation => "template literal with interpolation is not a constant"
  | invalidEscape escape => "invalid escape sequence '\\" ++ escape.toString ++ "'"
  | invalidNumber text => "invalid number literal '" ++ text ++ "'"
  | unterminatedArray => "unterminated array literal"
  | unsupported word => "unsupported expression '" ++ word ++ "'"
  | trailingInput rest => "trailing input '" ++ rest ++ "'"

end TypeLoom.Literal
