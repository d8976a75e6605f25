import TypeLoom.Name.Normal
import TypeLoom.Name.Parse
import TypeLoom.Text.Alphabetic
import TypeLoom.Text.Capital

/-! Writing words in a casing, and the whole way from one identifier to another. -/
namespace TypeLoom.Name

/-- Keywords of primitive types. Alone in declaration position they are never raised. -/
def keywords : List String :=
  ["string", "number", "boolean", "object", "any", "unknown", "null", "undefined", "void", "never",
   "bigint", "symbol", "int", "long", "short", "byte", "double", "float", "decimal", "bool", "char",
   "dynamic"]

def capitalize (text : String) : String :=
  String.ofList (Text.capitalize text.toList)

/-- Raise the first letter of every segment between dots. -/
def capitalizeSegments (base : String) : String :=
  ".".intercalate ((Text.splitAt '.' base.toList).map fun segment =>
    String.ofList (Text.capitalize segment))

def Casing.separator : Casing → String
  | pascal | camel => ""
  | snake => "_"
  | kebab => "-"

/-- Whether the casing raises a word; `first` tells the leading word. -/
def Casing.raises (casing : Casing) (first : Bool) : Bool :=
  match casing with
  | pascal => true
  | camel => !first
  | snake | kebab => false

/-- Whether a word that is the only one keeps its spelling. -/
def keepsSpelling (position : Position) (base : String) : Bool :=
  position == .declaration && keywords.contains base

mutual

def renderWord (casing : Casing) (raised : Bool) : Word → String
  | .mk base rank arguments =>
    let head := if raised then capitalizeSegments base else base
    let list := match arguments with
      | [] => ""
      | _ :: _ => "<" ++ ", ".intercalate (renderArguments casing arguments) ++ ">"
    head ++ list ++ rank.getD ""

def renderArguments (casing : Casing) : List (List Word) → List String
  | [] => []
  | words :: rest =>
    casing.separator.intercalate (renderWords casing .declaration words.length true words) ::
      renderArguments casing rest

/-- The words of a list of `count`, of which `first` tells whether the leading one is still to come.
-/
def renderWords (casing : Casing) (position : Position) (count : Nat) (first : Bool) :
    List Word → List String
  | [] => []
  | word :: rest =>
    let kept := count == 1 && keepsSpelling position word.base
    renderWord casing (!kept && casing.raises first) word ::
      renderWords casing position count false rest

end

def render (words : List Word) (casing : Casing) (position : Position) : String :=
  casing.separator.intercalate (renderWords casing position words.length true words)

/-- An identifier put into `casing`. -/
def convert (raw : String) (casing : Casing) (position : Position) : String :=
  render (parse (normalize raw)) casing position

/-- The form in which names are put together: Pascal case in member position. -/
def pascal (raw : String) : String :=
  convert raw .pascal .member

/-- Maximal runs of letters and digits. -/
def alphanumericRuns : List Char → List (List Char)
  | [] => [[]]
  | c :: rest =>
    if Text.isAlphanumeric c then Text.consHead c (alphanumericRuns rest)
    else [] :: alphanumericRuns rest

def joinRun (casing : Casing) (run : List Char) : List Char :=
  match casing with
  | .snake => '_' :: run
  | .kebab => '-' :: run
  | .pascal | .camel => Text.capitalize run

/-- Only letters and digits of an identifier. Each run after the first is joined on as the casing
says. -/
def enumMember (rendered : String) (casing : Casing) : String :=
  match (alphanumericRuns rendered.toList).filter (· ≠ []) with
  | [] => ""
  | first :: rest => String.ofList (first ++ rest.flatMap (joinRun casing))

end TypeLoom.Name
