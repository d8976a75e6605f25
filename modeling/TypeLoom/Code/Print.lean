import TypeLoom.Code.Tree
import TypeLoom.Code.Text

/-! Source text of the declaration tree. Every part is written without indentation and indented by
the part around it. -/
namespace TypeLoom.Code

/-- `name<a, b>`, or the name alone without arguments. -/
def withArguments (name : String) (arguments : List String) : String :=
  match arguments with
  | [] => name
  | _ :: _ => name ++ "<" ++ ", ".intercalate arguments ++ ">"

mutual

def TypeRef.print : TypeRef → String
  | .named name arguments => withArguments name (printTypes arguments)
  | .array element => element.print ++ "[]"

def printTypes : List TypeRef → List String
  | [] => []
  | type :: rest => type.print :: printTypes rest

end

mutual

def Expr.print : Expr → String
  | .null => "null"
  | .default => "default"
  | .bool value => if value then "true" else "false"
  | .number value => numberLiteral value
  | .text value => stringLiteral value
  | .array element items =>
    match items with
    | [] => "new " ++ element.print ++ "[0]"
    | _ :: _ =>
      "new " ++ element.print ++ "[] \x7b " ++ ", ".intercalate (printExprs items) ++ " \x7d"

def printExprs : List Expr → List String
  | [] => []
  | item :: rest => item.print :: printExprs rest

end

/-! ### Members -/

def Property.print (p : Property) : String :=
  let tag := match p.jsonName with
    | some name => "[JsonPropertyName(" ++ stringLiteral name ++ ")]\n"
    | none => ""
  let mark := if p.nullable then "?" else ""
  let accessors := if p.readonly then "\x7b get; \x7d" else "\x7b get; set; \x7d"
  let value := match p.initializer with
    | some value => " = " ++ value.print ++ ";"
    | none => ""
  optionalDocComment p.comment ++ tag ++ "public " ++ p.type.print ++ mark ++ " " ++ p.name ++
    " " ++ accessors ++ value

def EnumMember.print (m : EnumMember) : String :=
  let tag := match m.wire with
    | some wire => "[EnumMember(Value = " ++ stringLiteral wire ++ ")]\n"
    | none => ""
  let value := match m.value with
    | some value => " = " ++ toString value
    | none => ""
  tag ++ m.name ++ value ++ ","

def Field.print (f : Field) : String :=
  let modifier := if f.isConst then "const" else "static readonly"
  optionalDocComment f.comment ++ "public " ++ modifier ++ " " ++ f.type.print ++ " " ++ f.name ++
    " = " ++ f.value.print ++ ";"

/-! ### Declarations -/

/-- Braces around indented text; nothing between them if there is no text. -/
def braces (parts : List String) (separator : String) : String :=
  match parts with
  | [] => "\x7b\n\x7d"
  | _ :: _ => "\x7b\n" ++ indent (separator.intercalate parts) 1 ++ "\n\x7d"

/-- Members separated by blank lines. -/
def block (members : List String) : String :=
  braces members "\n\n"

/-- Members on successive lines. -/
def compactBlock (members : List String) : String :=
  braces members "\n"

def constructorText (name : String) (parameters : List Parameter) : String :=
  "public " ++ name ++ "(" ++
    ", ".intercalate (parameters.map fun p => p.type.print ++ " " ++ p.name) ++ ")\n    : base(" ++
    ", ".intercalate (parameters.map Parameter.name) ++ ")\n\x7b\n\x7d"

def Class.print (c : Class) : String :=
  let base := match c.base with
    | some base => " : " ++ base.print
    | none => ""
  optionalDocComment c.comment ++ "public class " ++ withArguments c.name c.generics ++
    base ++ "\n" ++
    block ((c.constructor.map (constructorText c.name)).toList ++ c.properties.map Property.print)

def Enum.print (e : Enum) : String :=
  let tag :=
    if e.stringConverter then "[JsonConverter(typeof(JsonStringEnumConverter))]\n" else ""
  optionalDocComment e.comment ++ tag ++ "public enum " ++ e.name ++ "\n" ++
    compactBlock (e.members.map EnumMember.print)

def Constants.print (c : Constants) : String :=
  "public static class " ++ c.name ++ "\n" ++ block (c.fields.map Field.print)

/-- Braces that stay on lines of their own even around nothing. -/
def looseBlock (text : String) : String :=
  "\x7b\n" ++ indent text 1 ++ "\n\x7d"

def caseText (full : String) (i : String) : String :=
  "public sealed class Case" ++ i ++ " : " ++ full ++ "\n" ++
    looseBlock
      ("public Case" ++ i ++ "(T" ++ i ++ " value)\n\x7b\n    Value = value;\n\x7d\n\n" ++
       "public T" ++ i ++ " Value \x7b get; \x7d\n\n" ++
       "public override TResult Match<TResult>(IVisitor<TResult> visitor) => visitor.VisitCase" ++
       i ++ "(Value);")

def UnionFamily.print (u : UnionFamily) : String :=
  let cases := (List.range u.arity).map fun i => toString (i + 1)
  let full := withArguments u.name (cases.map ("T" ++ ·))
  let visits := cases.map fun i => "TResult VisitCase" ++ i ++ "(T" ++ i ++ " value);"
  let members :=
    ["private " ++ u.name ++ "()\n\x7b\n\x7d",
     "public interface IVisitor<TResult>\n" ++ looseBlock ("\n".intercalate visits),
     "public abstract TResult Match<TResult>(IVisitor<TResult> visitor);"]
  "public abstract class " ++ full ++ "\n" ++ block (members ++ cases.map (caseText full))

def Declaration.print : Declaration → String
  | record decl => decl.print
  | enumeration decl => decl.print
  | constants decl => decl.print
  | union decl => decl.print

def headerLine (line : String) : String :=
  if line.isEmpty then "//\n" else "// " ++ line ++ "\n"

def File.print (f : File) : String :=
  let body := match f.declarations with
    | [] => ""
    | _ :: _ => indent ("\n\n".intercalate (f.declarations.map Declaration.print)) 1 ++ "\n"
  "// <auto-generated />\n" ++ String.join (f.header.map headerLine) ++
    String.join (f.usings.map fun u => "using " ++ u ++ ";\n") ++ "\nnamespace " ++ f.space ++
    "\n\x7b\n" ++ body ++ "\x7d\n"

end TypeLoom.Code
