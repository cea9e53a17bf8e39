import CliMetadata.Binding.Lifetime

set_option autoImplicit false

namespace CliMetadata

def withoutArity (skipping : Bool) : List Char → List Char
  | [] => []
  | c :: rest =>
    if skipping && c.isDigit then withoutArity true rest
    else if c == '`' && rest.head?.any Char.isDigit then withoutArity true rest
    else c :: withoutArity false rest

structure NodeNames where
  type : TypeId → Option String
  param : GenericParamId → Option String

namespace TypeNode

def dropped : String := "<dropped>"

mutual

def text (names : NodeNames) : TypeNode → String
  | .bound _ definition args =>
    match names.type definition, args with
    | none, _ => dropped
    | some name, [] => name
    | some name, first :: rest =>
      String.ofList (withoutArity false name.toList) ++ "<" ++ text names first ++
        textRest names rest ++ ">"
  | .array element => text names element ++ "[]"
  | .mdArray element rank =>
    text names element ++ "[" ++ String.ofList (List.replicate (rank - 1) ',') ++ "]"
  | .pointer pointee => text names pointee ++ "*"
  | .voidPointer => "void*"
  | .genericParam id => (names.param id).getD dropped

def textRest (names : NodeNames) : List TypeNode → String
  | [] => ""
  | node :: rest => ", " ++ text names node ++ textRest names rest

end

def valueType? (param : GenericParamId → Option GenericParam) : TypeNode → Option Bool
  | .bound kind _ _ => some kind.isValueType
  | .array _ | .mdArray _ _ => some false
  | .pointer _ | .voidPointer => some true
  | .genericParam id => (param id).bind (·.valueType?)

end TypeNode

namespace Session

def names (s : Session) : NodeNames where
  type t := ((s.liveType t).map (·.fullName)).toOption
  param p := ((s.liveParam p).map (·.name)).toOption

def text (s : Session) (node : TypeNode) : String := node.text s.names

def valueType? (s : Session) (node : TypeNode) : Option Bool :=
  node.valueType? fun p => (s.liveParam p).toOption

end Session

namespace Binding

def text (node : TypeNode) : Binding String := view fun s => .ok (s.text node)

end Binding

end CliMetadata
