import CliMetadata.Table

set_option autoImplicit false

namespace CliMetadata

inductive ChildList
  | fields | methods | params | properties | events
  deriving DecidableEq, Repr

namespace ChildList

def all : List ChildList := [.fields, .methods, .params, .properties, .events]

def name : ChildList → String
  | .fields => "Fields"
  | .methods => "Methods"
  | .params => "Params"
  | .properties => "Properties"
  | .events => "Events"

def ofName? (s : String) : Option ChildList := all.find? (·.name == s)

def parent : ChildList → Table
  | .fields | .methods => .typeDef
  | .params => .methodDef
  | .properties => .propertyMap
  | .events => .eventMap

def child : ChildList → Table
  | .fields => .field
  | .methods => .methodDef
  | .params => .param
  | .properties => .property
  | .events => .event

def pointer : ChildList → Table
  | .fields => .fieldPtr
  | .methods => .methodPtr
  | .params => .paramPtr
  | .properties => .propertyPtr
  | .events => .eventPtr

end ChildList

end CliMetadata
