import CliMetadata.Binding.Definition
import CliMetadata.Signature.Decoder

set_option autoImplicit false

namespace CliMetadata

structure Method where
  id : MethodId
  rid : Nat
  token : Token
  isConstructor : Bool
  rva : Nat
  implFlags : Nat
  flags : Nat
  name : String
  signature : Nat

namespace Method

def visibility (m : Method) : Visibility := .ofMemberFlags m.flags
def isStatic (m : Method) : Bool := m.flags &&& 0x0010 != 0
def isFinal (m : Method) : Bool := m.flags &&& 0x0020 != 0
def isVirtual (m : Method) : Bool := m.flags &&& 0x0040 != 0
def isAbstract (m : Method) : Bool := m.flags &&& 0x0400 != 0
def isSpecialName (m : Method) : Bool := m.flags &&& 0x0800 != 0

def instanceConstructor : String := ".ctor"

def typeConstructor : String := ".cctor"

def isTypeInitializer (m : Method) : Bool := m.name == typeConstructor

def load (m : Module) (id : MethodId) (rid : Nat) : Except Error Method := do
  let row := MethodDefRow.ofRow (← m.rowAt .methodDef rid)
  let name ← m.string row.name
  return {
    id, rid, token := row.token
    isConstructor := name == instanceConstructor || name == typeConstructor
    rva := row.rva, implFlags := row.implFlags, flags := row.flags, name
    signature := row.signature }

end Method

structure Field where
  id : FieldId
  token : Token
  flags : Nat
  name : String
  signature : Nat

namespace Field

def visibility (f : Field) : Visibility := .ofMemberFlags f.flags
def isStatic (f : Field) : Bool := f.flags &&& 0x0010 != 0
def isInitOnly (f : Field) : Bool := f.flags &&& 0x0020 != 0
def isLiteral (f : Field) : Bool := f.flags &&& 0x0040 != 0
def hasDefault (f : Field) : Bool := f.flags &&& 0x8000 != 0

def load (m : Module) (id : FieldId) (rid : Nat) : Except Error Field := do
  let row := FieldRow.ofRow (← m.rowAt .field rid)
  let name ← m.string row.name
  return { id, token := row.token, flags := row.flags, name, signature := row.signature }

end Field

structure Property where
  id : PropertyId
  token : Token
  flags : Nat
  name : String
  signature : Nat

namespace Property

def hasDefault (p : Property) : Bool := p.flags &&& 0x1000 != 0

def load (m : Module) (id : PropertyId) (rid : Nat) : Except Error Property := do
  let row := PropertyRow.ofRow (← m.rowAt .property rid)
  let name ← m.string row.name
  return { id, token := row.token, flags := row.flags, name, signature := row.signature }

end Property

structure Event where
  id : EventId
  token : Token
  flags : Nat
  name : String
  type : CodedIndex

namespace Event

def load (m : Module) (id : EventId) (rid : Nat) : Except Error Event := do
  let row := EventRow.ofRow (← m.rowAt .event rid)
  let name ← m.string row.name
  return { id, token := row.token, flags := row.flags, name, type := row.type }

end Event

structure Param where
  method : MethodId
  index : Nat
  token : Option Token
  name : Option String
  flags : Nat
  type : TypeNode
  byReference : Bool

namespace Param

def isIn (p : Param) : Bool := p.flags &&& 0x0001 != 0
def isOut (p : Param) : Bool := p.flags &&& 0x0002 != 0
def isOptional (p : Param) : Bool := p.flags &&& 0x0010 != 0
def hasDefault (p : Param) : Bool := p.flags &&& 0x1000 != 0

end Param

structure ReturnParam where
  method : MethodId
  token : Option Token
  type : TypeNode
  byReference : Bool

structure BaseInterface where
  type : TypeId
  position : Nat
  token : Token
  interface : BoundType

inductive AccessorRole
  | setter | getter | other | add | remove | fire
  deriving DecidableEq, Repr

namespace AccessorRole

def ofSemantics? (semantics : Nat) : Option AccessorRole :=
  match semantics with
  | 0x01 => some .setter
  | 0x02 => some .getter
  | 0x04 => some .other
  | 0x08 => some .add
  | 0x10 => some .remove
  | 0x20 => some .fire
  | _ => none

end AccessorRole

structure PropertyAccessors where
  getter : Option Method := none
  setter : Option Method := none
  others : List Method := []

namespace PropertyAccessors

def put? (a : PropertyAccessors) (semantics : Nat) (m : Method) : Option PropertyAccessors :=
  match AccessorRole.ofSemantics? semantics with
  | some .getter => some { a with getter := some m }
  | some .setter => some { a with setter := some m }
  | some .other => some { a with others := a.others ++ [m] }
  | _ => none

def primary? (a : PropertyAccessors) : Option Method := a.getter <|> a.setter <|> a.others.head?

def all (a : PropertyAccessors) : List Method := a.getter.toList ++ a.setter.toList ++ a.others

end PropertyAccessors

structure EventAccessors where
  add : Option Method := none
  remove : Option Method := none
  fire : Option Method := none
  others : List Method := []

namespace EventAccessors

def put? (a : EventAccessors) (semantics : Nat) (m : Method) : Option EventAccessors :=
  match AccessorRole.ofSemantics? semantics with
  | some .add => some { a with add := some m }
  | some .remove => some { a with remove := some m }
  | some .fire => some { a with fire := some m }
  | some .other => some { a with others := a.others ++ [m] }
  | _ => none

def primary? (a : EventAccessors) : Option Method :=
  a.add <|> a.remove <|> a.fire <|> a.others.head?

def all (a : EventAccessors) : List Method :=
  a.add.toList ++ a.remove.toList ++ a.fire.toList ++ a.others

end EventAccessors

namespace Assembly

def loadAll {α : Type} (load : (rid position : Nat) → Except Error α) (rids : List Nat) :
    Except Error (List α) :=
  rids.zipIdx.mapM fun (rid, position) => load rid position

def methods (a : Assembly) (t : TypeDefinition) : Except Error (List Method) := do
  loadAll (fun rid position => Method.load a.module ⟨t.id, position⟩ rid)
    (← a.module.methodsOf t.id.rid)

def fields (a : Assembly) (t : TypeDefinition) : Except Error (List Field) := do
  loadAll (fun rid position => Field.load a.module ⟨t.id, position⟩ rid)
    (← (a.module.tables.children .fields t.id.rid).result)

def properties (a : Assembly) (t : TypeDefinition) : Except Error (List Property) := do
  match ← a.module.rowOf? .propertyMap t.token with
  | none => return []
  | some map =>
    loadAll (fun rid position => Property.load a.module ⟨t.id, position⟩ rid)
      (← (a.module.tables.children .properties map.rid).result)

def events (a : Assembly) (t : TypeDefinition) : Except Error (List Event) := do
  match ← a.module.rowOf? .eventMap t.token with
  | none => return []
  | some map =>
    loadAll (fun rid position => Event.load a.module ⟨t.id, position⟩ rid)
      (← (a.module.tables.children .events map.rid).result)

def paramRows (a : Assembly) (m : Method) : Except Error (List ParamRow) := do
  (← (a.module.tables.children .params m.rid).result).mapM fun rid => do
    return ParamRow.ofRow (← a.module.rowAt .param rid)

def methodSignature (a : Assembly) (m : Method) : Except Error MethodSignature := do
  readMethodDef (← a.module.blob m.signature)

end Assembly

end CliMetadata
