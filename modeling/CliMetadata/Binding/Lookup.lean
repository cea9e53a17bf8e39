import CliMetadata.Binding.Members

set_option autoImplicit false

namespace CliMetadata

structure MemberFilter where
  isPublic : Option Bool := none
  isStatic : Option Bool := none
  inherited : Bool := false

structure MethodFilter extends MemberFilter where
  genericArity : Option Nat := none
  arity : Option Nat := none
  paramTypes : Option (List TypeNode) := none

namespace MemberFilter

def agrees {α : Type} [BEq α] (wanted : Option α) (ask : Binding α) : Binding Bool :=
  match wanted with
  | none => return true
  | some wanted => do return (← ask) == wanted

def accepts (f : MemberFilter) (visibility : Binding Visibility) (isStatic : Binding Bool) :
    Binding Bool := do
  if !(← agrees f.isPublic do return (← visibility) == .public_) then
    return false
  agrees f.isStatic isStatic

end MemberFilter

namespace MethodFilter

def acceptsMethod (f : MethodFilter) (m : Method) : Binding Bool := do
  if !(← f.accepts (return m.visibility) (return m.isStatic)) then
    return false
  if !(← MemberFilter.agrees f.genericArity m.genericArity) then
    return false
  if !(← MemberFilter.agrees f.arity m.arity) then
    return false
  match f.paramTypes with
  | none => return true
  | some types => return (← m.params).map (·.type) == types

end MethodFilter

inductive Finding (α : Type)
  | nothing
  | single (member : α)
  | several

namespace Finding

def ofList {α : Type} : List α → Finding α
  | [] => .nothing
  | [member] => .single member
  | _ => .several

end Finding

namespace Lookup

variable {α : Type}

inductive Level (α : Type)
  | decided (found : Option α)
  | undecided (base : TypeDefinition)

def conclude (inherited : Bool) (t : TypeDefinition) (matching : List α) : Binding (Level α) := do
  match Finding.ofList matching with
  | .single member => return .decided (some member)
  | .several => return .decided none
  | .nothing =>
    if !inherited then
      return .decided none
    match ← t.base with
    | none => return .decided none
    | some base => return .undecided (← Binding.liveType base.definition)

def level (declared : TypeDefinition → Binding (List α)) (test : α → Binding Bool)
    (inherited : Bool) (visited : List TypeId) (t : TypeDefinition) : Binding (Level α) := do
  if visited.contains t.id then
    throw (.malformed (.inheritanceCycle t.fullName))
  let members ← declared t
  conclude inherited t (← members.filterM test)

end Lookup

/-- Searches a type, and then one base type after the other until one decides. There is no outcome
if all are different and none is the last. -/
def TypeDefinition.along {α : Type} (declared : TypeDefinition → Binding (List α))
    (test : α → Binding Bool) (inherited : Bool) (visited : List TypeId) (t : TypeDefinition)
    (s : Session) : Option (EStateM.Result Error Session (Option α)) :=
  match Lookup.level declared test inherited visited t s with
  | .ok (.decided found) s => some (.ok found s)
  | .ok (.undecided base) s => base |>.along declared test inherited (t.id :: visited) s
  | .error e s => some (.error e s)
partial_fixpoint

def Lookup.search {α : Type} (declared : TypeDefinition → Binding (List α))
    (test : α → Binding Bool) (inherited : Bool) (t : TypeDefinition) : Binding (Option α) :=
  fun s => (t.along declared test inherited [] s).getD (.error .exhausted s)

namespace TypeDefinition

def findMethod (t : TypeDefinition) (name : String) (f : MethodFilter) : Binding (Option Method) :=
  Lookup.search methods (fun m => if m.name == name then f.acceptsMethod m else return false)
    f.inherited t

def findConstructor (t : TypeDefinition) (f : MethodFilter) : Binding (Option Method) :=
  t.findMethod Method.instanceConstructor f

def findField (t : TypeDefinition) (name : String) (f : MemberFilter) : Binding (Option Field) :=
  Lookup.search fields
    (fun x => if x.name == name then f.accepts (return x.visibility) (return x.isStatic)
      else return false)
    f.inherited t

def findProperty (t : TypeDefinition) (name : String) (f : MemberFilter) :
    Binding (Option Property) :=
  Lookup.search properties
    (fun p => if p.name == name then f.accepts p.visibility p.isStatic else return false)
    f.inherited t

def findEvent (t : TypeDefinition) (name : String) (f : MemberFilter) : Binding (Option Event) :=
  Lookup.search events
    (fun e => if e.name == name then f.accepts e.visibility e.isStatic else return false)
    f.inherited t

def finalizer (t : TypeDefinition) : Binding (Option Method) :=
  t.findMethod "Finalize" { isStatic := some false, genericArity := some 0, arity := some 0 }

def invokeMethod (t : TypeDefinition) : Binding Method := do
  match ← t.findMethod "Invoke" { isPublic := some true, isStatic := some false } with
  | some m => return m
  | none => throw (.malformed (.delegateInvoke t.fullName))

def backingField (t : TypeDefinition) : Binding Field := do
  match ← t.findField "value__" { isStatic := some false } with
  | some f => return f
  | none => throw (.malformed (.enumField t.fullName))

def underlyingType (t : TypeDefinition) : Binding TypeDefinition := do
  let field ← t.backingField
  match ← (← field.type).definition? with
  | some underlying => return underlying
  | none => throw (.malformed (.enumFieldType t.fullName))

end TypeDefinition

end CliMetadata
