import CliMetadata.Binding.Members

set_option autoImplicit false

namespace CliMetadata.Binding

def specParent (a : AssemblyId) (rid : Nat) : Binding Token := do
  let assembly ← assembly a
  let row := TypeSpecRow.ofRow (← lift (assembly.module.rowAt .typeSpec rid))
  let blob ← lift (assembly.module.blob row.signature)
  let base := match ← lift (readTypeSpec blob) with
    | .instantiation base _ => base
    | other => other
  match base with
  | .classType token | .valueType token => return token
  | _ => throw .notSupported

def memberParent (a : AssemblyId) (parent : CodedIndex) : Binding TypeDefinition := do
  let token ← match parent.table with
    | .typeDef | .typeRef => pure parent.token
    | .typeSpec => specParent a parent.row
    | _ => throw .notSupported
  match token.table? with
  | some .typeDef => definition a token.row
  | some .typeRef => typeReference a token.row
  | _ => throw (.malformed (.memberRefParent token))

def hasShape (name : String) (signature : MethodSignature) (m : Method) : Binding Bool := do
  if m.name != name then
    return false
  if (← m.genericArity) != signature.genericParams then
    return false
  if (← m.arity) != signature.params.length then
    return false
  return (← m.methodSignature).hasThis == signature.hasThis

def sameParams (a : AssemblyId) (scope : GenericScope) :
    List (Param × ParamSignature) → Binding Bool
  | [] => return true
  | (p, expected) :: rest => do
    if p.byReference != expected.byReference then
      return false
    let type ← type a expected.type scope
    if p.type != type then
      return false
    sameParams a scope rest

def hasTypes (a : AssemblyId) (signature : MethodSignature) (m : Method) : Binding Bool := do
  let scope ← m.genericScope
  let returned ← m.returnParam
  let expected ← type a signature.returns.type scope
  let params ← m.params
  if returned.type != expected then
    return false
  sameParams a scope (params.zip signature.params)

def overloads (a : AssemblyId) (signature : MethodSignature) (candidates : List Method) :
    Binding (List Method) :=
  if 1 < candidates.length then candidates.filterM (hasTypes a signature) else return candidates

def onlyMethod (rid : Nat) (parent : TypeDefinition) (name : String) : List Method → Binding Method
  | [m] => return m
  | [] => throw (.malformed (.memberRefNone rid parent.fullName name))
  | _ => throw (.malformed (.memberRefSeveral rid parent.fullName name))

def memberReference (a : AssemblyId) (rid : Nat) : Binding Method := do
  let assembly ← assembly a
  let row := MemberRefRow.ofRow (← lift (assembly.module.rowAt .memberRef rid))
  if row.parent.table = .methodDef then
    method a row.parent.row
  else
    let name ← lift (assembly.module.string row.name)
    let blob ← lift (assembly.module.blob row.signature)
    let signature ← lift (readMethodDef blob)
    let parent ← memberParent a row.parent
    let candidates ← (← parent.methods).filterM (hasShape name signature)
    onlyMethod rid parent name (← overloads a signature candidates)

def methodNamed (a : AssemblyId) (token : Token) : Binding Method :=
  match token.table? with
  | some .methodDef => method a token.row
  | some .memberRef => do
    let assembly ← assembly a
    let rid := token.row
    if rid = 0 ∨ assembly.module.tables.rows .memberRef < rid then
      throw (.malformed (.memberRefRange rid))
    cell (.memberRef a rid) (memberReference a rid)
  | _ => throw (.malformed (.tokenNoMethod token))

end CliMetadata.Binding
