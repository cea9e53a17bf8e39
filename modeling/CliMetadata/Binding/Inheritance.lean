import CliMetadata.Binding.Resolution
import CliMetadata.Binding.Text

set_option autoImplicit false

namespace CliMetadata.TypeDefinition

def layout (t : TypeDefinition) : Binding TypeLayout :=
  .cell (.layout t.id) do
    let assembly ← Binding.liveAssembly t.id.assembly
    Binding.lift (assembly.layout t)

def enclosingType (t : TypeDefinition) : Binding (Option TypeDefinition) :=
  match t.enclosing with
  | none => return none
  | some rid => do
    let _ ← Binding.liveAssembly t.id.assembly
    return some (← Binding.definition t.id.assembly rid)

def base (t : TypeDefinition) : Binding (Option BoundType) :=
  .cell (.base t.id) do
    if t.extends_.isNull then
      return none
    let _ ← Binding.liveAssembly t.id.assembly
    let scope ← t.genericScope
    match ← Binding.namedType t.id.assembly t.extends_.token scope with
    | none => return none
    | some node =>
      match node.asBound with
      | some b => return some b
      | none =>
        let text ← Binding.text node
        throw (.malformed (.baseUnnamed t.fullName text))

def interfaceIn (t : TypeDefinition) (scope : GenericScope) (row : InterfaceImplRow)
    (position : Nat) : Binding BaseInterface := do
  let node ← Binding.namedType t.id.assembly row.interface.token scope
  let some interface := node.bind (·.asBound)
    | throw (.malformed (.interfaceUnnamed row.rid))
  return { type := t.id, position, token := row.token, interface }

def baseInterfaces (t : TypeDefinition) : Binding (List BaseInterface) :=
  .cell (.baseInterfaces t.id) do
    let assembly ← Binding.liveAssembly t.id.assembly
    match assembly.module.tables.view? .interfaceImpl with
    | none => return []
    | some view =>
      let scope ← t.genericScope
      let rows ← Binding.lift (view.findAll t.token).result
      (rows.map InterfaceImplRow.ofRow).zipIdx.mapM fun (row, position) =>
        t.interfaceIn scope row position

end CliMetadata.TypeDefinition
