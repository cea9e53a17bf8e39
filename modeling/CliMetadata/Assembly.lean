import CliMetadata.Assembly.Ownership
import CliMetadata.Constant
import CliMetadata.Identity.Key

set_option autoImplicit false

namespace CliMetadata

structure AssemblyId where
  position : Nat
  deriving DecidableEq, Repr, Hashable

structure Assembly where
  module : Module
  identity : AssemblyIdentity
  flags : Nat
  nesting : Except Error Nesting
  names : Except Error (List (String × Nat))
  methodOwners : Except Error MethodOwners

namespace Assembly

def withoutEnding? (ending text : String) : Option String :=
  if ending.toList.isSuffixOf text.toList then
    some (String.ofList (text.toList.take (text.length - ending.length)))
  else none

def nameOfModule (name : String) : String :=
  (withoutEnding? ".netmodule" name <|> withoutEnding? ".dll" name).getD name

def identify (m : Module) : Except Error (AssemblyIdentity × Nat) := do
  match ← m.assemblyRow.result with
  | some row =>
    let row := AssemblyRow.ofRow row
    let name ← m.string row.name
    let culture ← m.string row.culture
    let key ← m.blob row.publicKey
    let identity ←
      AssemblyIdentity.ofAssembly name culture row.version key.toList row.hashAlgorithm
    return (identity, AssemblyFlags.truncate row.flags)
  | none =>
    let name ← m.name.result
    return ({ name := nameOfModule name }, 0)

def ofModule (m : Module) : Except Error Assembly := do
  let (identity, flags) ← identify m
  let nesting := m.nesting
  return {
    module := m, identity, flags, nesting
    names := nesting.bind m.typeNames
    methodOwners := m.methodOwners }

def name (a : Assembly) : String := a.identity.name

def isCoreLibrary (a : Assembly) : Bool := a.identity.isCoreLibrary

def typeCount (a : Assembly) : Nat := a.module.typeCount

def typeNamed? (a : Assembly) (fullName : String) : Except Error (Option Nat) := do
  return ((← a.names).find? (·.1 == fullName)).map (·.2)

def referenceIdentity (a : Assembly) (rid : Nat) : Except Error (AssemblyIdentity × Nat) := do
  let row := AssemblyRefRow.ofRow (← a.module.rowAt .assemblyRef rid)
  let name ← a.module.string row.name
  let culture ← a.module.string row.culture
  let key ← a.module.blob row.publicKeyOrToken
  let identity ← AssemblyIdentity.ofReference name culture row.version key.toList row.flags
  return (identity, AssemblyFlags.truncate row.flags)

def referenceCount (a : Assembly) : Nat := a.module.tables.rows .assemblyRef

def references (a : Assembly) : Except Error (List AssemblyIdentity) :=
  (List.range a.referenceCount).mapM fun i => do return (← a.referenceIdentity (i + 1)).1

def referenceFrom (a : Assembly) (test : String → Bool) :
    (count rid : Nat) → Except Error (Option Nat)
  | 0, _ => return none
  | count + 1, rid => do
    let row := AssemblyRefRow.ofRow (← a.module.rowAt .assemblyRef rid)
    if test (← a.module.string row.name) then return some rid
    else referenceFrom a test count (rid + 1)

def referenceNamed? (a : Assembly) (test : String → Bool) : Except Error (Option Nat) :=
  a.referenceFrom test a.referenceCount 1

def constantOf (a : Assembly) (owner : Token) : Except Error (Option Constant) := do
  match ← a.module.rowOf? .constant owner with
  | some row =>
    let row := ConstantRow.ofRow row
    some <$> Constant.decode row.type.toUInt8 (← a.module.blob row.value)
  | none => return none

end Assembly

end CliMetadata
