import CliMetadata.Binding.Lifetime

set_option autoImplicit false

namespace CliMetadata

namespace Session

def contextCoreLibrary (s : Session) : Except Error (Option AssemblyId) :=
  if s.contextLives then .ok s.context.coreLibrary? else .error .entityDropped

end Session

namespace Binding

def definition (a : AssemblyId) (rid : Nat) : Binding TypeDefinition := do
  let assembly ← assembly a
  if rid = 0 ∨ assembly.typeCount < rid then
    throw (.malformed (.typeDefRange rid assembly.typeCount))
  cell (.definition ⟨a, rid⟩) (lift (assembly.definition a rid))

def definitions (a : AssemblyId) : Binding (List TypeDefinition) := do
  let assembly ← assembly a
  (List.range assembly.typeCount).mapM fun i => definition a (i + 1)

def resolveAssembly (identity : AssemblyIdentity) (flags : Nat) : Binding AssemblyId := do
  let s ← get
  if !s.contextLives then
    throw .entityDropped
  loading (Loading.resolve s.rest.limit identity flags)

def reference (a : AssemblyId) (rid : Nat) : Binding AssemblyId := do
  let assembly ← assembly a
  if rid = 0 ∨ assembly.referenceCount < rid then
    throw (.malformed (.assemblyRefRange rid))
  let target ← cell (.reference a rid) do
    let (identity, flags) ← lift (assembly.referenceIdentity rid)
    if identity.same assembly.identity then return a
    else resolveAssembly identity flags
  let _ ← liveAssembly target
  return target

/-- The core library as an assembly sees it: itself, the first that it references, or the first of
the context. -/
def coreLibrary (a : AssemblyId) : Binding AssemblyId := do
  let assembly ← assembly a
  let core ← cell (.coreLibrary a) do
    if assembly.isCoreLibrary then
      return a
    match ← lift (assembly.referenceNamed? AssemblyIdentity.isCoreLibraryName) with
    | some rid => reference a rid
    | none =>
      match ← view (·.contextCoreLibrary) with
      | some core => return core
      | none =>
        throw (.assemblyNotFound "mscorlib" s!"{assembly.name} references no core library")
  let _ ← liveAssembly core
  return core

def maxForwards : Nat := 16

/-- The definition with a full name, in the assembly or where it hands the name on to; `left` tells
how many assemblies may still be asked. -/
def definitionNamedWithin : (left : Nat) → (a : AssemblyId) → (fullName : String) →
    Binding (Option TypeDefinition)
  | 0, a, fullName => do
    let assembly ← assembly a
    throw (.referenceCycle (.forwarded fullName maxForwards assembly.identity))
  | left + 1, a, fullName => do
    let assembly ← assembly a
    match ← lift (assembly.typeNamed? fullName) with
    | some rid => return some (← definition a rid)
    | none =>
      match ← lift (assembly.module.exported? fullName) with
      | none => return none
      | some implementation =>
        if implementation.table = .assemblyRef then
          let target ← reference a implementation.row
          definitionNamedWithin left target fullName
        else
          return none

def definitionNamed (a : AssemblyId) (fullName : String) : Binding (Option TypeDefinition) :=
  definitionNamedWithin (maxForwards + 1) a fullName

def requiredDefinition (a : AssemblyId) (fullName : String) : Binding TypeDefinition := do
  match ← definitionNamed a fullName with
  | some t => return t
  | none => throw (.typeNotFound fullName)

end Binding

structure ReflectionName where
  fullName : String
  assembly : Option String
  deriving DecidableEq, Repr

namespace ReflectionName

def trimmed (cs : List Char) : String := String.ofList (Text.trim cs)

def parse (text : String) : ReflectionName :=
  let cs := text.toList
  let name := trimmed (cs.takeWhile (· != ','))
  let fullName := name.map fun c => if c == '+' then '/' else c
  match cs.dropWhile (· != ',') with
  | [] => { fullName, assembly := none }
  | _ :: rest => { fullName, assembly := some (trimmed (rest.takeWhile (· != ','))) }

end ReflectionName

namespace Binding

/-- The definition that a reflection name stands for in an assembly. Without an assembly's name,
the assembly itself and then its core library are asked. -/
def definitionReflected (a : AssemblyId) (text : String) : Binding (Option TypeDefinition) := do
  let name := ReflectionName.parse text
  match name.assembly with
  | none =>
    match ← definitionNamed a name.fullName with
    | some found => return some found
    | none =>
      let core ← coreLibrary a
      definitionNamed core name.fullName
  | some target =>
    let assembly ← assembly a
    if Text.equalIgnoringCase target assembly.name then
      definitionNamed a name.fullName
    else
      match ← lift (assembly.referenceNamed? (Text.equalIgnoringCase · target)) with
      | some rid =>
        let found ← reference a rid
        definitionNamed found name.fullName
      | none => throw (.assemblyNotFound target s!"not referenced by {assembly.name}")

end Binding

end CliMetadata
