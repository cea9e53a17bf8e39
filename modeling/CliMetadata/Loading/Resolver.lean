import CliMetadata.Assembly

/-!
Resolvers find the module for an identity. While it is asked, a resolver may load modules and
resolve further identities in the context that asks it; a `Consultation` is what it does step by
step, until it answers.
-/

set_option autoImplicit false

namespace CliMetadata

inductive ModuleSource
  | module (m : Module)
  | image (data : ByteArray)
  | file (contents : Except Error ByteArray)

def ModuleSource.read : ModuleSource → Except Error Module
  | .module m => .ok m
  | .image data => Module.read data
  | .file contents => contents.bind Module.read

inductive Consultation
  | answer (outcome : Except Error Module)
  | load (source : ModuleSource) (next : Except Error AssemblyId → Consultation)
  | resolve (identity : AssemblyIdentity) (flags : Nat)
      (next : Except Error AssemblyId → Consultation)

namespace Consultation

/-- Has every identity resolved, one after the other, before it goes on; the first failure becomes
the answer. -/
def requiring : List (Except Error AssemblyIdentity) → Consultation → Consultation
  | [], next => next
  | .error e :: _, _ => .answer (.error e)
  | .ok identity :: rest, next =>
    .resolve identity 0 fun
      | .ok _ => requiring rest next
      | .error e => .answer (.error e)

def orElse (other : Except Error Module) : Consultation → Consultation
  | .answer (.ok m) => .answer (.ok m)
  | .answer (.error _) => .answer other
  | .load source next => .load source fun r => (next r).orElse other
  | .resolve identity flags next => .resolve identity flags fun r => (next r).orElse other

end Consultation

structure Resolver where
  -- What the resolver does when it is asked. It may do otherwise each time: `turn` is the number of
  -- requests that it got before.
  consult : (turn : Nat) → AssemblyIdentity → (flags : Nat) → Consultation
  -- The resolver holds the context that asks it, which then lives as long as any part of it.
  keepsContext : Bool := false

namespace Resolver

def withCoreLibrary (core : Except Error Module) (r : Resolver) : Resolver where
  consult turn identity flags :=
    if identity.isCoreLibrary then (r.consult turn identity flags).orElse core
    else r.consult turn identity flags
  keepsContext := r.keepsContext

end Resolver

inductive Supply
  | image (data : ByteArray)
  | failure (error : Error)
  | absent

structure CatalogEntry where
  name : String
  supply : Supply
  prerequisites : Option (List (Except Error AssemblyIdentity)) := none

structure Catalog where
  entries : List CatalogEntry
  absence : String

namespace Catalog

def find? (c : Catalog) (name : String) : Option CatalogEntry :=
  c.entries.find? fun e => Text.equalIgnoringCase e.name name

def notFound (c : Catalog) (identity : AssemblyIdentity) : Error :=
  .assemblyNotFound identity.display c.absence

def supplied (c : Catalog) (identity : AssemblyIdentity) : Supply → Except Error Module
  | .image data => Module.read data
  | .failure e => .error e
  | .absent => .error (c.notFound identity)

def consult (c : Catalog) (identity : AssemblyIdentity) : Consultation :=
  match c.find? identity.name with
  | none => .answer (.error (c.notFound identity))
  | some entry =>
    .requiring (entry.prerequisites.getD []) (.answer (c.supplied identity entry.supply))

/-- The resolver over a catalogue. It holds the context in which it is to resolve prerequisites,
also where an entry lists them and has none. -/
def resolver (c : Catalog) : Resolver where
  consult _ identity _ := c.consult identity
  keepsContext := c.entries.any (·.prerequisites.isSome)

end Catalog

end CliMetadata
