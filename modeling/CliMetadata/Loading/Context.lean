import CliMetadata.Loading.Resolver

/-!
Load contexts. A context holds the assemblies loaded so far, each once, and an index from identities
to their places: every assembly is indexed under its own identity, and under the identities for
which a resolver supplied it. What is not indexed is asked of the resolver. The requests under way
are kept, so that a request that comes to depend on itself is refused.
-/

set_option autoImplicit false

namespace CliMetadata

structure LoadContext where
  resolver : Option Resolver := none
  assemblies : List Assembly := []
  index : List (AssemblyIdentity × AssemblyId) := []
  resolving : List AssemblyIdentity := []
  claimed : List AssemblyIdentity := []
  -- The identities whose claim has an owner. All calls are made by one thread, which owns them all.
  owners : List AssemblyIdentity := []
  -- The requests that the resolver got, with the flags, the latest first.
  requests : List (AssemblyIdentity × Nat) := []

abbrev Loading := EStateM Error LoadContext

namespace LoadContext

def assembly? (c : LoadContext) (id : AssemblyId) : Option Assembly := c.assemblies[id.position]?

def find? (c : LoadContext) (identity : AssemblyIdentity) : Option AssemblyId :=
  (c.index.find? fun entry => entry.1.same identity).map (·.2)

def addKey (c : LoadContext) (identity : AssemblyIdentity) (id : AssemblyId) : LoadContext :=
  match c.find? identity with
  | some _ => c
  | none => { c with index := c.index ++ [(identity, id)] }

def push (c : LoadContext) (a : Assembly) : LoadContext :=
  { c with
    assemblies := c.assemblies ++ [a]
    index := c.index ++ [(a.identity, ⟨c.assemblies.length⟩)] }

def place (c : LoadContext) (a : Assembly) : AssemblyId × LoadContext :=
  match c.find? a.identity with
  | some id => (id, c)
  | none => (⟨c.assemblies.length⟩, c.push a)

def coreLibrary? (c : LoadContext) : Option AssemblyId :=
  (c.assemblies.findIdx? (·.isCoreLibrary)).map (⟨·⟩)

def isResolving (c : LoadContext) (identity : AssemblyIdentity) : Bool :=
  c.resolving.any (·.same identity)

def isClaimed (c : LoadContext) (identity : AssemblyIdentity) : Bool :=
  c.claimed.any (·.same identity)

def enter (c : LoadContext) (identity : AssemblyIdentity) : LoadContext :=
  { c with resolving := identity :: c.resolving }

def leave (c : LoadContext) : LoadContext := { c with resolving := c.resolving.tail }

def claim (c : LoadContext) (identity : AssemblyIdentity) : LoadContext :=
  { c with claimed := identity :: c.claimed, owners := identity :: c.owners }

def release (c : LoadContext) (identity : AssemblyIdentity) : LoadContext :=
  { c with
    claimed := c.claimed.eraseP (·.same identity)
    owners := c.owners.eraseP (·.same identity) }

def record (c : LoadContext) (identity : AssemblyIdentity) (flags : Nat) : LoadContext :=
  { c with requests := (identity, flags) :: c.requests }

def identities (c : LoadContext) : List AssemblyIdentity := c.assemblies.map (·.identity)

end LoadContext

namespace Loading

def attempt {α : Type} (x : Loading α) : Loading (Except Error α) := fun c =>
  match x c with
  | .ok value c => .ok (.ok value) c
  | .error e c => .ok (.error e) c

def between {α : Type} (before after : LoadContext → LoadContext) (x : Loading α) : Loading α :=
  fun c =>
    match x (before c) with
    | .ok value c => .ok value (after c)
    | .error e c => .error e (after c)

def requesting {α : Type} (identity : AssemblyIdentity) (x : Loading α) : Loading α := do
  let c ← get
  if c.isResolving identity then
    throw (.referenceCycle (.chain (identity :: c.resolving).reverse))
  between (·.enter identity) (·.leave) x

def claiming {α : Type} (identity : AssemblyIdentity) (x : Loading α) : Loading α := do
  if (← get).isClaimed identity then
    throw (.referenceCycle (.chain [identity, identity]))
  between (·.claim identity) (·.release identity) x

def load (m : Module) : Loading AssemblyId := fun c =>
  match Assembly.ofModule m with
  | .ok a =>
    let (id, c) := c.place a
    .ok id c
  | .error e => .error e c

def loadFrom (source : ModuleSource) : Loading AssemblyId :=
  match source.read with
  | .ok m => load m
  | .error e => throw e

def loadAs (identity : AssemblyIdentity) (m : Module) : Loading AssemblyId := do
  let id ← load m
  modify fun c => c.addKey identity id
  return id

def follow (ask : AssemblyIdentity → Nat → Loading AssemblyId) : Consultation → Loading Module
  | .answer (.ok m) => return m
  | .answer (.error e) => throw e
  | .load source next => do
    let outcome ← attempt (loadFrom source)
    follow ask (next outcome)
  | .resolve identity flags next => do
    let outcome ← attempt (ask identity flags)
    follow ask (next outcome)

/-- The error of a request whose resolver failed: one that names an assembly or a cycle stands as
it is, any other becomes the reason why the assembly is not found. -/
def failure (identity : AssemblyIdentity) : Error → Error
  | .assemblyNotFound name reason => .assemblyNotFound name reason
  | .referenceCycle cycle => .referenceCycle cycle
  | e => .assemblyNotFound identity.display e.message

def consult (ask : AssemblyIdentity → Nat → Loading AssemblyId) (identity : AssemblyIdentity)
    (flags : Nat) : Loading Module := do
  match (← get).resolver with
  | none => throw (.assemblyNotFound identity.display "no resolver configured")
  | some resolver =>
    let turn := (← get).requests.length
    modify fun c => c.record identity flags
    match ← attempt (follow ask (resolver.consult turn identity flags)) with
    | .ok m => return m
    | .error e => throw (failure identity e)

def findOrLoad (identity : AssemblyIdentity) (supply : Loading Module) : Loading AssemblyId := do
  match (← get).find? identity with
  | some id => return id
  | none =>
    requesting identity <| claiming identity do
      let m ← supply
      loadAs identity m

/-- The assembly for an identity, which the resolver supplies if it is not indexed. The resolver may
be asked again while it is asked, `depth` deep. -/
def resolve : (depth : Nat) → AssemblyIdentity → (flags : Nat) → Loading AssemblyId
  | 0, identity, _ => findOrLoad identity (throw .exhausted)
  | depth + 1, identity, flags => findOrLoad identity (consult (resolve depth) identity flags)

end Loading

end CliMetadata
