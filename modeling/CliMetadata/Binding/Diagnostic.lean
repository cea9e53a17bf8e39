import CliMetadata.Binding.Attributes
import CliMetadata.Binding.Text
import CliMetadata.Text.Quoted

set_option autoImplicit false

namespace CliMetadata

open Text

def AssemblyVersion.diagnostic (v : AssemblyVersion) : String :=
  record "AssemblyVersion" [("major", toString v.major), ("minor", toString v.minor),
    ("build", toString v.build), ("revision", toString v.revision)]

def AssemblyIdentity.diagnostic (i : AssemblyIdentity) : String :=
  record "AssemblyIdentity" [("name", quoted i.name), ("version", i.version.diagnostic),
    ("culture", optional (i.culture.map quoted)),
    ("public_key_token", optional (i.keyToken.map (·.debug)))]

def Assembly.diagnostic (a : Assembly) : String :=
  openRecord "Assembly" [("identity", a.identity.diagnostic), ("types", toString a.typeCount)]

def LoadContext.diagnostic (c : LoadContext) : String :=
  openRecord "AssemblyLoadContext" [("assemblies", toString c.assemblies.length)]

def TypeLayout.diagnostic : TypeLayout → String
  | .auto => "Auto"
  | .sequential pack minSize =>
    record "Sequential" [("pack", optional (pack.map toString)), ("min_size", toString minSize)]
  | .explicit minSize => record "Explicit" [("min_size", toString minSize)]

def GenericParam.diagnostic (p : GenericParam) : String :=
  openRecord "GenericParam" [("name", quoted p.name), ("kind", p.level.name),
    ("number", toString p.number), ("owner", p.owner.debug)]

def Method.kindName (m : Method) : String := if m.isConstructor then "Constructor" else "Method"

def Method.diagnostic (m : Method) : String :=
  openRecord "Method" [("name", quoted m.name), ("token", m.token.debug), ("kind", m.kindName),
    ("flags", flagWord m.flags)]

def Field.diagnostic (f : Field) : String :=
  openRecord "Field" [("name", quoted f.name), ("token", f.token.debug),
    ("flags", flagWord f.flags)]

def Property.diagnostic (p : Property) : String :=
  openRecord "Property" [("name", quoted p.name), ("token", p.token.debug)]

def Event.diagnostic (e : Event) : String :=
  openRecord "Event" [("name", quoted e.name), ("token", e.token.debug)]

def Session.linkDiagnostic (s : Session) (kind : DefinitionKind) (t : TypeId) : String :=
  s!"{kind.name} {(s.names.type t).getD TypeNode.dropped}"

def Session.attributeDiagnostic (s : Session) (x : Attribute) : String :=
  openRecord "Attribute" [("token", x.token.debug), ("owner", x.owner.debug),
    ("attribute_type", s.linkDiagnostic x.kind x.type)]

def TypeDefinition.diagnostics (t : TypeDefinition) : Binding (List String) := do
  let params ← t.genericParams
  let methods ← t.methods
  let fields ← t.fields
  let properties ← t.properties
  let events ← t.events
  let attributes ← t.attributes
  let session ← get
  return t.display :: params.map (·.diagnostic) ++ methods.map (·.diagnostic) ++
    fields.map (·.diagnostic) ++ properties.map (·.diagnostic) ++ events.map (·.diagnostic) ++
    attributes.map session.attributeDiagnostic

end CliMetadata
