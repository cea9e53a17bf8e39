import CliMetadata.Text.Ascii

set_option autoImplicit false

namespace CliMetadata

structure AssemblyVersion where
  major : UInt16 := 0
  minor : UInt16 := 0
  build : UInt16 := 0
  revision : UInt16 := 0
  deriving DecidableEq, Repr, Hashable, Inhabited

namespace AssemblyVersion

def display (v : AssemblyVersion) : String := s!"{v.major}.{v.minor}.{v.build}.{v.revision}"

instance : ToString AssemblyVersion := ⟨display⟩

def weight (v : AssemblyVersion) : Nat :=
  ((v.major.toNat * 65536 + v.minor.toNat) * 65536 + v.build.toNat) * 65536 + v.revision.toNat

def le (a b : AssemblyVersion) : Bool := a.weight ≤ b.weight

end AssemblyVersion

structure KeyToken where
  bytes : Vector UInt8 8
  deriving DecidableEq, Repr

namespace KeyToken

def display (t : KeyToken) : String := Hex.ofBytes t.bytes.toList

def debug (t : KeyToken) : String := s!"PublicKeyToken({t.display})"

instance : ToString KeyToken := ⟨display⟩

end KeyToken

structure AssemblyIdentity where
  name : String
  version : AssemblyVersion := {}
  culture : Option String := none
  keyToken : Option KeyToken := none
  deriving DecidableEq, Repr

namespace AssemblyIdentity

def coreLibraryNames : List String :=
  ["mscorlib", "System.Runtime", "netstandard", "System.Private.CoreLib"]

def isCoreLibraryName (name : String) : Bool :=
  coreLibraryNames.any (Text.equalIgnoringCase · name)

def isCoreLibrary (identity : AssemblyIdentity) : Bool := isCoreLibraryName identity.name

def normalCulture (culture : String) : Option String :=
  if culture.isEmpty || Text.equalIgnoringCase culture "neutral" then none else some culture

/-- The identities agree in name, up to the case of A to Z, in version and in key token; the culture
does not tell assemblies apart. -/
def same (a b : AssemblyIdentity) : Bool :=
  Text.equalIgnoringCase a.name b.name && a.version == b.version && a.keyToken == b.keyToken

def display (identity : AssemblyIdentity) : String :=
  let culture := identity.culture.getD "neutral"
  let token := match identity.keyToken with
    | some t => t.display
    | none => "null"
  s!"{identity.name}, Version={identity.version}, Culture={culture}, PublicKeyToken={token}"

instance : ToString AssemblyIdentity := ⟨display⟩

def sameKey (identity : AssemblyIdentity) : List Char × AssemblyVersion × Option KeyToken :=
  (Text.foldCase identity.name, identity.version, identity.keyToken)

theorem same_iff {a b : AssemblyIdentity} : a.same b = true ↔ a.sameKey = b.sameKey := by
  simp [same, sameKey, Text.equalIgnoringCase_iff, and_assoc]

@[simp] theorem same_refl (a : AssemblyIdentity) : a.same a = true := same_iff.2 rfl

theorem same_comm (a b : AssemblyIdentity) : a.same b = b.same a := by
  rw [Bool.eq_iff_iff, same_iff, same_iff]
  exact eq_comm

end AssemblyIdentity

end CliMetadata
