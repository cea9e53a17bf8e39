import CliMetadata.Digest
import CliMetadata.Error

set_option autoImplicit false

namespace CliMetadata

namespace HashAlgorithm

def none : Nat := 0x0000
def md5 : Nat := 0x8003
def sha1 : Nat := 0x8004

end HashAlgorithm

namespace AssemblyFlags

def publicKey : Nat := 0x0001

def known : Nat := 0x0001 ||| 0x0100 ||| 0x0200 ||| 0x4000 ||| 0x8000

def truncate (flags : Nat) : Nat := flags &&& known

end AssemblyFlags

namespace KeyToken

def ofBytes (bytes : List UInt8) : Except Error KeyToken :=
  if h : bytes.toArray.size = 8 then .ok ⟨⟨bytes.toArray, h⟩⟩
  else .error (.malformed (.keyTokenLength bytes.length))

def firstEight (bytes : List UInt8) : KeyToken :=
  ⟨Vector.ofFn fun i => bytes.getD i 0⟩

def digest? (algorithm : Nat) (key : List UInt8) : Option (List UInt8) :=
  if algorithm = HashAlgorithm.md5 then some (Md5.digest key)
  else if algorithm = HashAlgorithm.none ∨ algorithm = HashAlgorithm.sha1 then
    some (Sha1.digest key)
  else none

def ofPublicKey (key : List UInt8) (algorithm : Nat) : Except Error KeyToken :=
  if key.isEmpty then .error (.malformed .keyEmpty)
  else
    match digest? algorithm key with
    | some digest => .ok (firstEight digest.reverse)
    | none => .error .notSupported

end KeyToken

namespace AssemblyIdentity

def ofAssembly (name culture : String) (version : AssemblyVersion) (key : List UInt8)
    (algorithm : Nat) : Except Error AssemblyIdentity := do
  let keyToken ← if key.isEmpty then pure none else some <$> KeyToken.ofPublicKey key algorithm
  return { name, version, culture := normalCulture culture, keyToken }

def ofReference (name culture : String) (version : AssemblyVersion) (keyOrToken : List UInt8)
    (flags : Nat) : Except Error AssemblyIdentity := do
  let keyToken ←
    if keyOrToken.isEmpty then pure none
    else if flags &&& AssemblyFlags.publicKey ≠ 0 then
      some <$> KeyToken.ofPublicKey keyOrToken HashAlgorithm.sha1
    else some <$> KeyToken.ofBytes keyOrToken
  return { name, version, culture := normalCulture culture, keyToken }

def withCulture (identity : AssemblyIdentity) (culture : String) : AssemblyIdentity :=
  { identity with culture := normalCulture culture }

def withKeyToken (identity : AssemblyIdentity) (token : KeyToken) : AssemblyIdentity :=
  { identity with keyToken := some token }

end AssemblyIdentity

end CliMetadata
