import CliMetadata.Proofs.Loading.Store

set_option autoImplicit false

namespace CliMetadata

namespace KeyToken

def ofDigest (digest : List UInt8) : KeyToken := firstEight digest.reverse

@[simp] theorem ofBytes_bytes (token : KeyToken) : ofBytes token.bytes.toList = .ok token := by
  obtain ⟨⟨bytes, length⟩⟩ := token
  exact dif_pos length

section
variable {key : List UInt8} (signed : key ≠ [])
include signed

theorem ofPublicKey_md5 :
    ofPublicKey key HashAlgorithm.md5 = .ok (ofDigest (Md5.digest key)) := by
  simp [ofPublicKey, digest?, signed, ofDigest]

theorem ofPublicKey_sha1 :
    ofPublicKey key HashAlgorithm.sha1 = .ok (ofDigest (Sha1.digest key)) := by
  simp [ofPublicKey, digest?, signed, ofDigest, HashAlgorithm.sha1, HashAlgorithm.md5]

theorem ofPublicKey_ne_md5 {algorithm : Nat} {token : KeyToken}
    (derived : ofPublicKey key algorithm = .ok token) (other : algorithm ≠ HashAlgorithm.md5) :
    token = ofDigest (Sha1.digest key) := by
  have nonempty : key.isEmpty = false := by simp [signed]
  unfold ofPublicKey digest? at derived
  rw [nonempty, if_neg Bool.false_ne_true, if_neg other] at derived
  by_cases sha1 : algorithm = HashAlgorithm.none ∨ algorithm = HashAlgorithm.sha1
  · rw [if_pos sha1] at derived
    cases derived
    rfl
  · rw [if_neg sha1] at derived
    cases derived

end

end KeyToken

namespace AssemblyIdentity

/-- Where an assembly of the identity is loaded, it is the one that is found for the other. -/
def FoundAs (identity other : AssemblyIdentity) : Prop :=
  ∀ (c : LoadContext) id a, c.Consistent → c.assembly? id = some a → a.identity = identity →
    c.find? other = some id

theorem foundAs_of_same {identity other : AssemblyIdentity} (same : identity.same other = true) :
    identity.FoundAs other := by
  intro c id a consistent there own
  obtain ⟨inside, rfl⟩ := List.getElem?_eq_some_iff.1 there
  rw [← c.find?_congr same, ← own]
  exact consistent.own id.position inside

section
variable {name culture : String} {version : AssemblyVersion} {key : List UInt8}

def signedAs (name culture : String) (version : AssemblyVersion) (token : KeyToken) :
    AssemblyIdentity :=
  { name, version, culture := normalCulture culture, keyToken := some token }

@[simp] theorem signedAs_same {token other : KeyToken} :
    (signedAs name culture version token).same (signedAs name culture version other) = true ↔
      token = other := by
  simp [same_iff, sameKey, signedAs]

theorem ofReference_token {token : KeyToken} {flags : Nat}
    (short : flags &&& AssemblyFlags.publicKey = 0) :
    ofReference name culture version token.bytes.toList flags =
      .ok (signedAs name culture version token) := by
  have present : token.bytes.toList.isEmpty = false := by
    rw [List.isEmpty_eq_false_iff, ← List.length_pos_iff, Vector.length_toList]
    decide
  simp [ofReference, present, short, signedAs, Functor.map, Except.map]

variable (signed : key ≠ [])
include signed

theorem ofAssembly_ok {algorithm : Nat} {identity : AssemblyIdentity} :
    ofAssembly name culture version key algorithm = .ok identity ↔
      ∃ token, KeyToken.ofPublicKey key algorithm = .ok token ∧
        identity = signedAs name culture version token := by
  unfold ofAssembly
  cases KeyToken.ofPublicKey key algorithm with
  | error e => simp [signed, Functor.map, Except.map]
  | ok token =>
    simp only [signed, List.isEmpty_iff, if_false, Functor.map, Except.map, pure, Except.pure, bind,
      Except.bind, Except.ok.injEq, exists_eq_left']
    exact eq_comm

theorem ofReference_key {flags : Nat} (full : flags &&& AssemblyFlags.publicKey ≠ 0) :
    ofReference name culture version key flags =
      .ok (signedAs name culture version (KeyToken.ofDigest (Sha1.digest key))) := by
  simp [ofReference, signed, full, KeyToken.ofPublicKey_sha1 signed, signedAs, Functor.map,
    Except.map]

/-- What references name an assembly: those with its token do, and those with its key if and only if
it does not ask for MD5, or its key has the same token under both digests. -/
theorem references_agree {algorithm : Nat} {identity : AssemblyIdentity}
    (made : ofAssembly name culture version key algorithm = .ok identity) :
    (∃ token, identity.keyToken = some token ∧
      ∀ flags, flags &&& AssemblyFlags.publicKey = 0 →
        ofReference name culture version token.bytes.toList flags = .ok identity ∧
        identity.FoundAs identity) ∧
    ∃ named, (∀ flags, flags &&& AssemblyFlags.publicKey ≠ 0 →
        ofReference name culture version key flags = .ok named) ∧
      (identity.same named = true ↔ (algorithm = HashAlgorithm.md5 →
        KeyToken.ofDigest (Md5.digest key) = KeyToken.ofDigest (Sha1.digest key))) ∧
      (identity.same named = true → identity.FoundAs named) := by
  obtain ⟨token, derived, rfl⟩ := (ofAssembly_ok signed).1 made
  have byToken : (signedAs name culture version token).FoundAs
      (signedAs name culture version token) := foundAs_of_same (same_refl _)
  refine ⟨⟨token, rfl, fun flags short => ⟨ofReference_token short, byToken⟩⟩,
    signedAs name culture version (KeyToken.ofDigest (Sha1.digest key)),
    fun flags full => ofReference_key signed full, ?_, foundAs_of_same⟩
  rw [signedAs_same]
  by_cases md5 : algorithm = HashAlgorithm.md5
  · subst md5
    have own := Except.ok.inj (derived.symm.trans (KeyToken.ofPublicKey_md5 signed))
    rw [own]
    exact ⟨fun agree _ => agree, fun agree => agree rfl⟩
  · have own := KeyToken.ofPublicKey_ne_md5 signed derived md5
    exact ⟨fun _ asked => absurd asked md5, fun _ => own⟩

end

/-- The key that stands for the publisher of the core library in ECMA-335. -/
def standardKey : List UInt8 := [0, 0, 0, 0, 0, 0, 0, 0, 4, 0, 0, 0, 0, 0, 0, 0]

theorem standardKey_tokens :
    KeyToken.ofDigest (Sha1.digest standardKey) =
        ⟨#v[0xb7, 0x7a, 0x5c, 0x56, 0x19, 0x34, 0xe0, 0x89]⟩ ∧
      KeyToken.ofDigest (Md5.digest standardKey) =
        ⟨#v[0x96, 0x2f, 0x16, 0xc6, 0x29, 0xc1, 0x35, 0xca]⟩ := by
  decide +kernel

theorem references_agree_standardKey :
    ∃ identity named,
      ofAssembly "mscorlib" "" ⟨4, 0, 0, 0⟩ standardKey HashAlgorithm.sha1 = .ok identity ∧
      ofReference "mscorlib" "" ⟨4, 0, 0, 0⟩ standardKey AssemblyFlags.publicKey = .ok named ∧
      identity.same named = true ∧ identity.FoundAs named := by
  have signed : standardKey ≠ [] := by decide
  have made : ofAssembly "mscorlib" "" ⟨4, 0, 0, 0⟩ standardKey HashAlgorithm.sha1 =
      .ok (signedAs "mscorlib" "" ⟨4, 0, 0, 0⟩ _) :=
    (ofAssembly_ok signed).2 ⟨_, KeyToken.ofPublicKey_sha1 signed, rfl⟩
  obtain ⟨-, named, full, same, found⟩ := references_agree signed made
  have agree := same.2 fun asked => absurd asked (by decide)
  exact ⟨_, named, made, full _ (by decide), agree, found agree⟩

/-- An assembly that asks for MD5 is missed by a reference with its key. -/
theorem standardKey_md5_disagree :
    ∃ identity named,
      ofAssembly "A" "" ⟨1, 0, 0, 0⟩ standardKey HashAlgorithm.md5 = .ok identity ∧
      ofReference "A" "" ⟨1, 0, 0, 0⟩ standardKey AssemblyFlags.publicKey = .ok named ∧
      identity.same named = false := by
  have signed : standardKey ≠ [] := by decide
  refine ⟨_, _, (ofAssembly_ok signed).2 ⟨_, KeyToken.ofPublicKey_md5 signed, rfl⟩,
    ofReference_key signed (by decide), ?_⟩
  rw [← Bool.not_eq_true, signedAs_same, standardKey_tokens.1, standardKey_tokens.2]
  decide

end AssemblyIdentity

end CliMetadata
