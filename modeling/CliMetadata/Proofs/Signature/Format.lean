import CliMetadata.Proofs.Signature.Encoding
import CliMetadata.Proofs.Signature.Forms
import CliMetadata.Proofs.Signature.Levels

set_option autoImplicit false

namespace CliMetadata

inductive SignatureFormat
  | type | field | methodDef | property | typeSpec | methodSpec
  deriving DecidableEq, Repr

namespace SignatureFormat

def Value : SignatureFormat → Type
  | .type | .typeSpec => TypeSignature
  | .field => FieldSignature
  | .methodDef => MethodSignature
  | .property => PropertySignature
  | .methodSpec => MethodSpecSignature

def read : (format : SignatureFormat) → ByteArray → Except Error format.Value
  | .type => readType
  | .field => readField
  | .methodDef => readMethodDef
  | .property => readProperty
  | .typeSpec => readTypeSpec
  | .methodSpec => readMethodSpec

def encode : (format : SignatureFormat) → format.Value → Except Error (List UInt8)
  | .type | .typeSpec => TypeSignature.encode
  | .field => FieldSignature.encode
  | .methodDef => MethodSignature.encode
  | .property => PropertySignature.encode
  | .methodSpec => MethodSpecSignature.encode

def parts : (format : SignatureFormat) → format.Value → List TypeSignature
  | .type, (whole : TypeSignature) | .typeSpec, (whole : TypeSignature) => [whole]
  | .field, (f : FieldSignature) => [f.type]
  | .methodDef, (m : MethodSignature) => m.allParams.map (·.type)
  | .property, (p : PropertySignature) => p.type :: p.params.map (·.type)
  | .methodSpec, (m : MethodSpecSignature) => m.args

def ownTokens : (format : SignatureFormat) → format.Value → List Token
  | .field, (f : FieldSignature) => modifierTokens f.modifiers
  | .methodDef, (m : MethodSignature) => m.allParams.flatMap (·.tokens)
  | .property, (p : PropertySignature) => modifierTokens p.modifiers ++ p.params.flatMap (·.tokens)
  | .type, _ | .typeSpec, _ | .methodSpec, _ => []

def Mentions (format : SignatureFormat) (token : Token) (value : format.Value) : Prop :=
  token ∈ format.ownTokens value ∨ ∃ part ∈ format.parts value, part.Mentions token

def Sound : (format : SignatureFormat) → format.Value → Prop
  | .type, _ | .typeSpec, _ => True
  | .field, (f : FieldSignature) =>
    (∀ token ∈ modifierTokens f.modifiers, token.NamesType) ∧ ¬f.type.IsModified
  | .methodDef, (m : MethodSignature) => m.Sound
  | .property, (p : PropertySignature) =>
    (∀ token ∈ modifierTokens p.modifiers, token.NamesType) ∧ ¬p.type.IsModified ∧
      p.params.length < 0x20000000 ∧ ∀ param ∈ p.params, param.Sound
  | .methodSpec, (m : MethodSpecSignature) => m.args.length < 0x20000000

structure WellFormed (format : SignatureFormat) (value : format.Value) : Prop where
  sound : format.Sound value
  parts : ∀ part ∈ format.parts value, part.WellFormed

def write : (format : SignatureFormat) → format.Value → Writer Unit
  | .type | .typeSpec => TypeSignature.write
  | .field => FieldSignature.write
  | .methodDef => MethodSignature.write
  | .property => PropertySignature.write
  | .methodSpec => MethodSpecSignature.write

theorem encode_eq (format : SignatureFormat) (value : format.Value) :
    format.encode value = (format.write value).written := by
  cases format <;> rfl

def reader : (format : SignatureFormat) → Nat → Reader format.Value
  | .type | .typeSpec => SignatureReader.type
  | .field => SignatureReader.field
  | .methodDef => SignatureReader.methodDef
  | .property => SignatureReader.property
  | .methodSpec => SignatureReader.methodSpec

theorem read_eq (format : SignatureFormat) (blob : ByteArray) :
    format.read blob = SignatureReader.whole format.reader blob := by
  cases format <;> rfl

def Form (inner : List UInt8 → TypeSignature → Prop) :
    (format : SignatureFormat) → List UInt8 → format.Value → Prop
  | .type | .typeSpec => inner
  | .field => FieldForm inner
  | .methodDef => MethodForm inner
  | .property => PropertyForm inner
  | .methodSpec => MethodSpecForm inner

theorem takes_reader (format : SignatureFormat) (levels : Nat) :
    (format.reader levels).Takes fun bytes _ value =>
      format.Form (TypeForm levels) bytes value := by
  cases format with
  | type | typeSpec => exact SignatureReader.takes_type levels
  | field => exact SignatureReader.takes_field levels
  | methodDef => exact SignatureReader.takes_methodDef levels
  | property => exact SignatureReader.takes_property levels
  | methodSpec => exact SignatureReader.takes_methodSpec levels

theorem within_reader (format : SignatureFormat) {few many : Nat} (fewer : few ≤ many) :
    SignatureReader.Within (format.reader few) (format.reader many) := by
  cases format with
  | type | typeSpec => exact SignatureReader.within_type fewer
  | field => exact SignatureReader.within_field fewer
  | methodDef => exact SignatureReader.within_methodDef fewer
  | property => exact SignatureReader.within_property fewer
  | methodSpec => exact SignatureReader.within_methodSpec fewer

theorem read_ok (format : SignatureFormat) (blob : ByteArray) (value : format.Value) :
    format.read blob = .ok value ↔
      format.Form (TypeForm SignatureReader.levels) blob.data.toList value := by
  rw [read_eq]
  exact SignatureReader.whole_ok (format.takes_reader _) blob value

section
variable {inner outer : List UInt8 → TypeSignature → Prop} {format : SignatureFormat}
  {bytes : List UInt8} {value : format.Value}

theorem Form.part (form : format.Form inner bytes value) {part : TypeSignature}
    (member : part ∈ format.parts value) : FormWithin inner bytes part := by
  cases format with
  | type | typeSpec =>
    obtain rfl := List.mem_singleton.1 member
    exact .whole form
  | field =>
    obtain ⟨form⟩ := (form : FieldForm inner bytes value)
    obtain rfl := List.mem_singleton.1 member
    exact form.base.cons
  | methodDef =>
    obtain ⟨p, own, rfl⟩ := List.mem_map.1 member
    exact (MethodForm.param form own).within fun _ form => form.base
  | property =>
    obtain ⟨known, counted, form, taking⟩ := (form : PropertyForm inner bytes value)
    refine FormWithin.cons (FormWithin.append_left ?_)
    obtain rfl | member := List.mem_cons.1 member
    · exact form.base.append_right
    · obtain ⟨p, own, rfl⟩ := List.mem_map.1 member
      exact ((taking.of_mem own).within fun _ form => form.base).append_left
  | methodSpec =>
    obtain ⟨counted, listed⟩ := (form : MethodSpecForm inner bytes value)
    exact (listed.of_mem member).append_left.cons

theorem Form.sound (form : format.Form inner bytes value)
    (named : ∀ token ∈ format.ownTokens value, token.NamesType) : format.Sound value := by
  cases format with
  | type | typeSpec => trivial
  | field =>
    obtain ⟨form⟩ := (form : FieldForm inner bytes value)
    exact ⟨named, form.plain⟩
  | methodDef =>
    refine MethodForm.sound form fun p member token own => named token ?_
    exact List.mem_flatMap.2 ⟨p, member, own⟩
  | property =>
    obtain ⟨known, counted, form, taking⟩ := (form : PropertyForm inner bytes value)
    refine ⟨fun token own => named token (List.mem_append_left _ own), form.plain, counted.lt, ?_⟩
    intro p member
    obtain ⟨_, _, form⟩ := taking.of_mem member
    refine form.sound fun token own => named token (List.mem_append_right _ ?_)
    exact List.mem_flatMap.2 ⟨p, member, own⟩
  | methodSpec =>
    obtain ⟨counted, listed⟩ := (form : MethodSpecForm inner bytes value)
    exact counted.lt

theorem writes_format (sound : format.Sound value)
    (each : ∀ part ∈ format.parts value, Writes part.write inner part) :
    Writes (format.write value) (format.Form inner) value := by
  cases format with
  | type | typeSpec => exact each _ List.mem_cons_self
  | field => exact writes_field sound (each _ List.mem_cons_self)
  | methodDef => exact writes_method sound fun p member => each _ (List.mem_map_of_mem member)
  | property =>
    obtain ⟨named, plain, fits, params⟩ := sound
    refine writes_property named plain fits params (each _ List.mem_cons_self) fun p member => ?_
    exact each _ (List.mem_cons_of_mem _ (List.mem_map_of_mem member))
  | methodSpec => exact writes_methodSpec sound each

end

theorem Form.wellFormed {format : SignatureFormat} {levels : Nat} {bytes : List UInt8}
    {value : format.Value} (form : format.Form (TypeForm levels) bytes value)
    (named : ∀ token, format.Mentions token value → token.NamesType) : format.WellFormed value := by
  refine ⟨form.sound fun token own => named token (.inl own), fun part member => ?_⟩
  obtain ⟨_, _, form⟩ := form.part member
  exact form.wellFormed fun token inside => named token (.inr ⟨part, member, inside⟩)

theorem Form.depth_le {format : SignatureFormat} {levels : Nat} {bytes : List UInt8}
    {value : format.Value} (form : format.Form (TypeForm levels) bytes value) :
    ∀ part ∈ format.parts value, part.depth ≤ levels := by
  intro part member
  obtain ⟨_, _, form⟩ := form.part member
  exact form.depth_le

theorem WellFormed.writes {format : SignatureFormat} {value : format.Value}
    (wellFormed : format.WellFormed value) {levels : Nat}
    (shallow : ∀ part ∈ format.parts value, part.depth ≤ levels) :
    ∃ bytes, format.encode value = .ok bytes ∧ format.Form (TypeForm levels) bytes value := by
  obtain ⟨bytes, written, form⟩ := writes_format wellFormed.sound fun part member =>
    (wellFormed.parts part member).writes (shallow part member)
  exact ⟨bytes, by rw [encode_eq, written.written], form⟩

end SignatureFormat

end CliMetadata
