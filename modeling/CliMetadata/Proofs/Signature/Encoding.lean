import CliMetadata.Proofs.Bytes.Codec
import CliMetadata.Proofs.Signature.Dimensions
import CliMetadata.Proofs.Signature.Grammar

set_option autoImplicit false

namespace CliMetadata

open Writer

def Writes {α : Type} (writer : Writer Unit) (form : List UInt8 → α → Prop) (value : α) : Prop :=
  ∃ bytes, writer.Puts bytes ∧ form bytes value

theorem Writer.Appends.writes {α : Type} {writer : Writer Unit} {form : List UInt8 → α → Prop}
    {value : α} (appends : writer.Appends)
    (encoded : ∃ bytes, writer.written = .ok bytes ∧ form bytes value) :
    Writes writer form value := by
  obtain ⟨bytes, written, form⟩ := encoded
  exact ⟨bytes, appends.puts written, form⟩

theorem writes_uint {n : Nat} (fits : n < 0x20000000) : Writes (compressedUint n) UintForm n :=
  (appends_compressedUint n).writes (Compressed.uint_form fits)

theorem writes_int {value : Int} (low : -0x10000000 ≤ value) (high : value < 0x10000000) :
    Writes (compressedInt value) IntForm value :=
  (appends_compressedInt value).writes (Compressed.int_form low high)

theorem writes_token {t : Token} (named : t.NamesType) : Writes (compressedToken t) TokenForm t :=
  (appends_compressedToken t).writes (Compressed.token_form named)

theorem writes_count {length : Nat} (fits : length < 0x20000000) :
    Writes (count length) UintForm length := by
  rw [count, if_pos (by omega)]
  exact writes_uint fits

theorem puts_marker (marked : Bool) (marker : UInt8) :
    (writeMarker marked marker).Puts (if marked then [marker] else []) := by
  cases marked with
  | true => exact puts_byte marker
  | false => exact puts_nothing

section
variable {α : Type} {write : α → Writer Unit} {form : List UInt8 → α → Prop}

theorem writes_each {values : List α} (each : ∀ value ∈ values, Writes (write value) form value) :
    Writes (Writer.each write values) (FormList form) values := by
  induction values with
  | nil => exact ⟨[], puts_nothing, .nil⟩
  | cons value rest ih =>
    obtain ⟨front, written, first⟩ := each value List.mem_cons_self
    obtain ⟨back, others, listed⟩ :=
      ih fun other member => each other (List.mem_cons_of_mem _ member)
    exact ⟨front ++ back, written.andThen others, .cons first listed⟩

end

theorem writes_modifier {m : CustomModifier} (named : m.type.NamesType) :
    Writes m.write ModifierForm m := by
  obtain ⟨token, written, form⟩ := writes_token named
  exact ⟨_, (puts_byte m.element).andThen written, token, rfl, form⟩

theorem writes_modifiers {modifiers : List CustomModifier}
    (named : ∀ token ∈ modifierTokens modifiers, token.NamesType) :
    Writes (writeModifiers modifiers) (FormList ModifierForm) modifiers :=
  writes_each fun _ member => writes_modifier (named _ (List.mem_map_of_mem member))

theorem writes_shape {rank : Nat} {dims : List ArrayDimension} (shape : ArrayShape rank dims)
    {inner : List UInt8 → TypeSignature → Prop} {front : List UInt8} {base : TypeSignature}
    (based : inner front base) :
    ∃ bytes, (writeShape rank dims).Puts bytes ∧
      ArrayForm inner (front ++ bytes) (.array base rank dims) := by
  obtain ⟨sizes, lows, fewSizes, fewLows, length, firsts⟩ := shape.prefixes
  obtain ⟨same, sizeCount, lowCount⟩ := dimensions_of length firsts
  have fits := shape.rankFits
  obtain ⟨ranked, rankWritten, ranks⟩ := writes_uint fits
  have sizesForm : Writes (each compressedUint (sizesOf dims)) (FormList UintForm)
      (sizesOf dims) := writes_each fun size member => by
    obtain ⟨d, inside, has⟩ := mem_sizesOf member
    exact writes_uint (shape.sizesFit d inside size has)
  have lowsForm : Writes (each compressedInt (lowerBoundsOf dims)) (FormList IntForm)
      (lowerBoundsOf dims) := writes_each fun low member => by
    obtain ⟨d, inside, has⟩ := mem_lowerBoundsOf member
    obtain ⟨above, below⟩ := shape.lowsFit d inside low has
    exact writes_int above below
  have fewSizes' : (sizesOf dims).length < 0x20000000 := by omega
  have fewLows' : (lowerBoundsOf dims).length < 0x20000000 := by omega
  obtain ⟨sizesCount, sizesCountWritten, sizesCounted⟩ := writes_count fewSizes'
  obtain ⟨sized, sizesWritten, sizesListed⟩ := sizesForm
  obtain ⟨lowsCount, lowsCountWritten, lowsCounted⟩ := writes_count fewLows'
  obtain ⟨bounded, lowsWritten, lowsListed⟩ := lowsForm
  refine ⟨ranked ++ (sizesCount ++ (sized ++ (lowsCount ++ bounded))), ?_, ?_⟩
  · exact rankWritten.andThen <| sizesCountWritten.andThen <| sizesWritten.andThen <|
      lowsCountWritten.andThen lowsWritten
  · have some : rank ≠ 0 := Nat.one_le_iff_ne_zero.1 shape.some
    have form := ArrayForm.intro based ranks some sizesCounted (by omega) sizesListed lowsCounted
      (by omega) lowsListed
    rwa [same] at form

namespace MethodSignature

theorem convention_cases {convention : UInt8} (known : convention ≤ 5) :
    convention = 0 ∨ convention = 1 ∨ convention = 2 ∨ convention = 3 ∨ convention = 4 ∨
      convention = 5 := by
  have small : convention.toNat ≤ 5 := UInt8.le_iff_toNat_le.1 known
  simp only [← UInt8.toNat_inj, UInt8.reduceToNat]
  omega

theorem header_fields {m : MethodSignature} (known : m.convention ≤ 5) :
    m.header &&& Header.conventionMask = m.convention ∧
      (m.header &&& Header.hasThis != 0) = m.hasThis ∧
      (m.header &&& Header.explicitThis != 0) = m.explicitThis ∧
      (m.header &&& Header.generic ≠ 0 ↔ m.isGeneric = true) := by
  unfold header
  generalize m.isGeneric = generic, m.hasThis = this, m.explicitThis = explicit
  rcases convention_cases known with same | same | same | same | same | same <;> rw [same] <;>
    revert generic this explicit <;> decide

end MethodSignature

section
variable {inner : List UInt8 → TypeSignature → Prop}

@[simp] theorem TypeSignature.writeList_eq (types : List TypeSignature) :
    TypeSignature.writeList types = each TypeSignature.write types := by
  induction types with
  | nil => rw [TypeSignature.writeList, each]
  | cons type rest ih => rw [TypeSignature.writeList, each, ih]

@[simp] theorem ParamSignature.writeList_eq (params : List ParamSignature) :
    ParamSignature.writeList params = each ParamSignature.write params := by
  induction params with
  | nil => rw [ParamSignature.writeList, each]
  | cons p rest ih => rw [ParamSignature.writeList, each, ih]

theorem writes_types (types : List TypeSignature)
    (each : ∀ type ∈ types, Writes type.write inner type) :
    Writes (TypeSignature.writeList types) (FormList inner) types := by
  rw [TypeSignature.writeList_eq]
  exact writes_each each

theorem writes_params (params : List ParamSignature)
    (each : ∀ p ∈ params, Writes p.write (ParamForm inner) p) :
    Writes (ParamSignature.writeList params) (FormList (ParamForm inner)) params := by
  rw [ParamSignature.writeList_eq]
  exact writes_each each

theorem writes_param {p : ParamSignature} (sound : p.Sound)
    (base : Writes p.type.write inner p.type) : Writes p.write (ParamForm inner) p := by
  obtain ⟨modifiers, byReference, type⟩ := p
  obtain ⟨front, modifiersWritten, listed⟩ := writes_modifiers sound.named
  obtain ⟨back, baseWritten, based⟩ := base
  refine ⟨front ++ ((if byReference then [Element.byReference] else []) ++ back), ?_, ?_⟩
  · rw [ParamSignature.write]
    exact modifiersWritten.andThen ((puts_marker byReference _).andThen baseWritten)
  cases byReference with
  | true => exact .byReference listed based
  | false =>
    obtain ⟨unmodified, byValue⟩ := sound.plain rfl
    exact .byValue listed based unmodified byValue

theorem writes_generics {m : MethodSignature} (known : m.convention ≤ 5)
    (fits : m.genericParams < 0x20000000) :
    Writes (writeGenerics m.genericParams) (GenericForm m.header) m.genericParams := by
  obtain ⟨_, _, _, flagged⟩ := MethodSignature.header_fields known
  rw [MethodSignature.isGeneric, decide_eq_true_iff] at flagged
  by_cases generic : 0 < m.genericParams
  · obtain ⟨bytes, written, form⟩ := writes_uint fits
    refine ⟨bytes, by rwa [writeGenerics, if_pos generic], ?_⟩
    rw [GenericForm, if_pos (flagged.2 generic)]
    exact form
  · refine ⟨[], by rw [writeGenerics, if_neg generic]; exact puts_nothing, ?_⟩
    rw [GenericForm, if_neg (mt flagged.1 generic)]
    exact ⟨rfl, by omega⟩

theorem writes_method {m : MethodSignature} (sound : m.Sound)
    (each : ∀ p ∈ m.allParams, Writes p.type.write inner p.type) :
    Writes m.write (MethodForm inner) m := by
  have params : ∀ p ∈ m.allParams, Writes p.write (ParamForm inner) p :=
    fun p member => writes_param (sound.params p member) (each p member)
  obtain ⟨convention, hasThis, explicitThis, _⟩ := MethodSignature.header_fields sound.known
  obtain ⟨generics, genericsWritten, generic⟩ := writes_generics sound.known sound.genericsFit
  obtain ⟨count, countWritten, counted⟩ := writes_count sound.paramsFit
  obtain ⟨returned, returnsWritten, returning⟩ := params m.returns List.mem_cons_self
  obtain ⟨fixed, fixedWritten, listed⟩ := writes_params m.params fun p member =>
    params p (List.mem_cons_of_mem _ (List.mem_append_left _ member))
  obtain ⟨apart, apartWritten, behind⟩ := writes_params m.extra fun p member =>
    params p (List.mem_cons_of_mem _ (List.mem_append_right _ member))
  have taking : ParamsForm inner (m.header &&& Header.conventionMask == Header.varargs)
      (fixed ++ ((if !m.extra.isEmpty then [Element.sentinel] else []) ++ apart)) m.params
      m.extra := by
    by_cases none : m.extra = []
    · rw [none] at behind ⊢
      cases behind
      simpa using ParamsForm.fixed listed
    · have varargs : m.convention = 5 :=
        Decidable.byContradiction fun other => none (sound.extra other)
      have allowed : (m.convention == Header.varargs) = true := by rw [varargs]; rfl
      rw [convention, allowed]
      simpa [none] using ParamsForm.apart rfl none listed behind
  have known : m.header &&& Header.conventionMask ≤ 5 := by
    rw [convention]
    exact sound.known
  have form := MethodForm.intro known generic counted returning taking
  rw [hasThis, explicitThis, convention] at form
  obtain ⟨_, _, _, _, _, _, _⟩ := m
  refine ⟨_, ?_, form⟩
  rw [MethodSignature.write]
  exact (puts_byte _).andThen <| genericsWritten.andThen <| countWritten.andThen <|
    returnsWritten.andThen <| fixedWritten.andThen <| (puts_marker _ _).andThen apartWritten

theorem writes_modified {modifiers : List CustomModifier} {type : TypeSignature}
    (named : ∀ token ∈ modifierTokens modifiers, token.NamesType) (plain : ¬type.IsModified)
    (base : Writes type.write inner type) :
    ∃ bytes, Puts (do writeModifiers modifiers; type.write) bytes ∧
      ModifiedForm inner bytes modifiers type := by
  obtain ⟨front, modifiersWritten, listed⟩ := writes_modifiers named
  obtain ⟨back, baseWritten, based⟩ := base
  exact ⟨front ++ back, modifiersWritten.andThen baseWritten, .intro listed based plain⟩

theorem writes_body {type : TypeSignature} (sound : type.Sound)
    (each : ∀ part ∈ type.parts, Writes part.write inner part) :
    Writes type.write (BodyForm inner) type := by
  cases type with
  | primitive p => exact ⟨[p.byte], by rw [TypeSignature.write]; exact puts_byte _, .primitive p⟩
  | pointer modifiers base =>
    obtain ⟨bytes, written, form⟩ := writes_modified sound.1 sound.2 (each base List.mem_cons_self)
    refine ⟨_, ?_, .pointer form⟩
    rw [TypeSignature.write]
    exact (puts_byte _).andThen written
  | byReference base =>
    obtain ⟨bytes, written, form⟩ := each base List.mem_cons_self
    refine ⟨_, ?_, .byReference form⟩
    rw [TypeSignature.write]
    exact (puts_byte _).andThen written
  | valueType token =>
    obtain ⟨bytes, written, form⟩ := writes_token sound
    refine ⟨_, ?_, .valueType form⟩
    rw [TypeSignature.write]
    exact (puts_byte _).andThen written
  | classType token =>
    obtain ⟨bytes, written, form⟩ := writes_token sound
    refine ⟨_, ?_, .classType form⟩
    rw [TypeSignature.write]
    exact (puts_byte _).andThen written
  | typeVariable number =>
    obtain ⟨bytes, written, form⟩ := writes_uint sound
    refine ⟨_, ?_, .typeVariable form⟩
    rw [TypeSignature.write]
    exact (puts_byte _).andThen written
  | methodVariable number =>
    obtain ⟨bytes, written, form⟩ := writes_uint sound
    refine ⟨_, ?_, .methodVariable form⟩
    rw [TypeSignature.write]
    exact (puts_byte _).andThen written
  | array base rank dims =>
    obtain ⟨front, baseWritten, based⟩ := each base List.mem_cons_self
    obtain ⟨back, shapeWritten, form⟩ := writes_shape sound based
    refine ⟨_, ?_, .array form⟩
    rw [TypeSignature.write]
    exact (puts_byte _).andThen (baseWritten.andThen shapeWritten)
  | vector modifiers base =>
    obtain ⟨bytes, written, form⟩ := writes_modified sound.1 sound.2 (each base List.mem_cons_self)
    refine ⟨_, ?_, .vector form⟩
    rw [TypeSignature.write]
    exact (puts_byte _).andThen written
  | instantiation base args =>
    obtain ⟨named, some, fits⟩ := sound
    obtain ⟨front, baseWritten, based⟩ := each base List.mem_cons_self
    obtain ⟨count, countWritten, counted⟩ := writes_count fits
    obtain ⟨back, argsWritten, listed⟩ := writes_types args fun arg member =>
      each arg (List.mem_cons_of_mem _ member)
    refine ⟨_, ?_, .instantiation (.intro based named counted some listed)⟩
    rw [TypeSignature.write]
    exact (puts_byte _).andThen (baseWritten.andThen (countWritten.andThen argsWritten))
  | functionPointer method =>
    obtain ⟨bytes, written, form⟩ :=
      writes_method sound fun p member => each p.type (List.mem_map_of_mem member)
    refine ⟨_, ?_, .functionPointer form⟩
    rw [TypeSignature.write]
    exact (puts_byte _).andThen written
  | modified modifiers base =>
    obtain ⟨some, named, plain⟩ := sound
    obtain ⟨bytes, written, form⟩ := writes_modified named plain (each base List.mem_cons_self)
    refine ⟨_, ?_, .modified form some⟩
    rw [TypeSignature.write]
    exact written

theorem writes_field {f : FieldSignature}
    (sound : (∀ token ∈ modifierTokens f.modifiers, token.NamesType) ∧ ¬f.type.IsModified)
    (base : Writes f.type.write inner f.type) : Writes f.write (FieldForm inner) f := by
  obtain ⟨bytes, written, form⟩ := writes_modified sound.1 sound.2 base
  exact ⟨_, (puts_byte _).andThen written, .intro form⟩

theorem writes_property {p : PropertySignature}
    (named : ∀ token ∈ modifierTokens p.modifiers, token.NamesType) (plain : ¬p.type.IsModified)
    (fits : p.params.length < 0x20000000) (params : ∀ param ∈ p.params, param.Sound)
    (base : Writes p.type.write inner p.type)
    (each : ∀ param ∈ p.params, Writes param.type.write inner param.type) :
    Writes p.write (PropertyForm inner) p := by
  obtain ⟨front, modifiersWritten, listedModifiers⟩ := writes_modifiers named
  obtain ⟨back, baseWritten, based⟩ := base
  obtain ⟨count, countWritten, counted⟩ := writes_count fits
  obtain ⟨listed, paramsWritten, taking⟩ := writes_params p.params fun param member =>
    writes_param (params param member) (each param member)
  have headerFields (this : Bool) :
      (Header.property ||| if this then Header.hasThis else 0) &&& ~~~Header.hasThis =
        Header.property ∧
      ((Header.property ||| if this then Header.hasThis else 0) &&& Header.hasThis != 0) =
        this := by
    cases this <;> decide
  have form := PropertyForm.intro (headerFields p.hasThis).1 counted
    (.intro listedModifiers based plain) taking
  rw [(headerFields p.hasThis).2, List.append_assoc] at form
  exact ⟨_, (puts_byte _).andThen <| countWritten.andThen <| modifiersWritten.andThen <|
    baseWritten.andThen paramsWritten, form⟩

theorem Writes.append {type : TypeSignature} (writes : Writes type.write inner type) :
    Writes type.append inner type := by
  obtain ⟨bytes, written, form⟩ := writes
  exact ⟨bytes, written.restoring, form⟩

theorem writes_methodSpec {m : MethodSpecSignature} (fits : m.args.length < 0x20000000)
    (each : ∀ arg ∈ m.args, Writes arg.write inner arg) :
    Writes m.write (MethodSpecForm inner) m := by
  obtain ⟨count, countWritten, counted⟩ := writes_count fits
  obtain ⟨back, argsWritten, listed⟩ := writes_each fun arg member => (each arg member).append
  refine ⟨_, ?_, .intro counted listed⟩
  exact (puts_byte _).andThen (countWritten.andThen argsWritten)

end

theorem TypeSignature.WellFormed.writes {type : TypeSignature} (wellFormed : type.WellFormed)
    {levels : Nat} (shallow : type.depth ≤ levels) : Writes type.write (TypeForm levels) type := by
  induction levels generalizing type with
  | zero => exact absurd type.depth_pos (by omega)
  | succ levels ih =>
    obtain ⟨sound, parts⟩ := wellFormed
    refine writes_body sound fun part member => ih (parts part member) ?_
    exact (type.depth_le_iff levels).1 shallow part member

end CliMetadata
