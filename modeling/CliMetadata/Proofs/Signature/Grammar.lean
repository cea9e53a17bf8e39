import CliMetadata.Proofs.Bytes.Compressed
import CliMetadata.Proofs.Signature.WellFormed
import CliMetadata.Signature.Decoder

set_option autoImplicit false

namespace CliMetadata

inductive FormList {α : Type} (form : List UInt8 → α → Prop) : List UInt8 → List α → Prop
  | nil : FormList form [] []
  | cons {front back : List UInt8} {value : α} {rest : List α} (first : form front value)
    (others : FormList form back rest) : FormList form (front ++ back) (value :: rest)

def ModifierForm (bytes : List UInt8) (m : CustomModifier) : Prop :=
  ∃ token, bytes = m.element :: token ∧ TokenForm token m.type

section
variable (inner : List UInt8 → TypeSignature → Prop)

inductive ModifiedForm : List UInt8 → List CustomModifier → TypeSignature → Prop
  | intro {front back : List UInt8} {modifiers : List CustomModifier} {type : TypeSignature}
    (listed : FormList ModifierForm front modifiers) (base : inner back type)
    (unmodified : ¬type.IsModified) : ModifiedForm (front ++ back) modifiers type

/-- A type passed by reference has its marker behind the modifiers; without the marker, the type
must not begin with a modifier or a marker of its own. -/
inductive ParamForm : List UInt8 → ParamSignature → Prop
  | byReference {front back : List UInt8} {modifiers : List CustomModifier} {type : TypeSignature}
    (listed : FormList ModifierForm front modifiers) (base : inner back type) :
    ParamForm (front ++ Element.byReference :: back) ⟨modifiers, true, type⟩
  | byValue {front back : List UInt8} {modifiers : List CustomModifier} {type : TypeSignature}
    (listed : FormList ModifierForm front modifiers) (base : inner back type)
    (unmodified : ¬type.IsModified) (byValue : ¬type.IsByReference) :
    ParamForm (front ++ back) ⟨modifiers, false, type⟩

def GenericForm (header : UInt8) (bytes : List UInt8) (genericParams : Nat) : Prop :=
  if header &&& Header.generic ≠ 0 then UintForm bytes genericParams
  else bytes = [] ∧ genericParams = 0

inductive ParamsForm (varargs : Bool) :
    List UInt8 → List ParamSignature → List ParamSignature → Prop
  | fixed {bytes : List UInt8} {params : List ParamSignature}
    (listed : FormList (ParamForm inner) bytes params) : ParamsForm varargs bytes params []
  | apart {front back : List UInt8} {params extra : List ParamSignature} (allowed : varargs = true)
    (some : extra ≠ []) (listed : FormList (ParamForm inner) front params)
    (behind : FormList (ParamForm inner) back extra) :
    ParamsForm varargs (front ++ Element.sentinel :: back) params extra

inductive MethodForm : List UInt8 → MethodSignature → Prop
  | intro {header : UInt8} {generics count returned listed : List UInt8} {genericParams : Nat}
    {returns : ParamSignature} {params extra : List ParamSignature}
    (known : header &&& Header.conventionMask ≤ Header.varargs)
    (generic : GenericForm header generics genericParams)
    (counted : UintForm count (params.length + extra.length))
    (returning : ParamForm inner returned returns)
    (taking : ParamsForm inner (header &&& Header.conventionMask == Header.varargs) listed params
      extra) :
    MethodForm (header :: (generics ++ (count ++ (returned ++ listed))))
      ⟨header &&& Header.hasThis != 0, header &&& Header.explicitThis != 0,
        header &&& Header.conventionMask, genericParams, returns, params, extra⟩

inductive ArrayForm : List UInt8 → TypeSignature → Prop
  | intro {front ranked sizeCount sized lowCount bounded : List UInt8} {type : TypeSignature}
    {rank : Nat} {sizes : List Nat} {lows : List Int} (base : inner front type)
    (ranks : UintForm ranked rank) (some : rank ≠ 0)
    (sizesCounted : UintForm sizeCount sizes.length) (sizesFit : sizes.length ≤ rank)
    (sizesListed : FormList UintForm sized sizes) (lowsCounted : UintForm lowCount lows.length)
    (lowsFit : lows.length ≤ rank) (lowsListed : FormList IntForm bounded lows) :
    ArrayForm (front ++ (ranked ++ (sizeCount ++ (sized ++ (lowCount ++ bounded)))))
      (.array type rank (SignatureReader.dimensions sizes lows))

inductive InstantiationForm : List UInt8 → TypeSignature → Prop
  | intro {front count back : List UInt8} {type : TypeSignature} {args : List TypeSignature}
    (base : inner front type) (named : type.IsNamed) (counted : UintForm count args.length)
    (some : args ≠ []) (listed : FormList inner back args) :
    InstantiationForm (front ++ (count ++ back)) (.instantiation type args)

inductive BodyForm : List UInt8 → TypeSignature → Prop
  | primitive (p : Primitive) : BodyForm [p.byte] (.primitive p)
  | pointer {bytes : List UInt8} {modifiers : List CustomModifier} {type : TypeSignature}
    (form : ModifiedForm inner bytes modifiers type) :
    BodyForm (Element.pointer :: bytes) (.pointer modifiers type)
  | byReference {bytes : List UInt8} {type : TypeSignature} (form : inner bytes type) :
    BodyForm (Element.byReference :: bytes) (.byReference type)
  | valueType {bytes : List UInt8} {token : Token} (form : TokenForm bytes token) :
    BodyForm (Element.valueType :: bytes) (.valueType token)
  | classType {bytes : List UInt8} {token : Token} (form : TokenForm bytes token) :
    BodyForm (Element.classType :: bytes) (.classType token)
  | typeVariable {bytes : List UInt8} {number : Nat} (form : UintForm bytes number) :
    BodyForm (Element.typeVariable :: bytes) (.typeVariable number)
  | methodVariable {bytes : List UInt8} {number : Nat} (form : UintForm bytes number) :
    BodyForm (Element.methodVariable :: bytes) (.methodVariable number)
  | array {bytes : List UInt8} {type : TypeSignature} (form : ArrayForm inner bytes type) :
    BodyForm (Element.array :: bytes) type
  | vector {bytes : List UInt8} {modifiers : List CustomModifier} {type : TypeSignature}
    (form : ModifiedForm inner bytes modifiers type) :
    BodyForm (Element.vector :: bytes) (.vector modifiers type)
  | instantiation {bytes : List UInt8} {type : TypeSignature}
    (form : InstantiationForm inner bytes type) : BodyForm (Element.instantiation :: bytes) type
  | functionPointer {bytes : List UInt8} {method : MethodSignature}
    (form : MethodForm inner bytes method) :
    BodyForm (Element.functionPointer :: bytes) (.functionPointer method)
  | modified {bytes : List UInt8} {modifiers : List CustomModifier} {type : TypeSignature}
    (form : ModifiedForm inner bytes modifiers type) (some : modifiers ≠ []) :
    BodyForm bytes (.modified modifiers type)

inductive FieldForm : List UInt8 → FieldSignature → Prop
  | intro {bytes : List UInt8} {modifiers : List CustomModifier} {type : TypeSignature}
    (form : ModifiedForm inner bytes modifiers type) :
    FieldForm (Header.field :: bytes) ⟨modifiers, type⟩

inductive PropertyForm : List UInt8 → PropertySignature → Prop
  | intro {header : UInt8} {count base listed : List UInt8} {modifiers : List CustomModifier}
    {type : TypeSignature} {params : List ParamSignature}
    (known : header &&& ~~~Header.hasThis = Header.property)
    (counted : UintForm count params.length) (form : ModifiedForm inner base modifiers type)
    (taking : FormList (ParamForm inner) listed params) :
    PropertyForm (header :: (count ++ (base ++ listed)))
      ⟨header &&& Header.hasThis != 0, modifiers, type, params⟩

inductive MethodSpecForm : List UInt8 → MethodSpecSignature → Prop
  | intro {count back : List UInt8} {args : List TypeSignature}
    (counted : UintForm count args.length) (listed : FormList inner back args) :
    MethodSpecForm (Header.instantiation :: (count ++ back)) ⟨args⟩

end

def TypeForm : (levels : Nat) → List UInt8 → TypeSignature → Prop
  | 0 => fun _ _ => False
  | levels + 1 => BodyForm (TypeForm levels)

end CliMetadata
