import CliMetadata.Proofs.Token
import CliMetadata.Signature.Basic

set_option autoImplicit false

namespace CliMetadata

namespace MethodSignature

def allParams (m : MethodSignature) : List ParamSignature := m.returns :: (m.params ++ m.extra)

end MethodSignature

def modifierTokens (modifiers : List CustomModifier) : List Token := modifiers.map (·.type)

def ParamSignature.tokens (p : ParamSignature) : List Token := modifierTokens p.modifiers

namespace TypeSignature

def IsModified : TypeSignature → Prop
  | .modified .. => True
  | _ => False

def IsByReference : TypeSignature → Prop
  | .byReference _ => True
  | _ => False

def IsNamed : TypeSignature → Prop
  | .valueType _ | .classType _ => True
  | _ => False

def parts : TypeSignature → List TypeSignature
  | .pointer _ base | .byReference base | .array base _ _ | .vector _ base | .modified _ base =>
    [base]
  | .instantiation base args => base :: args
  | .functionPointer method => method.allParams.map (·.type)
  | _ => []

def ownTokens : TypeSignature → List Token
  | .pointer modifiers _ | .vector modifiers _ | .modified modifiers _ => modifierTokens modifiers
  | .valueType token | .classType token => [token]
  | .functionPointer method => method.allParams.flatMap (·.tokens)
  | _ => []

inductive Mentions (token : Token) : TypeSignature → Prop
  | own {type : TypeSignature} (member : token ∈ type.ownTokens) : Mentions token type
  | inside {type part : TypeSignature} (member : part ∈ type.parts)
    (mentions : Mentions token part) : Mentions token type

end TypeSignature

mutual

def TypeSignature.depth : TypeSignature → Nat
  | .pointer _ base | .byReference base | .array base _ _ | .vector _ base | .modified _ base =>
    base.depth + 1
  | .instantiation base args => max base.depth (TypeSignature.deepest args) + 1
  | .functionPointer method => method.depth + 1
  | _ => 1

def TypeSignature.deepest : List TypeSignature → Nat
  | [] => 0
  | type :: rest => max type.depth (TypeSignature.deepest rest)

def ParamSignature.depth : ParamSignature → Nat
  | ⟨_, _, type⟩ => type.depth

def ParamSignature.deepest : List ParamSignature → Nat
  | [] => 0
  | param :: rest => max param.depth (ParamSignature.deepest rest)

def MethodSignature.depth : MethodSignature → Nat
  | ⟨_, _, _, _, returns, params, extra⟩ =>
    max returns.depth (max (ParamSignature.deepest params) (ParamSignature.deepest extra))

end

@[simp] theorem TypeSignature.deepest_le (types : List TypeSignature) (n : Nat) :
    deepest types ≤ n ↔ ∀ type ∈ types, type.depth ≤ n := by
  induction types with
  | nil => simp [deepest]
  | cons type rest ih => simp only [deepest, Nat.max_le, ih, List.forall_mem_cons]

@[simp] theorem ParamSignature.depth_eq (p : ParamSignature) : p.depth = p.type.depth := by
  cases p
  rw [depth]

@[simp] theorem ParamSignature.deepest_le (params : List ParamSignature) (n : Nat) :
    deepest params ≤ n ↔ ∀ p ∈ params, p.type.depth ≤ n := by
  induction params with
  | nil => simp [deepest]
  | cons p rest ih => simp only [deepest, depth_eq, Nat.max_le, ih, List.forall_mem_cons]

@[simp] theorem MethodSignature.depth_le (m : MethodSignature) (n : Nat) :
    m.depth ≤ n ↔ ∀ p ∈ m.allParams, p.type.depth ≤ n := by
  cases m
  simp only [depth, allParams, ParamSignature.depth_eq, Nat.max_le, ParamSignature.deepest_le,
    List.forall_mem_cons, List.forall_mem_append]

namespace TypeSignature

theorem depth_pos (type : TypeSignature) : 0 < type.depth := by
  cases type <;> simp [depth]

theorem depth_le_iff (type : TypeSignature) (n : Nat) :
    type.depth ≤ n + 1 ↔ ∀ part ∈ type.parts, part.depth ≤ n := by
  cases type with
  | instantiation base args =>
    simp only [depth, parts, Nat.add_le_add_iff_right, Nat.max_le, deepest_le, List.forall_mem_cons]
  | functionPointer method => simp [depth, parts, MethodSignature.depth_le]
  | _ => simp [depth, parts]

end TypeSignature

/-- The first dimensions have sizes and the first have lower bounds; none has neither. -/
structure ArrayShape (rank : Nat) (dimensions : List ArrayDimension) : Prop where
  some : 1 ≤ rank
  rankFits : rank < 0x20000000
  prefixes : ∃ sizes lows, sizes ≤ rank ∧ lows ≤ rank ∧ dimensions.length = max sizes lows ∧
    ∀ i (inside : i < dimensions.length), (dimensions[i].size.isSome ↔ i < sizes) ∧
      (dimensions[i].lowerBound.isSome ↔ i < lows)
  sizesFit : ∀ d ∈ dimensions, ∀ size, d.size = .some size → size < 0x20000000
  lowsFit : ∀ d ∈ dimensions, ∀ low, d.lowerBound = .some low → -0x10000000 ≤ low ∧ low < 0x10000000

structure ParamSignature.Sound (p : ParamSignature) : Prop where
  named : ∀ token ∈ p.tokens, token.NamesType
  plain : p.byReference = false → ¬p.type.IsModified ∧ ¬p.type.IsByReference

structure MethodSignature.Sound (m : MethodSignature) : Prop where
  known : m.convention ≤ 5
  genericsFit : m.genericParams < 0x20000000
  paramsFit : m.params.length + m.extra.length < 0x20000000
  extra : m.convention ≠ 5 → m.extra = []
  params : ∀ p ∈ m.allParams, p.Sound

namespace TypeSignature

def Sound : TypeSignature → Prop
  | .pointer modifiers base | .vector modifiers base =>
    (∀ token ∈ modifierTokens modifiers, token.NamesType) ∧ ¬base.IsModified
  | .valueType token | .classType token => token.NamesType
  | .typeVariable number | .methodVariable number => number < 0x20000000
  | .array _ rank dimensions => ArrayShape rank dimensions
  | .instantiation base args => base.IsNamed ∧ args ≠ [] ∧ args.length < 0x20000000
  | .functionPointer method => method.Sound
  | .modified modifiers base =>
    modifiers ≠ [] ∧ (∀ token ∈ modifierTokens modifiers, token.NamesType) ∧ ¬base.IsModified
  | .primitive _ | .byReference _ => True

inductive WellFormed : TypeSignature → Prop
  | intro {type : TypeSignature} (sound : type.Sound)
    (parts : ∀ part ∈ type.parts, part.WellFormed) : WellFormed type

end TypeSignature

end CliMetadata
