import CliMetadata.Binding.Entity

set_option autoImplicit false

namespace CliMetadata

inductive TypeNode
  | bound (kind : DefinitionKind) (definition : TypeId) (args : List TypeNode)
  | array (element : TypeNode)
  | mdArray (element : TypeNode) (rank : Nat)
  | pointer (pointee : TypeNode)
  | voidPointer
  | genericParam (id : GenericParamId)
  deriving Inhabited

structure BoundType where
  kind : DefinitionKind
  definition : TypeId
  args : List TypeNode

namespace BoundType

def node (b : BoundType) : TypeNode := .bound b.kind b.definition b.args

end BoundType

namespace TypeNode

def asBound : TypeNode → Option BoundType
  | .bound kind definition args => some ⟨kind, definition, args⟩
  | _ => none

mutual

def beq : TypeNode → TypeNode → Bool
  | .bound k d args, .bound k' d' args' => k == k' && d == d' && beqArgs args args'
  | .array e, .array e' => beq e e'
  | .mdArray e r, .mdArray e' r' => beq e e' && r == r'
  | .pointer p, .pointer p' => beq p p'
  | .voidPointer, .voidPointer => true
  | .genericParam i, .genericParam i' => i == i'
  | _, _ => false

def beqArgs : List TypeNode → List TypeNode → Bool
  | [], [] => true
  | a :: as, b :: bs => beq a b && beqArgs as bs
  | _, _ => false

end

instance : BEq TypeNode := ⟨beq⟩

mutual

theorem eq_of_beq_true : ∀ a b : TypeNode, beq a b = true → a = b
  | .bound .., .bound .., h => by
    simp only [beq, Bool.and_eq_true, beq_iff_eq] at h
    rw [h.1.1, h.1.2, eq_of_beqArgs_true _ _ h.2]
  | .array _, .array _, h => by
    simp only [beq] at h
    rw [eq_of_beq_true _ _ h]
  | .mdArray .., .mdArray .., h => by
    simp only [beq, Bool.and_eq_true, beq_iff_eq] at h
    rw [eq_of_beq_true _ _ h.1, h.2]
  | .pointer _, .pointer _, h => by
    simp only [beq] at h
    rw [eq_of_beq_true _ _ h]
  | .voidPointer, .voidPointer, _ => rfl
  | .genericParam _, .genericParam _, h => by
    simp only [beq, beq_iff_eq] at h
    rw [h]
  | .bound .., .array .., h | .bound .., .mdArray .., h | .bound .., .pointer .., h
  | .bound .., .voidPointer, h | .bound .., .genericParam .., h
  | .array .., .bound .., h | .array .., .mdArray .., h | .array .., .pointer .., h
  | .array .., .voidPointer, h | .array .., .genericParam .., h
  | .mdArray .., .bound .., h | .mdArray .., .array .., h | .mdArray .., .pointer .., h
  | .mdArray .., .voidPointer, h | .mdArray .., .genericParam .., h
  | .pointer .., .bound .., h | .pointer .., .array .., h | .pointer .., .mdArray .., h
  | .pointer .., .voidPointer, h | .pointer .., .genericParam .., h
  | .voidPointer, .bound .., h | .voidPointer, .array .., h | .voidPointer, .mdArray .., h
  | .voidPointer, .pointer .., h | .voidPointer, .genericParam .., h
  | .genericParam .., .bound .., h | .genericParam .., .array .., h
  | .genericParam .., .mdArray .., h | .genericParam .., .pointer .., h
  | .genericParam .., .voidPointer, h => by simp [beq] at h

theorem eq_of_beqArgs_true : ∀ as bs : List TypeNode, beqArgs as bs = true → as = bs
  | [], [], _ => rfl
  | a :: as, b :: bs, h => by
    simp only [beqArgs, Bool.and_eq_true] at h
    rw [eq_of_beq_true _ _ h.1, eq_of_beqArgs_true _ _ h.2]
  | [], _ :: _, h | _ :: _, [], h => by simp [beqArgs] at h

end

mutual

theorem beq_self : ∀ a : TypeNode, beq a a = true
  | .bound .. => by simp [beq, beqArgs_self]
  | .array e => by simp [beq, beq_self e]
  | .mdArray e _ => by simp [beq, beq_self e]
  | .pointer p => by simp [beq, beq_self p]
  | .voidPointer => by simp [beq]
  | .genericParam _ => by simp [beq]

theorem beqArgs_self : ∀ as : List TypeNode, beqArgs as as = true
  | [] => by simp [beqArgs]
  | a :: as => by simp [beqArgs, beq_self a, beqArgs_self as]

end

instance : LawfulBEq TypeNode where
  eq_of_beq := eq_of_beq_true _ _
  rfl := beq_self _

instance : DecidableEq TypeNode := fun a b =>
  if h : a == b then .isTrue (eq_of_beq h) else .isFalse fun e => h (by simp [e])

mutual

def isParameterized : TypeNode → Bool
  | .bound _ _ args => isParameterizedAny args
  | .array element => isParameterized element
  | .mdArray element _ => isParameterized element
  | .pointer pointee => isParameterized pointee
  | .voidPointer => false
  | .genericParam _ => true

def isParameterizedAny : List TypeNode → Bool
  | [] => false
  | node :: rest => isParameterized node || isParameterizedAny rest

end

mutual

/-- Puts what the binder gives in the place of each generic parameter, from left to right; a
parameter for which it gives nothing stays. -/
def bindWith {m : Type → Type} [Monad m] (binder : GenericParamId → m (Option TypeNode)) :
    TypeNode → m TypeNode
  | .bound kind definition args => do return .bound kind definition (← bindAll binder args)
  | .array element => do return .array (← bindWith binder element)
  | .mdArray element rank => do return .mdArray (← bindWith binder element) rank
  | .pointer pointee => do return .pointer (← bindWith binder pointee)
  | .voidPointer => return .voidPointer
  | .genericParam id => do return (← binder id).getD (.genericParam id)

def bindAll {m : Type → Type} [Monad m] (binder : GenericParamId → m (Option TypeNode)) :
    List TypeNode → m (List TypeNode)
  | [] => return []
  | node :: rest => do
    let node ← bindWith binder node
    return node :: (← bindAll binder rest)

end

end TypeNode

end CliMetadata
