import CliMetadata.Proofs.Signature.Whole

set_option autoImplicit false

namespace CliMetadata

/-- Everywhere the first reader does as the second, or fails for the given reason. -/
def Reader.Unless (e : Error) {α : Type} (x y : Reader α) : Prop :=
  ∀ c, x c = y c ∨ ∃ c', x c = .error e c'

namespace Reader.Unless

variable {α β : Type} {e : Error}

theorem refl (x : Reader α) : x.Unless e x := fun _ => .inl rfl

theorem refused (y : Reader α) : Unless e (MonadExcept.throw e) y := fun c => .inr ⟨c, rfl⟩

theorem andThen {x y : Reader α} {f g : α → Reader β} (first : x.Unless e y)
    (next : ∀ a, (f a).Unless e (g a)) : (x >>= f).Unless e (y >>= g) := by
  intro c
  change EStateM.bind x f c = EStateM.bind y g c ∨ ∃ c', EStateM.bind x f c = .error e c'
  unfold EStateM.bind
  obtain same | ⟨c', failed⟩ := first c
  · rw [same]
    cases y c with
    | ok a middle => exact next a middle
    | error other middle => exact .inl rfl
  · rw [failed]
    exact .inr ⟨c', rfl⟩

theorem ite {p : Prop} [Decidable p] {x x' y y' : Reader α} (yes : x.Unless e x')
    (no : y.Unless e y') : Unless e (if p then x else y) (if p then x' else y') := by
  by_cases holds : p
  · simpa only [if_pos holds] using yes
  · simpa only [if_neg holds] using no

theorem behind (x : Reader α) {f g : α → Reader β} (next : ∀ a, (f a).Unless e (g a)) :
    (x >>= f).Unless e (x >>= g) := andThen (refl x) next

theorem check {p : Prop} [Decidable p] {x : Reader Unit} {f g : Unit → Reader β}
    (next : (f ()).Unless e (g ())) :
    Unless e (if p then x >>= f else f ()) (if p then x >>= g else g ()) :=
  ite (behind x fun _ => next) next

end Reader.Unless

namespace SignatureReader

open Reader Reader.Unless

def Within {α : Type} (x y : Reader α) : Prop := x.Unless (.recursionLimit maxDepth) y

section
variable {x y : Reader TypeSignature}

theorem within_times {α : Type} {x y : Reader α} (inner : Within x y) (n : Nat) :
    Within (times x n) (times y n) := by
  induction n with
  | zero => exact refl _
  | succ n ih => exact andThen inner fun _ => andThen ih fun _ => refl _

theorem within_modified (inner : Within x y) : Within (modified x) (modified y) :=
  behind modifiers fun _ => andThen inner fun _ => refl _

theorem within_param (inner : Within x y) : Within (param x) (param y) :=
  behind modifiers fun _ => behind (consumeIf Element.byReference) fun _ =>
    andThen inner fun _ => refl _

theorem within_params (inner : Within x y) (varargs : Bool) (n : Nat)
    (fixed extra : List ParamSignature) :
    Within (params x varargs n fixed extra) (params y varargs n fixed extra) := by
  induction n generalizing fixed extra with
  | zero => exact refl _
  | succ n ih =>
    refine behind (consumeIf Element.sentinel) fun marked => ite (check ?_) ?_
    · exact andThen (within_param inner) fun next => ih fixed (extra ++ [next])
    · refine andThen (within_param inner) fun next => ite ?_ ?_
      · exact ih (fixed ++ [next]) extra
      · exact ih fixed (extra ++ [next])

theorem within_method (inner : Within x y) : Within (method x) (method y) := by
  refine behind byte fun header => check ?_
  have rest (generic : Nat) : Within
      (do
        let n ← count .parameter
        let returns ← param x
        let both ← params x (header &&& Header.conventionMask == Header.varargs) n [] []
        return MethodSignature.mk (header &&& Header.hasThis != 0)
          (header &&& Header.explicitThis != 0) (header &&& Header.conventionMask) generic returns
          both.1 both.2)
      (do
        let n ← count .parameter
        let returns ← param y
        let both ← params y (header &&& Header.conventionMask == Header.varargs) n [] []
        return MethodSignature.mk (header &&& Header.hasThis != 0)
          (header &&& Header.explicitThis != 0) (header &&& Header.conventionMask) generic returns
          both.1 both.2) :=
    behind (count .parameter) fun n => andThen (within_param inner) fun _ =>
      andThen (within_params inner _ n [] []) fun _ => refl _
  exact ite (behind compressedUint rest) (behind (pure 0) rest)

theorem within_array (inner : Within x y) : Within (array x) (array y) :=
  andThen inner fun _ => refl _

theorem within_instantiation (inner : Within x y) :
    Within (instantiation x) (instantiation y) := by
  refine behind peek fun next => check (andThen inner fun base => ?_)
  refine behind (count .instantiationArgument) fun n => check ?_
  exact andThen (within_times inner n) fun _ => refl _

theorem within_startedBy (inner : Within x y) (b : UInt8) :
    Within (startedBy x b) (startedBy y b) := by
  unfold startedBy
  cases Primitive.ofByte? b with
  | some p => exact refl _
  | none =>
    refine ite (andThen (within_modified inner) fun _ => refl _) ?_
    refine ite (andThen inner fun _ => refl _) ?_
    refine ite (refl _) (ite (refl _) (ite (refl _) (ite (refl _) ?_)))
    refine ite (within_array inner) ?_
    refine ite (within_instantiation inner) ?_
    refine ite (andThen (within_method inner) fun _ => refl _) ?_
    refine ite (andThen (within_modified inner) fun _ => refl _) ?_
    refine ite (behind pos fun _ => behind (seek _) fun _ => ?_) (refl _)
    exact andThen (within_modified inner) fun _ => refl _

end

theorem within_type {few many : Nat} (fewer : few ≤ many) : Within (type few) (type many) := by
  induction few generalizing many with
  | zero => exact refused _
  | succ few ih =>
    cases many with
    | zero => omega
    | succ many => exact behind byte (within_startedBy (ih (by omega)))

section
variable {few many : Nat} (fewer : few ≤ many)
include fewer

theorem within_methodDef : Within (methodDef few) (methodDef many) :=
  within_method (within_type fewer)

theorem within_field : Within (field few) (field many) :=
  behind byte fun _ => check (andThen (within_modified (within_type fewer)) fun _ => refl _)

theorem within_property : Within (property few) (property many) :=
  behind byte fun _ => check <| behind (count .propertyParameter) fun n =>
    andThen (within_modified (within_type fewer)) fun _ =>
    andThen (within_times (within_param (within_type fewer)) n) fun _ => refl _

theorem within_methodSpec : Within (methodSpec few) (methodSpec many) :=
  behind byte fun _ => check <| behind (count .methodSpecArgument) fun n =>
    andThen (within_times (within_type fewer) n) fun _ => refl _

end

theorem whole_within {α : Type} {reader : Nat → Reader α} {form : List UInt8 → α → Prop}
    {many : Nat} (within : Within (reader levels) (reader many))
    (takes : (reader many).Takes fun bytes _ value => form bytes value) {blob : ByteArray}
    {value : α} (holds : form blob.data.toList value) :
    whole reader blob = .ok value ∨ whole reader blob = .error (.recursionLimit maxDepth) := by
  have complete := (complete_ok takes blob value).2 holds
  have both : Within
      (do let value ← reader levels; finish; return value)
      (do let value ← reader many; finish; return value) := andThen within fun _ => refl _
  obtain same | ⟨c', failed⟩ := both { data := blob }
  · refine .inl (complete.symm ▸ ?_)
    unfold whole runOn EStateM.run
    rw [same]
  · right
    unfold whole runOn EStateM.run
    rw [failed]

end SignatureReader

end CliMetadata
