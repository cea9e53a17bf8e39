import CliMetadata.Proofs.Binding.Settled

set_option autoImplicit false

namespace CliMetadata

inductive Inquiry (α : Type) : Type 1
  | done (value : α)
  | step {β : Type} (x : Binding β) (settles : Binding.Settles x) (next : β → Inquiry α)
  | ask (token : Token) (next : Option TypeNode → Inquiry α)

namespace Inquiry

variable {α β : Type}

def answered (named : Token → Binding (Option TypeNode)) : Inquiry α → Binding α
  | .done value => return value
  | .step x _ next => do (next (← x)).answered named
  | .ask token next => do (next (← named token)).answered named

def bind (f : α → Inquiry β) : Inquiry α → Inquiry β
  | .done value => f value
  | .step x settles next => .step x settles fun v => (next v).bind f
  | .ask token next => .ask token fun v => (next v).bind f

def map (f : α → β) (i : Inquiry α) : Inquiry β := i.bind fun v => .done (f v)

def fail (e : Error) : Inquiry α := .step (throw e) (.throw e) .done

def each (f : β → Inquiry α) : List β → Inquiry (List α)
  | [] => .done []
  | x :: xs => (f x).bind fun v => (each f xs).map (v :: ·)

section
variable (named : Token → Binding (Option TypeNode))

@[simp] theorem answered_bind (i : Inquiry α) (f : α → Inquiry β) :
    (i.bind f).answered named = i.answered named >>= fun v => (f v).answered named := by
  induction i with
  | done value => simp only [bind, answered, pure_bind]
  | step x settles next ih => simp only [bind, answered, bind_assoc, ih]
  | ask token next ih => simp only [bind, answered, bind_assoc, ih]

@[simp] theorem answered_map (f : α → β) (i : Inquiry α) :
    (i.map f).answered named = f <$> i.answered named := by
  rw [map, answered_bind, map_eq_pure_bind]
  rfl

@[simp] theorem answered_each (f : β → Inquiry α) (xs : List β) :
    (each f xs).answered named = xs.mapM fun x => (f x).answered named := by
  induction xs with
  | nil => rfl
  | cons x xs ih =>
    simp only [each, answered_bind, answered_map, ih, List.mapM_cons, map_eq_pure_bind]

end

theorem settles_answered {named : Token → Binding (Option TypeNode)}
    (settles : ∀ token, Binding.Settles (named token)) (i : Inquiry α) :
    Binding.Settles (i.answered named) := by
  induction i with
  | done value => exact .pure value
  | step x settled next ih => exact settled.bind ih
  | ask token next ih => exact (settles token).bind ih

-- Only the sessions count that grow from the one in which an inquiry starts.
theorem answered_congr {named named' : Token → Binding (Option TypeNode)} {i : Inquiry α}
    {s : Session} (grows : ∀ token, Binding.Growing (named' token))
    (agree : ∀ token later, s.Grows later → named token later = named' token later) :
    i.answered named s = i.answered named' s := by
  induction i generalizing s with
  | done value => rfl
  | step x settles next ih =>
    apply bind_congr_at
    intro v later ran
    exact ih v fun token last grown => agree token last ((settles.growing ran).trans grown)
  | ask token next ih =>
    rw [answered, answered, bind_congr_left (agree token s (.refl s))]
    apply bind_congr_at
    intro v later ran
    exact ih v fun token' last grown => agree token' last ((grows token ran).trans grown)

/-- A question that an inquiry comes to in a session, where the questions before it are answered as
`answers` tells. -/
inductive Asks (answers : Token → Session → Option TypeNode → Session → Prop) :
    Inquiry α → Session → Token → Session → Prop
  | here {token : Token} {next : Option TypeNode → Inquiry α} {s : Session} :
    Asks answers (.ask token next) s token s
  | step {β : Type} {x : Binding β} {settles : Binding.Settles x} {next : β → Inquiry α} {v : β}
    {s s₁ s' : Session} {token : Token} :
    x s = .ok v s₁ → Asks answers (next v) s₁ token s' →
      Asks answers (.step x settles next) s token s'
  | ask {asked token : Token} {next : Option TypeNode → Inquiry α} {v : Option TypeNode}
    {s s₁ s' : Session} :
    answers asked s v s₁ → Asks answers (next v) s₁ token s' →
      Asks answers (.ask asked next) s token s'

end Inquiry

namespace Binding

def typeInquiry (a : AssemblyId) (scope : GenericScope) :
    (levels : Nat) → TypeSignature → Inquiry TypeNode
  | 0, _ => .fail (.recursionLimit maxTypeDepth)
  | levels + 1, signature =>
    match signature with
    | .primitive p => .step (primitive a p) (settles_primitive a p) .done
    | .pointer _ (.primitive .void) => .done .voidPointer
    | .pointer _ base => (typeInquiry a scope levels base).map .pointer
    | .byReference base => typeInquiry a scope levels base
    | .modified _ base => typeInquiry a scope levels base
    | .classType token => .ask token fun
      | some node => .done node
      | none => .fail (.malformed .typeTokenNull)
    | .valueType token => .ask token fun
      | some node => .done node
      | none => .fail (.malformed .typeTokenNull)
    | .typeVariable number =>
      .step (lift (scope.param .type number)) (.lift _) .done
    | .methodVariable number =>
      .step (lift (scope.param .method number)) (.lift _) .done
    | .vector _ base => (typeInquiry a scope levels base).map .array
    | .array base rank _ => (typeInquiry a scope levels base).map (.mdArray · rank)
    | .instantiation base args =>
      (typeInquiry a scope levels base).bind fun node =>
        .step node.definition? node.settles_definition? fun
          | some t => (Inquiry.each (typeInquiry a scope levels) args).bind fun args =>
            .step (t.bind args) (t.settles_bind args) fun bound => .done bound.node
          | none => .fail (.malformed .instantiationOfOther)
    | .functionPointer _ => .done .voidPointer

theorem answered_typeInquiry (a : AssemblyId) (scope : GenericScope)
    (named : Token → Binding (Option TypeNode)) (levels : Nat) (signature : TypeSignature) :
    (typeInquiry a scope levels signature).answered named =
      typeWithin a scope named levels signature := by
  induction levels generalizing signature with
  | zero => rfl
  | succ levels ih =>
    cases signature with
    | pointer mods base =>
      cases base with
      | primitive p =>
        cases p with
        | void => rfl
        | _ => exact (Inquiry.answered_map ..).trans (by rw [ih]; rfl)
      | _ => exact (Inquiry.answered_map ..).trans (by rw [ih]; rfl)
    | classType token =>
      simp only [typeInquiry, typeWithin, Inquiry.answered]
      congr; funext node?
      cases node? <;> rfl
    | valueType token =>
      simp only [typeInquiry, typeWithin, Inquiry.answered]
      congr; funext node?
      cases node? <;> rfl
    | instantiation base args =>
      simp only [typeInquiry, typeWithin, Inquiry.answered_bind, ih]
      congr; funext node
      simp only [Inquiry.answered]
      congr; funext t?
      cases t? with
      | none => rfl
      | some t =>
        simp only [Inquiry.answered_bind, Inquiry.answered_each, ih]
        rfl
    | byReference base => exact ih base
    | modified mods base => exact ih base
    | vector mods base => exact (Inquiry.answered_map ..).trans (by rw [ih]; rfl)
    | array base rank dims => exact (Inquiry.answered_map ..).trans (by rw [ih]; rfl)
    | primitive p => exact bind_pure _
    | typeVariable number => exact bind_pure _
    | methodVariable number => exact bind_pure _
    | functionPointer method => rfl

end Binding

end CliMetadata
