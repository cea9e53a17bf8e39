import CliMetadata.Binding.Lookup
import CliMetadata.Proofs.Binding.Known
import CliMetadata.Proofs.Binding.Members

set_option autoImplicit false

namespace CliMetadata

open Binding

namespace MemberFilter

theorem settles_agrees {α : Type} [BEq α] (wanted : Option α) {ask : Binding α}
    (settles : Settles ask) : Settles (agrees wanted ask) := by
  unfold agrees
  split
  · exact .pure true
  · exact settles.bind fun _ => .pure _

theorem known_agrees {α : Type} [BEq α] [LawfulBEq α] {wanted : Option α} {ask : Binding α}
    (settles : Settles ask) {s : Session} :
    Known (agrees wanted ask) s true ↔ ∀ value, wanted = some value → Known ask s value := by
  cases wanted with
  | none => exact ⟨fun _ => nofun, fun _ => known_pure.2 rfl⟩
  | some value =>
    refine (known_map settles).trans ?_
    simp only [beq_iff_eq, exists_eq_right, Option.some.injEq, forall_eq']

structure Fits (f : MemberFilter) (s : Session) (visibility : Binding Visibility)
    (isStatic : Binding Bool) : Prop where
  visible : ∀ wanted, f.isPublic = some wanted →
    ∃ v, Known visibility s v ∧ (v == .public_) = wanted
  static : ∀ wanted, f.isStatic = some wanted → Known isStatic s wanted

section
variable {f : MemberFilter} {visibility : Binding Visibility} {isStatic : Binding Bool}
  (seen : Settles visibility) (placed : Settles isStatic)
include seen placed

theorem settles_accepts : Settles (f.accepts visibility isStatic) :=
  (settles_agrees _ (seen.bind fun _ => .pure _)).andThen (settles_agrees _ placed)

theorem known_accepts {s : Session} :
    Known (f.accepts visibility isStatic) s true ↔ f.Fits s visibility isStatic := by
  have public_ : Settles (do return (← visibility) == .public_) := seen.bind fun _ => .pure _
  refine (known_andThen (settles_agrees _ public_) (settles_agrees _ placed)).trans ?_
  simp only [known_agrees public_, known_agrees placed, known_map seen]
  exact ⟨fun ⟨visible, static⟩ => ⟨visible, static⟩, fun fits => ⟨fits.visible, fits.static⟩⟩

end

end MemberFilter

namespace MethodFilter

structure Fits (f : MethodFilter) (s : Session) (m : Method) : Prop
    extends f.toMemberFilter.Fits s (return m.visibility) (return m.isStatic) where
  genericArity : ∀ n, f.genericArity = some n → Known m.genericArity s n
  arity : ∀ n, f.arity = some n → Known m.arity s n
  types : ∀ types, f.paramTypes = some types →
    ∃ params, Known m.params s params ∧ params.map (·.type) = types

def acceptsTypes (f : MethodFilter) (m : Method) : Binding Bool :=
  match f.paramTypes with
  | none => return true
  | some types => return (← m.params).map (·.type) == types

theorem settles_acceptsTypes (f : MethodFilter) (m : Method) : Settles (f.acceptsTypes m) := by
  unfold acceptsTypes
  split
  · exact .pure true
  · exact m.settles_params.bind fun _ => .pure _

theorem known_acceptsTypes {f : MethodFilter} {m : Method} {s : Session} :
    Known (f.acceptsTypes m) s true ↔ ∀ types, f.paramTypes = some types →
      ∃ params, Known m.params s params ∧ params.map (·.type) = types := by
  unfold acceptsTypes
  cases f.paramTypes with
  | none => exact ⟨fun _ => nofun, fun _ => known_pure.2 rfl⟩
  | some types =>
    refine (known_map m.settles_params).trans ?_
    simp only [beq_iff_eq, Option.some.injEq, forall_eq']

theorem acceptsMethod_eq (f : MethodFilter) (m : Method) :
    f.acceptsMethod m = andThen (f.accepts (return m.visibility) (return m.isStatic))
      (andThen (MemberFilter.agrees f.genericArity m.genericArity)
        (andThen (MemberFilter.agrees f.arity m.arity) (f.acceptsTypes m))) := rfl

section
variable (f : MethodFilter) (m : Method)

theorem settles_acceptsMethod : Settles (f.acceptsMethod m) :=
  (MemberFilter.settles_accepts (.pure _) (.pure _)).andThen <|
    (MemberFilter.settles_agrees _ m.settles_genericArity).andThen <|
      (MemberFilter.settles_agrees _ m.settles_arity).andThen (f.settles_acceptsTypes m)

theorem known_acceptsMethod {s : Session} : Known (f.acceptsMethod m) s true ↔ f.Fits s m := by
  have generic := MemberFilter.settles_agrees f.genericArity m.settles_genericArity
  have arity := MemberFilter.settles_agrees f.arity m.settles_arity
  have types := f.settles_acceptsTypes m
  rw [acceptsMethod_eq, known_andThen (MemberFilter.settles_accepts (.pure _) (.pure _))
      (generic.andThen (arity.andThen types)),
    known_andThen generic (arity.andThen types), known_andThen arity types,
    MemberFilter.known_accepts (.pure _) (.pure _),
    MemberFilter.known_agrees m.settles_genericArity, MemberFilter.known_agrees m.settles_arity,
    known_acceptsTypes]
  exact ⟨fun ⟨own, generic, arity, types⟩ => ⟨own, generic, arity, types⟩,
    fun fits => ⟨fits.toFits, fits.genericArity, fits.arity, fits.types⟩⟩

end

end MethodFilter

namespace Lookup

inductive Query : Type → Type
  | method (name : String) (f : MethodFilter) : Query Method
  | field (name : String) (f : MemberFilter) : Query Field
  | property (name : String) (f : MemberFilter) : Query Property
  | event (name : String) (f : MemberFilter) : Query Event

namespace Query

variable {α : Type}

def run : Query α → TypeDefinition → Binding (Option α)
  | .method name f, t => t.findMethod name f
  | .field name f, t => t.findField name f
  | .property name f, t => t.findProperty name f
  | .event name f, t => t.findEvent name f

def inherited : Query α → Bool
  | .method _ f => f.inherited
  | .field _ f => f.inherited
  | .property _ f => f.inherited
  | .event _ f => f.inherited

def declared : Query α → TypeDefinition → Binding (List α)
  | .method .., t => t.methods
  | .field .., t => t.fields
  | .property .., t => t.properties
  | .event .., t => t.events

def name : Query α → String
  | .method name _ => name
  | .field name _ => name
  | .property name _ => name
  | .event name _ => name

def nameOf : Query α → α → String
  | .method .., m => m.name
  | .field .., x => x.name
  | .property .., p => p.name
  | .event .., e => e.name

def accepts : Query α → α → Binding Bool
  | .method _ f, m => f.acceptsMethod m
  | .field _ f, x => f.accepts (return x.visibility) (return x.isStatic)
  | .property _ f, p => f.accepts p.visibility p.isStatic
  | .event _ f, e => f.accepts e.visibility e.isStatic

def Fits : Query α → Session → α → Prop
  | .method _ f, s, m => f.Fits s m
  | .field _ f, s, x => f.Fits s (return x.visibility) (return x.isStatic)
  | .property _ f, s, p => f.Fits s p.visibility p.isStatic
  | .event _ f, s, e => f.Fits s e.visibility e.isStatic

variable (q : Query α)

def test (m : α) : Binding Bool := if q.nameOf m == q.name then q.accepts m else return false

theorem settles_declared (t : TypeDefinition) : Settles (q.declared t) := by
  cases q with
  | method => exact t.settles_methods
  | field => exact t.settles_fields
  | property => exact t.settles_properties
  | event => exact t.settles_events

theorem settles_accepts (m : α) : Settles (q.accepts m) := by
  cases q with
  | method name f => exact f.settles_acceptsMethod m
  | field => exact MemberFilter.settles_accepts (.pure _) (.pure _)
  | property => exact MemberFilter.settles_accepts m.settles_visibility m.settles_isStatic
  | event => exact MemberFilter.settles_accepts m.settles_visibility m.settles_isStatic

theorem known_accepts (m : α) {s : Session} : Known (q.accepts m) s true ↔ q.Fits s m := by
  cases q with
  | method name f => exact f.known_acceptsMethod m
  | field => exact MemberFilter.known_accepts (.pure _) (.pure _)
  | property => exact MemberFilter.known_accepts m.settles_visibility m.settles_isStatic
  | event => exact MemberFilter.known_accepts m.settles_visibility m.settles_isStatic

theorem settles_test (m : α) : Settles (q.test m) := by
  unfold test
  split
  · exact q.settles_accepts m
  · exact .pure false

def Matches (s : Session) (m : α) : Prop := q.nameOf m = q.name ∧ q.Fits s m

theorem known_test (m : α) {s : Session} : Known (q.test m) s true ↔ q.Matches s m := by
  unfold test Matches
  by_cases named : q.nameOf m = q.name
  · simp [named, q.known_accepts]
  · simp [named, known_pure]

end Query

end Lookup

end CliMetadata
