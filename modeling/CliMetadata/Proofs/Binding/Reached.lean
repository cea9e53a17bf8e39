import CliMetadata.Proofs.Binding.Sound
import CliMetadata.Proofs.Naming

/-!
Sessions that a client can come to. A client asks for definitions, references, nodes, base types and
methods; in between assemblies are loaded, the client takes and drops what it likes, and the cells
of other things are computed. However the requests end, the cells hold what the tables tell.
-/

set_option autoImplicit false

namespace CliMetadata

def Slot.isAtOnce : Slot → Bool
  | .definition _ | .methods _ => true
  | _ => false

namespace Session

inductive Request (s : Session) : {α : Type} → Binding α → Prop
  | definition (a : AssemblyId) (rid : Nat) : Request s (Binding.definition a rid)
  | named (a : AssemblyId) (fullName : String) : Request s (Binding.definitionNamed a fullName)
  | nestedTypes (t : TypeDefinition) : Request s t.nestedTypes
  | primitive (a : AssemblyId) (p : Primitive) : Request s (Binding.primitive a p)
  | typeReference (a : AssemblyId) (rid : Nat) : Request s (Binding.typeReference a rid)
  | namedType (a : AssemblyId) (token : Token) (scope : GenericScope) :
    Request s (Binding.namedType a token scope)
  | type (a : AssemblyId) (signature : TypeSignature) (scope : GenericScope) :
    Request s (Binding.type a signature scope)
  | base {t : TypeDefinition} (made : s.value? (.definition t.id) = some t) : Request s t.base
  | methods (t : TypeDefinition) : Request s t.methods
  | method (a : AssemblyId) (rid : Nat) : Request s (Binding.method a rid)

/-- Between requests anything may happen that loads assemblies of modules and computes other cells;
what is computed at once is never left half done. -/
structure Meanwhile (s s' : Session) : Prop where
  gains : s.Gains s'
  made : s'.context.Made
  told : ∀ slot, slot.isTold = true → s'.value? slot = s.value? slot
  idle : ∀ slot, slot.isAtOnce = true → slot ∉ s'.running

inductive Reached : Session → Prop
  | start (resolver : Option Resolver) (limit : Nat) : Reached (.new resolver limit)
  | asked {s : Session} {α : Type} {x : Binding α} (before : Reached s) (request : s.Request x) :
    Reached (after x s)
  | meanwhile {s s' : Session} (before : Reached s) (between : s.Meanwhile s') : Reached s'

open Ledger in
theorem Request.safe {s : Session} {α : Type} {x : Binding α} (request : s.Request x)
    (L : Ledger) : L.Ensures x s fun _ _ => True := by
  cases request with
  | definition a rid => exact safe_definition a rid s
  | named a fullName => exact Safe.of_ensures (ensures_definitionNamed a fullName) s
  | nestedTypes t => exact safe_nestedTypes t s
  | primitive a p => exact Safe.of_ensures (ensures_primitive a p) s
  | typeReference a rid => exact Safe.of_ensures (ensures_typeReference a rid) s
  | namedType a token scope => exact Safe.of_ensures (ensures_namedType a token scope) s
  | type a signature scope => exact safe_type a signature scope s
  | base made => exact (ensures_base made).weaken fun _ _ _ _ => trivial
  | methods t => exact safe_methods t s
  | method a rid => exact safe_method a rid s

namespace Reached

variable {s : Session}

theorem invariant (reached : s.Reached) :
    Ledger.strict.Sound s ∧ ∀ slot, slot.isAtOnce = true → slot ∉ s.running := by
  induction reached with
  | start resolver limit =>
    refine ⟨⟨fun a => (nomatch ·), fun slot value there => ?_⟩, fun _ _ => List.not_mem_nil⟩
    simp at there
  | @asked s α x before request ih =>
    obtain ⟨follows, _⟩ := request.safe .strict ih.1
    exact ⟨follows.sound, follows.grows.running ▸ ih.2⟩
  | @meanwhile s s' before between ih =>
    refine ⟨⟨between.made, fun slot value there told => ?_⟩, between.idle⟩
    have before := ih.1.cells slot value ((between.told slot told).symm.trans there)
    exact (before told).gained between.gains

theorem sound (reached : s.Reached) : s.Sound := fun slot value there =>
  Tells.holds_of_told (reached.invariant.1.cells slot value there)

theorem made (reached : s.Reached) {id : AssemblyId} {a : Assembly}
    (there : s.context.assembly? id = some a) : Assembly.ofModule a.module = .ok a :=
  reached.invariant.1.context.assembly? there

theorem followed {s' : Session} {α : Type} {x : Binding α} {value : α} (reached : s.Reached)
    (request : s.Request x) (ran : x s = .ok value s') : s'.Reached ∧ s.Grows s' := by
  have follows := (request.safe .strict reached.invariant.1).1
  have after := reached.asked request
  rw [after_ok ran] at follows after
  exact ⟨after, follows.grows⟩

theorem definition_told {id : TypeId} {t : TypeDefinition} (reached : s.Reached)
    (there : s.value? (.definition id) = some t) : t.id = id ∧
      ∃ a, s.context.assembly? id.assembly = some a ∧ a.definition id.assembly id.rid = .ok t := by
  obtain ⟨a, loaded, gives⟩ := reached.invariant.1.cells (.definition id) t there rfl
  exact ⟨(Assembly.definition_ok gives).1, a, loaded, gives⟩

theorem definition_asked {a : AssemblyId} {assembly : Assembly} {rid : Nat} {t : TypeDefinition}
    (reached : s.Reached) (there : s.context.assembly? a = some assembly) (least : 1 ≤ rid)
    (most : rid ≤ assembly.typeCount) (gives : assembly.definition a rid = .ok t) :
    ∃ s', Binding.definition a rid s = .ok t s' ∧ s'.Reached ∧ s.Grows s' ∧
      s'.value? (.definition ⟨a, rid⟩) = some t := by
  have idle := reached.invariant.2 (.definition ⟨a, rid⟩) rfl
  have ran := ok_of_outcome
    ((Binding.outcome_definition reached.sound idle there least most).trans gives)
  obtain ⟨later, grows⟩ := reached.followed (.definition a rid) ran
  refine ⟨_, ran, later, grows, ?_⟩
  exact Binding.value?_of_cell_ok ((Binding.definition_inside there least most).symm.trans ran)

theorem stored (reached : s.Reached) (slot : Slot) (value : slot.Value)
    (untold : slot.isTold = false) (absent : s.value? slot = none) :
    Session.Reached (s.store slot value) := by
  have retains : s.Retains (s.store slot value) := fun _ _ known =>
    Cells.value?_store_kept absent value known
  refine reached.meanwhile ⟨⟨retains, .refl _⟩, reached.invariant.1.context, fun other told => ?_,
    reached.invariant.2⟩
  have different : slot ≠ other := by
    rintro rfl
    exact absurd told (Bool.eq_false_iff.1 untold)
  simp [different]

end Reached

def holding (a : Assembly) : Session :=
  (Session.new none 1).withContext (({} : LoadContext).push a)

@[simp] theorem value?_holding (a : Assembly) (slot : Slot) : (holding a).value? slot = none := by
  simp [holding]

theorem reached_holding {a : Assembly} (made : Assembly.ofModule a.module = .ok a) :
    (holding a).Reached := by
  refine (Reached.start none 1).meanwhile ⟨⟨fun slot value there => ?_, ?_⟩, ?_, fun _ _ => rfl,
    fun _ _ => List.not_mem_nil⟩
  · simp at there
  · exact ({} : LoadContext).grows_place a
  · exact fun other member => List.mem_singleton.1 member ▸ made

end Session

end CliMetadata
