import CliMetadata.Proofs.Binding.Reached

set_option autoImplicit false

namespace CliMetadata

namespace Assembly

def Inside (a : Assembly) (id : AssemblyId) (rids : List Nat) (types : List TypeDefinition) :
    Prop :=
  List.Forall₂ (fun rid t => a.definition id rid = .ok t) rids types

end Assembly

namespace Session

/-- Between requests a session may also do other things, but nothing is then half done and nothing
new lies inside a type. -/
inductive Orderly : Session → Prop
  | start (resolver : Option Resolver) (limit : Nat) : Orderly (.new resolver limit)
  | asked {s : Session} {α : Type} {x : Binding α} (before : Orderly s) (request : s.Request x) :
    Orderly (after x s)
  | meanwhile {s s' : Session} (before : Orderly s) (between : s.Meanwhile s')
    (inside : ∀ t, s'.value? (.nestedTypes t) = s.value? (.nestedTypes t))
    (idle : s'.running = []) : Orderly s'

namespace Orderly

variable {s : Session}

theorem reached (orderly : s.Orderly) : s.Reached := by
  induction orderly with
  | start resolver limit => exact .start resolver limit
  | asked _ request ih => exact ih.asked request
  | meanwhile _ between _ _ ih => exact ih.meanwhile between

theorem invariant (orderly : s.Orderly) : Ledger.full.Sound s ∧ s.running = [] := by
  induction orderly with
  | start resolver limit =>
    refine ⟨⟨fun a => (nomatch ·), fun slot value there => ?_⟩, rfl⟩
    simp at there
  | asked _ request ih =>
    obtain ⟨follows, -⟩ := request.safe .full ih.1
    exact ⟨follows.sound, follows.grows.running.trans ih.2⟩
  | @meanwhile s s' before between inside idle ih =>
    refine ⟨⟨between.made, fun slot value there => ?_⟩, idle⟩
    cases slot with
    | nestedTypes t =>
      exact Ledger.full.gained between.gains
        (ih.1.cells _ value ((inside t).symm.trans there))
    | definition _ | primitive _ _ | typeRef _ _ | base _ | methods _ =>
      exact Ledger.full.gained between.gains
        (ih.1.cells _ value ((between.told _ rfl).symm.trans there))
    | _ => trivial

end Orderly

theorem orderly_holding {a : Assembly} (made : Assembly.ofModule a.module = .ok a) :
    (holding a).Orderly := by
  refine (Orderly.start none 1).meanwhile ⟨⟨fun slot value there => ?_, ?_⟩, ?_, fun _ _ => rfl,
    fun _ _ => List.not_mem_nil⟩ (fun _ => rfl) rfl
  · simp at there
  · exact ({} : LoadContext).grows_place a
  · exact fun other member => List.mem_singleton.1 member ▸ made

end Session

section
variable {s : Session} {a : Assembly}

theorem Session.Sound.definition_told (sound : s.Sound) {id : AssemblyId} {rid : Nat}
    {t : TypeDefinition} (there : s.context.assembly? id = some a)
    (value : s.value? (.definition ⟨id, rid⟩) = some t) : a.definition id rid = .ok t := by
  obtain ⟨_, loaded, gives⟩ := sound (.definition ⟨id, rid⟩) t value
  cases there.symm.trans loaded
  exact gives

namespace Ledger

variable (sound : full.Sound s)
include sound

theorem Sound.plain : s.Sound := fun slot value there => (sound.cells slot value there).holds

theorem definition_loads {id : AssemblyId} {rid : Nat} {t : TypeDefinition}
    (idle : .definition ⟨id, rid⟩ ∉ s.running) (there : s.context.assembly? id = some a)
    (gives : a.definition id rid = .ok t) :
    ∃ s', Binding.definition id rid s = .ok t s' ∧ full.Follows s s' := by
  obtain ⟨least, most⟩ := Assembly.definition_within gives
  have came := (Binding.outcome_definition sound.plain idle there least most).trans gives
  exact ⟨_, ok_of_outcome came, (safe_definition id rid s sound).1⟩

theorem definitions_load {id : AssemblyId} {rids : List Nat}
    (idle : ∀ rid, .definition ⟨id, rid⟩ ∉ s.running) (there : s.context.assembly? id = some a)
    (each : ∀ rid ∈ rids, ∃ t, a.definition id rid = .ok t) :
    ∃ types s', rids.mapM (Binding.definition id) s = .ok types s' ∧ full.Follows s s' := by
  induction rids generalizing s with
  | nil => exact ⟨[], s, rfl, .refl sound⟩
  | cons rid rest ih =>
    obtain ⟨t, gives⟩ := each rid List.mem_cons_self
    obtain ⟨between, ran, first⟩ := definition_loads sound (idle rid) there gives
    obtain ⟨types, s', further, onward⟩ := ih first.sound
      (fun other => first.grows.running ▸ idle other) (first.grows.assembly? there)
      fun other member => each other (List.mem_cons_of_mem _ member)
    refine ⟨t :: types, s', ?_, first.trans onward⟩
    rw [List.mapM_cons, bind_after_ok ran, bind_after_ok further]
    rfl

theorem nestedTypes_told {id : TypeId} {types : List TypeDefinition} {nesting : Nesting}
    (there : s.context.assembly? id.assembly = some a) (nested : a.nesting = .ok nesting)
    (value : s.value? (.nestedTypes id) = some types) :
    a.Inside id.assembly (nesting.nested id.rid) types := by
  obtain ⟨_, _, loaded, indexed, each⟩ := sound.cells (.nestedTypes id) types value
  cases there.symm.trans loaded
  cases nested.symm.trans indexed
  refine each.imp fun rid t value => ?_
  exact sound.plain.definition_told there value

theorem nestedTypes_loads {t : TypeDefinition} {nesting : Nesting}
    (idle : .nestedTypes t.id ∉ s.running)
    (others : ∀ rid, .definition ⟨t.id.assembly, rid⟩ ∉ s.running)
    (lives : s.liveAssembly t.id.assembly = .ok a) (nested : a.nesting = .ok nesting)
    (each : ∀ rid ∈ nesting.nested t.id.rid, ∃ d, a.definition t.id.assembly rid = .ok d) :
    ∃ types s', t.nestedTypes s = .ok types s' ∧ full.Follows s s' ∧
      a.Inside t.id.assembly (nesting.nested t.id.rid) types := by
  have there := Session.assembly?_of_live lives
  have loads : ∃ types s', t.nestedTypes s = .ok types s' := by
    unfold TypeDefinition.nestedTypes
    cases present : s.value? (.nestedTypes t.id) with
    | some types => exact ⟨types, s, Binding.cell_of_value present⟩
    | none =>
      have entered := sound.enter (.nestedTypes t.id)
      have others (rid : Nat) :
          .definition ⟨t.id.assembly, rid⟩ ∉ (s.enter (.nestedTypes t.id)).running :=
        List.not_mem_cons_of_ne_of_not_mem (fun same => nomatch same) (others rid)
      obtain ⟨types, between, ran, -⟩ := definitions_load entered others there each
      have living : Binding.liveAssembly t.id.assembly (s.enter (.nestedTypes t.id)) =
        .ok a (s.enter (.nestedTypes t.id)) := Binding.liveAssembly_live lives
      exact ⟨types, _, Binding.cell_of_computed present idle
        ((bind_after_ok living _).trans ((Binding.lift_bind_ok nested _ _).trans ran))⟩
  obtain ⟨types, s', ran⟩ := loads
  obtain ⟨follows, gives⟩ := ensures_nestedTypes t s sound
  rw [after_ok ran] at follows
  have there := follows.grows.assembly? there
  exact ⟨types, s', ran, follows, nestedTypes_told follows.sound there nested (gives types s' ran)⟩

end Ledger

end

end CliMetadata
