import CliMetadata.Proofs.Binding.Reached
import CliMetadata.Proofs.Storage.Image
import CliMetadata.Proofs.Table.Ownership

set_option autoImplicit false

namespace CliMetadata

namespace Module

variable {m : Module} {owners : MethodOwners}

theorem methodOwners_ok (made : m.methodOwners = .ok owners) :
    owners.count = m.tables.rows .methodDef ∧ ∀ rid owner, (rid, owner) ∈ owners.pairs ↔
      1 ≤ owner ∧ owner ≤ m.typeCount ∧ ∃ rids, m.methodsOf owner = .ok rids ∧ rid ∈ rids := by
  obtain ⟨runs, mapped, same⟩ := except_bind_ok.1 made
  cases same
  have each := mapM_ok mapped
  refine ⟨rfl, fun rid owner => ?_⟩
  rw [List.mem_reverse, List.mem_flatten]
  constructor
  · rintro ⟨run, member, pair⟩
    obtain ⟨i, inside, ran⟩ := exists_of_mem_right each member
    obtain ⟨rids, listed, same⟩ := except_bind_ok.1 ran
    cases same
    obtain ⟨_, held, same⟩ := List.mem_map.1 pair
    cases same
    exact ⟨Nat.succ_pos i, List.mem_range.1 inside, rids, listed, held⟩
  · rintro ⟨least, most, rids, listed, held⟩
    obtain ⟨i, rfl⟩ := Nat.exists_eq_add_of_le' least
    obtain ⟨run, member, ran⟩ := exists_of_mem_right each.flip (List.mem_range.2 most)
    obtain ⟨_, again, same⟩ := except_bind_ok.1 ran
    cases listed.symm.trans again
    cases same
    exact ⟨_, member, List.mem_map.2 ⟨rid, held, rfl⟩⟩

theorem exists_methodOwners (listed : m.tables.AllListed .methods) :
    ∃ owners, m.methodOwners = .ok owners := by
  obtain ⟨runs, mapped⟩ := exists_mapM_ok fun i member => show ∃ run, (do
      return (← m.methodsOf (i + 1)).map (·, i + 1) : Except Error (List (Nat × Nat))) = .ok run by
    obtain ⟨rids, given⟩ := listed (i + 1) (Nat.succ_pos i) (List.mem_range.1 member)
    exact ⟨_, except_bind_ok.2 ⟨rids, given, rfl⟩⟩
  exact ⟨_, except_bind_ok.2 ⟨runs, mapped, rfl⟩⟩

end Module

namespace MethodOwners

variable {o : MethodOwners} {rid owner : Nat}

theorem owner?_of_unique (member : (rid, owner) ∈ o.pairs) (least : 1 ≤ rid) (most : rid ≤ o.count)
    (unique : ∀ other, (rid, other) ∈ o.pairs → other = owner) : o.owner? rid = some owner := by
  unfold owner?
  rw [if_pos ⟨least, most⟩]
  cases found : o.pairs.find? (·.1 == rid) with
  | none => simpa using List.find?_eq_none.1 found _ member
  | some pair =>
    obtain ⟨first, other⟩ := pair
    obtain rfl : first = rid := by simpa using List.find?_some found
    rw [unique other (List.mem_of_find?_eq_some found)]
    rfl

theorem owner?_of_absent (absent : ∀ owner, (rid, owner) ∉ o.pairs) : o.owner? rid = none := by
  unfold owner?
  split
  · rw [Option.map_eq_none_iff, List.find?_eq_none]
    rintro ⟨first, other⟩ member same
    obtain rfl : first = rid := by simpa using same
    exact absent other member
  · rfl

end MethodOwners

namespace Assembly

/-- Every type has its methods, all of them can be read, and no two rows of the pointer table, where
there is one, point to the same row. -/
structure MethodsRead (a : Assembly) : Prop where
  listed : a.module.tables.AllListed .methods
  rows : ∀ rid, 1 ≤ rid → rid ≤ a.module.tables.rows .methodDef → ∃ row name,
    a.module.rowAt .methodDef rid = .ok row ∧
      a.module.string (MethodDefRow.ofRow row).name = .ok name
  pointers : a.module.tables.PointsApart .methods

variable {a : Assembly}

theorem load_ok {m : Module} {id : MethodId} {rid : Nat} {method : Method}
    (loaded : Method.load m id rid = .ok method) : method.id = id ∧ method.rid = rid := by
  obtain ⟨_, _, loaded⟩ := except_bind_ok.1 loaded
  obtain ⟨_, _, same⟩ := except_bind_ok.1 loaded
  cases same
  exact ⟨rfl, rfl⟩

theorem methods_ok {t : TypeDefinition} {methods : List Method}
    (gives : a.methods t = .ok methods) :
    a.module.methodsOf t.id.rid = .ok (methods.map (·.rid)) ∧ ∀ m ∈ methods, m.id.type = t.id := by
  obtain ⟨rids, listed, loaded⟩ := except_bind_ok.1 gives
  have each := (mapM_ok loaded).imp fun _ _ loaded => load_ok loaded
  refine ⟨?_, fun m member => ?_⟩
  · have same : rids = methods.map (·.rid) := by
      have rows := each.imp fun _ _ same => same.2.symm
      rw [← List.forall₂_map_right_iff, ← List.forall₂_map_left_iff (f := Prod.fst),
        List.forall₂_eq_eq_eq, List.zipIdx_map_fst] at rows
      exact rows
    rw [listed, same]
  · obtain ⟨_, _, same, _⟩ := exists_of_mem_right each member
    rw [same]

theorem MethodsRead.exists_methods (read : a.MethodsRead) {t : TypeDefinition}
    (least : 1 ≤ t.id.rid) (most : t.id.rid ≤ a.typeCount) :
    ∃ methods, a.methods t = .ok methods := by
  obtain ⟨rids, listed⟩ := read.listed t.id.rid least most
  obtain ⟨methods, loaded⟩ := exists_mapM_ok fun entry (member : entry ∈ rids.zipIdx) =>
    show ∃ m, Method.load a.module ⟨t.id, entry.2⟩ entry.1 = .ok m by
      obtain ⟨low, high⟩ := read.pointers.exists_row listed (List.fst_mem_of_mem_zipIdx member)
      obtain ⟨row, name, at_, named⟩ := read.rows entry.1 low high
      exact ⟨_, except_bind_ok.2 ⟨row, at_, except_bind_ok.2 ⟨name, named, rfl⟩⟩⟩
  exact ⟨methods, except_bind_ok.2 ⟨rids, listed, loaded⟩⟩

theorem find?_rid {methods : List Method} (nodup : (methods.map (·.rid)).Nodup) {m : Method}
    (member : m ∈ methods) : methods.find? (·.rid == m.rid) = some m := by
  induction methods with
  | nil => cases member
  | cons first rest ih =>
    obtain ⟨new, nodup⟩ := List.nodup_cons.1 nodup
    rcases List.mem_cons.1 member with rfl | later
    · exact List.find?_cons_of_pos (by simp)
    · have different : first.rid ≠ m.rid := fun same =>
        new (List.mem_map.2 ⟨m, later, same.symm⟩)
      rw [List.find?_cons_of_neg (by simpa using different)]
      exact ih nodup later

theorem rid_of_definition {id : AssemblyId} {rid : Nat} {t : TypeDefinition}
    (gives : a.definition id rid = .ok t) : 1 ≤ rid ∧ rid ≤ a.typeCount := by
  obtain ⟨_, _, at_, -⟩ := definition_parts gives
  exact Module.within_of_rowAt at_

end Assembly

namespace Session.Reached

variable {s : Session} {id : AssemblyId} {a : Assembly} (reached : s.Reached)
  (lives : s.liveAssembly id = .ok a)

include reached lives

theorem methods_of_rows {t : TypeDefinition} {methods : List Method} (own : t.id.assembly = id)
    (gives : a.methods t = .ok methods) : ∃ s', t.methods s = .ok methods s' := by
  subst own
  unfold TypeDefinition.methods
  cases present : s.value? (.methods t.id) with
  | some held =>
    obtain ⟨_, other, there, same, given⟩ := reached.invariant.1.cells (.methods t.id) _ present rfl
    cases (assembly?_of_live lives).symm.trans there
    have again : a.methods t = .ok held := by
      rw [← given]
      unfold Assembly.methods
      rw [same]
    cases gives.symm.trans again
    exact ⟨s, Binding.cell_of_value present⟩
  | none =>
    have living : Binding.liveAssembly t.id.assembly (s.enter (.methods t.id)) =
        .ok a (s.enter (.methods t.id)) := Binding.liveAssembly_live lives
    refine ⟨_, Binding.cell_of_unchanged present (reached.invariant.2 _ rfl) ?_⟩
    rw [bind_after_ok living, gives]
    rfl

/-- Where the methods of an assembly can be read, each type has the methods of its list. Such a
method is what its row number leads to, and the type is the one that declares it; a row that is in
no list leads nowhere. -/
theorem method_iff_owned (read : a.MethodsRead) :
    (∀ t, s.value? (.definition t.id) = some t → t.id.assembly = id →
      ∃ methods s', t.methods s = .ok methods s' ∧
        a.module.methodsOf t.id.rid = .ok (methods.map (·.rid)) ∧
        ∀ m ∈ methods, Binding.method id m.rid s = .ok m s' ∧ m.declaringType s = .ok t s) ∧
    ∀ r, (∀ rid rids, a.module.methodsOf rid = .ok rids → r ∉ rids) →
      Binding.method id r s = .error (.malformed (.methodUnowned r)) s := by
  have there := assembly?_of_live lives
  have found : Binding.assembly id s = .ok a s := Binding.assembly_loaded there
  obtain ⟨owners, indexed⟩ := Module.exists_methodOwners read.listed
  have known : a.methodOwners = .ok owners :=
    (Assembly.ofModule_eq (reached.made there)).2.2.2.trans indexed
  obtain ⟨count, pairs⟩ := Module.methodOwners_ok indexed
  constructor
  · rintro t made rfl
    obtain ⟨-, _, same, gives⟩ := reached.definition_told made
    cases there.symm.trans same
    obtain ⟨least, most⟩ := Assembly.rid_of_definition gives
    obtain ⟨methods, loads⟩ := read.exists_methods least most
    obtain ⟨s', ran⟩ := reached.methods_of_rows lives rfl loads
    obtain ⟨listed, types⟩ := Assembly.methods_ok loads
    have defined : Binding.definition t.id.assembly t.id.rid s = .ok t s :=
      (Binding.definition_inside there least most).trans (Binding.cell_of_value made)
    refine ⟨methods, s', ran, listed, fun m member => ⟨?_, ?_⟩⟩
    · have inside := List.mem_map_of_mem (f := (·.rid)) member
      have owned : owners.owner? m.rid = some t.id.rid := by
        obtain ⟨low, high⟩ := read.pointers.exists_row listed inside
        have pair := (pairs m.rid t.id.rid).2 ⟨least, most, _, listed, inside⟩
        refine MethodOwners.owner?_of_unique pair low (count ▸ high) fun other pair => ?_
        obtain ⟨_, _, rids, listed', inside'⟩ := (pairs m.rid other).1 pair
        exact read.listed.parent_unique read.pointers listed' listed inside' inside
      unfold Binding.method
      rw [bind_after_ok found, Binding.lift_bind_ok known, owned]
      dsimp only
      rw [bind_after_ok defined, bind_after_ok ran,
        Assembly.find?_rid (read.pointers.nodup_children listed) member]
      rfl
    · unfold Method.declaringType Binding.declaringType
      rw [types m member, bind_after_ok (Binding.liveAssembly_live lives)]
      exact defined
  · intro r unlisted
    have absent : owners.owner? r = none := MethodOwners.owner?_of_absent fun owner pair => by
      obtain ⟨_, _, rids, listed, inside⟩ := (pairs r owner).1 pair
      exact unlisted owner rids listed inside
    unfold Binding.method
    rw [bind_after_ok found, Binding.lift_bind_ok known, absent]
    rfl

end Session.Reached

/-- The metadata of an assembly with three methods and the types A and B. The second method belongs
to A, the third to B. -/
def ownedMethods : ByteArray := image [
  ("#~", tableStream [
    (.module, [[0, 0, 1, 0, 0, 0, 0, 0, 0, 0]]),
    (.typeDef, [
      [0, 0, 0, 0, 3, 0, 0, 0, 0, 0, 1, 0, 2, 0],
      [0, 0, 0, 0, 5, 0, 0, 0, 0, 0, 1, 0, 3, 0]]),
    (.methodDef, [
      [0, 0, 0, 0, 0, 0, 0, 0, 7, 0, 0, 0, 1, 0],
      [0, 0, 0, 0, 0, 0, 0, 0, 9, 0, 0, 0, 1, 0],
      [0, 0, 0, 0, 0, 0, 0, 0, 0x0b, 0, 0, 0, 1, 0]])]),
  ("#Strings", stringHeap ["m", "A", "B", "f", "g", "h"])]

def ownsMethods (a : Assembly) : Bool :=
  a.typeCount = 2 && a.module.tables.rows .methodDef = 3 && !a.module.tables.has .methodPtr &&
    (a.module.methodsOf 1).toOption = some [2] && (a.module.methodsOf 2).toOption = some [3] &&
    (List.range 3).all (fun i => (a.module.rowAt .methodDef (i + 1)).toOption.any fun row =>
      (a.module.string (MethodDefRow.ofRow row).name).isOk) &&
    (a.definition ⟨0⟩ 1).isOk

structure OwnsMethods (a : Assembly) : Prop where
  made : Assembly.ofModule a.module = .ok a
  count : a.typeCount = 2
  first : a.module.methodsOf 1 = .ok [2]
  second : a.module.methodsOf 2 = .ok [3]
  read : a.MethodsRead
  defined : ∃ t, a.definition ⟨0⟩ 1 = .ok t

theorem exists_ownsMethods : ∃ a, OwnsMethods a := by
  obtain ⟨a, -, made, passes⟩ := Assembly.exists_read ownedMethods ownsMethods (by decide +kernel)
  simp only [ownsMethods, Bool.and_eq_true, decide_eq_true_eq, except_toOption_some,
    Bool.not_eq_true', List.all_eq_true, List.mem_range, Option.any_eq_true] at passes
  obtain ⟨⟨⟨⟨⟨⟨count, rows⟩, direct⟩, first⟩, second⟩, decodes⟩, defined⟩ := passes
  have pointless : ¬a.module.tables.has ChildList.methods.pointer = true :=
    Bool.eq_false_iff.1 direct
  refine ⟨a, made, count, first, second, ⟨?_, ?_, ?_⟩, of_isOk defined⟩
  · intro rid least most
    obtain rfl | rfl : rid = 1 ∨ rid = 2 := by
      have : rid ≤ 2 := count ▸ most
      omega
    · exact ⟨_, first⟩
    · exact ⟨_, second⟩
  · intro rid least most
    obtain ⟨row, at_, named⟩ := decodes (rid - 1) (by omega)
    obtain ⟨name, given⟩ := of_isOk named
    rw [Nat.sub_add_cancel least] at at_
    exact ⟨row, name, at_, given⟩
  · exact ⟨fun pointers => absurd pointers pointless, fun pointers => absurd pointers pointless⟩

namespace OwnsMethods

variable {a : Assembly} (owns : OwnsMethods a)
include owns

theorem unlisted {rid : Nat} {rids : List Nat} (listed : a.module.methodsOf rid = .ok rids) :
    1 ∉ rids := by
  obtain ⟨least, most⟩ := TableStream.known_of_children listed
  obtain rfl | rfl : rid = 1 ∨ rid = 2 := by
    have : rid ≤ 2 := owns.count ▸ most
    omega
  · cases owns.first.symm.trans listed
    decide
  · cases owns.second.symm.trans listed
    decide

theorem exists_session : ∃ (s : Session) (t : TypeDefinition), s.Reached ∧
    s.liveAssembly ⟨0⟩ = .ok a ∧ t.id = ⟨⟨0⟩, 1⟩ ∧ s.value? (.definition t.id) = some t := by
  obtain ⟨t, gives⟩ := owns.defined
  have there : (Session.holding a).context.assembly? ⟨0⟩ = some a := rfl
  obtain ⟨s, _, reached, grows, own⟩ := (Session.reached_holding owns.made).definition_asked there
    (Nat.le_refl 1) (owns.count ▸ by decide) gives
  have same := (Assembly.definition_ok gives).1
  have held : s.client.holdsContext = true := by
    rw [grows.client]
    rfl
  exact ⟨s, t, reached, Session.liveAssembly_of_held (grows.assembly? there) held, same,
    same ▸ own⟩

end OwnsMethods

theorem method_iff_owned_second : ∃ (s s' : Session) (a : Assembly) (t : TypeDefinition)
    (m : Method), s.Reached ∧ s.liveAssembly ⟨0⟩ = .ok a ∧ a.MethodsRead ∧
      s.value? (.definition t.id) = some t ∧ t.methods s = .ok [m] s' ∧
      Binding.method ⟨0⟩ 2 s = .ok m s' ∧ m.declaringType s = .ok t s ∧
      Binding.method ⟨0⟩ 1 s = .error (.malformed (.methodUnowned 1)) s := by
  obtain ⟨a, owns⟩ := exists_ownsMethods
  obtain ⟨s, t, reached, lives, same, own⟩ := owns.exists_session
  obtain ⟨owned, unowned⟩ := reached.method_iff_owned lives owns.read
  obtain ⟨methods, s', ran, listed, each⟩ := owned t own (by rw [same])
  rw [same, owns.first] at listed
  have rids : methods.map (·.rid) = [2] := (Except.ok.inj listed).symm
  obtain ⟨m, rfl, two⟩ := List.map_eq_singleton_iff.1 rids
  obtain ⟨leads, declares⟩ := each m List.mem_cons_self
  rw [two] at leads
  exact ⟨s, s', a, t, m, reached, lives, owns.read, own, ran, leads, declares,
    unowned 1 fun rid rids listed => owns.unlisted listed⟩

end CliMetadata
