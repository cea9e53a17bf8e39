import CliMetadata.Proofs.Nesting
import Mathlib.Logic.Relation

set_option autoImplicit false

namespace CliMetadata

/-- Rows that may lie directly inside each other. The name of a row that lies in no other is a
qualified one, beside which something else is told. -/
structure Hierarchy (α : Type) where
  Inside : Nat → Nat → Prop
  name : Nat → Except Error String
  root : Nat → Except Error (String × α)

namespace Hierarchy

section
variable {α : Type} (h : Hierarchy α)

def Meets : Nat → Nat → Prop := Relation.ReflTransGen h.Inside

def Outermost (rid : Nat) : Prop := ∀ outer, ¬h.Inside rid outer

/-- The way outwards never comes to a row that lies in no other. -/
def Endless (rid : Nat) : Prop := ∀ r, h.Meets rid r → ¬h.Outermost r

structure Reads (rid : Nat) : Prop where
  names : ∀ r, h.Meets rid r → ∃ name, h.name r = .ok name
  roots : ∀ r, h.Meets rid r → h.Outermost r → ∃ result, h.root r = .ok result

/-- The names on the way to a row, from the outermost row on, with what is told of that one. -/
inductive Path : Nat → List String → α → Prop
  | root {rid : Nat} {name : String} {result : α} (outermost : h.Outermost rid)
    (named : h.root rid = .ok (name, result)) : Path rid [name] result
  | inner {rid outer : Nat} {name : String} {names : List String} {result : α}
    (inside : h.Inside rid outer) (named : h.name rid = .ok name)
    (around : Path outer names result) : Path rid (names ++ [name]) result

structure Within (count : Nat) : Prop where
  unique : ∀ r outer other, h.Inside r outer → h.Inside r other → outer = other
  name : ∀ r name, h.name r = .ok name → 1 ≤ r ∧ r ≤ count
  root : ∀ r result, h.root r = .ok result → 1 ≤ r ∧ r ≤ count

structure Walks (walk : Nat → Nat → List String → Except Error (List String × α))
    (cyclic : Error) : Prop where
  root : ∀ {rid name result}, h.Outermost rid → h.root rid = .ok (name, result) →
    ∀ left inner, walk left rid inner = .ok (name :: inner, result)
  further : ∀ {rid outer name}, h.Inside rid outer → h.name rid = .ok name →
    ∀ left inner, walk (left + 1) rid inner = walk left outer (name :: inner)
  stops : ∀ {rid outer name}, h.Inside rid outer → h.name rid = .ok name →
    ∀ inner, walk 0 rid inner = .error cyclic

end

variable {α : Type} {h : Hierarchy α} {rid outer count : Nat} {names : List String} {result : α}

theorem Endless.around (endless : h.Endless rid) (inside : h.Inside rid outer) :
    h.Endless outer := fun r meets => endless r (.head inside meets)

theorem Reads.around (reads : h.Reads rid) (inside : h.Inside rid outer) : h.Reads outer where
  names := fun r meets => reads.names r (.head inside meets)
  roots := fun r meets => reads.roots r (.head inside meets)

theorem Endless.exists_outer (endless : h.Endless rid) : ∃ outer, h.Inside rid outer := by
  by_contra none_
  exact endless rid .refl fun outer inside => none_ ⟨outer, inside⟩

namespace Path

theorem not_endless (path : h.Path rid names result) : ¬h.Endless rid := by
  induction path with
  | root outermost _ => exact fun endless => endless _ .refl outermost
  | inner inside _ _ ih => exact fun endless => ih (endless.around inside)

theorem ne_nil (path : h.Path rid names result) : names ≠ [] := by
  cases path <;> simp

theorem of_reads (reads : h.Reads rid) (ends : ¬h.Endless rid) :
    ∃ names result, h.Path rid names result := by
  obtain ⟨r, meets, outermost⟩ : ∃ r, h.Meets rid r ∧ h.Outermost r := by
    by_contra none_
    exact ends fun r meets outermost => none_ ⟨r, meets, outermost⟩
  obtain ⟨⟨name, result⟩, named⟩ := reads.roots r meets outermost
  clear ends
  induction meets using Relation.ReflTransGen.head_induction_on with
  | refl => exact ⟨[name], result, .root outermost named⟩
  | head inside _ ih =>
    obtain ⟨own, called⟩ := reads.names _ .refl
    obtain ⟨names, result, path⟩ := ih (reads.around inside)
    exact ⟨names ++ [own], result, .inner inside called path⟩

section
variable (within : h.Within count)
include within

theorem unique {others : List String} {other : α} (path : h.Path rid names result)
    (second : h.Path rid others other) : names = others ∧ result = other := by
  induction path generalizing others with
  | root outermost named =>
    cases second with
    | root _ same =>
      cases named.symm.trans same
      exact ⟨rfl, rfl⟩
    | inner inside _ _ => exact absurd inside (outermost _)
  | inner inside named _ ih =>
    cases second with
    | root outermost _ => exact absurd inside (outermost _)
    | inner inside' named' around =>
      cases within.unique _ _ _ inside inside'
      cases named.symm.trans named'
      obtain ⟨rfl, rfl⟩ := ih around
      exact ⟨rfl, rfl⟩

-- No row is met twice on the way, as the way from it has one length only.
theorem length_le (path : h.Path rid names result) : names.length ≤ count := by
  have rows : ∃ rows : List Nat, rows.length = names.length ∧ rows.Nodup ∧
      ∀ r ∈ rows, (1 ≤ r ∧ r ≤ count) ∧ ∃ names' result', h.Path r names' result' ∧
        names'.length ≤ names.length := by
    induction path with
    | @root rid name result outermost named =>
      refine ⟨[rid], rfl, List.nodup_singleton rid, fun r member => ?_⟩
      obtain rfl := List.mem_singleton.1 member
      exact ⟨within.root r _ named, _, _, .root outermost named, Nat.le_refl _⟩
    | @inner rid outer name names result inside named around ih =>
      obtain ⟨rows, length, distinct, each⟩ := ih
      have whole := Path.inner inside named around
      refine ⟨rid :: rows, by simp [length], List.nodup_cons.2 ⟨fun member => ?_, distinct⟩, ?_⟩
      · obtain ⟨-, names', result', path, shorter⟩ := each rid member
        have same := congrArg List.length (whole.unique within path).1
        rw [List.length_append, List.length_singleton] at same
        omega
      · intro r member
        rcases List.mem_cons.1 member with rfl | member
        · exact ⟨within.name r _ named, _, _, whole, Nat.le_refl _⟩
        · obtain ⟨bounds, names', result', path, shorter⟩ := each r member
          refine ⟨bounds, names', result', path, Nat.le_trans shorter ?_⟩
          simp
  obtain ⟨rows, length, distinct, each⟩ := rows
  have inside : rows ⊆ List.range' 1 count := fun r member => by
    have bounds := (each r member).1
    exact List.mem_range'_1.2 (by omega)
  have most := (List.subperm_of_subset distinct inside).length_le
  rwa [List.length_range', length] at most

end

end Path

namespace Walks

variable {walk : Nat → Nat → List String → Except Error (List String × α)} {cyclic : Error}
  (walks : h.Walks walk cyclic)
include walks

theorem of_endless (reads : h.Reads rid) (endless : h.Endless rid) (left : Nat)
    (inner : List String) : walk left rid inner = .error cyclic := by
  induction left generalizing rid inner with
  | zero =>
    obtain ⟨outer, inside⟩ := endless.exists_outer
    obtain ⟨name, named⟩ := reads.names rid .refl
    exact walks.stops inside named inner
  | succ left ih =>
    obtain ⟨outer, inside⟩ := endless.exists_outer
    obtain ⟨name, named⟩ := reads.names rid .refl
    rw [walks.further inside named]
    exact ih (reads.around inside) (endless.around inside) (name :: inner)

theorem of_path (path : h.Path rid names result) {left : Nat} (enough : names.length ≤ left + 1)
    (inner : List String) : walk left rid inner = .ok (names ++ inner, result) := by
  induction path generalizing left inner with
  | root outermost named => exact walks.root outermost named left inner
  | @inner rid outer name names result inside named around ih =>
    rw [List.length_append, List.length_singleton] at enough
    have positive := List.length_pos_of_ne_nil around.ne_nil
    obtain ⟨left, rfl⟩ : ∃ n, left = n + 1 := ⟨left - 1, by omega⟩
    rw [walks.further inside named, ih (by omega), List.append_assoc, List.singleton_append]

theorem ends (within : h.Within count) (reads : h.Reads rid) :
    (walk count rid [] = .error cyclic ↔ h.Endless rid) ∧
      (¬h.Endless rid → ∃ names result, h.Path rid names result ∧
        walk count rid [] = .ok (names, result)) := by
  have follows (ends : ¬h.Endless rid) : ∃ names result, h.Path rid names result ∧
      walk count rid [] = .ok (names, result) := by
    obtain ⟨names, result, path⟩ := Path.of_reads reads ends
    have short := path.length_le within
    refine ⟨names, result, path, ?_⟩
    rw [walks.of_path path (by omega), List.append_nil]
  refine ⟨⟨fun failed => ?_, fun endless => walks.of_endless reads endless count []⟩, follows⟩
  by_contra ends
  obtain ⟨_, _, _, ran⟩ := follows ends
  cases failed.symm.trans ran

end Walks

end Hierarchy

def Nesting.Inside (nesting : Nesting) (rid outer : Nat) : Prop :=
  nesting.enclosing? rid = some outer

namespace Module

variable {m : Module}

def types (m : Module) (Inside : Nat → Nat → Prop) : Hierarchy Unit where
  Inside := Inside
  name rid := do m.string (TypeDefRow.ofRow (← m.rowAt .typeDef rid)).name
  root rid := do
    let row := TypeDefRow.ofRow (← m.rowAt .typeDef rid)
    let name ← m.string row.name
    return (qualify (← m.string row.nameSpace) name, ())

theorem types_within (nesting : Nesting) :
    (m.types nesting.Inside).Within m.typeCount where
  unique r outer other inside further := Option.some.inj (inside.symm.trans further)
  name r name named := by
    obtain ⟨row, at_, -⟩ := except_bind_ok.1 named
    exact within_of_rowAt at_
  root r result named := by
    obtain ⟨row, at_, -⟩ := except_bind_ok.1 named
    exact within_of_rowAt at_

theorem walks_namesAround (m : Module) (nesting : Nesting) (start : Nat) :
    (m.types nesting.Inside).Walks
      (fun left rid inner => (m.namesAround nesting start left rid inner).map (·, ()))
      (.malformed (.nestingCycle start)) := by
  refine ⟨?_, ?_, ?_⟩
  · intro rid name result outermost named left inner
    obtain ⟨row, at_, named⟩ := except_bind_ok.1 named
    obtain ⟨own, called, named⟩ := except_bind_ok.1 named
    obtain ⟨nameSpace, spaced, same⟩ := except_bind_ok.1 named
    cases same
    have alone : nesting.enclosing? rid = none := Option.eq_none_iff_forall_ne_some.2 outermost
    unfold namesAround
    simp only [at_, called, alone, spaced, bind, Except.bind]
    rfl
  · intro rid outer name inside named left inner
    obtain ⟨row, at_, named⟩ := except_bind_ok.1 named
    have inside : nesting.enclosing? rid = some outer := inside
    rw [namesAround]
    simp only [at_, named, inside, bind, Except.bind]
  · intro rid outer name inside named inner
    obtain ⟨row, at_, named⟩ := except_bind_ok.1 named
    have inside : nesting.enclosing? rid = some outer := inside
    rw [namesAround]
    simp only [at_, named, inside, bind, Except.bind]
    rfl

theorem namesAround_step {nesting : Nesting} {start left current : Nat} {inner names : List String}
    (ran : m.namesAround nesting start left current inner = .ok names) :
    (∃ whole, (m.types nesting.Inside).Path current [whole] () ∧ names = whole :: inner) ∨
      ∃ name outer more, nesting.Inside current outer ∧
        (m.types nesting.Inside).name current = .ok name ∧ left = more + 1 ∧
        m.namesAround nesting start more outer (name :: inner) = .ok names := by
  unfold namesAround at ran
  obtain ⟨row, at_, ran⟩ := except_bind_ok.1 ran
  obtain ⟨name, named, ran⟩ := except_bind_ok.1 ran
  split at ran
  next alone =>
    obtain ⟨nameSpace, spaced, ran⟩ := except_bind_ok.1 ran
    cases ran
    refine .inl ⟨_, .root (fun outer inside => nomatch alone.symm.trans inside) ?_, rfl⟩
    exact except_bind_ok.2 ⟨row, at_, except_bind_ok.2 ⟨name, named,
      except_bind_ok.2 ⟨nameSpace, spaced, rfl⟩⟩⟩
  next outer inside =>
    have own : (m.types nesting.Inside).name current = .ok name :=
      except_bind_ok.2 ⟨row, at_, named⟩
    cases left with
    | zero => cases ran
    | succ more => exact .inr ⟨name, outer, more, inside, own, rfl, ran⟩

theorem path_of_namesAround {nesting : Nesting} {start left current : Nat}
    {inner names : List String} (ran : m.namesAround nesting start left current inner = .ok names) :
    ∃ outward, (m.types nesting.Inside).Path current outward () ∧ names = outward ++ inner := by
  induction left generalizing current inner with
  | zero =>
    rcases namesAround_step ran with ⟨whole, path, rfl⟩ | ⟨_, _, _, _, _, more, _⟩
    · exact ⟨[whole], path, rfl⟩
    · cases more
  | succ left ih =>
    rcases namesAround_step ran with ⟨whole, path, rfl⟩ | ⟨name, _, _, inside, named, more, ran⟩
    · exact ⟨[whole], path, rfl⟩
    · cases more
      obtain ⟨outward, path, rfl⟩ := ih ran
      exact ⟨outward ++ [name], .inner inside named path, by simp⟩

@[simp] theorem fullName_ok_iff {nesting : Nesting} {rid : Nat} {fullName : String} :
    m.fullName nesting rid = .ok fullName ↔
      ∃ names, (m.types nesting.Inside).Path rid names () ∧ fullName = joinNames names := by
  constructor
  · intro named
    obtain ⟨names, ran, same⟩ := except_bind_ok.1 named
    cases same
    obtain ⟨outward, path, rfl⟩ := path_of_namesAround ran
    exact ⟨outward, path, by rw [List.append_nil]⟩
  · rintro ⟨names, path, rfl⟩
    have short := path.length_le (types_within nesting)
    have walked := (walks_namesAround m nesting rid).of_path path (Nat.le_succ_of_le short) []
    obtain ⟨_, ran, same⟩ := except_map_ok.1 walked
    cases same
    rw [List.append_nil] at ran
    exact except_bind_ok.2 ⟨names, ran, rfl⟩

def exportedTypes (m : Module) : Hierarchy CodedIndex where
  Inside rid outer := ∃ row, m.rowAt .exportedType rid = .ok row ∧
    (ExportedTypeRow.ofRow row).implementation = ⟨.exportedType, outer⟩
  name rid := do m.string (ExportedTypeRow.ofRow (← m.rowAt .exportedType rid)).name
  root rid := do
    let row := ExportedTypeRow.ofRow (← m.rowAt .exportedType rid)
    let name ← m.string row.name
    return (qualify (← m.string row.nameSpace) name, row.implementation)

theorem exportedTypes_within : m.exportedTypes.Within m.exportedCount where
  unique r outer other := by
    rintro ⟨row, at_, inside⟩ ⟨_, same, further⟩
    cases at_.symm.trans same
    cases inside.symm.trans further
    rfl
  name r name named := by
    obtain ⟨row, at_, -⟩ := except_bind_ok.1 named
    exact within_of_rowAt at_
  root r result named := by
    obtain ⟨row, at_, -⟩ := except_bind_ok.1 named
    exact within_of_rowAt at_

theorem walks_exportedAround (m : Module) (start : Nat) :
    m.exportedTypes.Walks
      (fun left rid inner => do
        m.exportedAround start left (.ofRow (← m.rowAt .exportedType rid)) inner)
      (.malformed (.exportedNesting start)) := by
  refine ⟨?_, ?_, ?_⟩
  · intro rid name result outermost named left inner
    obtain ⟨row, at_, named⟩ := except_bind_ok.1 named
    obtain ⟨own, called, named⟩ := except_bind_ok.1 named
    obtain ⟨nameSpace, spaced, same⟩ := except_bind_ok.1 named
    cases same
    have elsewhere : (ExportedTypeRow.ofRow row).implementation.table ≠ .exportedType := by
      intro same
      refine outermost (ExportedTypeRow.ofRow row).implementation.row ⟨row, at_, ?_⟩
      rw [← same]
    unfold exportedAround
    simp only [at_, called, spaced, bind, Except.bind]
    rw [if_pos elsewhere]
    rfl
  · rintro rid outer name ⟨row, at_, inside⟩ named left inner
    obtain ⟨_, same, called⟩ := except_bind_ok.1 named
    cases at_.symm.trans same
    conv_lhs => unfold exportedAround
    simp only [at_, called, inside, bind, Except.bind, ne_eq, not_true_eq_false, if_false]
  · rintro rid outer name ⟨row, at_, inside⟩ named inner
    obtain ⟨_, same, called⟩ := except_bind_ok.1 named
    cases at_.symm.trans same
    unfold exportedAround
    simp only [at_, called, inside, bind, Except.bind]
    rfl

end Module

end CliMetadata
