import CliMetadata.Proofs.Binding.Reached
import CliMetadata.Proofs.Storage.Image

set_option autoImplicit false

namespace CliMetadata

namespace Assembly

/-- The kind of the type in a row, for which the row of its base type is read. -/
def kindAt (a : Assembly) (rid : Nat) : Except Error DefinitionKind := do
  (a.module.kindOf (.ofRow (← a.module.rowAt .typeDef rid)) a.isCoreLibrary).result

variable {a : Assembly}

theorem NamesRead.definition_eq (read : a.NamesRead) (made : ofModule a.module = .ok a)
    (id : AssemblyId) {rid : Nat} (least : 1 ≤ rid) (most : rid ≤ a.typeCount) :
    ∃ make : DefinitionKind → TypeDefinition, a.definition id rid = (a.kindAt rid).map make := by
  obtain ⟨row, name, nameSpace, at_, named, spaced⟩ := read.rows rid least most
  obtain ⟨fullName, nesting, nested, full⟩ := read.names rid least most
  have index : a.nesting = .ok nesting := (ofModule_eq made).2.1.trans nested
  refine ⟨fun kind =>
    { id := ⟨id, rid⟩, token := (TypeDefRow.ofRow row).token, kind
      flags := (TypeDefRow.ofRow row).flags, name, nameSpace, fullName
      extends_ := (TypeDefRow.ofRow row).extends_, enclosing := nesting.enclosing? rid }, ?_⟩
  unfold definition kindAt
  simp only [at_, named, spaced, index, full, bind, Except.bind]
  cases (a.module.kindOf (.ofRow row) a.isCoreLibrary).result <;> rfl

end Assembly

namespace Binding

variable {s : Session} {id : AssemblyId} {a : Assembly} {name : String}

section
variable (made : Assembly.ofModule a.module = .ok a) (indexed : a.Indexed)
  (there : s.context.assembly? id = some a) (left : Nat)
include made indexed there

theorem within_defined {rid : Nat} (defines : a.Defines name rid) :
    definitionNamedWithin (left + 1) id name s = (do return some (← definition id rid)) s := by
  have found : Binding.assembly id s = .ok a s := assembly_loaded there
  rw [definitionNamedWithin, bind_after_ok found,
    lift_bind_ok ((indexed.typeNamed?_eq_some made).2 defines)]

theorem within_undefined (undefined : ∀ rid, ¬a.Defines name rid) :
    definitionNamedWithin (left + 1) id name s = (do
      match ← lift (a.module.exported? name) with
      | none => return none
      | some implementation =>
        if implementation.table = Table.assemblyRef then
          let target ← reference id implementation.row
          definitionNamedWithin left target name
        else
          return none) s := by
  have found : Binding.assembly id s = .ok a s := assembly_loaded there
  rw [definitionNamedWithin, bind_after_ok found]
  exact lift_bind_ok ((indexed.typeNamed?_eq_none made).2 undefined) _ s

end

end Binding

namespace Session.Reached

variable {s : Session} {id : AssemblyId} {a : Assembly} (reached : s.Reached)
  (there : s.context.assembly? id = some a)
include reached there

theorem definitionNamed_defined (read : a.NamesRead) {name : String} {rid : Nat}
    (defines : a.Defines name rid) :
    (∀ kind, a.kindAt rid = .ok kind → ∃ t s', Binding.definitionNamed id name s = .ok (some t) s' ∧
      Binding.definition id rid s = .ok t s' ∧ t.id = ⟨id, rid⟩ ∧ t.fullName = name) ∧
    ∀ e, a.kindAt rid = .error e → ∃ s', Binding.definitionNamed id name s = .error e s' := by
  have made := reached.made there
  have least := defines.least
  have most : rid ≤ a.typeCount := by
    have := defines.within
    omega
  obtain ⟨make, same⟩ := read.definition_eq made id least most
  have came := Binding.outcome_definition reached.sound (reached.invariant.2 _ rfl) there least most
  have look := Binding.within_defined made read.indexed there Binding.maxForwards defines
  rw [same] at came
  constructor
  · intro kind decided
    rw [decided] at same came
    have ran := ok_of_outcome came
    refine ⟨make kind, _, ?_, ran, (Assembly.definition_ok same).1, ?_⟩
    · exact look.trans (bind_after_ok ran _)
    · exact (Assembly.definition_named made same).unique defines.holds
  · intro e failed
    rw [failed] at came
    exact ⟨_, look.trans (bind_after_error (error_of_outcome came) _)⟩

theorem definitionNamed_undefined (indexed : a.Indexed) {name : String}
    (unnamed : ∀ rid, ¬a.Names rid name) (unexported : ∀ rid, ¬a.ExportsSome name rid) :
    ((∀ rid, 1 ≤ rid → rid ≤ a.module.exportedCount → ¬a.ExportsNothing rid) →
      Binding.definitionNamed id name s = .ok none s) ∧
    ∀ rid e, FirstFrom a.ExportsNothing 1 a.module.exportedCount rid → a.exportedAt rid = .error e →
      Binding.definitionNamed id name s = .error e s := by
  have undefined (rid : Nat) (defines : a.Defines name rid) : False := unnamed rid defines.holds
  have look := Binding.within_undefined (reached.made there) indexed there Binding.maxForwards
    undefined
  have unread (rid : Nat) (_ : 1 ≤ rid) (_ : rid < 1 + a.module.exportedCount) :
      (a.ExportsSome name rid ∨ a.ExportsNothing rid) ↔ a.ExportsNothing rid :=
    or_iff_right (unexported rid)
  rcases a.exported?_first name with ⟨rid, first, exports⟩ | ⟨none_, exports⟩
  · have first := (FirstFrom.congr unread).1 first
    refine ⟨fun decodes => ?_, fun other e first' failed => ?_⟩
    · have := first.within
      exact absurd first.holds (decodes rid first.least (by omega))
    · cases first.unique first'
      rw [failed] at exports
      rw [exports] at look
      exact look
  · refine ⟨fun _ => ?_, fun rid _ first => absurd ((FirstFrom.congr unread).2 first) (none_ rid)⟩
    rw [exports] at look
    exact look

/-- The look-up is the inverse of full names. A name that a row has leads to the first row with it,
if the kind of that one can be told; a name that nothing has leads nowhere, if the exported types
can be read. -/
theorem definitionNamed_inverse (read : a.NamesRead) :
    (∀ rid name, a.Names rid name → ∃ least ≤ rid, a.Defines name least ∧
      (∀ kind, a.kindAt least = .ok kind → ∃ t s',
        Binding.definitionNamed id name s = .ok (some t) s' ∧
        Binding.definition id least s = .ok t s' ∧ t.id = ⟨id, least⟩ ∧ t.fullName = name) ∧
      ∀ e, a.kindAt least = .error e → ∃ s', Binding.definitionNamed id name s = .error e s') ∧
    ∀ name, (∀ rid, ¬a.Names rid name) → (∀ rid, ¬a.ExportsSome name rid) →
      ((∀ rid, 1 ≤ rid → rid ≤ a.module.exportedCount → ¬a.ExportsNothing rid) →
        Binding.definitionNamed id name s = .ok none s) ∧
      ∀ rid e, FirstFrom a.ExportsNothing 1 a.module.exportedCount rid →
        a.exportedAt rid = .error e → Binding.definitionNamed id name s = .error e s := by
  refine ⟨fun rid name names => ?_, fun name =>
    reached.definitionNamed_undefined there read.indexed⟩
  obtain ⟨least, le, defines⟩ := names.exists_defines
  exact ⟨least, le, defines, reached.definitionNamed_defined there read defines⟩

end Session.Reached

/-- The metadata of an assembly with two types P. The first is derived from the type X, which is
also exported; the scope of X and where it is implemented are given. -/
def namedTwice (scope implementation : UInt8) : ByteArray := image [
  ("#~", tableStream [
    (.module, [[0, 0, 1, 0, 0, 0, 0, 0, 0, 0]]),
    (.typeRef, [[scope, 0, 5, 0, 0, 0]]),
    (.typeDef, [
      [0, 0, 0, 0, 3, 0, 0, 0, 5, 0, 1, 0, 1, 0],
      [0, 0, 0, 0, 3, 0, 0, 0, 0, 0, 1, 0, 1, 0]]),
    (.exportedType, [[0, 0, 0, 0, 0, 0, 0, 0, 5, 0, 0, 0, implementation, 0]])]),
  ("#Strings", stringHeap ["M", "P", "X"])]

def namesTwice (a : Assembly) : Bool :=
  a.typeCount = 2 && a.module.exportedCount = 1 && a.names.toOption = some [("P", 1), ("P", 2)] &&
    a.namesReadable

structure NamesTwice (a : Assembly) : Prop where
  made : Assembly.ofModule a.module = .ok a
  count : a.typeCount = 2
  exported : a.module.exportedCount = 1
  read : a.NamesRead
  named : ∀ rid name, a.Names rid name → name = "P"
  first : a.Names 1 "P"

theorem exists_namesTwice (scope implementation : UInt8) (also : Assembly → Bool)
    (reads : (do Assembly.ofModule (← Module.read (namedTwice scope implementation))).toOption.any
      (fun a => namesTwice a && also a) = true) : ∃ a, NamesTwice a ∧ also a = true := by
  obtain ⟨a, -, made, passes⟩ := Assembly.exists_read _ _ reads
  simp only [namesTwice, Bool.and_eq_true, decide_eq_true_eq, except_toOption_some] at passes
  obtain ⟨⟨⟨⟨count, exported⟩, names⟩, readable⟩, more⟩ := passes
  rw [(Assembly.ofModule_eq made).2.2.1] at names
  obtain ⟨nesting, nested, listed⟩ := except_bind_ok.1 names
  have each := (Assembly.typeNames_ok nested listed).2
  have first : a.Names 1 "P" := (each 0 (by decide)).2
  have second : a.Names 2 "P" := (each 1 (by decide)).2
  refine ⟨a, ⟨made, count, exported, .of_readable made readable, fun rid name names => ?_, first⟩,
    more⟩
  have within := names.within
  obtain rfl | rfl : rid = 1 ∨ rid = 2 := by omega
  · exact names.unique first
  · exact names.unique second

namespace NamesTwice

variable {a : Assembly} (twice : NamesTwice a)
include twice

theorem only_exported {rid : Nat} (least : 1 ≤ rid) (most : rid ≤ a.module.exportedCount) :
    rid = 1 := by
  have := twice.exported
  omega

theorem reached : (Session.holding a).Reached := Session.reached_holding twice.made

theorem unnamed (rid : Nat) : ¬a.Names rid "Q" := fun names =>
  absurd (twice.named rid "Q" names) (by decide)

theorem defines : a.Defines "P" 1 := by
  unfold Assembly.Defines
  rw [twice.count]
  exact .here twice.first

end NamesTwice

theorem definitionNamed_inverse_twice : ∃ (s s' : Session) (a : Assembly) (t : TypeDefinition),
    s.Reached ∧ s.context.assembly? ⟨0⟩ = some a ∧ a.NamesRead ∧ a.Names 1 "P" ∧
      Binding.definitionNamed ⟨0⟩ "P" s = .ok (some t) s' ∧ t.id = ⟨⟨0⟩, 1⟩ ∧ t.fullName = "P" ∧
      Binding.definitionNamed ⟨0⟩ "Q" s = .ok none s := by
  obtain ⟨a, twice, also⟩ := exists_namesTwice 0 0
    (fun a => (a.kindAt 1).isOk && (a.exportedAt 1).toOption.any (·.1 = "X")) (by decide +kernel)
  simp only [Bool.and_eq_true, Option.any_eq_true, except_toOption_some, decide_eq_true_eq] at also
  obtain ⟨decided, ⟨_, implementation⟩, exports, rfl⟩ := also
  obtain ⟨kind, decided⟩ := of_isOk decided
  have there : (Session.holding a).context.assembly? ⟨0⟩ = some a := rfl
  obtain ⟨inverse, nowhere⟩ := twice.reached.definitionNamed_inverse there twice.read
  obtain ⟨least, -, defines, leads, -⟩ := inverse 1 "P" twice.first
  obtain rfl := defines.unique twice.defines
  obtain ⟨t, s', look, -, same, named⟩ := leads kind decided
  have unexported (rid : Nat) : ¬a.ExportsSome "Q" rid := by
    rintro ⟨other, others⟩
    cases twice.only_exported others.within.1 others.within.2
    exact absurd (Assembly.ExportsAt.unique exports others).1 (by decide)
  refine ⟨_, s', a, t, twice.reached, there, twice.read, twice.first, look, same, named, ?_⟩
  refine (nowhere "Q" twice.unnamed unexported).1 fun rid least most fails => ?_
  obtain ⟨e, failed⟩ := fails
  cases twice.only_exported least most
  cases exports.symm.trans failed

/-- The row of a base type and those of exported types stand outside of what the names are read
from. -/
theorem definitionNamed_unread :
    (¬∀ (s : Session) (id : AssemblyId) (a : Assembly), s.Reached →
      s.context.assembly? id = some a → a.NamesRead → ∀ rid name, a.Names rid name →
        ∃ least t s', a.Defines name least ∧
          Binding.definitionNamed id name s = .ok (some t) s' ∧ t.id = ⟨id, least⟩) ∧
    ¬∀ (s : Session) (id : AssemblyId) (a : Assembly), s.Reached →
      s.context.assembly? id = some a → a.NamesRead → ∀ name, (∀ rid, ¬a.Names rid name) →
        (∀ rid, ¬a.ExportsSome name rid) →
        ∃ s', Binding.definitionNamed id name s = .ok none s' := by
  obtain ⟨a, twice, also⟩ := exists_namesTwice 6 5
    (fun a => !(a.kindAt 1).isOk && !(a.exportedAt 1).isOk) (by decide +kernel)
  simp only [Bool.and_eq_true, Bool.not_eq_true'] at also
  have there : (Session.holding a).context.assembly? ⟨0⟩ = some a := rfl
  have inverse := twice.reached.definitionNamed_inverse there twice.read
  constructor
  · intro always
    obtain ⟨least, t, s', defines, look, -⟩ :=
      always _ _ a twice.reached there twice.read 1 "P" twice.first
    obtain ⟨least', -, defines', -, fails⟩ := inverse.1 1 "P" twice.first
    cases defines'.unique twice.defines
    obtain ⟨e, failed⟩ := of_not_isOk also.1
    obtain ⟨_, failed⟩ := fails e failed
    cases look.symm.trans failed
  · intro always
    obtain ⟨e, failed⟩ := of_not_isOk also.2
    have unexported (rid : Nat) : ¬a.ExportsSome "Q" rid := by
      rintro ⟨other, others⟩
      cases twice.only_exported others.within.1 others.within.2
      cases failed.symm.trans others
    have first : FirstFrom a.ExportsNothing 1 a.module.exportedCount 1 := by
      rw [twice.exported]
      exact .here ⟨e, failed⟩
    obtain ⟨s', look⟩ := always _ _ a twice.reached there twice.read "Q" twice.unnamed unexported
    cases look.symm.trans ((inverse.2 "Q" twice.unnamed unexported).2 1 e first failed)

end CliMetadata
