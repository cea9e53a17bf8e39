import CliMetadata.Proofs.Binding.Reached
import CliMetadata.Proofs.Storage.Image

set_option autoImplicit false

namespace CliMetadata

theorem Token.row_of_isNull {token : Token} (null : token.isNull = true) : token.row = 0 := by
  obtain ⟨value⟩ := token
  cases eq_of_beq null
  rfl

namespace DefinitionKind

/-- The full name of the base type that makes a type of this kind, where there is such a one. -/
def baseName? : DefinitionKind → Option String
  | .struct => some "System.ValueType"
  | .enum => some "System.Enum"
  | .delegate => some "System.MulticastDelegate"
  | _ => none

theorem slash_not_mem_baseName {kind : DefinitionKind} {name : String}
    (based : kind.baseName? = some name) : '/' ∉ name.toList := by
  cases kind <;> cases based <;> decide

end DefinitionKind

namespace Module

variable {m : Module}

theorem kindOf_named {row : TypeDefRow} {core : Bool} {n n' : Nat} {kind : DefinitionKind}
    {name : String} (ran : m.kindOf row core n = .ok kind n') (based : kind.baseName? = some name) :
    row.extends_.isNull = false ∧ ∃ base n'',
      m.writtenName? row.extends_.token core n = .ok (some base) n'' ∧
        qualify base.nameSpace base.name = name := by
  unfold kindOf at ran
  split at ran
  · cases ran
    cases based
  split at ran
  · cases ran
    cases based
  next full =>
  refine ⟨by simpa using full, ?_⟩
  obtain ⟨base?, between, written, ran⟩ := ok_of_bind_ok ran
  cases base? with
  | none =>
    cases ran
    cases based
  | some base =>
    refine ⟨base, between, written, ?_⟩
    dsimp only at ran
    split at ran
    · cases ran
      cases based
    next system =>
    obtain ⟨_, spaced⟩ : base.inCoreLibrary = true ∧ base.nameSpace = "System" := by
      simpa using system
    have decided {isEnumClass : Bool} {n n' : Nat} (ran : (if (base.name == "Enum") = true then
        pure DefinitionKind.enum
      else if (base.name == "ValueType" && !isEnumClass) = true then pure DefinitionKind.struct
      else if (base.name == "MulticastDelegate") = true then pure DefinitionKind.delegate
      else pure DefinitionKind.class_ : Scan DefinitionKind) n = .ok kind n') :
        qualify "System" base.name = name := by
      split at ran
      next same =>
        cases ran
        cases based
        rw [eq_of_beq same]
        rfl
      split at ran
      next same =>
        cases ran
        cases based
        rw [eq_of_beq (Bool.and_eq_true_iff.1 same).1]
        rfl
      split at ran
      next same =>
        cases ran
        cases based
        rw [eq_of_beq same]
        rfl
      · cases ran
        cases based
    rw [spaced]
    split at ran
    · obtain ⟨_, _, _, ran⟩ := ok_of_bind_ok ran
      split at ran
      · obtain ⟨_, _, _, ran⟩ := ok_of_bind_ok ran
        exact decided ran
      · exact decided ran
    · exact decided ran

theorem writtenName?_some {token : Token} {core : Bool} {n n' : Nat} {base : WrittenName}
    (ran : m.writtenName? token core n = .ok (some base) n') : token.row ≠ 0 ∧
      ((token.table? = some .typeDef ∧ ∃ row, m.rowAt .typeDef token.row = .ok row ∧
          m.string (TypeDefRow.ofRow row).nameSpace = .ok base.nameSpace ∧
          m.string (TypeDefRow.ofRow row).name = .ok base.name) ∨
        (token.table? = some .typeRef ∧ ∃ row, m.rowAt .typeRef token.row = .ok row ∧
          (TypeRefRow.ofRow row).isInner = false ∧
          m.string (TypeRefRow.ofRow row).nameSpace = .ok base.nameSpace ∧
          m.string (TypeRefRow.ofRow row).name = .ok base.name)) := by
  unfold writtenName? at ran
  generalize table : token.table? = table? at ran
  split at ran
  · obtain ⟨row, _, at_, ran⟩ := ok_of_bind_ok ran
    obtain ⟨nameSpace, _, spaced, ran⟩ := ok_of_bind_ok ran
    obtain ⟨name, _, named, ran⟩ := ok_of_bind_ok ran
    cases ran
    obtain ⟨there, positive, _⟩ := row_ok at_
    exact ⟨Nat.ne_of_gt positive, .inl ⟨rfl, row, there, Scan.lift_ok spaced, Scan.lift_ok named⟩⟩
  · obtain ⟨row, _, at_, ran⟩ := ok_of_bind_ok ran
    dsimp only at ran
    split at ran
    · cases ran
    next outer =>
    obtain ⟨there, positive, _⟩ := row_ok at_
    have outer : (TypeRefRow.ofRow row).isInner = false := by simpa [TypeRefRow.isInner] using outer
    refine ⟨Nat.ne_of_gt positive, .inr ⟨rfl, row, there, outer, ?_⟩⟩
    have named {inCore : Bool} {n n' : Nat} (ran : (do
        let nameSpace ← Scan.lift (m.string (TypeRefRow.ofRow row).nameSpace)
        let name ← Scan.lift (m.string (TypeRefRow.ofRow row).name)
        return some ⟨nameSpace, name, inCore⟩ : Scan (Option WrittenName)) n = .ok (some base) n') :
        m.string (TypeRefRow.ofRow row).nameSpace = .ok base.nameSpace ∧
          m.string (TypeRefRow.ofRow row).name = .ok base.name := by
      obtain ⟨nameSpace, _, spaced, ran⟩ := ok_of_bind_ok ran
      obtain ⟨name, _, named, ran⟩ := ok_of_bind_ok ran
      cases ran
      exact ⟨Scan.lift_ok spaced, Scan.lift_ok named⟩
    split at ran
    · obtain ⟨_, _, _, ran⟩ := ok_of_bind_ok ran
      obtain ⟨_, _, _, ran⟩ := ok_of_bind_ok ran
      exact named ran
    · exact named ran
  · cases ran
  · cases ran

end Module

namespace Session.Reached

variable {s : Session} (reached : s.Reached)
include reached

theorem named_of_finds {home : AssemblyId} {fullName : String} {t : TypeDefinition}
    (finds : s.Finds home fullName t) :
    t.fullName = fullName ∧ s.value? (.definition t.id) = some t := by
  induction finds with
  | @here a assembly fullName rid t there defined value =>
    obtain ⟨same, found, loaded, gives⟩ := reached.definition_told value
    cases there.symm.trans loaded
    have made := reached.made there
    have indexed := Assembly.indexed_of_typeNamed? made defined
    have defines := (indexed.typeNamed?_eq_some made).1 defined
    exact ⟨(Assembly.definition_named made gives).unique defines.holds, same ▸ value⟩
  | forwarded _ _ _ _ ih => exact ih

theorem written_name {a : AssemblyId} {assembly : Assembly} {token : Token} {d : TypeDefinition}
    {core : Bool} {n n' : Nat} {written : WrittenName}
    (loaded : s.context.assembly? a = some assembly) (denotes : s.Denotes a token d)
    (writes : assembly.module.writtenName? token core n = .ok (some written) n')
    (slashless : '/' ∉ (qualify written.nameSpace written.name).toList) :
    s.value? (.definition d.id) = some d ∧
      (d.fullName = qualify written.nameSpace written.name ↔ d.isNested = false) := by
  obtain ⟨_, writes⟩ := Module.writtenName?_some writes
  cases denotes with
  | definition table value =>
    rcases writes with ⟨_, row, at_, spaced, named⟩ | ⟨other, _⟩
    · obtain ⟨own, _, there, gives⟩ := reached.definition_told value
      cases loaded.symm.trans there
      obtain ⟨_, nesting, same, -, -, -, -, whole, -, -, enclosing⟩ :=
        Assembly.definition_parts gives
      cases at_.symm.trans same
      refine ⟨own ▸ value, fun same => ?_, fun outermost => ?_⟩
      · refine Bool.eq_false_iff.2 fun nested => slashless ?_
        exact same ▸ Assembly.slash_mem_of_nested gives nested
      · have alone : nesting.enclosing? _ = none :=
          enclosing.symm.trans (Option.not_isSome_iff_eq_none.1 (Bool.eq_false_iff.1 outermost))
        exact Except.ok.inj (whole.symm.trans (Module.fullName_outermost alone at_ named spaced))
    · cases table.symm.trans other
  | reference table value =>
    rcases writes with ⟨other, _⟩ | ⟨_, row, at_, outer, spaced, named⟩
    · cases table.symm.trans other
    obtain ⟨_, _, there, same, leads⟩ := reached.invariant.1.cells (.typeRef _ _) d value rfl
    cases loaded.symm.trans there
    cases at_.symm.trans same
    cases leads with
    | inner inner _ _ _ _ => cases outer.symm.trans inner
    | outermost _ named' spaced' _ found =>
    cases named.symm.trans named'
    cases spaced.symm.trans spaced'
    obtain ⟨whole, own⟩ := reached.named_of_finds found
    refine ⟨own, fun _ => ?_, fun _ => whole⟩
    obtain ⟨-, _, _, gives⟩ := reached.definition_told own
    exact Bool.eq_false_iff.2 fun nested => slashless
      (whole ▸ Assembly.slash_mem_of_nested gives nested)

theorem base_denoted {s' : Session} {t : TypeDefinition} {fullName : String} {b? : Option BoundType}
    (made : s.value? (.definition t.id) = some t) (kind : t.kind.baseName? = some fullName)
    (ran : t.base s = .ok b? s') : ∃ b d, b? = some b ∧ b.definition = d.id ∧
      s'.Denotes t.id.assembly t.extends_.token d ∧ ∃ (a : Assembly) (written : WrittenName)
        (core : Bool) (n n' : Nat), s'.context.assembly? t.id.assembly = some a ∧
        a.module.writtenName? t.extends_.token core n = .ok (some written) n' ∧
        qualify written.nameSpace written.name = fullName := by
  obtain ⟨later, grows⟩ := reached.followed (.base made) ran
  obtain ⟨other, same, derives⟩ := later.invariant.1.cells (.base t.id) b?
    (Binding.value?_of_cell_ok ran) rfl
  cases same.symm.trans (grows.values _ _ made)
  obtain ⟨-, a, loaded, gives⟩ := later.definition_told same
  obtain ⟨row, -, -, decided, -, -, -, -, -, extends_, -⟩ := Assembly.definition_parts gives
  rw [Scan.result_eq] at decided
  obtain ⟨full, written, n, writes, based⟩ := Module.kindOf_named (ok_of_outcome decided) kind
  rw [← extends_] at full writes
  obtain ⟨positive, tables⟩ := Module.writtenName?_some writes
  cases derives with
  | root null => cases full.symm.trans null
  | base names =>
    generalize shown : b?.map BoundType.node = node? at names
    cases names with
    | null null =>
      rcases Bool.or_eq_true_iff.1 null with null | null
      · exact absurd (Token.row_of_isNull null) positive
      · exact absurd (eq_of_beq null) positive
    | spelled node table =>
      rcases tables with ⟨other, _⟩ | ⟨other, _⟩ <;> cases table.symm.trans other
    | @bound d args denotes =>
      obtain ⟨b, rfl, node⟩ := Option.map_eq_some_iff.1 shown
      exact ⟨b, d, rfl, (TypeNode.bound.inj node).2.1, denotes, a, written, _, _, n, loaded, writes,
        based⟩

/-- Where the kind of a type says that it has one of the bases of the core library, its base type is
a definition; this has the name of that base exactly if it lies in no other type. -/
theorem base_named {s' : Session} {t : TypeDefinition} {fullName : String} {b? : Option BoundType}
    (made : s.value? (.definition t.id) = some t) (kind : t.kind.baseName? = some fullName)
    (ran : t.base s = .ok b? s') : ∃ b d, b? = some b ∧
      s'.value? (.definition b.definition) = some d ∧
      (d.fullName = fullName ↔ d.isNested = false) := by
  obtain ⟨b, d, same, named, denotes, a, written, core, n, n', loaded, writes, based⟩ :=
    reached.base_denoted made kind ran
  have later := (reached.followed (.base made) ran).1
  obtain ⟨own, whole⟩ := later.written_name loaded denotes writes
    (based ▸ DefinitionKind.slash_not_mem_baseName kind)
  exact ⟨b, d, same, named ▸ own, based ▸ whole⟩

end Session.Reached

/-- The metadata of a core library with the types Outer, System.ValueType and S, which is derived
from the second one. The type in the given row lies inside Outer. -/
def valueTypes (nested : UInt8) : ByteArray := image [
  ("#~", tableStream [
    (.module, [[0, 0, 1, 0, 0, 0, 0, 0, 0, 0]]),
    (.typeDef, [
      [0, 0, 0, 0, 0x0a, 0, 0, 0, 0, 0, 1, 0, 1, 0],
      [0, 0, 0, 0, 0x17, 0, 0x10, 0, 0, 0, 1, 0, 1, 0],
      [0, 0, 0, 0, 0x21, 0, 0, 0, 8, 0, 1, 0, 1, 0]]),
    (.nestedClass, [[nested, 0, 1, 0]])]),
  ("#Strings", stringHeap ["mscorlib", "Outer", "System", "ValueType", "S"])]

def readsStruct (base : String) (a : Assembly) : Bool :=
  a.typeCount = 3 && (a.definition ⟨0⟩ 2).toOption.any (·.fullName = base) &&
    (a.definition ⟨0⟩ 3).toOption.any fun t => t.kind = .struct && t.extends_ = ⟨.typeDef, 2⟩

section
variable {s : Session} {t d : TypeDefinition}

theorem genericParams_known {params : List GenericParam}
    (known : s.value? (.genericParams (.type t.id)) = some params) :
    t.genericParams s = .ok params s := Binding.cell_of_value known

theorem bindOpen_known {params : List GenericParam}
    (known : s.value? (.genericParams (.type t.id)) = some params) :
    t.bindOpen s = .ok ⟨t.kind, t.id, params.map (·.node)⟩ s := by
  have counted : t.genericArity s = .ok (params.map (·.node)).length s := by
    unfold TypeDefinition.genericArity
    rw [bind_after_ok (genericParams_known known), List.length_map]
    rfl
  unfold TypeDefinition.bindOpen TypeDefinition.bind
  rw [bind_after_ok (genericParams_known known), bind_after_ok counted]
  simp only [ne_eq, not_true_eq_false, if_false]
  rfl

theorem namedType_known {a : AssemblyId} {assembly : Assembly} {token : Token}
    {scope : GenericScope} {params : List GenericParam}
    (loaded : s.context.assembly? a = some assembly) (table : token.table? = some .typeDef)
    (least : 1 ≤ token.row) (most : token.row ≤ assembly.typeCount)
    (value : s.value? (.definition ⟨a, token.row⟩) = some d)
    (known : s.value? (.genericParams (.type d.id)) = some params) :
    Binding.namedType a token scope s =
      .ok (some (.bound d.kind d.id (params.map (·.node)))) s := by
  have found : Binding.assembly a s = .ok assembly s := Binding.assembly_loaded loaded
  have defined : Binding.definition a token.row s = .ok d s :=
    (Binding.definition_inside loaded least most).trans (Binding.cell_of_value value)
  have full : ¬(token.isNull || token.row == 0) = true := by
    intro null
    rcases Bool.or_eq_true_iff.1 null with null | null
    · exact absurd (Token.row_of_isNull null) (by omega)
    · exact absurd (eq_of_beq null) (by omega)
  have named {specified : Token → Binding (Option TypeNode)} :
      Binding.namedTypeBy a (Binding.typeReference a) specified token s =
        .ok (some (.bound d.kind d.id (params.map (·.node)))) s := by
    unfold Binding.namedTypeBy
    rw [if_neg full, table]
    dsimp only
    rw [bind_after_ok defined, bind_after_ok (bindOpen_known known)]
    rfl
  unfold Binding.namedType
  rw [bind_after_ok found]
  exact named

theorem base_known {assembly : Assembly} {params ofBase : List GenericParam}
    (loaded : s.context.assembly? t.id.assembly = some assembly)
    (lives : s.client.holdsContext = true) (idle : .base t.id ∉ s.running)
    (full : t.extends_.isNull = false) (table : t.extends_.token.table? = some .typeDef)
    (least : 1 ≤ t.extends_.token.row) (most : t.extends_.token.row ≤ assembly.typeCount)
    (own : s.value? (.genericParams (.type t.id)) = some params)
    (value : s.value? (.definition ⟨t.id.assembly, t.extends_.token.row⟩) = some d)
    (known : s.value? (.genericParams (.type d.id)) = some ofBase) :
    ∃ b? s', t.base s = .ok b? s' := by
  unfold TypeDefinition.base
  cases present : s.value? (.base t.id) with
  | some b? => exact ⟨b?, s, Binding.cell_of_value present⟩
  | none =>
    refine ⟨some ⟨d.kind, d.id, ofBase.map (·.node)⟩, _, Binding.cell_of_unchanged present idle ?_⟩
    have living : Binding.liveAssembly t.id.assembly (s.enter (.base t.id)) = .ok assembly _ :=
      Binding.liveAssembly_loaded loaded lives
    have listed : t.genericParams (s.enter (.base t.id)) = .ok params _ := genericParams_known own
    have inScope : t.genericScope (s.enter (.base t.id)) = .ok { typeParams := params } _ :=
      bind_after_ok listed _
    have named : Binding.namedType t.id.assembly t.extends_.token { typeParams := params }
        (s.enter (.base t.id)) = .ok (some (.bound d.kind d.id (ofBase.map (·.node)))) _ :=
      namedType_known loaded table least most value known
    rw [if_neg (Bool.eq_false_iff.1 full), bind_after_ok living, bind_after_ok inScope,
      bind_after_ok named]
    rfl

end

def structSession (a : Assembly) : Session :=
  ((Session.holding a).store (.genericParams (.type ⟨⟨0⟩, 2⟩)) []).store
    (.genericParams (.type ⟨⟨0⟩, 3⟩)) []

theorem reached_structSession {a : Assembly} (made : Assembly.ofModule a.module = .ok a) :
    (structSession a).Reached := by
  have first := (Session.reached_holding made).stored (.genericParams (.type ⟨⟨0⟩, 2⟩)) [] rfl
    (by simp)
  exact first.stored _ _ rfl (by simp)

structure StructOf (base : String) (s : Session) (t d : TypeDefinition) : Prop where
  reached : s.Reached
  made : s.value? (.definition t.id) = some t
  kind : t.kind = .struct
  table : t.extends_.token.table? = some .typeDef
  value : s.value? (.definition ⟨t.id.assembly, t.extends_.token.row⟩) = some d
  named : d.fullName = base
  ran : ∃ b? s', t.base s = .ok b? s'

theorem exists_structOf (bytes : ByteArray) {base : String}
    (reads : (do Assembly.ofModule (← Module.read bytes)).toOption.any (readsStruct base) = true) :
    ∃ s t d, StructOf base s t d := by
  obtain ⟨a, -, made, passes⟩ := Assembly.exists_read bytes (readsStruct base) reads
  simp only [readsStruct, Bool.and_eq_true, decide_eq_true_eq, Option.any_eq_true,
    except_toOption_some] at passes
  obtain ⟨⟨count, d, second, named⟩, t, third, kind, extends_⟩ := passes
  have reached := reached_structSession made
  obtain ⟨s, _, reached, first, value⟩ :=
    reached.definition_asked (a := ⟨0⟩) rfl (by decide) (by omega) second
  obtain ⟨s', _, reached, further, own⟩ :=
    reached.definition_asked (first.assembly? rfl) (by decide) (by omega) third
  have grows := first.trans further
  have ids : d.id = ⟨⟨0⟩, 2⟩ ∧ t.id = ⟨⟨0⟩, 3⟩ :=
    ⟨(Assembly.definition_ok second).1, (Assembly.definition_ok third).1⟩
  have token : t.extends_.token = ⟨0x02000002⟩ := by
    rw [extends_]
    decide
  have known {type : TypeId} (held : (structSession a).value? (.genericParams (.type type)) =
      some []) : s'.value? (.genericParams (.type type)) = some [] := grows.values _ _ held
  have ofStruct : (structSession a).value? (.genericParams (.type ⟨⟨0⟩, 3⟩)) = some [] := by
    simp [structSession]
  have ofBase : (structSession a).value? (.genericParams (.type ⟨⟨0⟩, 2⟩)) = some [] := by
    simp [structSession]
  have there : s'.value? (.definition ⟨t.id.assembly, t.extends_.token.row⟩) = some d := by
    rw [ids.2, token]
    exact further.values _ _ value
  refine ⟨s', t, d, reached, ids.2 ▸ own, kind, token ▸ rfl, there, named, ?_⟩
  have loaded : s'.context.assembly? t.id.assembly = some a := by
    rw [ids.2]
    exact grows.assembly? rfl
  have idle : .base t.id ∉ s'.running := grows.running ▸ List.not_mem_nil
  refine base_known loaded (grows.client ▸ rfl) idle (extends_ ▸ rfl) (token ▸ rfl) ?_ ?_
    (ids.2 ▸ known ofStruct) there (ids.1 ▸ known ofBase)
  · rw [token]
    decide
  · rw [token, count]
    decide

theorem structOf_valueType : ∃ s t d, StructOf "System.ValueType" s t d :=
  exists_structOf (valueTypes 3) (by decide +kernel)

theorem structOf_nested : ∃ s t d, StructOf "Outer/ValueType" s t d :=
  exists_structOf (valueTypes 2) (by decide +kernel)

theorem base_named_valueType : ∃ (s s' : Session) (t : TypeDefinition) (b? : Option BoundType),
    s.Reached ∧ s.value? (.definition t.id) = some t ∧
      t.kind.baseName? = some "System.ValueType" ∧ t.base s = .ok b? s' ∧ ∃ b d, b? = some b ∧
      s'.value? (.definition b.definition) = some d ∧
      (d.fullName = "System.ValueType" ↔ d.isNested = false) := by
  obtain ⟨s, t, d, sample⟩ := structOf_valueType
  obtain ⟨b?, s', ran⟩ := sample.ran
  have kind : t.kind.baseName? = some "System.ValueType" := by rw [sample.kind]; rfl
  exact ⟨s, s', t, b?, sample.reached, sample.made, kind, ran,
    sample.reached.base_named sample.made kind ran⟩

/-- A structure may be derived from a nested type that is called like the base of all structures. -/
theorem base_nested_valueType : ¬∀ (s s' : Session) (t : TypeDefinition) (fullName : String)
    (b? : Option BoundType), s.Reached → s.value? (.definition t.id) = some t →
      t.kind.baseName? = some fullName → t.base s = .ok b? s' → ∃ b d, b? = some b ∧
      s'.value? (.definition b.definition) = some d ∧ d.fullName = fullName := by
  intro always
  obtain ⟨s, t, d, sample⟩ := structOf_nested
  obtain ⟨b?, s', ran⟩ := sample.ran
  have kind : t.kind.baseName? = some "System.ValueType" := by rw [sample.kind]; rfl
  obtain ⟨b, other, rfl, value, named⟩ :=
    always s s' t _ b? sample.reached sample.made kind ran
  obtain ⟨_, own, same, of, denotes, -⟩ := sample.reached.base_denoted sample.made kind ran
  cases same
  obtain ⟨later, grows⟩ := sample.reached.followed (.base sample.made) ran
  cases denotes with
  | definition _ there =>
    have here := (later.definition_told there).1
    rw [of, here, there] at value
    cases value
    cases there.symm.trans (grows.values _ _ sample.value)
    rw [sample.named] at named
    exact absurd named (by decide)
  | reference table => cases sample.table.symm.trans table

end CliMetadata
