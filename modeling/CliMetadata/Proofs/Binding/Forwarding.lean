import CliMetadata.Proofs.Binding.NameIndex
import CliMetadata.Proofs.Binding.Requests
import CliMetadata.Proofs.Storage.Image

set_option autoImplicit false

namespace CliMetadata

namespace Assembly

/-- The assembly hands the name on: it defines no such type, and the first that it exports is
implemented elsewhere. -/
structure Forwards (a : Assembly) (name : String) (implementation : CodedIndex) : Prop where
  undefined : ∀ rid, ¬a.Defines name rid
  exports : a.Exports name implementation
  elsewhere : implementation.table = .assemblyRef

structure Ends (a : Assembly) (name : String) : Prop where
  undefined : ∀ rid, ¬a.Defines name rid
  here : ∀ implementation, a.Exports name implementation → implementation.table ≠ .assemblyRef

theorem trichotomy (a : Assembly) (name : String) : (∃ rid, a.Defines name rid) ∨ a.Ends name ∨
    ∃ implementation, a.Forwards name implementation := by
  by_cases defined : ∃ rid, a.Defines name rid
  · exact .inl defined
  have undefined : ∀ rid, ¬a.Defines name rid := fun rid defines => defined ⟨rid, defines⟩
  by_cases forwards : ∃ implementation, a.Exports name implementation ∧
      implementation.table = .assemblyRef
  · obtain ⟨implementation, exports, elsewhere⟩ := forwards
    exact .inr (.inr ⟨implementation, undefined, exports, elsewhere⟩)
  · exact .inr (.inl ⟨undefined, fun implementation exports elsewhere =>
      forwards ⟨implementation, exports, elsewhere⟩⟩)

end Assembly

namespace Session

/-- After so many times the name is asked for in that assembly and session. -/
inductive Handed (s : Session) (a : AssemblyId) (name : String) : Nat → AssemblyId → Session → Prop
  | start : Handed s a name 0 a s
  | next {i : Nat} {b target : AssemblyId} {s' s'' : Session} {assembly : Assembly}
    {implementation : CodedIndex} (before : Handed s a name i b s')
    (there : s'.context.assembly? b = some assembly)
    (forwards : assembly.Forwards name implementation)
    (leads : Binding.reference b implementation.row s' = .ok target s'') :
    Handed s a name (i + 1) target s''

/-- On the way of the name everything can be read, and every reference on it leads somewhere. -/
structure Unbroken (s : Session) (a : AssemblyId) (name : String) : Prop where
  decodes : ∀ i b s', s.Handed a name i b s' →
    ∃ assembly, s'.context.assembly? b = some assembly ∧ assembly.Decodes
  leads : ∀ i b s' assembly implementation, s.Handed a name i b s' →
    s'.context.assembly? b = some assembly → assembly.Forwards name implementation →
    ∃ target s'', Binding.reference b implementation.row s' = .ok target s''

end Session

open Binding

variable {s s' : Session} {a b : AssemblyId} {name : String} {assembly : Assembly}

theorem Session.Handed.follows {i : Nat} (handed : s.Handed a name i b s') (sound : s.Sound) :
    s.Follows s' := by
  induction handed with
  | start => exact .refl sound
  | next before there forwards leads ih =>
    obtain ⟨follows, _⟩ := Safe.of_kept (Ledger.safe_reference _ _) _ ih.sound
    rw [after_ok leads] at follows
    exact ih.trans follows

theorem Session.Handed.of_defined {i rid : Nat} (handed : s.Handed a name i b s')
    (there : s.context.assembly? a = some assembly) (defines : assembly.Defines name rid) :
    b = a ∧ s' = s := by
  induction handed with
  | start => exact ⟨rfl, rfl⟩
  | next before there' forwards leads ih =>
    obtain ⟨rfl, rfl⟩ := ih
    cases there.symm.trans there'
    exact absurd defines (forwards.undefined rid)

theorem Session.Unbroken.of_defined {rid : Nat} (there : s.context.assembly? a = some assembly)
    (decodes : assembly.Decodes) (defines : assembly.Defines name rid) : s.Unbroken a name where
  decodes := by
    intro i b s' handed
    obtain ⟨rfl, rfl⟩ := handed.of_defined there defines
    exact ⟨assembly, there, decodes⟩
  leads := by
    intro i b s' other implementation handed there' forwards
    obtain ⟨rfl, rfl⟩ := handed.of_defined there defines
    cases there.symm.trans there'
    exact absurd defines (forwards.undefined rid)

theorem Session.Unbroken.decoded (unbroken : s.Unbroken a name) {i : Nat}
    (handed : s.Handed a name i b s') (there : s'.context.assembly? b = some assembly) :
    assembly.Decodes := by
  obtain ⟨_, same, decodes⟩ := unbroken.decodes i b s' handed
  cases there.symm.trans same
  exact decodes

namespace Binding

theorem resolveAssembly_indexed {identity : AssemblyIdentity} (flags : Nat)
    (indexed : s.context.find? identity = some b) (lives : s.client.holdsContext = true) :
    resolveAssembly identity flags s = .ok b s := by
  have held : s.contextLives = true := by simp [Session.contextLives, lives]
  have resolved := Loading.resolve_found s.rest.limit flags indexed
  unfold resolveAssembly
  rw [get_bind]
  simp only [held, Bool.not_true, Bool.false_eq_true, if_false]
  change loading (Loading.resolve s.rest.limit identity flags) s = .ok b s
  simp only [loading, resolved]
  rfl

theorem reference_indexed {target : AssemblyId} {loaded : Assembly} {identity : AssemblyIdentity}
    {rid flags : Nat} (there : s.context.assembly? b = some assembly) (least : 1 ≤ rid)
    (most : rid ≤ assembly.referenceCount)
    (refers : assembly.referenceIdentity rid = .ok (identity, flags))
    (other : identity.same assembly.identity = false)
    (indexed : s.context.find? identity = some target)
    (found : s.context.assembly? target = some loaded) (lives : s.client.holdsContext = true)
    (idle : .reference b rid ∉ s.running)
    (kept : ∀ v, s.value? (.reference b rid) = some v → v = target) :
    ∃ s', reference b rid s = .ok target s' ∧
      (s' = s ∨ s' = s.store (.reference b rid) target) := by
  have first : Binding.assembly b s = .ok assembly s := assembly_loaded there
  have inside : ¬(rid = 0 ∨ assembly.referenceCount < rid) := by omega
  unfold reference
  rw [bind_after_ok first]
  simp only [inside, if_false]
  cases present : s.value? (.reference b rid) with
  | some value =>
    cases kept value present
    rw [bind_after_ok (cell_of_value present), bind_after_ok (liveAssembly_loaded found lives)]
    exact ⟨s, rfl, .inl rfl⟩
  | none =>
    have living : liveAssembly target (s.store (.reference b rid) target) = .ok loaded _ :=
      liveAssembly_loaded found lives
    refine ⟨_, ?_, .inr rfl⟩
    rw [bind_after_ok (cell_of_unchanged present idle ?_), bind_after_ok living]
    · rfl
    · rw [lift_bind_ok refers]
      simp only [other, Bool.false_eq_true, if_false]
      exact resolveAssembly_indexed flags indexed lives

section
variable (decodes : assembly.Decodes) (there : s.context.assembly? b = some assembly) (left : Nat)
include decodes there

theorem within_forwards {implementation : CodedIndex} {target : AssemblyId}
    (forwards : assembly.Forwards name implementation)
    (leads : reference b implementation.row s = .ok target s') :
    definitionNamedWithin (left + 1) b name s = definitionNamedWithin left target name s' := by
  rw [within_undefined decodes.made decodes.indexed there left forwards.undefined,
    lift_bind_ok (decodes.exported?_eq_some.2 forwards.exports)]
  simp only [forwards.elsewhere, if_true]
  exact bind_after_ok leads _

theorem within_ends (ends : assembly.Ends name) :
    definitionNamedWithin (left + 1) b name s = .ok none s := by
  rw [within_undefined decodes.made decodes.indexed there left ends.undefined]
  rcases decodes.exported?_first name with ⟨implementation, exports, look⟩ | ⟨_, look⟩
  · rw [lift_bind_ok look]
    simp only [ends.here implementation exports, if_false]
    rfl
  · rw [lift_bind_ok look]
    rfl

end

-- Each time the name is handed on, one assembly less may still be asked.
theorem handed_eq (unbroken : s.Unbroken a name) {i left : Nat}
    (handed : s.Handed a name i b s') (counted : i + left = maxForwards + 1) :
    definitionNamed a name s = definitionNamedWithin left b name s' := by
  induction handed generalizing left with
  | start => rw [definitionNamed, ← counted, Nat.zero_add]
  | @next i b target s' s'' assembly implementation before there forwards leads ih =>
    have decodes := unbroken.decoded before there
    have before : i + (left + 1) = maxForwards + 1 := by omega
    rw [ih before, within_forwards decodes there left forwards leads]

theorem asked_eq (unbroken : s.Unbroken a name) {i : Nat} (handed : s.Handed a name i b s')
    (few : i ≤ 16) : definitionNamed a name s = definitionNamedWithin (16 - i + 1) b name s' := by
  have most : maxForwards = 16 := rfl
  exact handed_eq unbroken handed (by omega)

end Binding

namespace Session.Unbroken

variable {i : Nat}

theorem named_ends (unbroken : s.Unbroken a name) (few : i ≤ 16) (handed : s.Handed a name i b s')
    (there : s'.context.assembly? b = some assembly) (ends : assembly.Ends name) :
    definitionNamed a name s = .ok none s' := by
  have decodes := unbroken.decoded handed there
  rw [asked_eq unbroken handed few, within_ends decodes there (16 - i) ends]

theorem named_exhausted (unbroken : s.Unbroken a name) (handed : s.Handed a name 17 b s') :
    ∃ cycle, definitionNamed a name s = .error (.referenceCycle cycle) s' := by
  obtain ⟨assembly, there, _⟩ := unbroken.decodes 17 b s' handed
  have found : Binding.assembly b s' = .ok assembly s' := assembly_loaded there
  have counted : 17 + 0 = maxForwards + 1 := rfl
  refine ⟨.forwarded name maxForwards assembly.identity, ?_⟩
  rw [handed_eq unbroken handed counted, definitionNamedWithin, bind_after_ok found]
  rfl

theorem handed_or_done (unbroken : s.Unbroken a name) (n : Nat) :
    (∃ i b s' assembly, i < n ∧ s.Handed a name i b s' ∧
      s'.context.assembly? b = some assembly ∧
      ((∃ rid, assembly.Defines name rid) ∨ assembly.Ends name)) ∨
    ∃ b s', s.Handed a name n b s' := by
  induction n with
  | zero => exact .inr ⟨a, s, .start⟩
  | succ n ih =>
    rcases ih with ⟨i, b, s', assembly, less, done⟩ | ⟨b, s', handed⟩
    · exact .inl ⟨i, b, s', assembly, by omega, done⟩
    obtain ⟨assembly, there, _⟩ := unbroken.decodes n b s' handed
    rcases assembly.trichotomy name with defined | ends | ⟨implementation, forwards⟩
    · exact .inl ⟨n, b, s', assembly, by omega, handed, there, .inl defined⟩
    · exact .inl ⟨n, b, s', assembly, by omega, handed, there, .inr ends⟩
    · obtain ⟨target, s'', leads⟩ := unbroken.leads n b s' assembly _ handed there forwards
      exact .inr ⟨target, s'', .next handed there forwards leads⟩

end Session.Unbroken

namespace Session.Obtains

variable {nodes : List TypeNode} {i : Nat}

theorem named_defined (obtains : s.Obtains nodes) (unbroken : s.Unbroken a name) (few : i ≤ 16)
    (handed : s.Handed a name i b s') (there : s'.context.assembly? b = some assembly) {rid : Nat}
    (defines : assembly.Defines name rid) :
    (∀ kind, assembly.kindAt rid = .ok kind → ∃ t s'', assembly.definition b rid = .ok t ∧
      t.fullName = name ∧ definitionNamed a name s = .ok (some t) s'') ∧
    ∀ e, assembly.kindAt rid = .error e → ∃ s'', definitionNamed a name s = .error e s'' := by
  have decodes := unbroken.decoded handed there
  have most : rid ≤ assembly.typeCount := by
    have := defines.within
    omega
  obtain ⟨make, same⟩ := decodes.definition_eq decodes.made b defines.least most
  have reached := obtains.invariant.followed (handed.follows obtains.invariant.sound)
  have came := outcome_definition reached.sound (reached.idle _) there defines.least most
  have look := (asked_eq unbroken handed few).trans
    (within_defined decodes.made decodes.indexed there (16 - i) defines)
  rw [same] at came
  constructor
  · intro kind decided
    rw [decided] at same came
    refine ⟨make kind, _, same, ?_, look.trans (bind_after_ok (ok_of_outcome came) _)⟩
    exact (Assembly.definition_named decodes.made same).unique defines.holds
  · intro e failed
    rw [failed] at came
    exact ⟨_, look.trans (bind_after_error (error_of_outcome came) _)⟩

/-- The definition with a name is that of the first assembly on the way of the name that defines it,
where the name is handed on at most sixteen times and the kind of the definition can be told. -/
theorem definitionNamed_forwarded (obtains : s.Obtains nodes) (unbroken : s.Unbroken a name) :
    (∀ i b s' assembly rid, i ≤ 16 → s.Handed a name i b s' →
      s'.context.assembly? b = some assembly → assembly.Defines name rid →
      (∀ kind, assembly.kindAt rid = .ok kind → ∃ t s'', assembly.definition b rid = .ok t ∧
        t.fullName = name ∧ definitionNamed a name s = .ok (some t) s'') ∧
      ∀ e, assembly.kindAt rid = .error e →
        ∃ s'', definitionNamed a name s = .error e s'') ∧
    (∀ i b s' assembly, i ≤ 16 → s.Handed a name i b s' →
      s'.context.assembly? b = some assembly → assembly.Ends name →
      definitionNamed a name s = .ok none s') ∧
    (∀ b s', s.Handed a name 17 b s' →
      ∃ cycle, definitionNamed a name s = .error (.referenceCycle cycle) s') ∧
    ((∃ i b s' assembly, i ≤ 16 ∧ s.Handed a name i b s' ∧
        s'.context.assembly? b = some assembly ∧
        ((∃ rid, assembly.Defines name rid) ∨ assembly.Ends name)) ∨
      ∃ b s', s.Handed a name 17 b s') ∧
    ∀ t s'', definitionNamed a name s = .ok (some t) s'' → t.fullName = name := by
  have cases := unbroken.handed_or_done 17
  simp only [Nat.lt_add_one_iff] at cases
  refine ⟨fun _ _ _ _ _ few handed there => obtains.named_defined unbroken few handed there,
    fun _ _ _ _ few handed there => unbroken.named_ends few handed there,
    fun _ _ => unbroken.named_exhausted, cases, fun t s'' ran => ?_⟩
  rcases cases with ⟨i, b, s', assembly, few, handed, there, defined | ends⟩ | ⟨b, s', handed⟩
  · obtain ⟨rid, defines⟩ := defined
    obtain ⟨told, untold⟩ := obtains.named_defined unbroken few handed there defines
    cases decided : assembly.kindAt rid with
    | ok kind =>
      obtain ⟨_, _, _, named, found⟩ := told kind decided
      rw [found] at ran
      cases ran
      exact named
    | error e =>
      obtain ⟨_, failed⟩ := untold e decided
      cases failed.symm.trans ran
  · rw [unbroken.named_ends few handed there ends] at ran
    cases ran
  · obtain ⟨cycle, failed⟩ := unbroken.named_exhausted handed
    rw [failed] at ran
    cases ran

end Session.Obtains

/-- The metadata of an assembly that defines one type and exports the types Q and R, which another
assembly implements. All names are of one letter. -/
def neighbour (own other defined : UInt8) : ByteArray := image [
  ("#~", tableStream [
    (.typeDef, [[1, 0, 0, 0, 5, 0, 0, 0, 0, 0, 1, 0, 1, 0]]),
    (.assembly, [[0, 0, 0, 0, 0, 0, 0, 0, 0, 0, 0, 0, 0, 0, 0, 0, 0, 0, 1, 0, 0, 0]]),
    (.assemblyRef, [[0, 0, 0, 0, 0, 0, 0, 0, 0, 0, 0, 0, 0, 0, 3, 0, 0, 0, 0, 0]]),
    (.exportedType, [
      [0, 0, 0x20, 0, 0, 0, 0, 0, 7, 0, 0, 0, 5, 0],
      [0, 0, 0x20, 0, 0, 0, 0, 0, 9, 0, 0, 0, 5, 0]])]),
  ("#Strings", [0, own, 0, other, 0, defined, 0, 0x51, 0, 0x52, 0])]

def readsNeighbour (own other : String) (row : Option Nat) (a : Assembly) : Bool :=
  a.readable && (a.kindAt 1).isOk && a.identity = { name := own } && a.referenceCount = 1 &&
    (a.referenceIdentity 1).toOption = some ({ name := other }, 0) &&
    (a.module.exported? "Q").toOption = some (some ⟨.assemblyRef, 1⟩) &&
    (a.module.exported? "R").toOption = some (some ⟨.assemblyRef, 1⟩) &&
    (a.typeNamed? "Q").toOption = some row && (a.typeNamed? "R").toOption = some none

structure Neighbour (own other : String) (row : Option Nat) (a : Assembly) : Prop where
  decodes : a.Decodes
  told : ∃ kind, a.kindAt 1 = .ok kind
  identity : a.identity = { name := own }
  count : a.referenceCount = 1
  refers : a.referenceIdentity 1 = .ok ({ name := other }, 0)
  exports : ∀ name ∈ ["Q", "R"], a.Exports name ⟨.assemblyRef, 1⟩
  looked : a.typeNamed? "Q" = .ok row ∧ a.typeNamed? "R" = .ok none

theorem exists_neighbour {own other : String} {row : Option Nat} (bytes : ByteArray)
    (reads : (do Assembly.ofModule (← Module.read bytes)).toOption.any
      (readsNeighbour own other row) = true) : ∃ a, Neighbour own other row a := by
  obtain ⟨a, -, made, passes⟩ := Assembly.exists_read bytes (readsNeighbour own other row) reads
  simp only [readsNeighbour, Bool.and_eq_true, decide_eq_true_eq, except_toOption_some] at passes
  obtain ⟨⟨⟨⟨⟨⟨⟨⟨readable, told⟩, identity⟩, count⟩, refers⟩, exportsQ⟩, exportsR⟩, looked⟩,
    none⟩ := passes
  have decodes : a.Decodes := .of_readable made readable
  refine ⟨a, decodes, of_isOk told, identity, count, refers, fun name member => ?_, looked, none⟩
  rcases List.mem_pair.1 member with rfl | rfl
  · exact decodes.exported?_eq_some.1 exportsQ
  · exact decodes.exported?_eq_some.1 exportsR

def sharedContext (a b : Assembly) : LoadContext := (({} : LoadContext).push a).push b

def neighbours (a b : Assembly) : Session := (Session.new none 1).withContext (sharedContext a b)

theorem obtains_withContext (context : LoadContext) :
    ((Session.new none 1).withContext context).Obtains [] := by
  refine (Session.Obtains.start none 1).elsewhere ⟨fun _ _ there => there, fun id t there => ?_,
    fun _ => List.not_mem_nil, fun _ _ => rfl⟩
  simp at there

structure Between (a b : Assembly) (s : Session) : Prop where
  rest : s.rest = (neighbours a b).rest
  running : s.running = []
  kept : ∀ i v, s.value? (.reference ⟨i⟩ 1) = some v → v = ⟨1 - i⟩

theorem Between.context {a b : Assembly} {s : Session} (between : Between a b s) :
    s.context = sharedContext a b :=
  congrArg World.context between.rest

section
variable {a b : Assembly} (first : Neighbour "A" "B" none a) (second : Neighbour "B" "A" (some 1) b)
include first second

theorem Between.leads {s : Session} (between : Between a b s) {n : Nat} (less : n < 2) :
    ∃ s', reference ⟨n⟩ 1 s = .ok ⟨1 - n⟩ s' ∧ Between a b s' := by
  have client : s.client = {} := congrArg World.client between.rest
  have idle : .reference ⟨n⟩ 1 ∉ s.running := by simp [between.running]
  have apart : AssemblyIdentity.same { name := "A" } { name := "B" } = false := by decide +kernel
  obtain ⟨x, y, other, there, found, count, refers, different, indexed⟩ : ∃ x y other,
      s.context.assembly? ⟨n⟩ = some x ∧ s.context.assembly? ⟨1 - n⟩ = some y ∧
      x.referenceCount = 1 ∧ x.referenceIdentity 1 = .ok (other, 0) ∧
      other.same x.identity = false ∧ s.context.find? other = some ⟨1 - n⟩ := by
    rw [between.context]
    obtain rfl | rfl : n = 0 ∨ n = 1 := by omega
    · refine ⟨a, b, { name := "B" }, rfl, rfl, first.count, first.refers, ?_, ?_⟩
      · rwa [first.identity, AssemblyIdentity.same_comm]
      · simp [sharedContext, LoadContext.find?, LoadContext.push, first.identity, second.identity,
          apart]
    · refine ⟨b, a, { name := "A" }, rfl, rfl, second.count, second.refers, ?_, ?_⟩
      · rwa [second.identity]
      · simp [sharedContext, LoadContext.find?, LoadContext.push, first.identity]
  obtain ⟨s', ran, same⟩ := reference_indexed there (Nat.le_refl 1) (Nat.le_of_eq count.symm)
    refers different indexed found (by rw [client]) idle (between.kept n)
  refine ⟨s', ran, ?_⟩
  rcases same with rfl | rfl
  · exact between
  · refine ⟨between.rest, between.running, fun i v stored => ?_⟩
    by_cases same : n = i
    · subst same
      simpa using stored.symm
    · refine between.kept i v ?_
      simpa [same] using stored

theorem Between.reads {s : Session} (between : Between a b s) {x : AssemblyId}
    {assembly : Assembly} (there : s.context.assembly? x = some assembly) :
    assembly.Decodes ∧ (∀ name ∈ ["Q", "R"], assembly.Exports name ⟨.assemblyRef, 1⟩) ∧
      assembly.typeNamed? "R" = .ok none := by
  rw [between.context] at there
  have member : assembly ∈ [a, b] := List.mem_of_getElem? there
  rcases List.mem_pair.1 member with rfl | rfl
  · exact ⟨first.decodes, first.exports, first.looked.2⟩
  · exact ⟨second.decodes, second.exports, second.looked.2⟩

section
variable {name : String} (exported : name ∈ ["Q", "R"])
include exported

theorem handed_between {i : Nat} {x : AssemblyId} {s : Session}
    (handed : (neighbours a b).Handed ⟨0⟩ name i x s) : x = ⟨i % 2⟩ ∧ Between a b s := by
  induction handed with
  | start =>
    exact ⟨rfl, rfl, rfl, fun _ _ there => by simp [neighbours] at there⟩
  | @next i x target s s' assembly implementation before there forwards leads ih =>
    obtain ⟨rfl, between⟩ := ih
    cases forwards.exports.unique ((between.reads first second there).2.1 name exported)
    obtain ⟨s'', ran, after⟩ := between.leads first second (Nat.mod_lt i Nat.two_pos)
    cases leads.symm.trans ran
    exact ⟨congrArg AssemblyId.mk (by omega), after⟩

theorem unbroken_neighbours : (neighbours a b).Unbroken ⟨0⟩ name where
  decodes := by
    intro i x s handed
    obtain ⟨rfl, between⟩ := handed_between first second exported handed
    have less := Nat.mod_lt i Nat.two_pos
    have there : s.context.assembly? ⟨i % 2⟩ = some ([a, b][i % 2]) := by
      rw [between.context]
      exact List.getElem?_eq_getElem less
    exact ⟨_, there, (between.reads first second there).1⟩
  leads := by
    intro i x s assembly implementation handed there forwards
    obtain ⟨rfl, between⟩ := handed_between first second exported handed
    cases forwards.exports.unique ((between.reads first second there).2.1 name exported)
    obtain ⟨s', ran, _⟩ := between.leads first second (Nat.mod_lt i Nat.two_pos)
    exact ⟨_, s', ran⟩

end

end

theorem definitionNamed_forwarded_neighbours : ∃ s : Session, s.Obtains [] ∧
    s.Unbroken ⟨0⟩ "Q" ∧ s.Unbroken ⟨0⟩ "R" ∧
    (∃ t s', definitionNamed ⟨0⟩ "Q" s = .ok (some t) s' ∧ t.fullName = "Q" ∧ t.id = ⟨⟨1⟩, 1⟩) ∧
    ∃ cycle s', definitionNamed ⟨0⟩ "R" s = .error (.referenceCycle cycle) s' := by
  obtain ⟨a, first⟩ : ∃ a, Neighbour "A" "B" none a :=
    exists_neighbour (neighbour 0x41 0x42 0x50) (by decide +kernel)
  obtain ⟨b, second⟩ : ∃ b, Neighbour "B" "A" (some 1) b :=
    exists_neighbour (neighbour 0x42 0x41 0x51) (by decide +kernel)
  have obtains : (neighbours a b).Obtains [] := obtains_withContext _
  have unbroken : (neighbours a b).Unbroken ⟨0⟩ "Q" :=
    unbroken_neighbours first second (by decide)
  have endless : (neighbours a b).Unbroken ⟨0⟩ "R" :=
    unbroken_neighbours first second (by decide)
  refine ⟨neighbours a b, obtains, unbroken, endless, ?_, ?_⟩
  · have forwards : a.Forwards "Q" ⟨.assemblyRef, 1⟩ :=
      ⟨first.decodes.typeNamed?_eq_none.1 first.looked.1, first.exports "Q" (by decide), rfl⟩
    obtain ⟨target, s', leads⟩ := unbroken.leads 0 _ _ a _ .start rfl forwards
    have handed : (neighbours a b).Handed ⟨0⟩ "Q" 1 target s' := .next .start rfl forwards leads
    obtain ⟨rfl, between⟩ := handed_between first second (by decide) handed
    have there : s'.context.assembly? ⟨1⟩ = some b := by
      rw [between.context]
      rfl
    have defines := second.decodes.typeNamed?_eq_some.1 second.looked.1
    obtain ⟨kind, told⟩ := second.told
    obtain ⟨t, s'', gives, named, found⟩ :=
      ((obtains.definitionNamed_forwarded unbroken).1 1 _ s' b 1 (by omega) handed there
        defines).1 kind told
    exact ⟨t, s'', found, named, (Assembly.definition_ok gives).1⟩
  · obtain ⟨_, _, exhausted, further, _⟩ := obtains.definitionNamed_forwarded endless
    rcases further with ⟨i, x, s', assembly, _, handed, there, done⟩ | ⟨x, s', handed⟩
    · obtain ⟨_, between⟩ := handed_between first second (by decide) handed
      obtain ⟨decodes, exports, undefined⟩ := between.reads first second there
      rcases done with ⟨rid, defines⟩ | ends
      · exact absurd defines (decodes.typeNamed?_eq_none.1 undefined rid)
      · exact absurd rfl (ends.here _ (exports "R" (by decide)))
    · obtain ⟨cycle, failed⟩ := exhausted x s' handed
      exact ⟨cycle, s', failed⟩

/-- The row of a base type stands outside of what is read here. -/
theorem definitionNamed_untold : ¬∀ (s : Session) (nodes : List TypeNode) (a : AssemblyId)
    (name : String), s.Obtains nodes →
    (∀ b loaded, s.context.assembly? b = some loaded → loaded.Decodes) → s.Unbroken a name →
    ∀ i b s' assembly rid, i ≤ 16 → s.Handed a name i b s' →
      s'.context.assembly? b = some assembly → assembly.Defines name rid →
      ∃ t s'', assembly.definition b rid = .ok t ∧ definitionNamed a name s = .ok (some t) s'' := by
  obtain ⟨a, twice, also⟩ := exists_namesTwice 6 0
    (fun a => a.readable && !(a.kindAt 1).isOk) (by decide +kernel)
  simp only [Bool.and_eq_true, Bool.not_eq_true'] at also
  obtain ⟨readable, untold⟩ := also
  have decodes : a.Decodes := .of_readable twice.made readable
  have there : (Session.holding a).context.assembly? ⟨0⟩ = some a := rfl
  have alone (b : AssemblyId) (loaded : Assembly)
      (there' : (Session.holding a).context.assembly? b = some loaded) : loaded.Decodes := by
    obtain rfl := List.mem_singleton.1 (List.mem_of_getElem? there')
    exact decodes
  intro always
  obtain ⟨t, s', -, found⟩ := always _ [] ⟨0⟩ "P" (obtains_withContext _) alone
    (.of_defined there decodes twice.defines) 0 _ _ a 1 (Nat.zero_le 16) .start there twice.defines
  obtain ⟨e, untold⟩ := of_not_isOk untold
  obtain ⟨_, failed⟩ :=
    (twice.reached.definitionNamed_defined there decodes.toNamesRead twice.defines).2 e untold
  cases found.symm.trans failed

end CliMetadata
