import CliMetadata.Proofs.Binding.Ledger

set_option autoImplicit false

namespace CliMetadata

namespace Ledger

open Binding

variable {L : Ledger}

theorem safe_assembly (id : AssemblyId) : L.Safe (assembly id) := .view _

theorem ensures_assembly (id : AssemblyId) (s : Session) :
    L.Ensures (assembly id) s fun a s' => s' = s ∧ s.context.assembly? id = some a := by
  refine (ensures_view _).weaken fun a s' _ viewed => ?_
  obtain ⟨same, found⟩ := viewed
  refine ⟨same, ?_⟩
  cases there : s.context.assembly? id with
  | none => rw [there] at found; cases found
  | some other => rw [there] at found; cases found; rfl

theorem safe_liveAssembly (id : AssemblyId) : L.Safe (liveAssembly id) := .view _

theorem ensures_liveAssembly (id : AssemblyId) (s : Session) :
    L.Ensures (liveAssembly id) s fun a s' => s' = s ∧ s.context.assembly? id = some a :=
  (ensures_view _).weaken fun _ _ _ ⟨same, lives⟩ => ⟨same, Session.assembly?_of_live lives⟩

theorem safe_liveType (t : TypeId) : L.Safe (liveType t) := .view _

theorem ensures_definition (a : AssemblyId) (rid : Nat) (s : Session) :
    L.Ensures (definition a rid) s fun t s' => s'.value? (.definition ⟨a, rid⟩) = some t := by
  unfold definition
  refine (ensures_assembly a s).bind fun assembly s' _ found => ?_
  obtain ⟨rfl, there⟩ := found
  dsimp only
  split
  · exact ensures_thrown _
  · refine ensures_cell ((ensures_lift _).weaken fun t s' _ made => L.told ?_)
    obtain ⟨rfl, gives⟩ := made
    exact ⟨assembly, there, gives⟩

theorem safe_definition (a : AssemblyId) (rid : Nat) : L.Safe (definition a rid) :=
  .of_ensures fun s => ensures_definition a rid s

theorem safe_resolveAssembly (identity : AssemblyIdentity) (flags : Nat) :
    L.Safe (resolveAssembly identity flags) := by
  intro s
  refine ensures_get ?_
  dsimp only
  split
  · exact ensures_thrown _
  · exact ensures_resolve _ identity flags s

theorem ensures_reference (a : AssemblyId) (rid : Nat) (s : Session) :
    L.Ensures (reference a rid) s fun target s' => s'.value? (.reference a rid) = some target := by
  unfold reference
  refine (safe_assembly a s).bind fun assembly s' _ _ => ?_
  dsimp only
  split
  · exact ensures_thrown _
  have free s value : L.Holds s (.reference a rid) value := L.told trivial
  refine (Safe.ensures_cell ?_ free s').bind fun target s'' _ value => ?_
  · apply (Safe.lift _).bind
    intro named
    split
    · exact .pure a
    · exact safe_resolveAssembly _ _
  · exact (ensures_liveAssembly target s'').bind fun _ _ _ found => ensures_pure (found.1 ▸ value)

theorem safe_reference (a : AssemblyId) (rid : Nat) : L.Safe (reference a rid) :=
  .of_ensures fun s => ensures_reference a rid s

theorem safe_coreLibrary (a : AssemblyId) : L.Safe (coreLibrary a) := by
  unfold coreLibrary
  apply (safe_assembly a).bind
  intro assembly
  apply Safe.bind
  · refine Safe.cell ?_ fun _ _ => L.told trivial
    split
    · exact .pure a
    apply (Safe.lift _).bind
    intro rid?
    split
    · exact safe_reference a _
    apply (Safe.view _).bind
    intro core?
    split
    · exact .pure _
    · exact .throw _
  · exact fun core => (safe_liveAssembly core).bind fun _ => .pure core

theorem ensures_definitionNamedWithin (left : Nat) (a : AssemblyId) (fullName : String)
    (s : Session) :
    L.Ensures (definitionNamedWithin left a fullName) s fun found? s' =>
      ∀ t, found? = some t → s'.Finds a fullName t := by
  induction left generalizing a s with
  | zero => exact (ensures_assembly a s).bind fun _ _ _ _ => ensures_throw _
  | succ left ih =>
    unfold definitionNamedWithin
    refine (ensures_assembly a s).bind fun assembly s' _ found => ?_
    obtain ⟨rfl, there⟩ := found
    refine (ensures_lift _).bind fun rid? s'' _ found => ?_
    obtain ⟨rfl, looked⟩ := found
    cases rid? with
    | some rid =>
      refine (ensures_definition a rid _).bind fun t s' grows value => ensures_pure ?_
      intro _ same
      cases same
      exact .here (grows.assembly? there) looked value
    | none =>
      refine (ensures_lift _).bind fun implementation? s'' _ found => ?_
      obtain ⟨rfl, exported⟩ := found
      cases implementation? with
      | none => exact ensures_pure fun _ impossible => by cases impossible
      | some implementation =>
        dsimp only
        split
        · refine (safe_reference a _ _).bind fun target s' grows _ => ?_
          refine (ih target s').weaken fun found? s'' follows finds t same => ?_
          have still := (grows.trans follows.grows).assembly? there
          exact .forwarded still looked exported (finds t same)
        · exact ensures_pure fun _ impossible => by cases impossible

theorem ensures_definitionNamed (a : AssemblyId) (fullName : String) (s : Session) :
    L.Ensures (definitionNamed a fullName) s fun found? s' =>
      ∀ t, found? = some t → s'.Finds a fullName t :=
  ensures_definitionNamedWithin _ a fullName s

theorem ensures_requiredDefinition (a : AssemblyId) (fullName : String) (s : Session) :
    L.Ensures (requiredDefinition a fullName) s fun t s' => s'.Finds a fullName t := by
  unfold requiredDefinition
  refine (ensures_definitionNamed a fullName s).bind fun found? s' _ finds => ?_
  cases found? with
  | some t => exact ensures_pure (finds t rfl)
  | none => exact ensures_throw _

section
variable (t : TypeDefinition)

theorem safe_genericParams : L.Safe t.genericParams := by
  refine Safe.cell ?_ fun _ _ => L.told trivial
  exact (safe_liveAssembly t.id.assembly).bind fun _ => .lift _

theorem safe_genericScope : L.Safe t.genericScope :=
  (safe_genericParams t).bind fun _ => .pure _

theorem ensures_nestedTypes (s : Session) :
    L.Ensures t.nestedTypes s fun types s' => s'.value? (.nestedTypes t.id) = some types := by
  refine ensures_cell ?_
  refine (ensures_liveAssembly t.id.assembly _).bind fun assembly s' _ found => ?_
  obtain ⟨rfl, there⟩ := found
  refine (ensures_lift _).bind fun nesting s'' _ found => ?_
  obtain ⟨rfl, indexed⟩ := found
  refine (ensures_mapM (fun s' rid d => s'.value? (.definition ⟨t.id.assembly, rid⟩) = some d)
    (fun gains value => gains.values _ _ value) (ensures_definition t.id.assembly) _ _).weaken
    fun types later follows each => L.told ?_
  exact ⟨assembly, nesting, follows.grows.assembly? there, indexed, each⟩

theorem safe_nestedTypes : L.Safe t.nestedTypes := .of_ensures (ensures_nestedTypes t)

theorem ensures_genericArity (s : Session) :
    L.Ensures t.genericArity s fun arity s' => s'.HasArity t.id arity := by
  have safe : L.Safe t.genericArity := (safe_genericParams t).bind fun _ => .pure _
  exact fun sound => ⟨(safe s sound).1, fun _ _ ran => .of_genericArity ran⟩

theorem ensures_bind (args : List TypeNode) (s : Session) :
    L.Ensures (t.bind args) s fun b s' =>
      b = ⟨t.kind, t.id, args⟩ ∧ s'.HasArity t.id args.length := by
  unfold TypeDefinition.bind
  refine (ensures_genericArity t s).bind fun expected s' _ has => ?_
  dsimp only
  split
  · exact ensures_thrown _
  next same => exact ensures_pure ⟨rfl, Decidable.not_not.1 same ▸ has⟩

theorem ensures_bindOpen (s : Session) :
    L.Ensures t.bindOpen s fun b _ => ∃ args, b = ⟨t.kind, t.id, args⟩ :=
  (safe_genericParams t s).bind fun _ s' _ _ =>
    (ensures_bind t _ s').weaken fun _ _ _ made => ⟨_, made.1⟩

theorem safe_methods : L.Safe t.methods := by
  refine .of_ensures fun s => ensures_cell ?_
  refine (ensures_liveAssembly t.id.assembly _).bind fun assembly s' _ found => ?_
  obtain ⟨rfl, there⟩ := found
  refine (ensures_lift _).weaken fun methods s'' _ listed => L.told ?_
  obtain ⟨rfl, gives⟩ := listed
  exact ⟨assembly, t, there, rfl, gives⟩

end

theorem safe_method (a : AssemblyId) (rid : Nat) : L.Safe (method a rid) := by
  unfold method
  apply (safe_assembly a).bind
  intro assembly
  apply (Safe.lift _).bind
  intro owners
  split
  · exact .throw _
  · apply (safe_definition a _).bind
    intro t
    apply (safe_methods t).bind
    intro methods
    split
    · exact .pure _
    · exact .throw _

theorem safe_definition? (node : TypeNode) : L.Safe node.definition? := by
  unfold TypeNode.definition?
  split
  · exact (safe_liveType _).bind fun _ => .pure _
  · exact .pure _

theorem ensures_primitive (a : AssemblyId) (p : Primitive) (s : Session) :
    L.Ensures (primitive a p) s fun node s' => s'.value? (.primitive a p) = some node := by
  refine ensures_cell ?_
  refine (safe_coreLibrary a _).bind fun core s' _ _ => ?_
  refine (ensures_definitionNamed core p.fullName s').bind fun found? s' _ _ => ?_
  cases found? with
  | some t =>
    refine (ensures_bind t [] s').bind fun b s' _ made => ensures_pure (L.told ?_)
    obtain ⟨rfl, has⟩ := made
    exact ⟨t, has, rfl⟩
  | none => exact (safe_assembly core s').bind fun _ _ _ _ => ensures_throw _

theorem ensures_typeReferenceBy {a : AssemblyId} {assembly : Assembly}
    {outer : Nat → Binding TypeDefinition}
    (refers : ∀ rid s, L.Ensures (outer rid) s fun t s' => s'.value? (.typeRef a rid) = some t)
    (rid : Nat) {s : Session} (there : s.context.assembly? a = some assembly) :
    L.Ensures (typeReferenceBy a assembly outer rid) s fun t s' => s'.Tells (.typeRef a rid) t := by
  unfold typeReferenceBy
  refine (ensures_lift _).bind fun row s' _ found => ?_
  obtain ⟨rfl, at_⟩ := found
  refine (ensures_lift _).bind fun name s'' _ found => ?_
  obtain ⟨rfl, named⟩ := found
  refine (ensures_lift _).bind fun nameSpace s' _ found => ?_
  obtain ⟨rfl, spaced⟩ := found
  dsimp only
  have tells {t : TypeDefinition} {later : Session} (grows : s'.Grows later)
      (leads : later.Leads a assembly (.ofRow row) t) : later.Tells (.typeRef a rid) t :=
    ⟨assembly, row, grows.assembly? there, at_, leads⟩
  split
  next inner =>
    refine (refers _ s').bind fun outer s'' first around => ?_
    refine (ensures_nestedTypes outer s'').bind fun types later second inside => ?_
    split
    next found =>
      have around := second.values _ _ around
      exact ensures_pure (tells (first.trans second) (.inner inner named around inside found))
    next => exact ensures_throw _
  next outer =>
  have outer : (TypeRefRow.ofRow row).isInner = false := Bool.eq_false_iff.2 outer
  have homed {home : AssemblyId} {between : Session} (grows : s'.Grows between)
      (homes : between.Homes a (TypeRefRow.ofRow row).scope home) :
      L.Ensures (requiredDefinition home (qualify nameSpace name)) between fun t later =>
        later.Tells (.typeRef a rid) t :=
    (ensures_requiredDefinition home _ between).weaken fun t later follows found =>
      tells (grows.trans follows.grows)
        (.outermost outer named spaced (homes.gained follows.grows.gains) found)
  split
  next referenced =>
    refine (ensures_reference a _ s').bind fun home between grows value => ?_
    exact homed grows (by rw [Session.Homes, if_pos referenced]; exact value)
  next own =>
    exact homed (.refl s') (by rw [Session.Homes, if_neg own])

theorem ensures_typeReferenceWithin (a : AssemblyId) (levels rid : Nat) (s : Session) :
    L.Ensures (typeReferenceWithin a endless levels rid) s fun t s' =>
      s'.value? (.typeRef a rid) = some t := by
  induction levels generalizing rid s with
  | zero => exact ensures_throw _
  | succ levels ih =>
    unfold typeReferenceWithin
    refine (ensures_assembly a s).bind fun assembly s' _ found => ?_
    obtain ⟨rfl, there⟩ := found
    dsimp only
    split
    · exact ensures_thrown _
    · have entered := (s'.gains_enter (.typeRef a rid)).assembly? there
      refine ensures_cell ?_
      exact (ensures_typeReferenceBy ih rid entered).weaken fun _ _ _ tells => L.told tells

theorem ensures_typeReference (a : AssemblyId) (rid : Nat) (s : Session) :
    L.Ensures (typeReference a rid) s fun t s' => s'.value? (.typeRef a rid) = some t :=
  (ensures_assembly a s).bind fun _ s' _ _ => ensures_typeReferenceWithin a _ rid s'

theorem safe_specification (a : AssemblyId) (rid : Nat) : L.Safe (specification a rid) :=
  (safe_assembly a).bind fun _ => (Safe.lift _).bind fun _ => (Safe.lift _).bind fun _ => .lift _

theorem safe_required {x : Binding (Option TypeNode)} {e : Error} (safe : L.Safe x) :
    L.Safe (do
      let some node ← x | throw e
      return node) := by
  apply safe.bind
  intro node?
  split
  · exact .pure _
  · exact .throw _

theorem safe_typeWithin (a : AssemblyId) (scope : GenericScope)
    {named : Token → Binding (Option TypeNode)} (names : ∀ token, L.Safe (named token))
    (levels : Nat) (signature : TypeSignature) :
    L.Safe (typeWithin a scope named levels signature) := by
  induction levels generalizing signature with
  | zero => exact .throw _
  | succ levels ih =>
    unfold typeWithin
    split
    · exact .of_ensures (ensures_primitive a _)
    · exact .pure _
    · exact (ih _).bind fun _ => .pure _
    · exact ih _
    · exact ih _
    · exact safe_required (names _)
    · exact safe_required (names _)
    · exact .lift _
    · exact .lift _
    · exact (ih _).bind fun _ => .pure _
    · exact (ih _).bind fun _ => .pure _
    · apply (ih _).bind
      intro node
      apply (safe_definition? node).bind
      intro t?
      split
      next t =>
        apply (Safe.mapM ih _).bind
        intro args
        exact (Safe.of_ensures (ensures_bind t args)).bind fun _ => .pure _
      · exact .throw _
    · exact .pure _

theorem ensures_namedTypeBy (a : AssemblyId) {specified : Token → Binding (Option TypeNode)}
    (specifies : ∀ token s, L.Ensures (specified token) s fun node? _ => ∃ node, node? = some node)
    (token : Token) (s : Session) :
    L.Ensures (namedTypeBy a (typeReference a) specified token) s fun node? s' =>
      s'.Names a token node? := by
  unfold namedTypeBy
  split
  next null => exact ensures_pure (.null null)
  split
  next table =>
    refine (ensures_definition a token.row s).bind fun t s' _ value => ?_
    refine (ensures_bindOpen t s').bind fun b s'' grows made => ensures_pure ?_
    obtain ⟨args, rfl⟩ := made
    exact .bound args (.definition table (grows.values _ _ value))
  next table =>
    refine (ensures_typeReference a token.row s).bind fun t s' _ value => ?_
    refine (ensures_bindOpen t s').bind fun b s'' grows made => ensures_pure ?_
    obtain ⟨args, rfl⟩ := made
    exact .bound args (.reference table (grows.values _ _ value))
  next table =>
    refine (specifies token s).weaken fun node? s' _ spells => ?_
    obtain ⟨node, rfl⟩ := spells
    exact .spelled node table
  · exact ensures_throw _

theorem ensures_namedTypeWithin (a : AssemblyId) (scope : GenericScope) (specs : Nat)
    (token : Token) (s : Session) :
    L.Ensures (namedTypeWithin a scope (typeReference a) endless specs token) s fun node? s' =>
      s'.Names a token node? := by
  induction specs generalizing token s with
  | zero => exact ensures_namedTypeBy a (fun _ _ => ensures_throw _) token s
  | succ specs ih =>
    refine ensures_namedTypeBy a (fun token s => ?_) token s
    refine (safe_specification a _ s).bind fun signature s' _ _ => ?_
    have names token : L.Safe (namedTypeWithin a scope (typeReference a) endless specs token) :=
      .of_ensures (ih token)
    refine (safe_typeWithin a scope names _ signature s').bind fun node s'' _ _ => ?_
    exact ensures_pure ⟨node, rfl⟩

theorem ensures_namedType (a : AssemblyId) (token : Token) (scope : GenericScope) (s : Session) :
    L.Ensures (namedType a token scope) s fun node? s' => s'.Names a token node? :=
  (ensures_assembly a s).bind fun _ s' _ _ => ensures_namedTypeWithin a scope _ token s'

theorem safe_type (a : AssemblyId) (signature : TypeSignature) (scope : GenericScope) :
    L.Safe (type a signature scope) :=
  (safe_assembly a).bind fun _ => safe_typeWithin a scope
    (fun token => .of_ensures (ensures_namedTypeWithin a scope _ token)) _ signature

theorem ensures_base {t : TypeDefinition} {s : Session}
    (genuine : s.value? (.definition t.id) = some t) :
    L.Ensures t.base s fun b? s' => s'.value? (.base t.id) = some b? := by
  refine ensures_cell ?_
  split
  next null =>
    exact ensures_pure (L.told ⟨t, genuine, .root null⟩)
  refine (safe_liveAssembly _ _).bind fun assembly s' grows _ => ?_
  refine (safe_genericScope t s').bind fun scope s'' onward _ => ?_
  refine (ensures_namedType _ _ scope s'').bind fun node? later further names => ?_
  have kept := ((grows.trans onward).trans further).values _ _ genuine
  cases node? with
  | none => exact ensures_pure (L.told ⟨t, kept, .base names⟩)
  | some node =>
    dsimp only
    split
    next b bound =>
      refine ensures_pure (L.told ⟨t, kept, .base ?_⟩)
      cases node with
      | bound kind definition args =>
        cases bound
        exact names
      | _ => cases bound
    · exact (Safe.view _ _).bind fun _ _ _ _ => ensures_throw _

end Ledger

end CliMetadata
