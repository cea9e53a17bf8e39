import CliMetadata.Proofs.Binding.Inquiry

set_option autoImplicit false

namespace CliMetadata

def Token.NamesSpec (token : Token) : Prop :=
  token.isNull = false ∧ token.row ≠ 0 ∧ token.table? = some .typeSpec

namespace Binding

/-- What happens to the tokens that are come to beyond the cut. -/
abbrev Beyond := Token → Binding (Option TypeNode)

theorem rid_le_of_specification {a : AssemblyId} {rid : Nat} {found : Assembly}
    {signature : TypeSignature} {s s' : Session} (there : s.context.assembly? a = some found)
    (spells : specification a rid s = .ok signature s') :
    rid ≤ found.module.tables.rows .typeSpec := by
  obtain ⟨assembly, between, first, rest⟩ := ok_of_bind_ok spells
  rw [assembly_eq, there] at first
  cases first
  obtain ⟨row, _, read, -⟩ := ok_of_bind_ok rest
  cases found? : found.module.rowAt .typeSpec rid with
  | ok row => exact (Module.within_of_rowAt found?).2
  | error e =>
    rw [found?] at read
    cases read

def rowInquiry (a : AssemblyId) (scope : GenericScope) (token : Token) :
    Inquiry (Option TypeNode) :=
  .step (specification a token.row) (settles_specification a token.row) fun signature =>
    (typeInquiry a scope (maxTypeDepth + 1) signature).map some

section
variable {a : AssemblyId} {scope : GenericScope} {referenced : Nat → Binding TypeDefinition}
  {token : Token} {specs : Nat} {beyond : Beyond}

theorem namedTypeBy_spec (names : token.NamesSpec) (specified : Beyond) :
    namedTypeBy a referenced specified token = specified token := by
  obtain ⟨here, row, table⟩ := names
  simp [namedTypeBy, here, row, table]

theorem namedTypeBy_other (other : ¬token.NamesSpec) (specified specified' : Beyond) :
    namedTypeBy a referenced specified token = namedTypeBy a referenced specified' token := by
  unfold namedTypeBy
  split
  · rfl
  next here =>
    simp only [Bool.or_eq_true, beq_iff_eq, not_or, Bool.not_eq_true] at here
    split
    · rfl
    · rfl
    next table => exact absurd ⟨here.1, here.2, table⟩ other
    · rfl

theorem namedTypeBy_congr {referenced' : Nat → Binding TypeDefinition} {s : Session}
    (agree : ∀ rid, referenced rid s = referenced' rid s) (specified : Beyond) :
    namedTypeBy a referenced specified token s = namedTypeBy a referenced' specified token s := by
  unfold namedTypeBy
  split
  · rfl
  cases token.table? with
  | none => rfl
  | some table =>
    cases table with
    | typeRef => exact bind_congr_left (agree _) _
    | _ => rfl

theorem namedTypeWithin_zero (names : token.NamesSpec) :
    namedTypeWithin a scope referenced beyond 0 token = beyond token :=
  namedTypeBy_spec names beyond

theorem namedTypeWithin_succ (names : token.NamesSpec) :
    namedTypeWithin a scope referenced beyond (specs + 1) token =
      (rowInquiry a scope token).answered (namedTypeWithin a scope referenced beyond specs) := by
  simp only [rowInquiry, Inquiry.answered, Inquiry.answered_map, answered_typeInquiry,
    map_eq_pure_bind]
  rw [namedTypeWithin, namedTypeBy_spec names]

theorem namedTypeWithin_by (a : AssemblyId) (scope : GenericScope)
    (referenced : Nat → Binding TypeDefinition) (beyond : Beyond) (specs : Nat) :
    ∃ specified, namedTypeWithin a scope referenced beyond specs =
      namedTypeBy a referenced specified := by
  cases specs with
  | zero => exact ⟨beyond, funext fun _ => rfl⟩
  | succ specs => exact ⟨_, funext fun _ => rfl⟩

theorem namedTypeWithin_other (other : ¬token.NamesSpec) (beyond' : Beyond) (specs' : Nat) :
    namedTypeWithin a scope referenced beyond specs token =
      namedTypeWithin a scope referenced beyond' specs' token := by
  obtain ⟨specified, one⟩ := namedTypeWithin_by a scope referenced beyond specs
  obtain ⟨specified', another⟩ := namedTypeWithin_by a scope referenced beyond' specs'
  rw [one, another]
  exact namedTypeBy_other other specified specified'

theorem namedTypeWithin_add (more : Nat) :
    namedTypeWithin a scope referenced (namedTypeWithin a scope referenced beyond more) specs =
      namedTypeWithin a scope referenced beyond (specs + more) := by
  induction specs with
  | zero =>
    funext token
    by_cases names : token.NamesSpec
    · rw [namedTypeWithin_zero names, Nat.zero_add]
    · exact namedTypeWithin_other names _ _
  | succ specs ih =>
    funext token
    by_cases names : token.NamesSpec
    · rw [namedTypeWithin_succ names, Nat.succ_add, namedTypeWithin_succ names, ih]
    · exact namedTypeWithin_other names _ _

end

/-- The outcome is the same whatever happens beyond. -/
def Decided {α : Type} (x : Beyond → Binding α) (s : Session)
    (result : EStateM.Result Error Session α) : Prop :=
  ∀ beyond, x beyond s = result

def LeftOpen {α : Type} (x : Beyond → Binding α) (s : Session) : Prop :=
  ∀ e, ∃ s', x (fun _ => throw e) s = .error e s'

section
variable {α β : Type} {x : Beyond → Binding α} {s : Session}
  {result : EStateM.Result Error Session α}

theorem Decided.not_leftOpen (decided : Decided x s result) : ¬LeftOpen x s := by
  intro isOpen
  obtain ⟨_, one⟩ := isOpen .exhausted
  obtain ⟨_, another⟩ := isOpen .empty
  rw [decided] at one another
  rw [one] at another
  cases another

theorem LeftOpen.bind (isOpen : LeftOpen x s) (f : Beyond → α → Binding β) :
    LeftOpen (fun beyond => x beyond >>= f beyond) s := by
  intro e
  obtain ⟨s', failed⟩ := isOpen e
  exact ⟨s', bind_after_error failed _⟩

theorem decided_or_leftOpen_answered {named : Beyond → Token → Binding (Option TypeNode)}
    (questions : ∀ token s,
      (∃ result, Decided (named · token) s result) ∨ LeftOpen (named · token) s)
    (i : Inquiry α) (s : Session) :
    (∃ result, Decided (fun beyond => i.answered (named beyond)) s result) ∨
      LeftOpen (fun beyond => i.answered (named beyond)) s := by
  induction i generalizing s with
  | done value => exact .inl ⟨_, fun _ => rfl⟩
  | step x settles next ih =>
    cases ran : x s with
    | ok v s₁ => simpa only [Decided, LeftOpen, Inquiry.answered, bind_after_ok ran] using ih v s₁
    | error e s₁ => exact .inl ⟨_, fun _ => bind_after_error ran _⟩
  | ask token next ih =>
    rcases questions token s with ⟨result, decided⟩ | isOpen
    · cases result with
      | ok v s₁ =>
        simpa only [Decided, LeftOpen, Inquiry.answered, bind_after_ok (decided _)] using ih v s₁
      | error e s₁ => exact .inl ⟨_, fun _ => bind_after_error (decided _) _⟩
    · exact .inr (isOpen.bind _)

end

section
variable {a : AssemblyId} {scope : GenericScope} {referenced : Nat → Binding TypeDefinition}

/-- What a token comes to before more than `specs` rows have led to each other. -/
def Comes (a : AssemblyId) (scope : GenericScope) (referenced : Nat → Binding TypeDefinition)
    (specs : Nat) (token : Token) (s : Session)
    (result : EStateM.Result Error Session (Option TypeNode)) : Prop :=
  Decided (namedTypeWithin a scope referenced · specs token) s result

theorem comes_or_leftOpen (specs : Nat) (token : Token) (s : Session) :
    (∃ result, Comes a scope referenced specs token s result) ∨
      LeftOpen (namedTypeWithin a scope referenced · specs token) s := by
  induction specs generalizing token s with
  | zero =>
    by_cases names : token.NamesSpec
    · right
      exact fun e => ⟨s, congrFun (namedTypeWithin_zero names) s⟩
    · exact .inl ⟨_, fun _ => congrFun (namedTypeWithin_other names endless 0) s⟩
  | succ specs ih =>
    by_cases names : token.NamesSpec
    · simp only [Comes, namedTypeWithin_succ names]
      exact decided_or_leftOpen_answered ih _ s
    · exact .inl ⟨_, fun _ => congrFun (namedTypeWithin_other names endless 0) s⟩

variable {specs : Nat} {token : Token} {s : Session}
  {result : EStateM.Result Error Session (Option TypeNode)}

theorem Comes.mono (comes : Comes a scope referenced specs token s result) (more : Nat) :
    Comes a scope referenced (specs + more) token s result := by
  intro beyond
  rw [← comes (namedTypeWithin a scope referenced beyond more)]
  exact congrFun (congrFun (namedTypeWithin_add more).symm token) s

theorem Comes.unique {specs' : Nat} {result' : EStateM.Result Error Session (Option TypeNode)}
    (comes : Comes a scope referenced specs token s result)
    (comes' : Comes a scope referenced specs' token s result') : result = result' := by
  have one := comes.mono specs' endless
  have another := comes'.mono specs endless
  rw [Nat.add_comm] at another
  exact one.symm.trans another

end

end Binding

end CliMetadata
