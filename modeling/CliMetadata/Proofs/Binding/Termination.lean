import CliMetadata.Proofs.Binding.Cycles
import CliMetadata.Proofs.Binding.TypeReference
import CliMetadata.Proofs.Storage.Image

set_option autoImplicit false

namespace CliMetadata

inductive TypeRequest
  | ofToken (token : Token)
  | ofSignature (signature : TypeSignature)

namespace TypeRequest

open Binding

section
variable (a : AssemblyId) (scope : GenericScope)

def resolveBy (named : Token → Binding (Option TypeNode)) :
    TypeRequest → Binding (Option TypeNode)
  | .ofToken token => do
    let _ ← assembly a
    named token
  | .ofSignature signature => do
    let _ ← assembly a
    return some (← typeWithin a scope named (maxTypeDepth + 1) signature)

def resolveWithin (reference : Nat → Binding TypeDefinition) (beyond : Beyond) (levels : Nat)
    (request : TypeRequest) : Binding (Option TypeNode) :=
  request.resolveBy a scope
    (namedTypeWithin a scope (typeReferenceWithin a reference levels) beyond levels)

def resolve : TypeRequest → Binding (Option TypeNode)
  | .ofToken token => namedType a token scope
  | .ofSignature signature => do return some (← type a signature scope)

/-- Resolution ends: it comes to its result within some number of levels, and what would happen
beyond them does not matter. -/
def Ends (request : TypeRequest) (s : Session) : Prop :=
  ∃ levels, ∀ reference beyond,
    request.resolveWithin a scope reference beyond levels s = request.resolve a scope s

def inquiry : TypeRequest → Inquiry (Option TypeNode)
  | .ofToken token => .step (assembly a) (settles_assembly a) fun _ => .ask token .done
  | .ofSignature signature => .step (assembly a) (settles_assembly a) fun _ =>
    (typeInquiry a scope (maxTypeDepth + 1) signature).map some

/-- Resolution of the request in a session comes to a token in a later session, which the request
asks for or to which the rows lead that it asks for. -/
def Visits (request : TypeRequest) (s : Session) (p : Token × Session) : Prop :=
  ∃ q : Token × Session, (request.inquiry a scope).Asks (Answers a scope) s q.1 q.2 ∧
    Relation.ReflTransGen (LeadsTo a scope) q p

end

section
variable {a : AssemblyId} {scope : GenericScope} {request : TypeRequest} {s : Session}

theorem resolveBy_eq (named : Token → Binding (Option TypeNode)) :
    request.resolveBy a scope named = (request.inquiry a scope).answered named := by
  cases request with
  | ofToken token =>
    simp only [resolveBy, inquiry, Inquiry.answered, bind_pure]
  | ofSignature signature =>
    simp only [resolveBy, inquiry, Inquiry.answered, Inquiry.answered_map, answered_typeInquiry,
      map_eq_pure_bind]

theorem decided_of_ends (ends : request.Ends a scope s) :
    ∃ specs, Decided (fun beyond => (request.inquiry a scope).answered
      (namedTypeWithin a scope (typeReference a) beyond specs)) s (request.resolve a scope s) := by
  obtain ⟨levels, ends⟩ := ends
  refine ⟨levels, fun beyond => ?_⟩
  rw [← ends (typeReference a) beyond, resolveWithin, typeReferenceWithin_typeReference,
    resolveBy_eq]

theorem namedTypeWithin_congr {referenced : Nat → Binding TypeDefinition} {beyond : Beyond}
    (settles : ∀ token, Settles (beyond token))
    (agrees : ∀ rid later, s.Grows later → referenced rid later = typeReference a rid later)
    (specs : Nat) (token : Token) {later : Session} (grown : s.Grows later) :
    namedTypeWithin a scope referenced beyond specs token later =
      namedTypeWithin a scope (typeReference a) beyond specs token later := by
  induction specs generalizing token later with
  | zero => exact namedTypeBy_congr (fun rid => agrees rid later grown) beyond
  | succ specs ih =>
    by_cases names : token.NamesSpec
    · rw [namedTypeWithin_succ names, namedTypeWithin_succ names]
      exact Inquiry.answered_congr
        (fun token => (settles_namedTypeWithin settles specs token).growing)
        fun token last further => ih token (grown.trans further)
    · have left := @namedTypeWithin_other a scope referenced _ (specs + 1) beyond names beyond 0
      have right := @namedTypeWithin_other a scope (typeReference a) _ (specs + 1) beyond names
        beyond 0
      rw [left, right]
      exact namedTypeBy_congr (fun rid => agrees rid later grown) beyond

theorem decided_more {specs : Nat} {result : EStateM.Result Error Session (Option TypeNode)}
    (decided : Decided (fun beyond => (request.inquiry a scope).answered
      (namedTypeWithin a scope (typeReference a) beyond specs)) s result) (more : Nat) :
    Decided (fun beyond => (request.inquiry a scope).answered
      (namedTypeWithin a scope (typeReference a) beyond (specs + more))) s result := by
  intro beyond
  rw [← decided (namedTypeWithin a scope (typeReference a) beyond more)]
  dsimp only
  rw [namedTypeWithin_add]

theorem resolve_eq {found : Assembly} (there : s.context.assembly? a = some found) :
    request.resolve a scope s = (request.inquiry a scope).answered
      (namedTypeWithin a scope (typeReference a) endless (specLimit found)) s := by
  have first : assembly a s = .ok found s := assembly_loaded there
  rw [← resolveBy_eq]
  cases request with
  | ofToken token =>
    rw [resolve, namedType, resolveBy, bind_after_ok first, bind_after_ok first]
  | ofSignature signature =>
    rw [resolve, type, resolveBy, bind_assoc, bind_after_ok first, bind_after_ok first]

theorem ends_of_decided {found : Assembly} (there : s.context.assembly? a = some found)
    {specs : Nat} (decided : Decided (fun beyond => (request.inquiry a scope).answered
      (namedTypeWithin a scope (typeReference a) beyond specs)) s (request.resolve a scope s)) :
    request.Ends a scope s := by
  have deeper := decided_more decided (found.module.tables.rows .typeRef + 1)
  obtain ⟨levels, sum⟩ : ∃ levels, specs + (found.module.tables.rows .typeRef + 1) = levels :=
    ⟨_, rfl⟩
  rw [sum] at deeper
  refine ⟨levels, fun reference => ?_⟩
  have enough : ∀ rid later, s.Grows later →
      typeReferenceWithin a reference levels rid later = typeReference a rid later := by
    intro rid later grown
    apply typeReference_of_enough (grown.assembly? there)
    have all := idleReferences_le a (found.module.tables.rows .typeRef) later
    omega
  have failing : ∀ e, (request.inquiry a scope).answered (namedTypeWithin a scope
      (typeReferenceWithin a reference levels) (fun _ => throw e) levels) s =
        request.resolve a scope s := by
    intro e
    rw [← deeper (fun _ => throw e)]
    apply Inquiry.answered_congr
    · exact fun token => (settles_namedTypeWithin (fun _ => .throw e) levels token).growing
    · exact fun token later grown =>
        namedTypeWithin_congr (fun _ => .throw e) enough levels token grown
  rcases decided_or_leftOpen_answered (comes_or_leftOpen levels) (request.inquiry a scope) s with
    ⟨result, same⟩ | isOpen
  · intro beyond
    rw [resolveWithin, resolveBy_eq, ← failing .exhausted]
    exact (same beyond).trans (same _).symm
  · have again : LeftOpen (fun beyond => (request.inquiry a scope).answered
        (namedTypeWithin a scope (typeReference a) beyond levels)) s := by
      intro e
      obtain ⟨s', failed⟩ := isOpen e
      exact ⟨s', (deeper _).trans ((failing e).symm.trans failed)⟩
    exact absurd again deeper.not_leftOpen

theorem acyclic_of_ends (ends : request.Ends a scope s) {p q : Token × Session}
    (visits : request.Visits a scope s p) (leads : Relation.TransGen (LeadsTo a scope) p q) :
    q.1 ≠ p.1 := by
  obtain ⟨specs, decided⟩ := decided_of_ends ends
  obtain ⟨start, asks, follows⟩ := visits
  have comes : ∃ specs result, Comes a scope (typeReference a) specs p.1 p.2 result := by
    obtain ⟨result, comes⟩ := comes_of_asks asks decided
    rcases Relation.reflTransGen_iff_eq_or_transGen.1 follows with rfl | further
    · exact ⟨specs, result, comes⟩
    · obtain ⟨fewer, result, -, comes⟩ := comes_of_transGen further comes
      exact ⟨fewer, result, comes⟩
  obtain ⟨_, _, comes⟩ := comes
  exact not_cyclic_of_comes comes leads

/-- Resolution ends if and only if no row of `TypeSpec` that it comes to leads back to itself. -/
theorem ends_iff_acyclic (a : AssemblyId) (scope : GenericScope) (request : TypeRequest)
    (s : Session) :
    request.Ends a scope s ↔
      ∀ p q, request.Visits a scope s p → Relation.TransGen (LeadsTo a scope) p q → q.1 ≠ p.1 := by
  constructor
  · exact fun ends p q => acyclic_of_ends ends
  intro acyclic
  cases there : s.context.assembly? a with
  | none =>
    have missing : assembly a s = .error .entityDropped s := by rw [assembly_eq, there]
    refine ⟨0, fun reference beyond => ?_⟩
    cases request with
    | ofToken token =>
      rw [resolve, namedType, resolveWithin, resolveBy, bind_after_error missing,
        bind_after_error missing]
    | ofSignature signature =>
      rw [resolve, type, resolveWithin, resolveBy, bind_assoc, bind_after_error missing,
        bind_after_error missing]
  | some found =>
    have asked : ∀ token s', (request.inquiry a scope).Asks (Answers a scope) s token s' →
        ∃ result, Comes a scope (typeReference a) (specLimit found) token s' result := by
      intro token s' asks
      by_contra never
      push Not at never
      have grown := (asks_again asks (.refl s')).1
      obtain ⟨p, q, follows, leads, same⟩ :=
        cyclic_of_not_comes (p := (token, s')) (grown.assembly? there) never
      exact acyclic p q ⟨(token, s'), asks, follows⟩ leads same
    obtain ⟨result, decided⟩ := decided_of_asked asked
    have answer : request.resolve a scope s = result := (resolve_eq there).trans (decided endless)
    rw [← answer] at decided
    exact ends_of_decided there decided

theorem not_ends_of_self {token : Token} {found : Assembly} {s' : Session}
    (names : token.NamesSpec) (there : s.context.assembly? a = some found)
    (spells : specification a token.row s = .ok (.classType token) s') :
    ¬(ofToken token).Ends a scope s := by
  intro ends
  have first : assembly a s = .ok found s := assembly_loaded there
  have asks : ((ofToken token).inquiry a scope).Asks (Answers a scope) s token s :=
    .step first .here
  have leads : LeadsTo a scope (token, s) (token, s') := ⟨names, .step spells .here⟩
  exact acyclic_of_ends ends ⟨(token, s), asks, .refl⟩ (.single leads) rfl

end

/-- The metadata of a module without types, whose one row of `TypeSpec` is the class that this same
row names. -/
def circular : ByteArray := image [
  ("#~", tableStream [
    (.module, [[0, 0, 0, 0, 0, 0, 0, 0, 0, 0]]),
    (.typeSpec, [[1, 0]])]),
  ("#Blob", [0, 2, 0x12, 6])]

def circularSpecification : Binding TypeSignature := do
  let a ← loading (Loading.loadFrom (.image circular))
  specification a 1

def isCircular : EStateM.Result Error Session TypeSignature → Bool
  | .ok (.classType token) _ => token = ⟨0x1B000001⟩
  | _ => false

/-- The module loads, and the type that its row spells is never resolved. -/
theorem circular_not_ends : ∃ a s,
    loading (Loading.loadFrom (.image circular)) (.new none 0) = .ok a s ∧
      ¬(ofToken ⟨0x1B000001⟩).Ends a {} s := by
  have spelled : isCircular (circularSpecification (.new none 0)) = true := by decide +kernel
  cases ran : circularSpecification (.new none 0) with
  | error e s' => rw [ran] at spelled; cases spelled
  | ok signature s' =>
    rw [ran] at spelled
    obtain ⟨a, s, loaded, spells⟩ := ok_of_bind_ok ran
    refine ⟨a, s, loaded, ?_⟩
    cases signature with
    | classType token =>
      obtain rfl : token = ⟨0x1B000001⟩ := of_decide_eq_true spelled
      obtain ⟨found, between, first, -⟩ := ok_of_bind_ok spells
      have there : s.context.assembly? a = some found := by
        rw [assembly_eq] at first
        split at first
        · cases first; assumption
        · cases first
      exact not_ends_of_self ⟨by decide, by decide, by decide⟩ there spells
    | _ => cases spelled

end TypeRequest

end CliMetadata
