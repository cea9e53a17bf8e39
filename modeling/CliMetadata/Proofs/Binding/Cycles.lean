import CliMetadata.Proofs.Binding.Specification
import CliMetadata.Proofs.Token
import Mathlib.Data.Fintype.Pigeonhole
import Mathlib.Logic.Relation

set_option autoImplicit false

namespace CliMetadata

theorem Token.NamesSpec.ext_row {token token' : Token} (names : token.NamesSpec)
    (names' : token'.NamesSpec) (same : token.row = token'.row) : token = token' := by
  rw [← Token.ofBits_row names.2.2, ← Token.ofBits_row names'.2.2, same]

namespace Binding

section
variable (a : AssemblyId) (scope : GenericScope)

def Answers (token : Token) (s : Session) (node : Option TypeNode) (s' : Session) : Prop :=
  ∃ specs, Comes a scope (typeReference a) specs token s (.ok node s')

/-- The resolution of a row in a session comes to another token in a later session. -/
def LeadsTo (p q : Token × Session) : Prop :=
  p.1.NamesSpec ∧ (rowInquiry a scope p.1).Asks (Answers a scope) p.2 q.1 q.2

end

section
variable {a : AssemblyId} {scope : GenericScope}

theorem settles_namedTypeBy {specified : Beyond} (settles : ∀ token, Settles (specified token))
    (token : Token) : Settles (namedTypeBy a (typeReference a) specified token) := by
  unfold namedTypeBy
  split
  · exact .pure none
  split
  · exact (settles_definition a _).bind fun t => t.settles_bindOpen.bind fun _ => .pure _
  · exact (settles_typeReference a _).bind fun t => t.settles_bindOpen.bind fun _ => .pure _
  · exact settles token
  · exact .throw _

theorem settles_namedTypeWithin {beyond : Beyond} (settles : ∀ token, Settles (beyond token))
    (specs : Nat) (token : Token) :
    Settles (namedTypeWithin a scope (typeReference a) beyond specs token) := by
  induction specs generalizing token with
  | zero => exact settles_namedTypeBy settles token
  | succ specs ih =>
    by_cases names : token.NamesSpec
    · rw [namedTypeWithin_succ names]
      exact Inquiry.settles_answered ih _
    · rw [namedTypeWithin_other names beyond 0]
      exact settles_namedTypeBy settles token

theorem Answers.again {token : Token} {s s' later : Session} {node : Option TypeNode}
    (answers : Answers a scope token s node s') (grown : s'.Grows later) :
    s.Grows s' ∧ Answers a scope token later node later := by
  obtain ⟨specs, comes⟩ := answers
  have settles := @settles_namedTypeWithin a scope endless (fun _ => .throw _) specs token
  have now := settles.again (comes endless) grown
  refine ⟨settles.growing (comes endless), specs, ?_⟩
  rcases @comes_or_leftOpen a scope (typeReference a) specs token later with
    ⟨result, comes'⟩ | isOpen
  · rwa [(comes' endless).symm.trans now] at comes'
  · obtain ⟨_, failed⟩ := isOpen .exhausted
    cases now.symm.trans failed

variable {α : Type} {i : Inquiry α} {token : Token} {s s' : Session}

theorem asks_again {later : Session} (asks : i.Asks (Answers a scope) s token s')
    (grown : s'.Grows later) : s.Grows s' ∧ i.Asks (Answers a scope) later token later := by
  induction asks with
  | here => exact ⟨.refl _, .here⟩
  | @step β x settles next v s s₁ s' token ran asks ih =>
    obtain ⟨rest, again⟩ := ih grown
    exact ⟨(settles.growing ran).trans rest, .step (settles.again ran (rest.trans grown)) again⟩
  | ask answers asks ih =>
    obtain ⟨rest, again⟩ := ih grown
    obtain ⟨first, answers'⟩ := answers.again (rest.trans grown)
    exact ⟨first.trans rest, .ask answers' again⟩

end

section
variable {a : AssemblyId} {scope : GenericScope} {α : Type} {i : Inquiry α} {s : Session}

theorem comes_of_asks {specs : Nat} {result : EStateM.Result Error Session α} {token : Token}
    {s' : Session} (asks : i.Asks (Answers a scope) s token s')
    (decided : Decided
      (fun beyond => i.answered (namedTypeWithin a scope (typeReference a) beyond specs)) s
      result) :
    ∃ result, Comes a scope (typeReference a) specs token s' result := by
  induction asks with
  | here =>
    rcases comes_or_leftOpen specs _ _ with comes | isOpen
    · exact comes
    · exact absurd (isOpen.bind _) decided.not_leftOpen
  | step ran asks ih =>
    apply ih
    intro beyond
    rw [← decided beyond]
    dsimp only
    rw [Inquiry.answered, bind_after_ok ran]
  | @ask asked token next v s s₁ s' answers asks ih =>
    rcases comes_or_leftOpen specs asked s with ⟨result', comes⟩ | isOpen
    · obtain ⟨specs', comes'⟩ := answers
      rw [comes.unique comes'] at comes
      apply ih
      intro beyond
      rw [← decided beyond]
      dsimp only
      rw [Inquiry.answered, bind_after_ok (comes beyond)]
    · exact absurd (isOpen.bind _) decided.not_leftOpen

theorem decided_of_asked {specs : Nat}
    (asked : ∀ token s', i.Asks (Answers a scope) s token s' →
      ∃ result, Comes a scope (typeReference a) specs token s' result) :
    ∃ result, Decided
      (fun beyond => i.answered (namedTypeWithin a scope (typeReference a) beyond specs)) s
      result := by
  induction i generalizing s with
  | done value => exact ⟨_, fun _ => rfl⟩
  | step x settles next ih =>
    cases ran : x s with
    | error e s₁ => exact ⟨_, fun _ => bind_after_error ran _⟩
    | ok v s₁ =>
      obtain ⟨result, decided⟩ := ih v fun token s' asks => asked token s' (.step ran asks)
      exact ⟨result, fun beyond => (bind_after_ok ran _).trans (decided beyond)⟩
  | ask token next ih =>
    obtain ⟨result, comes⟩ := asked token s .here
    cases result with
    | error e s₁ => exact ⟨_, fun _ => bind_after_error (comes _) _⟩
    | ok v s₁ =>
      obtain ⟨result, decided⟩ := ih v fun token' s' asks =>
        asked token' s' (.ask ⟨specs, comes⟩ asks)
      exact ⟨result, fun beyond => (bind_after_ok (comes beyond) _).trans (decided beyond)⟩

end

section
variable {a : AssemblyId} {scope : GenericScope} {p q : Token × Session}

theorem LeadsTo.again {later : Session} (leads : LeadsTo a scope p q) (grown : q.2.Grows later) :
    p.2.Grows q.2 ∧ LeadsTo a scope (p.1, later) (q.1, later) := by
  obtain ⟨before, again⟩ := asks_again leads.2 grown
  exact ⟨before, leads.1, again⟩

theorem LeadsTo.comes {specs : Nat} {result : EStateM.Result Error Session (Option TypeNode)}
    (leads : LeadsTo a scope p q) (comes : Comes a scope (typeReference a) specs p.1 p.2 result) :
    ∃ fewer result, fewer < specs ∧ Comes a scope (typeReference a) fewer q.1 q.2 result := by
  obtain ⟨names, asks⟩ := leads
  cases specs with
  | zero =>
    have isOpen : LeftOpen (namedTypeWithin a scope (typeReference a) · 0 p.1) p.2 :=
      fun e => ⟨p.2, congrFun (namedTypeWithin_zero names) p.2⟩
    exact absurd isOpen comes.not_leftOpen
  | succ specs =>
    have inside : Decided (fun beyond => (rowInquiry a scope p.1).answered
        (namedTypeWithin a scope (typeReference a) beyond specs)) p.2 result := by
      intro beyond
      rw [← comes beyond]
      exact congrFun (namedTypeWithin_succ names).symm p.2
    obtain ⟨result', comes'⟩ := comes_of_asks asks inside
    exact ⟨specs, result', Nat.lt_succ_self _, comes'⟩

theorem again_of_transGen {later : Session} (leads : Relation.TransGen (LeadsTo a scope) p q)
    (grown : q.2.Grows later) :
    p.2.Grows q.2 ∧ Relation.TransGen (LeadsTo a scope) (p.1, later) (q.1, later) := by
  induction leads with
  | single leads =>
    obtain ⟨before, again⟩ := leads.again grown
    exact ⟨before, .single again⟩
  | tail _ leads ih =>
    obtain ⟨last, again⟩ := leads.again grown
    obtain ⟨before, again'⟩ := ih (last.trans grown)
    exact ⟨before.trans last, again'.tail again⟩

theorem comes_of_transGen {specs : Nat}
    {result : EStateM.Result Error Session (Option TypeNode)}
    (leads : Relation.TransGen (LeadsTo a scope) p q)
    (comes : Comes a scope (typeReference a) specs p.1 p.2 result) :
    ∃ fewer result, fewer < specs ∧ Comes a scope (typeReference a) fewer q.1 q.2 result := by
  induction leads with
  | single leads => exact leads.comes comes
  | tail _ leads ih =>
    obtain ⟨fewer, _, less, comes'⟩ := ih
    obtain ⟨still, result', lesser, comes''⟩ := leads.comes comes'
    exact ⟨still, result', Nat.lt_trans lesser less, comes''⟩

theorem not_cyclic_of_comes {specs : Nat}
    {result : EStateM.Result Error Session (Option TypeNode)}
    (comes : Comes a scope (typeReference a) specs p.1 p.2 result)
    (leads : Relation.TransGen (LeadsTo a scope) p q) : q.1 ≠ p.1 := by
  intro back
  -- from the session in which the row comes up again, it goes round without end
  have round := (again_of_transGen leads (.refl q.2)).2
  rw [← back] at round
  obtain ⟨fewer, result', -, comes'⟩ := comes_of_transGen leads comes
  clear comes
  induction fewer using Nat.strongRecOn generalizing result' with
  | ind fewer ih =>
    obtain ⟨still, _, less, comes''⟩ := comes_of_transGen round comes'
    exact ih still less _ comes''

theorem leads_of_not_comes {specs : Nat}
    (never : ∀ result, ¬Comes a scope (typeReference a) (specs + 1) p.1 p.2 result) :
    ∃ q, LeadsTo a scope p q ∧
      ∀ result, ¬Comes a scope (typeReference a) specs q.1 q.2 result := by
  by_cases names : p.1.NamesSpec
  · by_contra settled
    push Not at settled
    obtain ⟨result, decided⟩ := decided_of_asked (i := rowInquiry a scope p.1) (s := p.2)
      fun token s' asks => settled (token, s') ⟨names, asks⟩
    refine never result fun beyond => ?_
    rw [← decided beyond]
    exact congrFun (namedTypeWithin_succ names) p.2
  · exact absurd (fun _ => congrFun (namedTypeWithin_other names endless 0) p.2) (never _)

theorem chain_of_not_comes {specs : Nat}
    (never : ∀ result, ¬Comes a scope (typeReference a) specs p.1 p.2 result) :
    ∃ chain : Nat → Token × Session, chain 0 = p ∧
      ∀ i < specs, LeadsTo a scope (chain i) (chain (i + 1)) := by
  induction specs generalizing p with
  | zero => exact ⟨fun _ => p, rfl, fun i less => absurd less (Nat.not_lt_zero i)⟩
  | succ specs ih =>
    obtain ⟨q, leads, never'⟩ := leads_of_not_comes never
    obtain ⟨chain, start, follows⟩ := ih never'
    refine ⟨Nat.rec p fun i _ => chain i, rfl, ?_⟩
    intro i less
    cases i with
    | zero =>
      rw [← start] at leads
      exact leads
    | succ i => exact follows i (Nat.lt_of_succ_lt_succ less)

theorem LeadsTo.inside {found : Assembly} (leads : LeadsTo a scope p q)
    (there : p.2.context.assembly? a = some found) :
    p.1.row ≤ found.module.tables.rows .typeSpec := by
  obtain ⟨-, asks⟩ := leads
  cases asks with
  | step spells => exact rid_le_of_specification there spells

theorem grows_of_reflTransGen (follows : Relation.ReflTransGen (LeadsTo a scope) p q) :
    p.2.Grows q.2 := by
  induction follows with
  | refl => exact .refl _
  | tail _ leads ih => exact ih.trans (leads.again (.refl _)).1

-- If nothing is come to before as many rows have led to each other as the table has, and one more,
-- then one of them has come up twice.
theorem cyclic_of_not_comes {found : Assembly} (there : p.2.context.assembly? a = some found)
    (never : ∀ result, ¬Comes a scope (typeReference a) (specLimit found) p.1 p.2 result) :
    ∃ q q', Relation.ReflTransGen (LeadsTo a scope) p q ∧ Relation.TransGen (LeadsTo a scope) q q' ∧
      q'.1 = q.1 := by
  obtain ⟨chain, start, follows⟩ := chain_of_not_comes never
  have many : ∀ i n, i + n ≤ specLimit found →
      Relation.ReflTransGen (LeadsTo a scope) (chain i) (chain (i + n)) := by
    intro i n less
    induction n with
    | zero => exact .refl
    | succ n ih => exact (ih (by omega)).tail (follows _ (by omega))
  have inside : ∀ i < specLimit found,
      (chain i).1.row - 1 < found.module.tables.rows .typeSpec := by
    intro i less
    have reached := many 0 i (by omega)
    rw [start, Nat.zero_add] at reached
    have bound := (follows i less).inside ((grows_of_reflTransGen reached).assembly? there)
    have positive := (follows i less).1.2.1
    omega
  obtain ⟨i, j, less, before, same⟩ : ∃ i j, i < j ∧ j < specLimit found ∧
      (chain j).1.row - 1 = (chain i).1.row - 1 := by
    obtain ⟨i, j, other, same⟩ := Fintype.exists_ne_map_eq_of_card_lt
      (fun i : Fin (specLimit found) =>
        (⟨(chain i).1.row - 1, inside i i.isLt⟩ : Fin (found.module.tables.rows .typeSpec)))
      (by rw [Fintype.card_fin, Fintype.card_fin]; exact Nat.lt_succ_self _)
    have same' := Fin.val_eq_of_eq same
    rcases Nat.lt_or_gt_of_ne (Fin.val_ne_of_ne other) with less | less
    · exact ⟨i, j, less, j.isLt, same'.symm⟩
    · exact ⟨j, i, less, i.isLt, same'⟩
  obtain ⟨n, rfl⟩ := Nat.exists_eq_add_of_lt less
  have first := many 0 i (by omega)
  rw [start, Nat.zero_add] at first
  refine ⟨chain i, chain (i + n + 1), first,
    .tail' (many i n (by omega)) (follows (i + n) (by omega)), ?_⟩
  have positive := (follows i (by omega)).1.2.1
  have positive' := (follows (i + n + 1) before).1.2.1
  exact (follows (i + n + 1) before).1.ext_row (follows i (by omega)).1 (by omega)

end

end Binding

end CliMetadata
