import CliMetadata.Proofs.Loading.Aliases

set_option autoImplicit false

namespace CliMetadata

def suppliedIdentity? (supply : AssemblyIdentity → Except Error Module)
    (identity : AssemblyIdentity) : Option AssemblyIdentity :=
  ((supply identity).bind Assembly.ofModule).toOption.map (·.identity)

/-- The resolver answers by a function of the identity, and makes no calls of its own. -/
structure Resolver.AnswersBy (r : Resolver) (supply : AssemblyIdentity → Except Error Module) :
    Prop where
  consult : ∀ turn identity flags, r.consult turn identity flags = .answer (supply identity)
  own : ∀ {identity own}, suppliedIdentity? supply identity = some own →
    ∃ again, suppliedIdentity? supply own = some again ∧ again.same own

/-- The answers do not tell apart what is the same identity. -/
def AnswersAlike (supply : AssemblyIdentity → Except Error Module) : Prop :=
  ∀ {identity other : AssemblyIdentity}, identity.same other →
    Option.Rel (fun own again => own.same again)
      (suppliedIdentity? supply identity) (suppliedIdentity? supply other)

/-- The call succeeds or fails as the module that is supplied for the identity says, and returns an
assembly that has the identity of that module. -/
structure CallRecord.ComesTo (r : CallRecord) (supply : AssemblyIdentity → Except Error Module)
    (identity : AssemblyIdentity) : Prop where
  loaded : ∀ m a, supply identity = .ok m → Assembly.ofModule m = .ok a →
    ∃ id, r.outcome = .ok id ∧ r.after.Bears id a.identity
  unloadable : ∀ m e, supply identity = .ok m → Assembly.ofModule m = .error e →
    r.outcome = .error e
  unsupplied : ∀ e, supply identity = .error e →
    r.outcome = .error (Loading.failure identity e)

def Resolver.Independent (r : Resolver) (supply : AssemblyIdentity → Except Error Module) : Prop :=
  ∀ (depth : Nat) (requests : List (AssemblyIdentity × Nat)),
    ∀ record ∈ Loading.history (depth + 1)
        (requests.map fun request => .resolve request.1 request.2) { resolver := some r },
      ∀ identity flags, record.call = .resolve identity flags → record.ComesTo supply identity

theorem AssemblyIdentity.same_trans {a b c : AssemblyIdentity} (first : a.same b)
    (second : b.same c) : a.same c :=
  same_iff.2 ((same_iff.1 first).trans (same_iff.1 second))

section
variable {supply : AssemblyIdentity → Except Error Module} {identity own : AssemblyIdentity}

theorem suppliedIdentity?_some : suppliedIdentity? supply identity = some own ↔
    ∃ m a, supply identity = .ok m ∧ Assembly.ofModule m = .ok a ∧ a.identity = own := by
  cases supplied : supply identity with
  | error e => simp [suppliedIdentity?, supplied, Except.bind, Except.toOption]
  | ok m =>
    cases made : Assembly.ofModule m <;>
      simp [suppliedIdentity?, supplied, made, Except.bind, Except.toOption]

end

namespace LoadContext

/-- Every indexed identity stands for an assembly that has the identity of what is supplied. -/
def Reflects (c : LoadContext) (supply : AssemblyIdentity → Except Error Module) : Prop :=
  ∀ identity id, c.find? identity = some id →
    ∃ own, suppliedIdentity? supply identity = some own ∧ c.Bears id own

section
variable {c c' : LoadContext} {r : Resolver} {supply : AssemblyIdentity → Except Error Module}
  {id : AssemblyId} {identity other own : AssemblyIdentity} {a : Assembly}

theorem Bears.same (bears : c.Bears id identity) (same : identity.same other) :
    c.Bears id other := by
  obtain ⟨a, there, has⟩ := bears
  exact ⟨a, there, AssemblyIdentity.same_trans has same⟩

theorem Reflects.of_sameStore (reflects : c.Reflects supply) (same : c.SameStore c') :
    c'.Reflects supply := by
  intro identity id found
  rw [same.find?] at found
  obtain ⟨own, supplied, bears⟩ := reflects identity id found
  exact ⟨own, supplied, bears.extends same.extends⟩

theorem bears_alike (alike : AnswersAlike supply)
    (supplied : suppliedIdentity? supply identity = some own) (bears : c.Bears id own)
    (same : identity.same other) :
    ∃ again, suppliedIdentity? supply other = some again ∧ c.Bears id again := by
  have alike := alike same
  rw [supplied] at alike
  cases found : suppliedIdentity? supply other with
  | none =>
    rw [found] at alike
    cases alike
  | some again =>
    rw [found] at alike
    cases alike with
    | some both => exact ⟨again, rfl, bears.same both⟩

theorem Reflects.bears_placed (reflects : c.Reflects supply) (answers : r.AnswersBy supply)
    (supplied : suppliedIdentity? supply identity = some a.identity) :
    (c.place a).2.Bears (c.place a).1 a.identity := by
  rcases bears_place a (c.find?_place_own a) with known | bears
  · obtain ⟨own, recorded, bears⟩ := reflects _ _ known
    obtain ⟨again, repeated, same⟩ := answers.own supplied
    have equal : own = again := by simpa [recorded] using repeated
    subst equal
    exact (bears.extends (c.extends_place a)).same same
  · exact bears

theorem Reflects.supplied (reflects : c.Reflects supply) (answers : r.AnswersBy supply)
    (alike : AnswersAlike supply) (supplied : suppliedIdentity? supply identity = some a.identity) :
    ((c.place a).2.addKey identity (c.place a).1).Reflects supply := by
  have placed := reflects.bears_placed answers supplied
  intro other id found
  have grown := (c.place a).2.extends_addKey identity (c.place a).1
  suffices there : ∃ own, suppliedIdentity? supply other = some own ∧ (c.place a).2.Bears id own by
    obtain ⟨own, known, bears⟩ := there
    exact ⟨own, known, bears.extends grown⟩
  rw [find?_addKey_eq, find?_place] at found
  cases known : c.find? other with
  | some place =>
    obtain rfl : place = id := by simpa [known] using found
    obtain ⟨own, recorded, bears⟩ := reflects other place known
    exact ⟨own, recorded, bears.extends (c.extends_place a)⟩
  | none =>
    by_cases own : a.identity.same other
    next =>
      obtain rfl : (c.place a).1 = id := by simpa [known, own] using found
      obtain ⟨again, repeated, same⟩ := answers.own supplied
      rw [AssemblyIdentity.same_comm] at same
      exact bears_alike alike repeated (placed.same same) own
    next =>
      by_cases asked : identity.same other
      next =>
        obtain rfl : (c.place a).1 = id := by simpa [known, own, asked] using found
        exact bears_alike alike supplied placed asked
      next => simp [known, own, asked] at found

end

end LoadContext

namespace CallRecord.ComesTo

variable {r : CallRecord} {supply : AssemblyIdentity → Except Error Module}
  {identity : AssemblyIdentity} {m : Module} {a : Assembly} {id : AssemblyId} {e : Error}

theorem of_loaded (supplied : supply identity = .ok m) (made : Assembly.ofModule m = .ok a)
    (outcome : r.outcome = .ok id) (bears : r.after.Bears id a.identity) :
    r.ComesTo supply identity := by
  constructor
  · intro m' a' supplied' made'
    obtain rfl : m = m' := by simpa [supplied] using supplied'
    obtain rfl : a = a' := by simpa [made] using made'
    exact ⟨id, outcome, bears⟩
  · intro m' e supplied' failed
    obtain rfl : m = m' := by simpa [supplied] using supplied'
    simp [made] at failed
  · intro e unsupplied
    simp [supplied] at unsupplied

theorem of_unloadable (supplied : supply identity = .ok m)
    (unmade : Assembly.ofModule m = .error e) (outcome : r.outcome = .error e) :
    r.ComesTo supply identity := by
  constructor
  · intro m' a supplied' made
    obtain rfl : m = m' := by simpa [supplied] using supplied'
    simp [unmade] at made
  · intro m' e' supplied' failed
    obtain rfl : m = m' := by simpa [supplied] using supplied'
    obtain rfl : e = e' := by simpa [unmade] using failed
    exact outcome
  · intro e unsupplied
    simp [supplied] at unsupplied

theorem of_unsupplied (unsupplied : supply identity = .error e)
    (outcome : r.outcome = .error (Loading.failure identity e)) : r.ComesTo supply identity := by
  constructor
  · intro m a supplied
    simp [unsupplied] at supplied
  · intro m e supplied
    simp [unsupplied] at supplied
  · intro e' unsupplied'
    obtain rfl : e = e' := by simpa [unsupplied] using unsupplied'
    exact outcome

end CallRecord.ComesTo

namespace Loading

section
variable {c : LoadContext} {r : Resolver} {supply : AssemblyIdentity → Except Error Module}
  {identity : AssemblyIdentity}

theorem resolve_answered (depth : Nat) (flags : Nat) (idle : c.Idle)
    (resolver : c.resolver = some r) (answers : r.AnswersBy supply)
    (absent : c.find? identity = none) : ∃ asked c', c.SameStore asked ∧
      ((∃ e, supply identity = .error e ∧
        resolve (depth + 1) identity flags c = .error (failure identity e) c' ∧
        asked.SameStore c') ∨
      (∃ m e, supply identity = .ok m ∧ Assembly.ofModule m = .error e ∧
        resolve (depth + 1) identity flags c = .error e c' ∧ asked.SameStore c') ∨
      ∃ m a, supply identity = .ok m ∧ Assembly.ofModule m = .ok a ∧
        resolve (depth + 1) identity flags c = .ok (asked.place a).1 c' ∧
        ((asked.place a).2.addKey identity (asked.place a).1).SameStore c') := by
  have new : ¬c.isResolving identity := by simp [LoadContext.isResolving, idle.resolving]
  have free : ¬c.isClaimed identity := by simp [LoadContext.isClaimed, idle.claimed]
  have resolver' : ((c.enter identity).claim identity).resolver = some r := resolver
  have entered := resolve_entered depth flags absent new free
  refine ⟨((c.enter identity).claim identity).record identity flags, ?_⟩
  cases supplied : supply identity with
  | error e =>
    rw [bind_after_error (consult_error resolver' (by rw [answers.consult, supplied]; rfl))]
      at entered
    exact ⟨_, ⟨rfl, rfl⟩, .inl ⟨e, rfl, entered, rfl, rfl⟩⟩
  | ok m =>
    rw [bind_after_ok (consult_ok resolver' (by rw [answers.consult, supplied]; rfl)), loadAs]
      at entered
    cases made : Assembly.ofModule m with
    | error e =>
      rw [bind_after_error (by rw [load, made])] at entered
      exact ⟨_, ⟨rfl, rfl⟩, .inr (.inl ⟨m, e, rfl, made, entered, rfl, rfl⟩)⟩
    | ok a =>
      rw [bind_after_ok (by rw [load, made])] at entered
      exact ⟨_, ⟨rfl, rfl⟩, .inr (.inr ⟨m, a, rfl, made, entered, rfl, rfl⟩)⟩

theorem resolve_known (depth flags : Nat) (idle : c.Idle) (resolver : c.resolver = some r)
    (answers : r.AnswersBy supply) (absent : c.find? identity = none) {own : AssemblyIdentity}
    (supplied : suppliedIdentity? supply identity = some own) {id : AssemblyId}
    (known : c.find? own = some id) :
    ∃ c', resolve (depth + 1) identity flags c = .ok id c' ∧ c.Extends c' := by
  obtain ⟨m, a, read, made, rfl⟩ := suppliedIdentity?_some.1 supplied
  obtain ⟨asked, c', same, ⟨e, failed, -⟩ | ⟨m', e, read', failed, -⟩ |
    ⟨m', a', read', made', ran, left⟩⟩ := resolve_answered depth flags idle resolver answers absent
  · cases read.symm.trans failed
  · cases read.symm.trans read'
    cases made.symm.trans failed
  · cases read.symm.trans read'
    cases made.symm.trans made'
    have placed : asked.place a = (id, asked) := by simp [LoadContext.place, same.find?, known]
    rw [placed] at ran left
    exact ⟨c', ran, same.extends.trans ((LoadContext.extends_addKey ..).trans left.extends)⟩

theorem comesTo_resolve (depth : Nat) (identity : AssemblyIdentity) (flags : Nat) (idle : c.Idle)
    (resolver : c.resolver = some r) (answers : r.AnswersBy supply) (alike : AnswersAlike supply)
    (reflects : c.Reflects supply) :
    (resolveRecord (depth + 1) identity flags c).ComesTo supply identity ∧
      (resolveRecord (depth + 1) identity flags c).after.Reflects supply := by
  cases found : c.find? identity with
  | some id =>
    have ran := resolve_found (depth + 1) flags found
    obtain ⟨own, known, bears⟩ := reflects identity id found
    obtain ⟨m, a, supplied, made, rfl⟩ := suppliedIdentity?_some.1 known
    have same : (resolveRecord (depth + 1) identity flags c).after = c := after_ok ran
    rw [← same] at bears reflects
    exact ⟨.of_loaded supplied made (outcome_ok ran) bears, reflects⟩
  | none =>
    obtain ⟨asked, c', same, cases⟩ := resolve_answered depth flags idle resolver answers found
    have start := reflects.of_sameStore same
    rcases cases with ⟨e, supplied, ran, left⟩ | ⟨m, e, supplied, made, ran, left⟩ |
      ⟨m, a, supplied, made, ran, left⟩
    · have after : (resolveRecord (depth + 1) identity flags c).after = c' := after_error ran
      rw [after]
      exact ⟨.of_unsupplied supplied (outcome_error ran), start.of_sameStore left⟩
    · have after : (resolveRecord (depth + 1) identity flags c).after = c' := after_error ran
      rw [after]
      exact ⟨.of_unloadable supplied made (outcome_error ran), start.of_sameStore left⟩
    · have after : (resolveRecord (depth + 1) identity flags c).after = c' := after_ok ran
      have known : suppliedIdentity? supply identity = some a.identity :=
        suppliedIdentity?_some.2 ⟨m, a, supplied, made, rfl⟩
      have placed := start.bears_placed answers known
      have grown := (LoadContext.extends_addKey _ identity (asked.place a).1).trans left.extends
      refine ⟨.of_loaded supplied made (outcome_ok ran) ?_, ?_⟩
      · rw [after]
        exact placed.extends grown
      · rw [after]
        exact (start.supplied answers alike known).of_sameStore left

theorem comesTo_history (depth : Nat) (requests : List (AssemblyIdentity × Nat)) (idle : c.Idle)
    (resolver : c.resolver = some r) (answers : r.AnswersBy supply) (alike : AnswersAlike supply)
    (reflects : c.Reflects supply) :
    ∀ record ∈ history (depth + 1) (requests.map fun request => .resolve request.1 request.2) c,
      ∀ identity flags, record.call = .resolve identity flags →
        record.ComesTo supply identity := by
  induction requests generalizing c with
  | nil => exact fun record member => absurd member List.not_mem_nil
  | cons request rest ih =>
    obtain ⟨first, left⟩ :=
      comesTo_resolve depth request.1 request.2 idle resolver answers alike reflects
    intro record member identity flags call
    rcases List.mem_cons.1 member with now | later
    · rw [now, callRecord, call_resolveRecord] at call
      cases call
      exact now ▸ first
    · rw [callRecord, after_resolveRecord] at later
      rw [after_resolveRecord] at left
      have grown := growing_resolve (depth + 1) request.1 request.2 c
      exact ih (idle.of_sameWork (kept_sameWork.resolve (depth + 1) request.1 request.2 c))
        (grown.resolver.trans resolver) left record later identity flags call

theorem nested_answered (answers : r.AnswersBy supply) (depth flags : Nat)
    (resolver : c.resolver = some r) : (resolveRecord depth identity flags c).nested = [] := by
  cases depth with
  | zero => rfl
  | succ depth =>
    cases asking : c.asking? identity flags with
    | none => rw [record_unasked (.inr asking)]
    | some found =>
      obtain ⟨_, _, _, r', there, same, _⟩ := LoadContext.asking?_some asking
      cases resolver.symm.trans there
      rw [nested_asked depth asking, ← same, answers.consult]
      rfl

theorem alike_of_independent (answers : r.AnswersBy supply) (independent : r.Independent supply)
    {other own : AssemblyIdentity} (same : identity.same other)
    (supplied : suppliedIdentity? supply identity = some own) :
    ∃ again, suppliedIdentity? supply other = some again ∧ own.same again := by
  have comes := independent 0 [(identity, 0), (other, 0)]
  simp only [List.map_cons, List.map_nil, history, callRecord, List.forall_mem_cons] at comes
  obtain ⟨first, second, -⟩ := comes
  have first := first identity 0 (by simp)
  have second := second other 0 (by simp)
  obtain ⟨m, a, read, made, rfl⟩ := suppliedIdentity?_some.1 supplied
  obtain ⟨id, ok, bears⟩ := first.loaded m a read made
  obtain ⟨place, found, undisputed⟩ := settled_resolve 1 identity 0 _ ok
  obtain rfl : place = id := undisputed.2 (by simp [CallRecord.Undisputed, nested_answered answers])
  rw [LoadContext.find?_congr _ same, after_resolveRecord] at found
  have ran := resolve_found 1 0 found
  rw [← after_resolveRecord] at ran
  have again := (outcome_resolveRecord 1 other 0 _).trans (outcome_ok ran)
  cases read' : supply other with
  | error e => cases again.symm.trans (second.unsupplied e read')
  | ok m' =>
    cases made' : Assembly.ofModule m' with
    | error e => cases again.symm.trans (second.unloadable m' e read' made')
    | ok a' =>
      obtain ⟨id, ok', bears'⟩ := second.loaded m' a' read' made'
      cases again.symm.trans ok'
      rw [after_resolveRecord 1 other, after_ok ran] at bears'
      obtain ⟨b, there, has⟩ := bears
      obtain ⟨b', there', has'⟩ := bears'
      cases there.symm.trans there'
      rw [AssemblyIdentity.same_comm] at has
      exact ⟨_, suppliedIdentity?_some.2 ⟨m', a', read', made', rfl⟩,
        AssemblyIdentity.same_trans has has'⟩

/-- Requests come to what their identities decide exactly if equal identities are answered alike. -/
theorem history_independent {r : Resolver} {supply : AssemblyIdentity → Except Error Module}
    (answers : r.AnswersBy supply) : r.Independent supply ↔ AnswersAlike supply := by
  constructor
  · intro independent identity other same
    cases supplied : suppliedIdentity? supply identity with
    | some own =>
      obtain ⟨again, supplied', alike⟩ := alike_of_independent answers independent same supplied
      rw [supplied']
      exact .some alike
    | none =>
      cases supplied' : suppliedIdentity? supply other with
      | none => exact .none
      | some again =>
        rw [AssemblyIdentity.same_comm] at same
        obtain ⟨own, found, _⟩ := alike_of_independent answers independent same supplied'
        cases supplied.symm.trans found
  · intro alike depth requests
    have nothing : LoadContext.Reflects { resolver := some r } supply :=
      fun _ _ found => by cases found
    exact comesTo_history depth requests ⟨rfl, rfl, rfl⟩ rfl answers alike nothing

end

end Loading

def imageIdentity? (data : ByteArray) : Option AssemblyIdentity :=
  ((Module.read data).bind Assembly.ofModule).toOption.map (·.identity)

namespace Catalog

def supply (c : Catalog) (identity : AssemblyIdentity) : Except Error Module :=
  match c.find? identity.name with
  | none => .error (c.notFound identity)
  | some entry => c.supplied identity entry.supply

variable {c : Catalog}

theorem consult_plain (plain : ∀ entry ∈ c.entries, entry.prerequisites.getD [] = [])
    (identity : AssemblyIdentity) : c.consult identity = .answer (c.supply identity) := by
  cases found : c.find? identity.name with
  | none => simp [consult, supply, found]
  | some entry =>
    have none := plain entry (List.mem_of_find?_eq_some found)
    simp [consult, supply, found, none, Consultation.requiring]

theorem find?_same {identity other : AssemblyIdentity} (same : identity.same other) :
    c.find? identity.name = c.find? other.name := by
  have names : Text.foldCase identity.name = Text.foldCase other.name :=
    congrArg Prod.fst (AssemblyIdentity.same_iff.1 same)
  have alike (entry : CatalogEntry) : Text.equalIgnoringCase entry.name identity.name =
      Text.equalIgnoringCase entry.name other.name := by
    rw [Bool.eq_iff_iff, Text.equalIgnoringCase_iff, Text.equalIgnoringCase_iff, names]
  simp only [find?, alike]

theorem supply_alike {identity other : AssemblyIdentity} (same : identity.same other) :
    Option.Rel (fun own again => own.same again)
      (suppliedIdentity? c.supply identity) (suppliedIdentity? c.supply other) := by
  have entries := c.find?_same same
  -- Only the text of an error has the identity as it was written.
  suffices equal : suppliedIdentity? c.supply identity = suppliedIdentity? c.supply other by
    rw [equal]
    cases suppliedIdentity? c.supply other with
    | none => exact .none
    | some own => exact .some own.same_refl
  cases found : c.find? other.name with
  | none => simp [suppliedIdentity?, supply, entries, found, Except.bind, Except.toOption]
  | some entry =>
    cases kind : entry.supply <;>
      simp [suppliedIdentity?, supply, entries, found, supplied, kind, Except.bind, Except.toOption]

theorem answersBy (plain : ∀ entry ∈ c.entries, entry.prerequisites.getD [] = [])
    (own : ∀ {identity own}, suppliedIdentity? c.supply identity = some own →
      ∃ again, suppliedIdentity? c.supply own = some again ∧ again.same own) :
    c.resolver.AnswersBy c.supply where
  consult _ identity _ := consult_plain plain identity
  own := own

theorem image_of_supplied {identity own : AssemblyIdentity}
    (supplied : suppliedIdentity? c.supply identity = some own) :
    ∃ entry ∈ c.entries, ∃ data, entry.supply = .image data ∧ imageIdentity? data = some own := by
  cases found : c.find? identity.name with
  | none =>
    simp [suppliedIdentity?, Catalog.supply, found, Except.bind, Except.toOption] at supplied
  | some entry =>
    refine ⟨entry, List.mem_of_find?_eq_some found, ?_⟩
    cases kind : entry.supply with
    | image data =>
      refine ⟨data, rfl, ?_⟩
      simpa [suppliedIdentity?, imageIdentity?, supply, found, Catalog.supplied, kind] using supplied
    | _ =>
      simp [suppliedIdentity?, supply, found, Catalog.supplied, kind, Except.bind, Except.toOption]
        at supplied

end Catalog

def renamed : Catalog where
  entries := [
    { name := "A", supply := .image (imageNamed 0x42) },
    { name := "B", supply := .image (imageNamed 0x42) }]
  absence := ""

theorem answersBy_renamed : renamed.resolver.AnswersBy renamed.supply := by
  have image : imageIdentity? (imageNamed 0x42) = some { name := "B" } := by decide +kernel
  have again : suppliedIdentity? renamed.supply { name := "B" } = some { name := "B" } := image
  apply Catalog.answersBy
  · simp [renamed]
  intro identity own supplied
  obtain ⟨entry, member, data, kind, bears⟩ := Catalog.image_of_supplied supplied
  have each : ∀ entry ∈ renamed.entries, entry.supply = .image (imageNamed 0x42) := by
    simp [renamed]
  cases kind.symm.trans (each entry member)
  cases bears.symm.trans image
  exact ⟨_, again, AssemblyIdentity.same_refl _⟩

namespace Loading

theorem history_independent_renamed :
    renamed.resolver.AnswersBy renamed.supply ∧ AnswersAlike renamed.supply ∧
    ∀ record ∈ history 1
        [.resolve { name := "C" } 0, .resolve { name := "b" } 0, .resolve { name := "A" } 0]
        { resolver := some renamed.resolver },
      ∀ identity flags, record.call = .resolve identity flags →
        record.ComesTo renamed.supply identity :=
  ⟨answersBy_renamed, Catalog.supply_alike,
    (history_independent answersBy_renamed).2 Catalog.supply_alike 0
      [({ name := "C" }, 0), ({ name := "b" }, 0), ({ name := "A" }, 0)]⟩

end Loading

def sensitive (identity : AssemblyIdentity) : Except Error Module :=
  if identity.name = "a" then Module.read (imageNamed 0x61)
  else .error (.assemblyNotFound identity.display "")

/-- The metadata of an assembly L of the French or the German culture. -/
def cultured (culture : UInt8) : ByteArray := image [
  ("#~", tableStream [
    (.assembly,
      [[0, 0, 0, 0, 0, 0, 0, 0, 0, 0, 0, 0, 0, 0, 0, 0, 0, 0, 1, 0, culture, 0]])]),
  ("#Strings", stringHeap ["L", "fr", "de"])]

/-- A catalogue with the French L under its own name and the name X, and the German L under Y. -/
def cultures : Catalog where
  entries := [
    { name := "L", supply := .image (cultured 3) },
    { name := "X", supply := .image (cultured 3) },
    { name := "Y", supply := .image (cultured 6) }]
  absence := ""

theorem supplied_sensitive {identity : AssemblyIdentity} (named : identity.name = "a") :
    suppliedIdentity? sensitive identity = some { name := "a" } := by
  have image : imageIdentity? (imageNamed 0x61) = some { name := "a" } := by decide +kernel
  simpa only [suppliedIdentity?, imageIdentity?, sensitive, if_pos named] using image

theorem answersBy_sensitive :
    Resolver.AnswersBy { consult := fun _ identity _ => .answer (sensitive identity) } sensitive := by
  refine ⟨fun _ _ _ => rfl, fun {identity own} supplied => ?_⟩
  by_cases named : identity.name = "a"
  · cases supplied.symm.trans (supplied_sensitive named)
    exact ⟨_, supplied_sensitive rfl, AssemblyIdentity.same_refl _⟩
  · simp [suppliedIdentity?, sensitive, named, Except.bind, Except.toOption] at supplied

theorem identity_french :
    imageIdentity? (cultured 3) = some { name := "L", culture := some "fr" } := by
  decide +kernel

theorem identity_german :
    imageIdentity? (cultured 6) = some { name := "L", culture := some "de" } := by
  decide +kernel

theorem supplied_german : suppliedIdentity? cultures.supply { name := "Y" } =
    some { name := "L", culture := some "de" } := by
  have found : cultures.find? "Y" = some { name := "Y", supply := .image (cultured 6) } := rfl
  simpa only [suppliedIdentity?, imageIdentity?, Catalog.supply, found, Catalog.supplied]
    using identity_german

theorem answersBy_cultures : cultures.resolver.AnswersBy cultures.supply := by
  have again (culture : Option String) : suppliedIdentity? cultures.supply { name := "L", culture } =
      some { name := "L", culture := some "fr" } := by
    have found : cultures.find? "L" = some { name := "L", supply := .image (cultured 3) } := rfl
    simpa only [suppliedIdentity?, imageIdentity?, Catalog.supply, found, Catalog.supplied]
      using identity_french
  apply Catalog.answersBy
  · simp [cultures]
  intro identity own supplied
  obtain ⟨entry, member, data, kind, bears⟩ := Catalog.image_of_supplied supplied
  have each : ∀ entry ∈ cultures.entries,
      entry.supply = .image (cultured 3) ∨ entry.supply = .image (cultured 6) := by
    simp [cultures]
  obtain ⟨culture, rfl⟩ : ∃ culture, { name := "L", culture } = own := by
    rcases each entry member with other | other
    · cases kind.symm.trans other
      exact ⟨_, Option.some.inj (identity_french.symm.trans bears)⟩
    · cases kind.symm.trans other
      exact ⟨_, Option.some.inj (identity_german.symm.trans bears)⟩
  exact ⟨_, again culture, AssemblyIdentity.same_iff.2 rfl⟩

namespace Loading

def frenchFirst : LoadContext :=
  after (resolve 1 { name := "X" } 0) { resolver := some cultures.resolver }

/-- What is indexed answers for all equal identities, and equal identities may have other cultures.
-/
theorem history_dependent :
    (¬∀ (r : Resolver) (supply : AssemblyIdentity → Except Error Module), r.AnswersBy supply →
      r.Independent supply) ∧
    ¬∀ (r : Resolver) (supply : AssemblyIdentity → Except Error Module), r.AnswersBy supply →
      ∀ (depth : Nat) (requests : List (AssemblyIdentity × Nat)),
      ∀ record ∈ history (depth + 1) (requests.map fun request => .resolve request.1 request.2)
        { resolver := some r },
      ∀ identity flags own, record.call = .resolve identity flags →
        suppliedIdentity? supply identity = some own →
        ∃ id, record.outcome = .ok id ∧
          (record.after.assembly? id).map (·.identity) = some own := by
  constructor
  · intro always
    have answers := answersBy_sensitive
    have same : AssemblyIdentity.same { name := "a" } { name := "A" } = true := by decide +kernel
    obtain ⟨again, supplied, -⟩ := alike_of_independent answers (always _ _ answers) same
      (supplied_sensitive rfl)
    have absent : suppliedIdentity? sensitive { name := "A" } = none := rfl
    cases absent.symm.trans supplied
  · intro always
    obtain ⟨absent, known, french⟩ : frenchFirst.find? { name := "Y" } = none ∧
        frenchFirst.find? { name := "L", culture := some "de" } = some ⟨0⟩ ∧
        (frenchFirst.assembly? ⟨0⟩).map (·.identity) =
          some { name := "L", culture := some "fr" } := by
      decide +kernel
    have fresh : LoadContext.Idle { resolver := some cultures.resolver } := ⟨rfl, rfl, rfl⟩
    have idle : frenchFirst.Idle := fresh.of_sameWork (kept_sameWork.resolve 1 _ 0 _)
    have grown := growing_resolve 1 { name := "X" } 0 { resolver := some cultures.resolver }
    obtain ⟨c', ran, grown⟩ := resolve_known 0 0 idle grown.resolver answersBy_cultures absent
      supplied_german known
    obtain ⟨id, outcome, has⟩ := always _ _ answersBy_cultures 0
      [({ name := "X" }, 0), ({ name := "Y" }, 0)] _ (.tail _ (.head _)) { name := "Y" } 0 _
      (call_resolveRecord ..) supplied_german
    simp only [callRecord, outcome_resolveRecord, after_resolveRecord] at outcome has
    rw [← frenchFirst] at outcome has
    cases (outcome_ok ran).symm.trans outcome
    rw [after_ok ran] at has
    obtain ⟨a, there, same⟩ := Option.map_eq_some_iff.1 french
    rw [grown.assembly? there] at has
    exact absurd (same.symm.trans (Option.some.inj has)) (by decide)

end Loading

end CliMetadata
