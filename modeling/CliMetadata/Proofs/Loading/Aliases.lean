import CliMetadata.Proofs.Loading.Answers

set_option autoImplicit false

namespace CliMetadata

def LoadContext.Bears (c : LoadContext) (id : AssemblyId) (identity : AssemblyIdentity) : Prop :=
  ∃ a, c.assembly? id = some a ∧ a.identity.same identity

/-- A request for the identity returns an assembly of another one, and leaves it there. -/
structure LoadMoment.Aliases (m : LoadMoment) (identity : AssemblyIdentity) (id : AssemblyId) :
    Prop where
  answered : ∃ key flags, m.event = .returned (.resolve key flags) (.ok id) ∧ key.same identity
  found : m.context.find? identity = some id
  other : ¬m.context.Bears id identity

def LoadsAccounted (moments : List LoadMoment) : Prop :=
  ∀ front source id c back, moments = front ++ ⟨.returned (.load source) (.ok id), c⟩ :: back →
    ∃ m a loaded, source.read = .ok m ∧ Assembly.ofModule m = .ok a ∧
      c.assembly? id = some loaded ∧ c.find? a.identity = some id ∧
      (loaded.identity.same a.identity ↔
        ∀ earlier ∈ front, ∀ other, ¬earlier.Aliases a.identity other)

namespace LoadContext

def Accounted (past : List LoadMoment) (c : LoadContext) : Prop :=
  ∀ identity id, c.find? identity = some id →
    c.Bears id identity ∨ ∃ m ∈ past, m.Aliases identity id

section
variable {c c' : LoadContext} {id : AssemblyId} {identity : AssemblyIdentity}

theorem Consistent.assembly? (consistent : c.Consistent) (found : c.find? identity = some id) :
    ∃ a, c.assembly? id = some a :=
  ⟨_, List.getElem?_eq_getElem (consistent.stored_of_find? found)⟩

theorem bears_iff {a : Assembly} (there : c.assembly? id = some a) :
    c.Bears id identity ↔ a.identity.same identity := by
  simp [Bears, there]

theorem Extends.bears_iff (grown : c.Extends c') {a : Assembly} (there : c.assembly? id = some a) :
    c'.Bears id identity ↔ c.Bears id identity := by
  rw [LoadContext.bears_iff there, LoadContext.bears_iff (grown.assembly? there)]

theorem Bears.extends (bears : c.Bears id identity) (grown : c.Extends c') :
    c'.Bears id identity := by
  have ⟨a, there, _⟩ := bears
  exact (grown.bears_iff there).2 bears

theorem bears_place (a : Assembly) (found : (c.place a).2.find? identity = some id) :
    c.find? identity = some id ∨ (c.place a).2.Bears id identity := by
  rw [find?_place] at found
  cases known : c.find? identity with
  | some other =>
    rw [known] at found
    exact .inl found
  | none =>
    rw [known] at found
    right
    by_cases same : a.identity.same identity
    · have absent : c.find? a.identity = none := by rwa [c.find?_congr same]
      have placed : c.place a = (⟨c.assemblies.length⟩, c.push a) := by rw [place, absent]
      rw [placed] at found ⊢
      simp only [same, Option.none_or, if_true, Option.some.injEq] at found
      subst found
      exact ⟨a, by simp [LoadContext.assembly?, push], same⟩
    · simp [same] at found

theorem Step.accounted {m : LoadMoment} {past : List LoadMoment} (step : c.Step m)
    (consistent : c.Consistent) (accounted : c.Accounted past) :
    m.context.Accounted (past ++ [m]) := by
  intro identity id found
  have grown := (step.consistent consistent).1
  have before (known : c.find? identity = some id) :
      m.context.Bears id identity ∨ ∃ earlier ∈ past ++ [m], earlier.Aliases identity id := by
    rcases accounted identity id known with bears | ⟨earlier, member, aliases⟩
    · exact .inl (bears.extends grown)
    · exact .inr ⟨earlier, List.mem_append_left _ member, aliases⟩
  cases step with
  | called call => exact before found
  | asked other flags absent same => exact before (same.find? identity ▸ found)
  | found flags known => exact before found
  | failed call e same => exact before (same.find? identity ▸ found)
  | loaded read made => exact (bears_place _ found).elim before .inl
  | @supplied left key flags a same =>
    by_cases bears : left.Bears id identity
    · exact .inl bears
    have index := found
    rw [same.find?, find?_addKey_eq] at index
    cases placed : (c.place a).2.find? identity with
    | some other =>
      rw [placed, Option.some_or] at index
      cases index
      refine (bears_place a placed).elim before fun own => absurd ?_ bears
      exact own.extends ((extends_addKey _ _ _).trans same.extends)
    | none =>
      rw [placed, Option.none_or] at index
      by_cases asked : key.same identity
      · simp only [asked, if_true, Option.some.injEq] at index
        subst index
        exact .inr ⟨_, List.mem_append_right _ List.mem_cons_self,
          ⟨⟨key, flags, rfl, asked⟩, found, bears⟩⟩
      · simp [asked] at index

theorem Steps.accounted {past moments : List LoadMoment} (steps : c.Steps moments c')
    (consistent : c.Consistent) (accounted : c.Accounted past) :
    c'.Consistent ∧ c'.Accounted (past ++ moments) := by
  induction steps generalizing past with
  | nil => exact ⟨consistent, by rwa [List.append_nil]⟩
  | cons step steps ih =>
    obtain ⟨done, whole⟩ := ih (step.consistent consistent).2 (step.accounted consistent accounted)
    rw [List.append_assoc, List.singleton_append] at whole
    exact ⟨done, whole⟩

-- An alias stands for good, so that what the identity stands for later does not have it either.
theorem not_bears_of_aliases {m : LoadMoment} {other : AssemblyId}
    (aliases : m.Aliases identity other) (consistent : m.context.Consistent)
    (grown : m.context.Extends c) (found : c.find? identity = some id) : ¬c.Bears id identity := by
  obtain ⟨a, there⟩ := consistent.assembly? aliases.found
  have same := grown.find? aliases.found
  rw [found] at same
  cases same
  rw [grown.bears_iff there]
  exact aliases.other

theorem bears_of_not_aliases {past : List LoadMoment} (a : Assembly) (accounted : c.Accounted past)
    (found : (c.place a).2.find? identity = some id)
    (unaliased : ∀ m ∈ past, ∀ other, ¬m.Aliases identity other) :
    (c.place a).2.Bears id identity := by
  rcases bears_place a found with known | bears
  · rcases accounted identity id known with bears | ⟨m, member, aliases⟩
    · exact bears.extends (c.extends_place a)
    · exact absurd aliases (unaliased m member id)
  · exact bears

end

end LoadContext

namespace Loading

/-- However calls follow each other in a new context, and whatever its resolver does meanwhile,
loads are accounted for. -/
theorem history_loadsAccounted (depth : Nat) (resolver : Option Resolver) (calls : List LoadCall) :
    LoadsAccounted (CallRecord.momentsOf (history depth calls { resolver })) := by
  intro front source id c back whole
  have consistent := LoadContext.consistent_fresh resolver
  have nothing : LoadContext.Accounted [] { resolver } := fun _ _ found => by cases found
  obtain ⟨_, steps⟩ := steps_history depth calls { resolver }
  rw [whole] at steps
  have trail := steps.trail consistent
  obtain ⟨before, left, right⟩ := steps.split
  obtain ⟨kept, accounted⟩ := left.accounted consistent nothing
  rw [List.nil_append] at accounted
  cases right with
  | cons step further =>
    cases step with
    | @loaded _ m a read made =>
      have found := before.find?_place_own a
      obtain ⟨loaded, there⟩ := (kept.place a).1.assembly? found
      refine ⟨m, a, loaded, read, made, there, found, ?_⟩
      rw [← LoadContext.bears_iff there]
      constructor
      · intro bears earlier member other aliases
        have valid := trail.valid earlier (List.mem_append_left _ member)
        have grown :=
          (List.pairwise_append.1 trail.pairwise).2.2 earlier member _ List.mem_cons_self
        exact LoadContext.not_bears_of_aliases aliases valid.consistent grown found bears
      · exact LoadContext.bears_of_not_aliases a accounted found

end Loading

def misnaming : Catalog where
  entries := [{ name := "A", supply := .image (imageNamed 0x42) }]
  absence := ""

namespace Loading

def misnamedLoad : CallRecord :=
  callRecord 1 (.load (.image (imageNamed 0x41)))
    (callRecord 1 (.resolve { name := "A" } 0) { resolver := some misnaming.resolver }).after

/-- After a request for A has been answered with B, a load of A returns B. -/
theorem misnamed_load : ∃ request : CallRecord,
    history 1 [.resolve { name := "A" } 0, .load (.image (imageNamed 0x41))]
      { resolver := some misnaming.resolver } = [request, misnamedLoad] ∧
    misnamedLoad.outcome = .ok ⟨0⟩ ∧
    (misnamedLoad.after.assembly? ⟨0⟩).map (·.identity) = some { name := "B" } ∧
    ∃ m a, (ModuleSource.image (imageNamed 0x41)).read = .ok m ∧ Assembly.ofModule m = .ok a ∧
      a.identity = { name := "A" } := by
  have ran : misnamedLoad.outcome.toOption = some ⟨0⟩ ∧
      (misnamedLoad.after.assembly? ⟨0⟩).map (·.identity) = some { name := "B" } ∧
      ((ModuleSource.image (imageNamed 0x41)).read.bind Assembly.ofModule).toOption.map
        (·.identity) = some { name := "A" } := by decide +kernel
  obtain ⟨a, some, own⟩ := Option.map_eq_some_iff.1 ran.2.2
  obtain ⟨m, read, made⟩ := except_bind_ok.1 (except_toOption_some.1 some)
  exact ⟨_, rfl, except_toOption_some.1 ran.1, ran.2.1, m, a, read, made, own⟩

end Loading

end CliMetadata
