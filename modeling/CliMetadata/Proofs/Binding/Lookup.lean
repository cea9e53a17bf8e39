import CliMetadata.Proofs.Binding.Query

set_option autoImplicit false

namespace CliMetadata

open Binding

namespace Lookup

namespace Query

variable {α : Type} (q : Query α)

/-- Where a search has come to: the types before, the type that is next, and the session. -/
structure Stage where
  visited : List TypeId
  type : TypeDefinition
  session : Session

/-- The members that pass the test in a type, and the session after the last test. -/
def Level (c : Stage) (found : List α) (s' : Session) : Prop :=
  ∃ members between, q.declared c.type c.session = .ok members between ∧
    members.filterM q.test between = .ok found s'

def Fails (c : Stage) (e : Error) (s' : Session) : Prop :=
  ∃ members between, q.declared c.type c.session = .ok members between ∧
    members.filterM q.test between = .error e s'

open Classical in
theorem Level.matching {c : Stage} {found : List α} {s' : Session} (level : q.Level c found s') :
    ∃ members, Known (q.declared c.type) s' members ∧ found = members.filter (q.Matches s' ·) := by
  obtain ⟨members, between, declared, selected⟩ := level
  obtain ⟨grown, _, found⟩ := filterM_ok q.settles_test selected
  refine ⟨members, (q.settles_declared c.type).known declared grown, ?_⟩
  simpa only [q.known_test] using found

/-- Nothing matches in a type that was not searched before, and the search goes on in its base. -/
inductive Next : Stage → Stage → Prop
  | base {visited : List TypeId} {t base : TypeDefinition} {s s₁ s₂ s₃ : Session}
    {bound : BoundType} (fresh : t.id ∉ visited) (nothing : q.Level ⟨visited, t, s⟩ [] s₁)
    (inherits : q.inherited = true) (derives : t.base s₁ = .ok (some bound) s₂)
    (lives : liveType bound.definition s₂ = .ok base s₃) :
    Next ⟨visited, t, s⟩ ⟨t.id :: visited, base, s₃⟩

def Reaches : Stage → Stage → Prop := Relation.ReflTransGen q.Next

inductive Stops (c : Stage) : EStateM.Result Error Session (Option α) → Prop
  | circular (again : c.type.id ∈ c.visited) :
    Stops c (.error (.malformed (.inheritanceCycle c.type.fullName)) c.session)
  | failed {e : Error} {s' : Session} (fresh : c.type.id ∉ c.visited) (fails : q.Fails c e s') :
    Stops c (.error e s')
  | single {m : α} {s' : Session} (fresh : c.type.id ∉ c.visited) (level : q.Level c [m] s') :
    Stops c (.ok (some m) s')
  | several {found : List α} {s' : Session} (fresh : c.type.id ∉ c.visited)
    (level : q.Level c found s') (more : 1 < found.length) : Stops c (.ok none s')
  | own {s' : Session} (fresh : c.type.id ∉ c.visited) (level : q.Level c [] s')
    (alone : q.inherited = false) : Stops c (.ok none s')
  | last {s₁ s₂ : Session} (fresh : c.type.id ∉ c.visited) (level : q.Level c [] s₁)
    (inherits : q.inherited = true) (root : c.type.base s₁ = .ok none s₂) : Stops c (.ok none s₂)

def Ends (c : Stage) (result : EStateM.Result Error Session (Option α)) : Prop :=
  c.type.along q.declared q.test q.inherited c.visited c.session = some result

def levelAt (c : Stage) : EStateM.Result Error Session (Lookup.Level α) :=
  level q.declared q.test q.inherited c.visited c.type c.session

section
variable {q : Query α} {c c' : Stage} {found : List α} {s' : Session} {e : Error}
  {result : EStateM.Result Error Session (Option α)}

theorem levelAt_fresh (fresh : c.type.id ∉ c.visited) : q.levelAt c =
    (q.declared c.type >>= fun members => members.filterM q.test >>= conclude q.inherited c.type)
      c.session := by
  unfold levelAt level
  simp only [fresh, List.contains_eq_mem, decide_false, Bool.false_eq_true, if_false]

theorem Level.levelAt (fresh : c.type.id ∉ c.visited) (level : q.Level c found s') :
    q.levelAt c = conclude q.inherited c.type found s' := by
  obtain ⟨members, between, declared, selected⟩ := level
  rw [levelAt_fresh fresh, bind_after_ok declared, bind_after_ok selected]

theorem Next.levelAt (next : q.Next c c') : q.levelAt c = .ok (.undecided c'.type) c'.session ∧
    c'.visited = c.type.id :: c.visited := by
  cases next with
  | base fresh nothing inherits derives lives =>
    refine ⟨?_, rfl⟩
    rw [Level.levelAt fresh nothing]
    simp only [conclude, Finding.ofList, inherits, Bool.not_true, Bool.false_eq_true, if_false]
    exact (bind_after_ok derives _).trans (bind_after_ok lives _)

theorem Next.ends_iff (next : q.Next c c') : q.Ends c result ↔ q.Ends c' result := by
  obtain ⟨level, visited⟩ := next.levelAt
  unfold Query.levelAt at level
  unfold Ends
  rw [TypeDefinition.along, level, visited]

theorem Reaches.ends_iff (reaches : q.Reaches c c') : q.Ends c result ↔ q.Ends c' result := by
  induction reaches with
  | refl => rfl
  | tail _ next ih => exact ih.trans next.ends_iff

theorem Stops.levelAt (stops : q.Stops c result) : q.levelAt c = match result with
    | .ok found s' => .ok (.decided found) s'
    | .error e s' => .error e s' := by
  cases stops with
  | circular again =>
    unfold Query.levelAt level
    simp only [again, List.contains_eq_mem, decide_true, if_true]
    rfl
  | failed fresh fails =>
    obtain ⟨members, between, declared, failed⟩ := fails
    rw [levelAt_fresh fresh, bind_after_ok declared, bind_after_error failed]
  | single fresh level => exact Level.levelAt fresh level
  | @several found s' fresh level more =>
    rw [Level.levelAt fresh level]
    match found, more with
    | _ :: _ :: _, _ => rfl
  | own fresh level alone =>
    rw [Level.levelAt fresh level]
    simp only [conclude, Finding.ofList, alone, Bool.not_false, if_true]
    rfl
  | last fresh level inherits root =>
    rw [Level.levelAt fresh level]
    simp only [conclude, Finding.ofList, inherits, Bool.not_true, Bool.false_eq_true, if_false]
    rw [bind_after_ok root]
    rfl

theorem Stops.ends (stops : q.Stops c result) : q.Ends c result := by
  have level := stops.levelAt
  unfold Query.levelAt at level
  unfold Ends
  rw [TypeDefinition.along, level]
  cases result <;> rfl

/-- On the way of the search every list of members loads and every base resolves. -/
structure Unbroken (q : Query α) (start : Stage) : Prop where
  loads : ∀ c, q.Reaches start c → c.type.id ∉ c.visited →
    ∃ members s', q.declared c.type c.session = .ok members s'
  leads : ∀ c s₁, q.Reaches start c → c.type.id ∉ c.visited → q.Level c [] s₁ →
    q.inherited = true → ∃ bound? s₂, c.type.base s₁ = .ok bound? s₂ ∧
      ∀ bound, bound? = some bound → ∃ base s₃, liveType bound.definition s₂ = .ok base s₃

theorem Unbroken.stops_or_next {start : Stage} (unbroken : q.Unbroken start)
    (reaches : q.Reaches start c) : (∃ result, q.Stops c result) ∨ ∃ c', q.Next c c' := by
  by_cases fresh : c.type.id ∈ c.visited
  · exact .inl ⟨_, .circular fresh⟩
  obtain ⟨members, between, declared⟩ := unbroken.loads c reaches fresh
  cases selected : members.filterM q.test between with
  | error e s' => exact .inl ⟨_, .failed fresh ⟨members, between, declared, selected⟩⟩
  | ok found s' =>
    have level : q.Level c found s' := ⟨members, between, declared, selected⟩
    match found, level with
    | [m], level => exact .inl ⟨_, .single fresh level⟩
    | m :: m' :: more, level => exact .inl ⟨_, .several fresh level (by simp)⟩
    | [], level =>
      cases inherits : q.inherited with
      | false => exact .inl ⟨_, .own fresh level inherits⟩
      | true =>
        obtain ⟨bound?, s₂, derives, lives⟩ := unbroken.leads c s' reaches fresh level inherits
        cases bound? with
        | none => exact .inl ⟨_, .last fresh level inherits derives⟩
        | some bound =>
          obtain ⟨base, s₃, lives⟩ := lives bound rfl
          exact .inr ⟨_, .base fresh level inherits derives lives⟩

theorem Unbroken.ends_iff {start : Stage} (unbroken : q.Unbroken start) :
    q.Ends start result ↔ ∃ c, q.Reaches start c ∧ q.Stops c result := by
  refine ⟨fun ends => ?_, fun ⟨c, reaches, stops⟩ => reaches.ends_iff.2 stops.ends⟩
  have further : q.Reaches start start → ∃ c, q.Reaches start c ∧ q.Stops c result := by
    refine TypeDefinition.along.partial_correctness q.declared q.test q.inherited
      (fun visited t s result => q.Reaches start ⟨visited, t, s⟩ →
        ∃ c, q.Reaches start c ∧ q.Stops c result) ?_ _ _ _ _ ends
    intro go ih visited t s result ran reaches
    rcases unbroken.stops_or_next reaches with ⟨other, stops⟩ | ⟨c', next⟩
    · have level := stops.levelAt
      unfold levelAt at level
      rw [level] at ran
      refine ⟨_, reaches, ?_⟩
      cases other <;> cases ran <;> exact stops
    · obtain ⟨level, visited⟩ := next.levelAt
      unfold levelAt at level
      rw [level] at ran
      refine ih _ _ _ _ ran ?_
      rw [← visited]
      exact reaches.tail next
  exact further .refl

theorem Reaches.visited {start : Stage} (begins : start.visited = [])
    (reaches : q.Reaches start c) :
    c.visited.Nodup ∧ ∀ id ∈ c.visited, ∃ before, q.Reaches start before ∧ before.type.id = id := by
  induction reaches with
  | refl =>
    rw [begins]
    exact ⟨.nil, List.forall_mem_nil _⟩
  | @tail before c reaches next ih =>
    rw [next.levelAt.2]
    have fresh : before.type.id ∉ before.visited := by
      cases next
      assumption
    exact ⟨List.nodup_cons.2 ⟨fresh, ih.1⟩,
      List.forall_mem_cons.2 ⟨⟨before, reaches, rfl⟩, ih.2⟩⟩

theorem Reaches.alone (stays : ∀ base s', q.levelAt c ≠ .ok (.undecided base) s')
    (reaches : q.Reaches c c') : c'.type.id ∈ [c.type.id] := by
  rcases reaches.cases_head with rfl | ⟨c₁, next, _⟩
  · exact List.mem_singleton_self _
  · exact absurd next.levelAt.1 (stays _ _)

theorem Ends.finite (ends : q.Ends c result) :
    ∃ ids : List TypeId, ∀ c', q.Reaches c c' → c'.type.id ∈ ids := by
  refine TypeDefinition.along.partial_correctness q.declared q.test q.inherited
    (fun visited t s _ => ∃ ids : List TypeId, ∀ c', q.Reaches ⟨visited, t, s⟩ c' →
      c'.type.id ∈ ids) ?_ _ _ _ _ ends
  intro go ih visited t s result ran
  cases level : q.levelAt ⟨visited, t, s⟩ with
  | error e s' => exact ⟨[t.id], fun c' reaches => reaches.alone (by simp [level])⟩
  | ok decision s' =>
    cases decision with
    | decided found => exact ⟨[t.id], fun c' reaches => reaches.alone (by simp [level])⟩
    | undecided base =>
      have goes := level
      unfold levelAt at goes
      rw [goes] at ran
      obtain ⟨ids, few⟩ := ih _ _ _ _ ran
      refine ⟨t.id :: ids, fun c' reaches => ?_⟩
      rcases reaches.cases_head with rfl | ⟨⟨visited', t', s'⟩, next, further⟩
      · exact List.mem_cons_self
      · obtain ⟨same, rfl⟩ := next.levelAt
        cases level.symm.trans same
        exact List.mem_cons_of_mem _ (few c' further)

theorem Reaches.inherits {start : Stage} (begins : start.visited = []) (reaches : q.Reaches start c)
    (further : c.visited ≠ []) : q.inherited = true := by
  rcases reaches.cases_tail with rfl | ⟨before, _, next⟩
  · exact absurd begins further
  · cases next
    assumption

end

end Query

end Lookup

def sampleLeft : TypeDefinition where
  id := ⟨⟨0⟩, 1⟩
  token := ⟨0x02000001⟩
  kind := .class_
  flags := 0
  name := "Left"
  nameSpace := ""
  fullName := "Left"
  extends_ := ⟨.typeDef, 2⟩
  enclosing := none

def sampleRight : TypeDefinition := { sampleLeft with
  id := ⟨⟨0⟩, 2⟩, token := ⟨0x02000002⟩, name := "Right", fullName := "Right"
  extends_ := ⟨.typeDef, 1⟩ }

def sampleRun : Method where
  id := ⟨sampleRight.id, 0⟩
  rid := 1
  token := ⟨0x06000001⟩
  isConstructor := false
  rva := 0
  implFlags := 0
  flags := 0
  name := "Run"
  signature := 0

def sampleCircle : Session :=
  let types := ((Session.new none 0).store (.definition sampleLeft.id) sampleLeft).store
    (.definition sampleRight.id) sampleRight
  let bases := (types.store (.base sampleLeft.id) (some ⟨.class_, sampleRight.id, []⟩)).store
    (.base sampleRight.id) (some ⟨.class_, sampleLeft.id, []⟩)
  (bases.store (.methods sampleLeft.id) []).store (.methods sampleRight.id) [sampleRun]

structure InCircle (t base : TypeDefinition) (methods : List Method) : Prop where
  methods : t.methods sampleCircle = .ok methods sampleCircle
  derives : t.base sampleCircle = .ok (some ⟨.class_, base.id, []⟩) sampleCircle
  lives : liveType base.id sampleCircle = .ok base sampleCircle

open Lookup Query

def sampleQuery (name : String) : Query Method := .method name { inherited := true }

theorem InCircle.level {t base : TypeDefinition} {methods found : List Method} {name : String}
    {visited : List TypeId} {s' : Session} (inCircle : InCircle t base methods) :
    (sampleQuery name).Level ⟨visited, t, sampleCircle⟩ found s' ↔
      found = methods.filter (·.name == name) ∧ s' = sampleCircle := by
  have tested : ∀ m ∈ methods,
      Known ((sampleQuery name).test m) sampleCircle (m.name == name) := by
    intro m _
    change Known (if m.name == name then return true else return false) sampleCircle
      (m.name == name)
    cases m.name == name <;> rfl
  have selected := known_filterM tested
  constructor
  · rintro ⟨members, between, declared, ran⟩
    cases inCircle.methods.symm.trans declared
    cases selected.symm.trans ran
    exact ⟨rfl, rfl⟩
  · rintro ⟨rfl, rfl⟩
    exact ⟨methods, sampleCircle, inCircle.methods, selected⟩

theorem InCircle.next {t base : TypeDefinition} {methods : List Method} {name : String}
    {visited : List TypeId} (inCircle : InCircle t base methods) (fresh : t.id ∉ visited)
    (nothing : methods.filter (·.name == name) = []) : (sampleQuery name).Next
      ⟨visited, t, sampleCircle⟩ ⟨t.id :: visited, base, sampleCircle⟩ :=
  .base fresh (inCircle.level.2 ⟨nothing.symm, rfl⟩) rfl inCircle.derives inCircle.lives

end CliMetadata
