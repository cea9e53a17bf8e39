import CliMetadata.Proofs.Table.Runs

set_option autoImplicit false

namespace CliMetadata

section
variable {α β : Type} {R : α → β → Prop} {values : List α} {results : List β}

theorem exists_of_mem_right (related : List.Forall₂ R values results) {result : β}
    (member : result ∈ results) : ∃ value ∈ values, R value result := by
  induction related with
  | nil => cases member
  | cons first _ ih =>
    rcases List.mem_cons.1 member with rfl | later
    · exact ⟨_, List.mem_cons_self, first⟩
    · obtain ⟨value, inside, holds⟩ := ih later
      exact ⟨value, List.mem_cons_of_mem _ inside, holds⟩

theorem nodup_of_forall₂ (apart : ∀ value other result, R value result → R other result →
    value = other) (nodup : values.Nodup) (related : List.Forall₂ R values results) :
    results.Nodup := by
  induction related with
  | nil => exact .nil
  | cons first rest ih =>
    obtain ⟨new, nodup⟩ := List.nodup_cons.1 nodup
    refine List.nodup_cons.2 ⟨fun member => new ?_, ih nodup⟩
    obtain ⟨other, inside, holds⟩ := exists_of_mem_right rest member
    exact apart _ _ _ holds first ▸ inside

end

namespace TableStream

def StartsAt (s : TableStream) (list : ChildList) (parent start : Nat) : Prop :=
  ∃ view row, s.view? list.parent = some view ∧ view.get? parent = .ok row ∧
    storedStart list row = start

variable {s : TableStream} {list : ChildList}

theorem StartsAt.unique {parent start other : Nat} (first : s.StartsAt list parent start)
    (second : s.StartsAt list parent other) : start = other := by
  obtain ⟨view, row, found, got, rfl⟩ := first
  obtain ⟨_, _, same, again, rfl⟩ := second
  cases found.symm.trans same
  cases got.symm.trans again
  rfl

theorem runStart_ok {parent start n n' : Nat} (ran : s.runStart list parent n = .ok start n') :
    s.StartsAt list parent start := by
  unfold runStart at ran
  cases found : s.view? list.parent with
  | none =>
    rw [found] at ran
    cases ran
  | some view =>
    rw [found] at ran
    obtain ⟨row, _, got, same⟩ := ok_of_bind_ok ran
    cases same
    exact ⟨view, row, found, (TableView.get?_of_get got).1, rfl⟩

theorem pointed_ok {position child n n' : Nat} (pointers : s.has list.pointer = true)
    (ran : s.pointed list position n = .ok child n') : s.ChildAt list position child := by
  unfold pointed at ran
  cases found : s.view? list.pointer with
  | none =>
    rw [found] at ran
    cases ran
  | some view =>
    rw [found] at ran
    obtain ⟨row, _, got, same⟩ := ok_of_bind_ok ran
    cases same
    rw [ChildAt, if_pos pointers]
    exact ⟨view, row, found, (TableView.get?_of_get got).1, rfl⟩

structure Spans (s : TableStream) (list : ChildList) (parent start stop : Nat) : Prop where
  least : 1 ≤ start
  le : start ≤ stop
  behind : stop ≤ s.runRows list + 1
  starts : s.StartsAt list parent start
  next : parent < s.rows list.parent → s.StartsAt list (parent + 1) stop

theorem childRange_ok {parent start stop n n' : Nat}
    (ran : s.childRange list parent n = .ok (start, stop) n') : s.Spans list parent start stop := by
  unfold childRange at ran
  dsimp only at ran
  split at ran
  · cases ran
  obtain ⟨first, _, started, ran⟩ := ok_of_bind_ok ran
  have starts := runStart_ok started
  split at ran
  next more =>
    obtain ⟨last, _, stopped, ran⟩ := ok_of_bind_ok ran
    have stops := runStart_ok stopped
    split at ran
    · cases ran
    · cases ran
      exact ⟨by omega, by omega, by omega, starts, fun _ => stops⟩
  next less =>
    obtain ⟨last, _, stopped, ran⟩ := ok_of_bind_ok ran
    cases stopped
    split at ran
    · cases ran
    · cases ran
      exact ⟨by omega, by omega, by omega, starts, fun more => absurd more less⟩

theorem mapM_ran {ε σ α β : Type} {f : α → EStateM ε σ β} {values : List α} {results : List β}
    {s s' : σ} (ran : values.mapM f s = .ok results s') :
    List.Forall₂ (fun value result => ∃ s s', f value s = .ok result s') values results := by
  induction values generalizing s results with
  | nil =>
    cases ran
    exact .nil
  | cons value values ih =>
    rw [List.mapM_cons] at ran
    obtain ⟨result, between, first, ran⟩ := ok_of_bind_ok ran
    obtain ⟨others, later, rest, same⟩ := ok_of_bind_ok ran
    cases same
    exact .cons ⟨_, _, first⟩ (ih rest)

theorem children_ok {parent : Nat} {children : List Nat}
    (listed : (s.children list parent).result = .ok children) : ∃ start stop,
      s.Spans list parent start stop ∧
      List.Forall₂ (s.ChildAt list) (List.range' start (stop - start)) children := by
  rw [Scan.result_eq] at listed
  have ran := ok_of_outcome listed
  unfold TableStream.children at ran
  obtain ⟨⟨start, stop⟩, _, ranged, ran⟩ := ok_of_bind_ok ran
  refine ⟨start, stop, childRange_ok ranged, ?_⟩
  dsimp only at ran
  split at ran
  next pointers =>
    exact (mapM_ran ran).imp fun position child ⟨_, _, went⟩ => pointed_ok pointers went
  next direct =>
    cases ran
    refine List.forall₂_same.2 fun position _ => ?_
    rw [ChildAt, if_neg direct]

/-- No two rows of the pointer table, where there is one, point to the same row, and they point to
rows of the child table. -/
structure PointsApart (s : TableStream) (list : ChildList) : Prop where
  distinct : s.has list.pointer = true → ∀ position other child, s.ChildAt list position child →
    s.ChildAt list other child → position = other
  existing : s.has list.pointer = true → ∀ position child, s.ChildAt list position child →
    1 ≤ child ∧ child ≤ s.rows list.child

def AllListed (s : TableStream) (list : ChildList) : Prop :=
  ∀ parent, 1 ≤ parent → parent ≤ s.rows list.parent →
    ∃ children, (s.children list parent).result = .ok children

namespace PointsApart

variable (apart : s.PointsApart list)
include apart

theorem unique {position other child : Nat} (first : s.ChildAt list position child)
    (second : s.ChildAt list other child) : position = other := by
  by_cases pointers : s.has list.pointer = true
  · exact apart.distinct pointers position other child first second
  · rw [ChildAt, if_neg pointers] at first second
    exact first.symm.trans second

theorem exists_row {parent child : Nat} {children : List Nat}
    (listed : (s.children list parent).result = .ok children) (member : child ∈ children) :
    1 ≤ child ∧ child ≤ s.rows list.child := by
  obtain ⟨start, stop, spans, stands⟩ := children_ok listed
  obtain ⟨position, inside, at_⟩ := exists_of_mem_right stands member
  by_cases pointers : s.has list.pointer = true
  · exact apart.existing pointers position child at_
  · have rows : s.runRows list = s.rows list.child := if_neg pointers
    rw [ChildAt, if_neg pointers] at at_
    rw [List.mem_range'_1] at inside
    have := spans.least
    have := spans.behind
    omega

theorem nodup_children {parent : Nat} {children : List Nat}
    (listed : (s.children list parent).result = .ok children) : children.Nodup := by
  obtain ⟨start, stop, _, stands⟩ := children_ok listed
  have distinct (position other child : Nat) : s.ChildAt list position child →
      s.ChildAt list other child → position = other := apart.unique
  exact nodup_of_forall₂ distinct List.nodup_range' stands

end PointsApart

theorem AllListed.stops_before (all : s.AllListed list) {parent later start stop start' stop' : Nat}
    (first : s.Spans list parent start stop) (second : s.Spans list later start' stop')
    (less : parent < later) (known : later ≤ s.rows list.parent) : stop ≤ start' := by
  induction later, less using Nat.le_induction generalizing start' stop' with
  | base => exact Nat.le_of_eq ((first.next known).unique second.starts)
  | succ between less ih =>
    obtain ⟨_, listed⟩ := all between (by omega) (by omega)
    obtain ⟨start'', stop'', spans, _⟩ := children_ok listed
    have before := ih spans (by omega)
    cases (spans.next known).unique second.starts
    exact Nat.le_trans before spans.le

theorem known_of_children {parent : Nat} {children : List Nat}
    (listed : (s.children list parent).result = .ok children) :
    1 ≤ parent ∧ parent ≤ s.rows list.parent := by
  rw [Scan.result_eq] at listed
  obtain ⟨span, _, ranged, _⟩ := ok_of_bind_ok (ok_of_outcome listed)
  exact known_of_run (by rw [run, Scan.result_eq, outcome_ok ranged])

theorem AllListed.parent_unique (all : s.AllListed list) (apart : s.PointsApart list)
    {parent other child : Nat} {children others : List Nat}
    (listed : (s.children list parent).result = .ok children)
    (listed' : (s.children list other).result = .ok others) (member : child ∈ children)
    (member' : child ∈ others) : parent = other := by
  obtain ⟨start, stop, spans, stands⟩ := children_ok listed
  obtain ⟨start', stop', spans', stands'⟩ := children_ok listed'
  obtain ⟨position, inside, at_⟩ := exists_of_mem_right stands member
  obtain ⟨_, inside', at'⟩ := exists_of_mem_right stands' member'
  cases apart.unique at_ at'
  rw [List.mem_range'_1] at inside inside'
  rcases Nat.lt_trichotomy parent other with less | same | more
  · have := all.stops_before spans spans' less (known_of_children listed').2
    omega
  · exact same
  · have := all.stops_before spans' spans more (known_of_children listed).2
    omega

end TableStream

end CliMetadata
