import CliMetadata.Proofs.Binding.Cycles

set_option autoImplicit false

namespace CliMetadata.Binding

variable {α β : Type} {x : Binding α} {s s' : Session} {value : α}

def Known (x : Binding α) (s : Session) (value : α) : Prop := x s = .ok value s

theorem Known.unique {other : α} (known : Known x s value) (known' : Known x s other) :
    value = other := by
  cases known.symm.trans known'
  rfl

theorem Settles.known (settles : Settles x) (ran : x s = .ok value s') {later : Session}
    (grown : s'.Grows later) : Known x later value :=
  settles.again ran grown

theorem Known.grown (known : Known x s value) (settles : Settles x) (grown : s.Grows s') :
    Known x s' value :=
  settles.again known grown

@[simp] theorem known_pure {other : α} : Known (pure value) s other ↔ value = other := by
  refine ⟨fun known => ?_, fun same => ?_⟩
  · cases known
    rfl
  · subst same
    rfl

-- Nothing is left to do in the rest either, as it starts where the first part is known.
theorem known_bind {f : α → Binding β} {result : β} (settles : Settles x)
    (rest : ∀ v, Growing (f v)) :
    Known (x >>= f) s result ↔ ∃ v, Known x s v ∧ Known (f v) s result := by
  refine ⟨fun known => ?_, fun ⟨v, first, second⟩ => ?_⟩
  · obtain ⟨v, between, first, second⟩ := ok_of_bind_ok known
    have again : x s = .ok v s := settles.again first (rest v second)
    cases first.symm.trans again
    exact ⟨v, again, second⟩
  · exact (bind_after_ok first f).trans second

theorem known_map {f : α → β} {result : β} (settles : Settles x) :
    Known (do return f (← x)) s result ↔ ∃ v, Known x s v ∧ f v = result := by
  simp only [known_bind settles fun v => (Settles.pure (f v)).growing, known_pure]

section
variable {test other : Binding Bool}

def andThen (test other : Binding Bool) : Binding Bool := do
  if !(← test) then
    return false
  other

theorem Settles.andThen (first : Settles test) (second : Settles other) :
    Settles (andThen test other) := by
  apply first.bind
  intro passed
  cases passed with
  | false => exact .pure false
  | true => exact second

theorem known_andThen (first : Settles test) (second : Settles other) :
    Known (andThen test other) s true ↔ Known test s true ∧ Known other s true := by
  have rest : ∀ passed, Settles (if !passed then return false else other) := by
    rintro (_ | _)
    · exact .pure false
    · exact second
  refine (known_bind first fun passed => (rest passed).growing).trans ?_
  refine ⟨?_, fun ⟨passed, final⟩ => ⟨true, passed, final⟩⟩
  rintro ⟨_ | _, passed, final⟩
  · exact nomatch known_pure.1 final
  · exact ⟨passed, final⟩

end

open Classical in
theorem filterAuxM_ok {test : α → Binding Bool} (settles : ∀ v, Settles (test v)) {values : List α}
    {kept found : List α} (ran : values.filterAuxM test kept s = .ok found s') : s.Grows s' ∧
      (∀ v ∈ values, ∃ answer, Known (test v) s' answer) ∧
      found = (values.filter fun v => Known (test v) s' true).reverse ++ kept := by
  induction values generalizing kept s with
  | nil =>
    cases ran
    exact ⟨.refl _, List.forall_mem_nil _, rfl⟩
  | cons v values ih =>
    obtain ⟨answer, between, answered, ran⟩ := ok_of_bind_ok ran
    obtain ⟨grown, known, found⟩ := ih ran
    have own : Known (test v) s' answer := (settles v).known answered grown
    refine ⟨((settles v).growing answered).trans grown,
      List.forall_mem_cons.2 ⟨⟨answer, own⟩, known⟩, found.trans ?_⟩
    cases answer with
    | true => simp [own]
    | false =>
      have fails : ¬Known (test v) s' true := fun passes => nomatch own.unique passes
      simp [fails]

open Classical in
theorem filterM_ok {test : α → Binding Bool} (settles : ∀ v, Settles (test v)) {values : List α}
    {found : List α} (ran : values.filterM test s = .ok found s') : s.Grows s' ∧
      (∀ v ∈ values, ∃ answer, Known (test v) s' answer) ∧
      found = values.filter fun v => Known (test v) s' true := by
  obtain ⟨last, _, selected, reversed⟩ := ok_of_bind_ok ran
  cases reversed
  obtain ⟨grown, known, found⟩ := filterAuxM_ok settles selected
  refine ⟨grown, known, ?_⟩
  rw [found, List.append_nil, List.reverse_reverse]

open Classical in
theorem filter_known_grown {test : α → Binding Bool} (settles : ∀ v, Settles (test v))
    {values : List α} (known : ∀ v ∈ values, ∃ answer, Known (test v) s answer)
    (grown : s.Grows s') : (values.filter fun v => Known (test v) s true) =
      values.filter fun v => Known (test v) s' true := by
  refine List.filter_congr fun v member => decide_eq_decide.2 ?_
  obtain ⟨answer, own⟩ := known v member
  have later := own.grown (settles v) grown
  exact ⟨fun passes => passes.grown (settles v) grown, fun passes => later.unique passes ▸ own⟩

theorem known_filterM {test : α → Binding Bool} {answer : α → Bool} {values : List α}
    (known : ∀ v ∈ values, Known (test v) s (answer v)) :
    Known (values.filterM test) s (values.filter answer) := by
  have aux (kept : List α) : Known (values.filterAuxM test kept) s
      ((values.filter answer).reverse ++ kept) := by
    induction values generalizing kept with
    | nil => rfl
    | cons v values ih =>
      obtain ⟨own, further⟩ := List.forall_mem_cons.1 known
      refine (bind_after_ok own _).trans ((ih further _).trans ?_)
      cases passed : answer v <;> simp [passed]
  refine (bind_after_ok (aux []) _).trans ?_
  rw [List.append_nil, List.reverse_reverse]
  rfl

end CliMetadata.Binding
