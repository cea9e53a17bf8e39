import CliMetadata.Bytes.Cursor

set_option autoImplicit false

namespace CliMetadata

namespace Cursor

def unread (c : Cursor) : List UInt8 := c.data.data.toList.drop c.pos

@[simp] theorem unread_start (data : ByteArray) :
    ({ data } : Cursor).unread = data.data.toList := rfl

theorem remaining_eq (c : Cursor) : c.remaining = c.unread.length := by
  simp [remaining, unread]

@[simp] theorem hasMore_iff (c : Cursor) : c.hasMore = true ↔ c.unread ≠ [] := by
  simp [hasMore, unread]

theorem peek?_eq (c : Cursor) : c.peek? = c.unread.head? := by
  unfold peek? unread
  rw [List.head?_drop]
  split
  next inside =>
    have within : c.pos < c.data.data.toList.length := by simpa using inside
    rw [List.getElem?_eq_getElem within, ByteArray.getElem_eq_getElem_data,
      Array.getElem_toList]
  next outside =>
    have beyond : c.data.data.toList.length ≤ c.pos := by simpa using outside
    rw [List.getElem?_eq_none beyond]

@[simp] theorem unread_move (c : Cursor) (step : Nat) :
    (c.move step).unread = c.unread.drop step := by
  simp [move, unread, List.drop_drop]

theorem unread_move_append {c : Cursor} {bytes rest : List UInt8}
    (h : c.unread = bytes ++ rest) : (c.move bytes.length).unread = rest := by
  rw [unread_move, h, List.drop_left]

@[simp] theorem move_move (c : Cursor) (m n : Nat) : (c.move m).move n = c.move (m + n) := by
  simp [move, Nat.add_assoc]

end Cursor

namespace Reader

variable {α β : Type}

/-- The reader succeeds exactly where bytes stand that `R` ties to its answer, in front of the
bytes behind them, and it steps over those bytes. -/
def Takes (reader : Reader α) (R : List UInt8 → List UInt8 → α → Prop) : Prop :=
  ∀ c value c', reader c = .ok value c' ↔
    ∃ bytes rest, c.unread = bytes ++ rest ∧ R bytes rest value ∧ c' = c.move bytes.length

theorem bind_ok {x : Reader α} {f : α → Reader β} {c c' : Cursor} {value : β} :
    (x >>= f) c = .ok value c' ↔ ∃ a middle, x c = .ok a middle ∧ f a middle = .ok value c' := by
  change EStateM.bind x f c = _ ↔ _
  unfold EStateM.bind
  split
  next a middle ran =>
    constructor
    · intro went
      exact ⟨a, middle, ran, went⟩
    · rintro ⟨b, other, ranAlso, went⟩
      rw [ran] at ranAlso
      cases ranAlso
      exact went
  next e middle ran =>
    constructor
    · intro went
      cases went
    · rintro ⟨b, other, ranAlso, _⟩
      rw [ran] at ranAlso
      cases ranAlso

theorem bind_error {x : Reader α} {f : α → Reader β} {c c' : Cursor} {e : Error} :
    (x >>= f) c = .error e c' ↔
      x c = .error e c' ∨ ∃ a middle, x c = .ok a middle ∧ f a middle = .error e c' := by
  change EStateM.bind x f c = _ ↔ _
  unfold EStateM.bind
  cases x c with
  | ok a middle =>
    constructor
    · intro went
      exact .inr ⟨a, middle, rfl, went⟩
    · rintro (⟨⟨⟩⟩ | ⟨_, _, ⟨⟩, went⟩)
      exact went
  | error other middle =>
    constructor
    · intro went
      cases went
      exact .inl rfl
    · rintro (⟨⟨⟩⟩ | ⟨_, _, ⟨⟩, _⟩)
      rfl

theorem runOn_ok {reader : Reader α} {data : ByteArray} {value : α} :
    reader.runOn data = .ok value ↔ ∃ c', reader { data } = .ok value c' := by
  have same : reader.run { data } = reader { data } := rfl
  rw [runOn, same]
  cases reader { data } with
  | ok other c' => simp
  | error e c' => simp

theorem runOn_error {reader : Reader α} {data : ByteArray} {e : Error} {c' : Cursor}
    (failed : reader { data } = .error e c') : reader.runOn data = .error e := by
  have same : reader.run { data } = reader { data } := rfl
  rw [runOn, same, failed]

theorem Takes.congr {reader : Reader α} {R S : List UInt8 → List UInt8 → α → Prop}
    (takes : reader.Takes R) (same : ∀ bytes rest value, R bytes rest value ↔ S bytes rest value) :
    reader.Takes S := by
  intro c value c'
  simp only [takes c value c', same]

theorem takes_pure (a : α) : Takes (pure a) fun bytes _ value => bytes = [] ∧ value = a := by
  intro c value c'
  change EStateM.Result.ok a c = .ok value c' ↔ _
  constructor
  · intro h
    cases h
    exact ⟨[], c.unread, rfl, ⟨rfl, rfl⟩, rfl⟩
  · rintro ⟨_, _, _, ⟨rfl, rfl⟩, rfl⟩
    rfl

theorem takes_throw (e : Error) : Takes (throw e : Reader α) fun _ _ _ => False := by
  intro c value c'
  constructor
  · intro h
    cases h
  · rintro ⟨_, _, _, impossible, _⟩
    exact impossible.elim

theorem takes_malformed (defect : Defect) :
    Takes (malformed defect : Reader α) fun _ _ _ => False :=
  takes_throw _

theorem takes_bind_malformed (x : Reader α) (defect : α → Defect) :
    Takes (x >>= fun a => (malformed (defect a) : Reader β)) fun _ _ _ => False := by
  intro c value c'
  rw [bind_ok]
  constructor
  · rintro ⟨a, middle, _, refused⟩
    cases refused
  · rintro ⟨_, _, _, impossible, _⟩
    exact impossible.elim

theorem Takes.bind {x : Reader α} {f : α → Reader β} {R : List UInt8 → List UInt8 → α → Prop}
    {S : α → List UInt8 → List UInt8 → β → Prop} (first : x.Takes R)
    (next : ∀ a, (f a).Takes (S a)) :
    (x >>= f).Takes fun bytes rest value =>
      ∃ front back a, bytes = front ++ back ∧ R front (back ++ rest) a ∧ S a back rest value := by
  intro c value c'
  rw [bind_ok]
  constructor
  · rintro ⟨a, middle, ran, went⟩
    obtain ⟨front, behind, unread, taken, rfl⟩ := (first _ _ _).1 ran
    obtain ⟨back, rest, left, takenNext, rfl⟩ := (next a _ _ _).1 went
    rw [Cursor.unread_move_append unread] at left
    subst left
    refine ⟨front ++ back, rest, ?_, ⟨front, back, a, rfl, taken, takenNext⟩, ?_⟩
    · rw [unread, List.append_assoc]
    · simp
  · rintro ⟨_, rest, unread, ⟨front, back, a, rfl, taken, takenNext⟩, rfl⟩
    rw [List.append_assoc] at unread
    refine ⟨a, c.move front.length, (first _ _ _).2 ⟨front, _, unread, taken, rfl⟩, ?_⟩
    refine (next a _ _ _).2 ⟨back, rest, Cursor.unread_move_append unread, takenNext, ?_⟩
    simp

theorem Takes.map {x : Reader α} {R : List UInt8 → List UInt8 → α → Prop} (takes : x.Takes R)
    (f : α → β) : (x >>= fun a => pure (f a)).Takes fun bytes rest value =>
      ∃ a, R bytes rest a ∧ value = f a := by
  refine (takes.bind fun a => takes_pure (f a)).congr ?_
  intro bytes rest value
  constructor
  · rintro ⟨front, _, a, rfl, holds, rfl, rfl⟩
    exact ⟨a, by simpa using holds, rfl⟩
  · rintro ⟨a, holds, rfl⟩
    exact ⟨bytes, [], a, by simp, holds, rfl, rfl⟩

theorem Takes.ite {p : Prop} [Decidable p] {x y : Reader α}
    {R S : List UInt8 → List UInt8 → α → Prop} (yes : x.Takes R) (no : y.Takes S) :
    Takes (if p then x else y) fun bytes rest value =>
      (p ∧ R bytes rest value) ∨ (¬p ∧ S bytes rest value) := by
  by_cases holds : p
  · simpa [holds] using yes
  · simpa [holds] using no

def Gives (reader : Reader α) (S : List UInt8 → α → Prop) : Prop :=
  ∀ c value c', reader c = .ok value c' →
    ∃ bytes rest, c.unread = bytes ++ rest ∧ S bytes value ∧ c' = c.move bytes.length

theorem Takes.gives {reader : Reader α} {R : List UInt8 → List UInt8 → α → Prop}
    {S : List UInt8 → α → Prop} (takes : reader.Takes R)
    (implies : ∀ bytes rest value, R bytes rest value → S bytes value) : reader.Gives S := by
  intro c value c' ran
  obtain ⟨bytes, rest, unread, holds, moved⟩ := (takes c value c').1 ran
  exact ⟨bytes, rest, unread, implies bytes rest value holds, moved⟩

theorem Gives.ite {p : Prop} [Decidable p] {x y : Reader α} {S : List UInt8 → α → Prop}
    (yes : p → x.Gives S) (no : ¬p → y.Gives S) : Gives (if p then x else y) S := by
  by_cases holds : p
  · rw [if_pos holds]
    exact yes holds
  · rw [if_neg holds]
    exact no holds

theorem Takes.iteBind {p : Prop} [Decidable p] {x y : Reader α} {f : α → Reader β}
    {R : List UInt8 → List UInt8 → α → Prop} {S : α → List UInt8 → List UInt8 → β → Prop}
    (first : Takes (if p then x else y) R) (next : ∀ a, (f a).Takes (S a)) :
    Takes (if p then x >>= f else y >>= f) fun bytes rest value =>
      ∃ front back a, bytes = front ++ back ∧ R front (back ++ rest) a ∧ S a back rest value := by
  have chosen := first.bind next
  by_cases holds : p
  · simpa [holds] using chosen
  · simpa [holds] using chosen

theorem Takes.check {p : Prop} [Decidable p] {defect : Defect} {next : Unit → Reader α}
    {R : List UInt8 → List UInt8 → α → Prop} (takes : (next ()).Takes R) :
    Takes (if p then malformed defect >>= next else next ()) fun bytes rest value =>
      ¬p ∧ R bytes rest value := by
  have refused : (malformed defect >>= next).Takes fun _ _ _ => False := by
    intro c value c'
    rw [bind_ok]
    constructor
    · rintro ⟨_, _, ⟨⟩, _⟩
    · rintro ⟨_, _, _, impossible, _⟩
      exact impossible.elim
  simpa using refused.ite takes

def Spells (reader : Reader α) (bytes : List UInt8) (value : α) : Prop :=
  ∀ c rest, c.unread = bytes ++ rest → reader c = .ok value (c.move bytes.length)

theorem Takes.spells {reader : Reader α} {R : List UInt8 → List UInt8 → α → Prop}
    (takes : reader.Takes R) {bytes : List UInt8} {value : α} (holds : ∀ rest, R bytes rest value) :
    reader.Spells bytes value :=
  fun _ rest unread => (takes _ _ _).2 ⟨bytes, rest, unread, holds rest, rfl⟩

theorem spells_pure (a : α) : Spells (pure a) [] a := fun _ _ _ => rfl

theorem Spells.bind {x : Reader α} {f : α → Reader β} {front back : List UInt8} {a : α} {b : β}
    (first : x.Spells front a) (next : (f a).Spells back b) :
    (x >>= f).Spells (front ++ back) b := by
  intro c rest unread
  rw [List.append_assoc] at unread
  refine bind_ok.2 ⟨a, _, first c _ unread, ?_⟩
  rw [next _ rest (Cursor.unread_move_append unread), Cursor.move_move, List.length_append]

theorem Spells.map {x : Reader α} {bytes : List UInt8} {a : α} (spells : x.Spells bytes a)
    (f : α → β) : Spells (do return f (← x)) bytes (f a) := by
  simpa using spells.bind (f := fun a => pure (f a)) (spells_pure (f a))

theorem takes_byte : byte.Takes fun bytes _ value => bytes = [value] := by
  intro c value c'
  unfold byte
  rw [Cursor.peek?_eq]
  cases unread : c.unread with
  | nil =>
    simp only [List.head?_nil]
    constructor
    · intro h
      cases h
    · rintro ⟨_, _, nothing, rfl, _⟩
      cases nothing
  | cons first rest =>
    simp only [List.head?_cons]
    constructor
    · intro h
      cases h
      exact ⟨[value], rest, rfl, rfl, rfl⟩
    · rintro ⟨_, _, split, rfl, rfl⟩
      cases split
      rfl

theorem spells_byte (b : UInt8) : byte.Spells [b] b := takes_byte.spells fun _ => rfl

theorem takes_peek :
    peek.Takes fun bytes rest value => bytes = [] ∧ rest.head? = some value := by
  intro c value c'
  unfold peek
  rw [Cursor.peek?_eq]
  constructor
  · intro h
    split at h
    next b head =>
      cases h
      exact ⟨[], c.unread, rfl, ⟨rfl, head⟩, rfl⟩
    next => cases h
  · rintro ⟨_, rest, unread, ⟨rfl, head⟩, rfl⟩
    rw [unread, List.nil_append, head]
    rfl

theorem takes_next? :
    next?.Takes fun bytes rest value => bytes = [] ∧ value = rest.head? := by
  intro c value c'
  unfold next?
  rw [Cursor.peek?_eq]
  constructor
  · intro h
    cases h
    exact ⟨[], c.unread, rfl, ⟨rfl, rfl⟩, rfl⟩
  · rintro ⟨_, rest, unread, ⟨rfl, rfl⟩, rfl⟩
    rw [unread]
    rfl

theorem takes_remaining :
    remaining.Takes fun bytes rest value => bytes = [] ∧ value = rest.length := by
  intro c value c'
  unfold remaining
  rw [Cursor.remaining_eq]
  constructor
  · intro h
    cases h
    exact ⟨[], c.unread, rfl, ⟨rfl, rfl⟩, rfl⟩
  · rintro ⟨_, rest, unread, ⟨rfl, rfl⟩, rfl⟩
    rw [unread]
    rfl

theorem takes_consumeIf (expected : UInt8) :
    (consumeIf expected).Takes fun bytes rest value =>
      (value = true ∧ bytes = [expected]) ∨
        (value = false ∧ bytes = [] ∧ rest.head? ≠ some expected) := by
  intro c value c'
  unfold consumeIf
  rw [Cursor.peek?_eq]
  constructor
  · intro h
    split at h
    next head =>
      cases h
      obtain ⟨rest, unread⟩ := List.head?_eq_some_iff.1 head
      exact ⟨[expected], rest, unread, .inl ⟨rfl, rfl⟩, rfl⟩
    next head =>
      cases h
      exact ⟨[], c.unread, rfl, .inr ⟨rfl, rfl, head⟩, rfl⟩
  · rintro ⟨_, rest, unread, ⟨rfl, rfl⟩ | ⟨rfl, rfl, head⟩, rfl⟩
    · rw [unread, if_pos (by simp)]
      rfl
    · rw [unread, List.nil_append, if_neg head]
      rfl

theorem toList_extract {c : Cursor} {bytes rest : List UInt8} (h : c.unread = bytes ++ rest) :
    (c.data.extract c.pos (c.pos + bytes.length)).data.toList = bytes := by
  have front : c.unread.take bytes.length = bytes := by rw [h, List.take_left]
  simpa [Cursor.unread, List.take_drop] using front

theorem takes_bytes (length : Nat) :
    (bytes length).Takes fun bytes _ value =>
      bytes.length = length ∧ value.data.toList = bytes := by
  intro c value c'
  unfold Reader.bytes
  rw [Cursor.remaining_eq]
  constructor
  · intro h
    split at h
    next fits =>
      cases h
      have split := (List.take_append_drop length c.unread).symm
      have count : (c.unread.take length).length = length := by rw [List.length_take]; omega
      refine ⟨c.unread.take length, c.unread.drop length, split, ⟨count, ?_⟩, by rw [count]⟩
      simpa [count] using toList_extract split
    next => cases h
  · rintro ⟨taken, rest, unread, ⟨rfl, held⟩, rfl⟩
    rw [if_pos (by simp [unread])]
    have same : c.data.extract c.pos (c.pos + taken.length) = value :=
      ByteArray.ext (Array.toList_inj.1 (by rw [toList_extract unread, held]))
    rw [same]

end Reader

end CliMetadata
