import CliMetadata.Heap.Blobs
import CliMetadata.Proofs.Bytes.Compressed
import CliMetadata.Proofs.Running

set_option autoImplicit false

namespace CliMetadata

namespace BlobHeap

variable {heap : BlobHeap} {position stop : Nat}

/-- From a position up to another one stands a blob behind its length. The length may have any of
the forms of its number. -/
def Entry (heap : BlobHeap) (position : Nat) (blob : ByteArray) (stop : Nat) : Prop :=
  ∃ lead rest, UintForm lead blob.size ∧
    heap.data.data.toList.drop position = lead ++ blob.data.toList ++ rest ∧
    stop = position + lead.length + blob.size

theorem Entry.lt {blob : ByteArray} (here : heap.Entry position blob stop) : position < stop := by
  obtain ⟨lead, _, form, _, rfl⟩ := here
  have := form.length_pos
  omega

theorem Entry.le_size {blob : ByteArray} (here : heap.Entry position blob stop) :
    stop ≤ heap.data.size := by
  obtain ⟨lead, rest, form, split, rfl⟩ := here
  have lengths := congrArg List.length split
  have := form.length_pos
  simp only [List.length_drop, Array.length_toList, List.length_append, ByteArray.size_data]
    at lengths
  omega

theorem takes_entry : entry.Takes fun bytes _ blob =>
    ∃ lead, UintForm lead blob.size ∧ bytes = lead ++ blob.data.toList := by
  refine (Reader.Takes.bind Reader.takes_compressedUint Reader.takes_bytes).congr ?_
  intro bytes rest blob
  constructor
  · rintro ⟨lead, _, length, rfl, form, rfl, rfl⟩
    exact ⟨lead, by simpa using form, rfl⟩
  · rintro ⟨lead, form, rfl⟩
    exact ⟨lead, _, _, rfl, form, by simp, rfl⟩

theorem entryAt_ok {blob : ByteArray} {taken : Nat} :
    heap.entryAt position = .ok (blob, taken) ↔ heap.Entry position blob (position + taken) := by
  let start : Cursor := { data := heap.data.extract position heap.data.size }
  have unread : start.unread = heap.data.data.toList.drop position := by
    simp [start, List.take_of_length_le]
  have ran : heap.entryAt position = .ok (blob, taken) ↔
      ∃ c', entry start = .ok blob c' ∧ c'.pos = taken := by
    unfold entryAt EStateM.run
    cases entry start with
    | ok other c' =>
      constructor
      · rintro ⟨⟩
        exact ⟨c', rfl, rfl⟩
      · rintro ⟨_, ⟨⟩, rfl⟩
        rfl
    | error e c' => simp
  rw [ran]
  constructor
  · rintro ⟨_, took, rfl⟩
    obtain ⟨_, rest, split, ⟨lead, form, rfl⟩, rfl⟩ := (takes_entry _ _ _).1 took
    refine ⟨lead, rest, form, unread ▸ split, ?_⟩
    simp [start, Cursor.move, Nat.add_assoc]
  · rintro ⟨lead, rest, form, split, reach⟩
    have took := (takes_entry start blob _).2 ⟨_, rest, unread.trans split, ⟨lead, form, rfl⟩, rfl⟩
    refine ⟨_, took, ?_⟩
    simp only [start, Cursor.move, List.length_append, Array.length_toList, ByteArray.size_data]
    omega

theorem get_ok {blob : ByteArray} :
    heap.get position = .ok blob ↔ ∃ stop, heap.Entry position blob stop := by
  unfold get
  constructor
  · intro got
    split at got
    next =>
      cases read : heap.entryAt position with
      | ok found =>
        rw [read] at got
        cases got
        exact ⟨_, entryAt_ok.1 read⟩
      | error e =>
        rw [read] at got
        cases got
    next => cases got
  · rintro ⟨stop, here⟩
    have ahead := here.lt
    have inside := here.le_size
    obtain ⟨taken, rfl⟩ := Nat.exists_eq_add_of_le (Nat.le_of_lt ahead)
    rw [if_pos (by omega), entryAt_ok.2 here]
    rfl

theorem next_some {item : Item} (met : heap.next position = some (item, stop)) :
    (∃ blob, item = .blob position blob ∧ heap.Entry position blob stop) ∨
    ∃ e, item = .fault e ∧ position < heap.data.size ∧ heap.get position = .error e ∧
      stop = heap.data.size := by
  unfold next at met
  split at met
  next inside =>
    split at met
    next bytes taken read =>
      cases met
      exact .inl ⟨bytes, rfl, entryAt_ok.1 read⟩
    next e read =>
      cases met
      refine .inr ⟨e, rfl, inside, ?_, rfl⟩
      rw [get, if_pos inside, read]
      rfl
  next => cases met

@[simp] theorem next_eq_none : heap.next position = none ↔ heap.data.size ≤ position := by
  unfold next
  split
  next inside => split <;> simp [inside]
  next outside => simpa using outside

theorem next_advances {item : Item} (met : heap.next position = some (item, stop)) :
    position < stop ∧ stop ≤ heap.data.size := by
  obtain ⟨blob, -, here⟩ | ⟨e, -, inside, -, rfl⟩ := next_some met
  · exact ⟨here.lt, here.le_size⟩
  · exact ⟨inside, Nat.le_refl _⟩

inductive Visits (heap : BlobHeap) : Nat → List Item → Prop
  | done {position : Nat} (ended : heap.next position = none) : Visits heap position []
  | step {position behind : Nat} {item : Item} {items : List Item}
    (met : heap.next position = some (item, behind)) (later : Visits heap behind items) :
    Visits heap position (item :: items)

/-- The items are the entries that stand one behind the other from a position up to another. -/
inductive Tiles (heap : BlobHeap) : Nat → List Item → Nat → Prop
  | done {position : Nat} : Tiles heap position [] position
  | entry {position behind stop : Nat} {blob : ByteArray} {items : List Item}
    (here : heap.Entry position blob behind) (later : Tiles heap behind items stop) :
    Tiles heap position (.blob position blob :: items) stop

-- Every step moves on, so the bytes ahead bound the number of steps.
theorem walk_visits (fuel : Nat) (enough : heap.data.size ≤ position + fuel) :
    heap.Visits position (heap.walk fuel position) := by
  induction fuel generalizing position with
  | zero => exact .done (next_eq_none.2 enough)
  | succ fuel ih =>
    unfold walk
    split
    next item behind met =>
      have := next_advances met
      exact .step met (ih (by omega))
    next ended => exact .done ended

theorem Visits.tiles {items : List Item} (visits : heap.Visits position items)
    (inside : position ≤ heap.data.size) : ∃ blobs stop, heap.Tiles position blobs stop ∧
      ((items = blobs ∧ stop = heap.data.size) ∨
        ∃ e, items = blobs ++ [.fault e] ∧ stop < heap.data.size ∧ heap.get stop = .error e) := by
  induction visits with
  | done ended =>
    have beyond := next_eq_none.1 ended
    exact ⟨[], _, .done, .inl ⟨rfl, Nat.le_antisymm inside beyond⟩⟩
  | @step position behind item items met later ih =>
    obtain ⟨blob, rfl, here⟩ | ⟨e, rfl, ahead, failed, rfl⟩ := next_some met
    · obtain ⟨blobs, stop, tiles, last⟩ := ih here.le_size
      refine ⟨_, stop, .entry here tiles, ?_⟩
      obtain ⟨rfl, reached⟩ | ⟨e, rfl, short, failed⟩ := last
      · exact .inl ⟨rfl, reached⟩
      · exact .inr ⟨e, rfl, short, failed⟩
    · -- The walk stands at the end of the heap, where nothing more is met.
      cases later with
      | done => exact ⟨[], position, .done, .inr ⟨e, rfl, ahead, failed⟩⟩
      | step beyond =>
        have := next_advances beyond
        omega

theorem Tiles.get {blobs : List Item} (tiles : heap.Tiles position blobs stop) {offset : Nat}
    {bytes : ByteArray} (member : .blob offset bytes ∈ blobs) : heap.get offset = .ok bytes := by
  induction tiles with
  | done => cases member
  | entry here _ ih =>
    cases member with
    | head => exact get_ok.2 ⟨_, here⟩
    | tail _ member => exact ih member

theorem size_pos {data : ByteArray} (made : ofBytes data = .ok heap) : 0 < heap.data.size := by
  unfold ofBytes at made
  split at made
  next zero =>
    cases made
    exact (Array.getElem?_eq_some_iff.1 zero).1
  next => cases made

/-- The steps from offset 1 on meet the listed items and then end. Each blob is the one at its
offset, and the blobs tile the heap from 1 on: up to its end, or up to an entry that cannot be read,
which is the last thing met. -/
theorem items_tile {data : ByteArray} (made : ofBytes data = .ok heap) :
    heap.Visits 1 heap.items ∧
    (∀ offset bytes, .blob offset bytes ∈ heap.items → heap.get offset = .ok bytes) ∧
    ∃ blobs stop, heap.Tiles 1 blobs stop ∧
      ((heap.items = blobs ∧ stop = heap.data.size) ∨
        ∃ e, heap.items = blobs ++ [.fault e] ∧ stop < heap.data.size ∧
          heap.get stop = .error e) := by
  have visits : heap.Visits 1 heap.items := walk_visits _ (Nat.le_add_left _ _)
  obtain ⟨blobs, stop, tiles, last⟩ := visits.tiles (size_pos made)
  refine ⟨visits, fun offset bytes member => ?_, blobs, stop, tiles, last⟩
  obtain ⟨same, -⟩ | ⟨e, same, -⟩ := last
  · exact tiles.get (same ▸ member)
  · rw [same] at member
    exact tiles.get (by simpa using member)

/-- The empty blob, one of two bytes, one whose length takes two bytes, one of no bytes, and a byte
that starts no length. -/
def mixedHeap : BlobHeap := ⟨[0, 2, 0x06, 0x08, 0x80, 1, 0xAB, 0, 0xE0].toByteArray⟩

theorem items_tile_mixedHeap : ofBytes mixedHeap.data = .ok mixedHeap ∧
    mixedHeap.items = [.blob 1 [0x06, 0x08].toByteArray, .blob 4 [0xAB].toByteArray,
      .blob 7 [].toByteArray, .fault (.malformed (.compressedUint 0 0xE0))] ∧
    mixedHeap.get 4 = .ok [0xAB].toByteArray ∧ mixedHeap.Visits 1 mixedHeap.items := by
  have made : ofBytes mixedHeap.data = .ok mixedHeap := rfl
  have first : mixedHeap.next 1 = some (.blob 1 [0x06, 0x08].toByteArray, 4) := rfl
  have second : mixedHeap.next 4 = some (.blob 4 [0xAB].toByteArray, 7) := by
    have read : mixedHeap.entryAt 4 = .ok ([0xAB].toByteArray, 3) :=
      except_toOption_some.1 (by decide +kernel)
    rw [next, read]
    rfl
  have third : mixedHeap.next 7 = some (.blob 7 [].toByteArray, 8) := rfl
  have last : mixedHeap.next 8 = some (.fault (.malformed (.compressedUint 0 0xE0)), 9) := rfl
  have ended : mixedHeap.next 9 = none := rfl
  have listed : mixedHeap.items = [.blob 1 [0x06, 0x08].toByteArray, .blob 4 [0xAB].toByteArray,
      .blob 7 [].toByteArray, .fault (.malformed (.compressedUint 0 0xE0))] := by
    change mixedHeap.walk 9 1 = _
    simp only [walk, first, second, third, last, ended]
  obtain ⟨visits, agree, -⟩ := items_tile made
  exact ⟨made, listed, agree 4 _ (by simp [listed]), visits⟩

end BlobHeap

end CliMetadata
