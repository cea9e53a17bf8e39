import CliMetadata.Bytes.Writer

set_option autoImplicit false

namespace CliMetadata.Writer

variable {first second : Writer Unit} {front back : List UInt8}

def Puts (writer : Writer Unit) (bytes : List UInt8) : Prop :=
  ∀ buffer, writer buffer = .ok () (buffer ++ bytes)

theorem Puts.written (puts : first.Puts front) : first.written = .ok front := by
  rw [Writer.written, EStateM.run, puts, List.nil_append]

theorem puts_nothing : Puts (pure ()) [] := fun buffer => by
  rw [List.append_nil]
  rfl

theorem puts_byte (b : UInt8) : (byte b).Puts [b] := fun _ => rfl

theorem Puts.andThen (puts : first.Puts front) (putsToo : second.Puts back) :
    Puts (first >>= fun _ => second) (front ++ back) := by
  intro buffer
  change EStateM.bind first (fun _ => second) buffer = _
  rw [EStateM.bind, puts, ← List.append_assoc]
  exact putsToo _

theorem puts_bytes (content : List UInt8) : (bytes content).Puts content := by
  induction content with
  | nil => exact puts_nothing
  | cons b rest ih => exact (puts_byte b).andThen ih

theorem Puts.restoring (puts : first.Puts front) : first.restoring.Puts front := by
  intro buffer
  rw [Writer.restoring, puts]

def NoLongerThan (writer : Writer Unit) (bytes : List UInt8) : Prop :=
  ∃ written, writer.Puts written ∧ written.length ≤ bytes.length

theorem Puts.noLongerThan {bytes : List UInt8} (puts : first.Puts front)
    (few : front.length ≤ bytes.length) : first.NoLongerThan bytes :=
  ⟨front, puts, few⟩

theorem nothing_noLongerThan (bytes : List UInt8) : NoLongerThan (pure ()) bytes :=
  puts_nothing.noLongerThan (Nat.zero_le _)

theorem NoLongerThan.append (few : first.NoLongerThan front) (fewToo : second.NoLongerThan back) :
    NoLongerThan (first >>= fun _ => second) (front ++ back) := by
  obtain ⟨written, puts, le⟩ := few
  obtain ⟨writtenToo, putsToo, leToo⟩ := fewToo
  refine (puts.andThen putsToo).noLongerThan ?_
  rw [List.length_append, List.length_append]
  exact Nat.add_le_add le leToo

theorem byte_noLongerThan (b other : UInt8) : (byte b).NoLongerThan [other] :=
  (puts_byte b).noLongerThan (Nat.le_refl 1)

theorem NoLongerThan.cons {b other : UInt8} {bytes : List UInt8}
    (few : second.NoLongerThan bytes) :
    NoLongerThan (byte b >>= fun _ => second) (other :: bytes) :=
  (byte_noLongerThan b other).append few

theorem NoLongerThan.restoring {bytes : List UInt8} (few : first.NoLongerThan bytes) :
    first.restoring.NoLongerThan bytes := by
  obtain ⟨written, puts, le⟩ := few
  exact puts.restoring.noLongerThan le

/-- What the writer puts into an empty buffer it puts behind any other, and it fails only before it
writes. -/
def Appends (writer : Writer Unit) : Prop :=
  ∀ buffer, writer buffer =
    match writer.written with
    | .ok bytes => .ok () (buffer ++ bytes)
    | .error e => .error e buffer

theorem Puts.appends (puts : first.Puts front) : first.Appends := by
  intro buffer
  rw [puts.written, puts]

theorem Appends.puts (appends : first.Appends) (written : first.written = .ok front) :
    first.Puts front := by
  intro buffer
  rw [appends, written]

theorem appends_malformed (defect : Defect) : (malformed defect).Appends := fun _ => rfl

theorem Appends.ite {p : Prop} [Decidable p] (ifTrue : first.Appends) (ifFalse : second.Appends) :
    (if p then first else second).Appends := by
  split
  next => exact ifTrue
  next => exact ifFalse

/-- What the writer does does not depend on what the buffer holds. -/
def Steady (writer : Writer Unit) : Prop :=
  ∀ buffer, writer buffer =
    match writer [] with
    | .ok _ bytes => .ok () (buffer ++ bytes)
    | .error e begun => .error e (buffer ++ begun)

theorem Appends.steady (appends : first.Appends) : first.Steady := by
  intro buffer
  rw [appends buffer, appends []]
  cases first.written with
  | ok bytes => rfl
  | error e => simp only [List.append_nil]

-- The second writer starts where the first has stopped, in the one buffer as in the other.
theorem Steady.andThen (steady : first.Steady) (steadyToo : second.Steady) :
    Steady (first >>= fun _ => second) := by
  intro buffer
  change EStateM.bind first (fun _ => second) buffer =
    match EStateM.bind first (fun _ => second) [] with
    | .ok _ bytes => .ok () (buffer ++ bytes)
    | .error e begun => .error e (buffer ++ begun)
  rw [EStateM.bind, EStateM.bind, steady buffer]
  cases first [] with
  | error e begun => rfl
  | ok _ front =>
    simp only
    rw [steadyToo front, steadyToo (buffer ++ front)]
    cases second [] <;> simp only [List.append_assoc]

theorem steady_each {α : Type} {write : α → Writer Unit} (steady : ∀ value, (write value).Steady)
    (values : List α) : (each write values).Steady := by
  induction values with
  | nil => exact puts_nothing.appends.steady
  | cons value rest ih => exact (steady value).andThen ih

-- What a failed writer has begun stands behind the buffer, so cutting back leaves the buffer.
theorem Steady.appends_restoring (steady : first.Steady) : first.restoring.Appends := by
  intro buffer
  rw [Writer.written, EStateM.run, restoring, restoring, steady buffer]
  cases first [] with
  | ok _ bytes => rfl
  | error e begun => simp only [List.take_left]

@[simp] theorem written_restoring (writer : Writer Unit) :
    writer.restoring.written = writer.written := by
  rw [Writer.written, Writer.written, EStateM.run, EStateM.run, restoring]
  cases writer [] <;> rfl

end CliMetadata.Writer
