import CliMetadata.Proofs.Attribute.Reading
import CliMetadata.Proofs.Running
import Mathlib.Algebra.BigOperators.Group.List.Basic
import Mathlib.Algebra.GroupWithZero.Nat

set_option autoImplicit false

namespace CliMetadata

/-- Computations that start in a state and end with a value and a state or with an error. -/
class Runs (m : Type → Type) [Monad m] [MonadExceptOf Error m] (σ : outParam Type) where
  run {α : Type} : m α → σ → Except Error (α × σ)
  run_pure {α : Type} (a : α) (s : σ) : run (pure a) s = .ok (a, s)
  run_bind {α β : Type} (x : m α) (f : α → m β) (s : σ) :
    run (x >>= f) s = run x s >>= fun r => run (f r.1) r.2
  run_throw {α : Type} (e : Error) (s : σ) : run (throw e : m α) s = .error e

instance : Runs (Except Error) Unit where
  run x _ := x.map (·, ())
  run_pure _ _ := rfl
  run_bind x _ _ := by cases x <;> rfl
  run_throw _ _ := rfl

instance {σ : Type} : Runs (EStateM Error σ) σ where
  run x s :=
    match x s with
    | .ok a s' => .ok (a, s')
    | .error e _ => .error e
  run_pure _ _ := rfl
  run_bind x f s := by
    change (match EStateM.bind x f s with | .ok b s' => _ | .error e _ => _) = _
    rw [EStateM.bind]
    cases x s <;> rfl
  run_throw _ _ := rfl

@[simp] theorem runs_stateless {α : Type} {x : Except Error α} {a : α} {u v : Unit} :
    Runs.run x u = .ok (a, v) ↔ x = .ok a := by
  cases x <;> simp [Runs.run, Except.map]

theorem runs_stateful {α τ : Type} {x : EStateM Error τ α} {s s' : τ} {a : α} :
    Runs.run x s = .ok (a, s') ↔ x s = .ok a s' := by
  cases ran : x s <;> simp [Runs.run, ran]

namespace AttributeValue

mutual

def elements : AttributeValue → Nat
  | .array (some values) => elementsOf values
  | _ => 0

def elementsOf : List AttributeValue → Nat
  | [] => 0
  | value :: rest => value.elements + 1 + elementsOf rest

end

@[simp] theorem elementsOf_eq (values : List AttributeValue) :
    elementsOf values = (values.map fun value => value.elements + 1).sum := by
  induction values with
  | nil => rfl
  | cons value rest ih => rw [elementsOf, ih, List.map_cons, List.sum_cons]

end AttributeValue

def AttributeArguments.elements (args : AttributeArguments) : Nat :=
  (args.fixed.map AttributeValue.elements).sum + (args.named.map (·.value.elements)).sum

theorem sum_map_succ {α : Type} (f : α → Nat) (items : List α) :
    (items.map fun x => f x + 1).sum = items.length + (items.map f).sum := by
  simp [List.sum_map_add, Nat.add_comm]

namespace AttributeBlob

open Runs Reader

variable {m : Type → Type} {σ α β : Type} [Monad m] [MonadExceptOf Error m] [Runs m σ]

theorem run_bind_ok {x : m α} {f : α → m β} {s s' : σ} {b : β} :
    run (x >>= f) s = .ok (b, s') ↔
      ∃ a between, run x s = .ok (a, between) ∧ run (f a) between = .ok (b, s') := by
  rw [run_bind, except_bind_ok, Prod.exists]

theorem reader_bind_ok {x : ArgumentReader m α} {f : α → ArgumentReader m β} {c c' : Cursor}
    {s s' : σ} {b : β} : run ((x >>= f) c) s = .ok ((b, c'), s') ↔
      ∃ a d between, run (x c) s = .ok ((a, d), between) ∧
        run (f a d) between = .ok ((b, c'), s') := by
  change run (x c >>= fun r => f r.1 r.2) s = _ ↔ _
  rw [run_bind_ok, Prod.exists]

@[simp] theorem reader_pure_ok {a b : α} {c c' : Cursor} {s s' : σ} :
    run ((pure a : ArgumentReader m α) c) s = .ok ((b, c'), s') ↔ b = a ∧ c' = c ∧ s' = s := by
  change run (pure (a, c) : m (α × Cursor)) s = _ ↔ _
  rw [run_pure]
  simp [eq_comm, and_assoc]

@[simp] theorem read_ok {reader : Reader α} {c c' : Cursor} {s s' : σ} {a : α} :
    run ((read reader : ArgumentReader m α) c) s = .ok ((a, c'), s') ↔
      reader c = .ok a c' ∧ s' = s := by
  rw [read]
  cases reader c with
  | ok value d =>
    simp [run_pure, eq_comm, and_assoc]
  | error e d =>
    simp [run_throw]

def Gives (x : ArgumentReader m α) (s : σ) (bytes : List UInt8) (value : α) (s' : σ) : Prop :=
  ∀ c rest, c.unread = bytes ++ rest → run (x c) s = .ok ((value, c.move bytes.length), s')

/-- Where the reader succeeds, the bytes that it steps over decide its answer, and `P` ties the
answer to their number. -/
def Spends (x : ArgumentReader m α) (P : Nat → α → Prop) : Prop :=
  ∀ c s value c' s', run (x c) s = .ok ((value, c'), s') →
    ∃ bytes rest, c.unread = bytes ++ rest ∧ c' = c.move bytes.length ∧ P bytes.length value ∧
      Gives x s bytes value s'

theorem Gives.unique {x : ArgumentReader m α} {s s' s'' : σ} {bytes other rest behind : List UInt8}
    {a b : α} (gives : Gives x s bytes a s') (alsoGives : Gives x s other b s'')
    (same : bytes ++ rest = other ++ behind) : bytes = other ∧ a = b ∧ s' = s'' := by
  let c : Cursor := { data := (bytes ++ rest).toByteArray }
  have unread : c.unread = bytes ++ rest := by simp [c]
  have first := gives c rest unread
  rw [alsoGives c behind (unread.trans same)] at first
  simp only [Except.ok.injEq, Prod.mk.injEq, Cursor.move, Cursor.mk.injEq, true_and,
    Nat.add_left_cancel_iff] at first
  obtain ⟨⟨values, lengths⟩, states⟩ := first
  exact ⟨List.append_inj_left same lengths.symm, values.symm, states.symm⟩

theorem Spends.holds {x : ArgumentReader m α} {P : Nat → α → Prop} {s s' : σ} {bytes : List UInt8}
    {value : α} (spends : Spends x P) (gives : Gives x s bytes value s') :
    P bytes.length value := by
  let c : Cursor := { data := bytes.toByteArray }
  have unread : c.unread = bytes ++ [] := by simp [c]
  obtain ⟨other, rest, split, _, holds, alsoGives⟩ := spends c s value _ s' (gives c [] unread)
  obtain ⟨rfl, _⟩ := gives.unique alsoGives (unread.symm.trans split)
  exact holds

theorem Gives.bind {x : ArgumentReader m α} {f : α → ArgumentReader m β} {s s' s'' : σ}
    {front back : List UInt8} {a : α} {b : β} (first : Gives x s front a s')
    (next : Gives (f a) s' back b s'') : Gives (x >>= f) s (front ++ back) b s'' := by
  intro c rest unread
  rw [List.append_assoc] at unread
  have last := next _ rest (Cursor.unread_move_append unread)
  rw [Cursor.move_move, ← List.length_append] at last
  exact reader_bind_ok.2 ⟨a, _, s', first c _ unread, last⟩

theorem spends_pure {P : Nat → α → Prop} {a : α} (holds : P 0 a) :
    Spends (pure a : ArgumentReader m α) P := by
  intro c s value c' s' ran
  obtain ⟨rfl, rfl, rfl⟩ := reader_pure_ok.1 ran
  exact ⟨[], c'.unread, rfl, rfl, holds, fun _ _ _ => reader_pure_ok.2 ⟨rfl, rfl, rfl⟩⟩

theorem spends_fail {P : Nat → α → Prop} (e : Error) :
    Spends (fail e : ArgumentReader m α) P := by
  intro c s value c' s' ran
  rw [fail, run_throw] at ran
  cases ran

theorem Spends.weaken {x : ArgumentReader m α} {P Q : Nat → α → Prop} (spends : Spends x P)
    (implies : ∀ n a, P n a → Q n a) : Spends x Q := by
  intro c s value c' s' ran
  obtain ⟨bytes, rest, unread, moved, holds, gives⟩ := spends c s value c' s' ran
  exact ⟨bytes, rest, unread, moved, implies _ _ holds, gives⟩

theorem Spends.bind {x : ArgumentReader m α} {f : α → ArgumentReader m β} {P : Nat → α → Prop}
    {Q : Nat → β → Prop} (first : Spends x P)
    (next : ∀ n a, P n a → Spends (f a) fun k b => Q (n + k) b) : Spends (x >>= f) Q := by
  intro c s value c' s' ran
  obtain ⟨a, d, between, ranFirst, ranNext⟩ := reader_bind_ok.1 ran
  obtain ⟨front, behind, unread, rfl, holds, givesFirst⟩ := first _ _ _ _ _ ranFirst
  obtain ⟨back, rest, left, rfl, holdsNext, givesNext⟩ := next _ a holds _ _ _ _ _ ranNext
  rw [Cursor.unread_move_append unread] at left
  subst left
  rw [← List.length_append] at holdsNext
  refine ⟨front ++ back, rest, ?_, ?_, holdsNext, givesFirst.bind givesNext⟩
  · rw [unread, List.append_assoc]
  · rw [Cursor.move_move, List.length_append]

theorem Spends.map {x : ArgumentReader m α} {P : Nat → α → Prop} {Q : Nat → β → Prop}
    {f : α → β} (spends : Spends x P) (implies : ∀ n a, P n a → Q n (f a)) :
    Spends (do return f (← x)) Q :=
  spends.bind fun n a holds => spends_pure (implies n a holds)

theorem spends_bind_fail {P : Nat → β → Prop} (x : ArgumentReader m α) (e : α → Error) :
    Spends (x >>= fun a => (fail (e a) : ArgumentReader m β)) P := by
  intro c s value c' s' ran
  obtain ⟨a, d, between, _, failed⟩ := reader_bind_ok.1 ran
  rw [fail, run_throw] at failed
  cases failed

theorem spends_lift {P : Nat → α → Prop} (x : m α) (holds : ∀ a, P 0 a) :
    Spends (liftM x : ArgumentReader m α) P := by
  have lifted (c : Cursor) (s : σ) (value : α) (c' : Cursor) (s' : σ) :
      run ((liftM x : ArgumentReader m α) c) s = .ok ((value, c'), s') ↔
        run x s = .ok (value, s') ∧ c' = c := by
    change run (x >>= fun a => pure (a, c)) s = _ ↔ _
    simp only [run_bind_ok, run_pure, Except.ok.injEq, Prod.mk.injEq]
    constructor
    · rintro ⟨a, between, ran, ⟨rfl, rfl⟩, rfl⟩
      exact ⟨ran, rfl⟩
    · rintro ⟨ran, rfl⟩
      exact ⟨value, s', ran, ⟨rfl, rfl⟩, rfl⟩
  intro c s value c' s' ran
  obtain ⟨found, rfl⟩ := (lifted c s value c' s').1 ran
  exact ⟨[], _, rfl, rfl, holds value, fun d _ _ => (lifted d s value _ s').2 ⟨found, rfl⟩⟩

theorem spends_read {reader : Reader α} {form : List UInt8 → α → Prop} {P : Nat → α → Prop}
    (takes : reader.Takes fun bytes _ a => form bytes a)
    (implies : ∀ bytes a, form bytes a → P bytes.length a) :
    Spends (read reader : ArgumentReader m α) P := by
  intro c s value c' s' ran
  obtain ⟨came, rfl⟩ := read_ok.1 ran
  obtain ⟨bytes, rest, unread, holds, rfl⟩ := (takes c value c').1 came
  refine ⟨bytes, rest, unread, rfl, implies bytes value holds, fun d behind there => ?_⟩
  exact read_ok.2 ⟨(takes d value _).2 ⟨bytes, behind, there, holds, rfl⟩, rfl⟩

theorem spends_times {x : ArgumentReader m α} {weight : α → Nat}
    (each : Spends x fun n a => weight a ≤ n) (count : Nat) :
    Spends (times x count) fun n values => (values.map weight).sum ≤ n := by
  induction count with
  | zero => exact spends_pure (Nat.le_refl 0)
  | succ count ih =>
    refine each.bind fun n a first => ih.map fun k rest others => ?_
    simpa using Nat.add_le_add first others

theorem spends_byte : Spends (read Reader.byte : ArgumentReader m UInt8) fun n _ => n = 1 :=
  spends_read takes_byte fun _ _ one => by rw [one, List.length_singleton]

theorem spends_text :
    Spends (read serializedString : ArgumentReader m (Option String)) fun n _ => 0 < n :=
  spends_read takes_serializedString fun _ _ form => form.length_pos

theorem takes_scalar {p : Primitive} {reader : Reader Scalar}
    (has : Scalar.reader? p = some reader) :
    ∃ form : List UInt8 → Scalar → Prop, reader.Takes (fun bytes _ value => form bytes value) ∧
      ∀ bytes value, form bytes value → 0 < bytes.length := by
  have numbered {width : Nat} (wide : 0 < width) (f : Nat → Scalar) :
      ∃ form : List UInt8 → Scalar → Prop,
        Reader.Takes (do return f (← number width)) (fun bytes _ value => form bytes value) ∧
          ∀ bytes value, form bytes value → 0 < bytes.length := by
    refine ⟨_, (takes_number wide).map f, ?_⟩
    rintro bytes value ⟨n, ⟨rfl, _⟩, _⟩
    exact wide
  cases p with
  | boolean =>
    cases has
    refine ⟨_, takes_byte.map fun b => Scalar.boolean (b != 0), ?_⟩
    rintro bytes value ⟨b, rfl, _⟩
    exact Nat.one_pos
  | char | i1 | u1 | i2 | u2 | i4 | u4 | i8 | u8 | r4 | r8 =>
    cases has
    exact numbered (by decide) _
  | void | i | u | string | object | typedReference => cases has

theorem spends_scalar (p : Primitive) :
    Spends (scalar p : ArgumentReader m Scalar) fun n _ => 0 < n := by
  rw [scalar]
  split
  next reader has =>
    obtain ⟨form, takes, some⟩ := takes_scalar has
    exact spends_read takes some
  next => exact spends_fail _

variable {resolve : String → m Primitive}

theorem spends_type (levels : Nat) : Spends (type resolve levels) fun n _ => 0 < n := by
  induction levels with
  | zero => exact spends_fail _
  | succ levels ih =>
    refine spends_byte.bind fun n tag one => ?_
    subst one
    have tagged (t : ArgumentType) :
        Spends (pure t : ArgumentReader m ArgumentType) fun k _ => 0 < 1 + k :=
      spends_pure Nat.one_pos
    split
    next p _ => exact tagged (.primitive p)
    split
    next => exact tagged .text
    split
    next => exact tagged .type
    split
    next => exact tagged .boxed
    split
    next => exact ih.map fun k _ _ => Nat.add_pos_left Nat.one_pos k
    split
    next =>
      refine spends_text.bind fun k text _ => ?_
      split
      next => exact spends_fail _
      next name =>
        refine (spends_lift (resolve name) (P := fun _ _ => True) fun _ => trivial).map ?_
        intro j _ _
        omega
    next => exact spends_bind_fail _ _

-- A value takes a byte of its own, beside those of its elements.
theorem spends_value (levels : Nat) (t : ArgumentType) :
    Spends (value resolve levels t) fun n v => v.elements + 1 ≤ n := by
  induction levels generalizing t with
  | zero => exact spends_fail _
  | succ levels ih =>
    have plain {f : Scalar → AttributeValue} (none : ∀ v, (f v).elements = 0) (p : Primitive) :
        Spends (do return f (← scalar p) : ArgumentReader m AttributeValue)
          fun n v => v.elements + 1 ≤ n :=
      (spends_scalar p).map fun n v some => by rw [none]; exact some
    have textual {f : Option String → AttributeValue} (none : ∀ v, (f v).elements = 0) :
        Spends (do return f (← read serializedString) : ArgumentReader m AttributeValue)
          fun n v => v.elements + 1 ≤ n :=
      spends_text.map fun n v some => by rw [none]; exact some
    cases t with
    | primitive p => exact plain (fun _ => rfl) p
    | text => exact textual fun _ => rfl
    | type => exact textual fun _ => rfl
    | enum name underlying => exact plain (fun _ => rfl) underlying
    | boxed =>
      refine (spends_type levels).bind fun n actual _ => (ih actual).weaken ?_
      intro k v spent
      omega
    | array element =>
      have counted : Spends (read (Reader.number 4) : ArgumentReader m Nat) fun n _ => n = 4 :=
        spends_read (takes_number (by decide)) fun _ _ form => form.1
      refine counted.bind fun n count four => ?_
      subst four
      split
      next => exact spends_pure (by simp [AttributeValue.elements])
      next =>
        refine (spends_times (ih element) count).map fun k values spent => ?_
        rw [AttributeValue.elements, AttributeValue.elementsOf_eq]
        omega

theorem spends_fixedArguments (types : List ArgumentType) :
    Spends (fixedArguments resolve types) fun n values =>
      values.length = types.length ∧ AttributeValue.elementsOf values ≤ n := by
  induction types with
  | nil => exact spends_pure ⟨rfl, Nat.le_refl 0⟩
  | cons t rest ih =>
    refine (spends_value levels t).bind fun n v first => ih.map fun k values others => ?_
    simp only [List.length_cons, AttributeValue.elementsOf]
    omega

theorem spends_namedArgument :
    Spends (namedArgument resolve) fun n x => x.value.elements + 1 ≤ n := by
  refine spends_byte.bind fun n tag _ => ?_
  split
  next => exact spends_fail _
  next kind _ =>
    refine (spends_type levels).bind fun k t _ => spends_text.bind fun j text _ => ?_
    split
    next => exact spends_fail _
    next name =>
      refine (spends_value levels t).map fun i v spent => ?_
      dsimp only
      omega

theorem takes_expectProlog : expectProlog.Takes fun bytes _ _ =>
    bytes.length = 2 ∧ Bytes.spelled bytes = prolog := by
  have composed : expectProlog.Takes _ := (takes_number (by decide)).bind fun found =>
    (takes_malformed (.argumentProlog found)).ite (p := found ≠ prolog) (takes_pure ())
  refine composed.congr ?_
  intro bytes rest value
  constructor
  · rintro ⟨front, _, found, rfl, ⟨two, rfl⟩, ⟨_, impossible⟩ | ⟨same, rfl, _⟩⟩
    · exact impossible.elim
    · rw [List.append_nil]
      exact ⟨two, Decidable.not_not.1 same⟩
  · rintro ⟨two, same⟩
    exact ⟨bytes, [], prolog, by simp, ⟨two, same.symm⟩, .inr ⟨by simp, rfl, rfl⟩⟩

theorem namedCount_eq (c : Cursor) :
    namedCount c = if c.unread = [] then .ok 0 c else Reader.number 2 c := by
  change (if c.hasMore then Reader.number 2 else pure 0 : Reader Nat) c = _
  by_cases done : c.unread = []
  · have noMore : ¬c.hasMore = true := by simp [Cursor.hasMore_iff, done]
    rw [if_pos done, if_neg noMore]
    rfl
  · rw [if_neg done, if_pos ((Cursor.hasMore_iff c).2 done)]

@[simp] theorem finish_ok {c c' : Cursor} {u : Unit} :
    finish c = .ok u c' ↔ c.unread = [] ∧ c' = c := by
  have run : finish c = (if c.hasMore then
      (do malformed (.argumentTrailing (← remaining)) : Reader Unit) else pure ()) c := rfl
  rw [run]
  by_cases done : c.unread = []
  · have noMore : ¬c.hasMore = true := by simp [Cursor.hasMore_iff, done]
    rw [if_neg noMore]
    constructor
    · rintro ⟨⟩
      exact ⟨done, rfl⟩
    · rintro ⟨_, rfl⟩
      rfl
  · rw [if_pos ((Cursor.hasMore_iff c).2 done)]
    constructor
    · rintro ⟨⟩
    · rintro ⟨nothing, _⟩
      exact absurd nothing done

def fixedPart (resolve : String → m Primitive) (types : List ArgumentType) :
    ArgumentReader m (List AttributeValue) := do
  read expectProlog
  fixedArguments resolve types

def namedPart (resolve : String → m Primitive) : ArgumentReader m (List NamedArgument) := do
  let named ← times (namedArgument resolve) (← read namedCount)
  read finish
  return named

theorem spends_fixedPart (types : List ArgumentType) :
    Spends (fixedPart resolve types) fun n values =>
      values.length = types.length ∧ AttributeValue.elementsOf values + 2 ≤ n := by
  have opened : Spends (read expectProlog : ArgumentReader m Unit) fun n _ => n = 2 :=
    spends_read takes_expectProlog fun _ _ form => form.1
  refine opened.bind fun n _ two => (spends_fixedArguments types).weaken fun k values spent => ?_
  omega

inductive NamedForm (resolve : String → m Primitive) (s : σ) :
    List UInt8 → List NamedArgument → σ → Prop
  | left : NamedForm resolve s [] [] s
  | counted {count body : List UInt8} {named : List NamedArgument} {s' : σ}
    (two : count.length = 2)
    (gives : Gives (times (namedArgument resolve) (Bytes.spelled count)) s body named s') :
    NamedForm resolve s (count ++ body) named s'

theorem spends_namedArguments (count : Nat) :
    Spends (times (namedArgument resolve) count) fun n named =>
      (named.map fun x => x.value.elements + 1).sum ≤ n :=
  spends_times spends_namedArgument count

theorem namedPart_ok {c : Cursor} {s s' : σ} {named : List NamedArgument} :
    (∃ c', run (namedPart resolve c) s = .ok ((named, c'), s')) ↔
      NamedForm resolve s c.unread named s' := by
  have ended (values : List NamedArgument) {d c' : Cursor} {between : σ} :
      run ((do read finish; return values : ArgumentReader m _) d) between =
          .ok ((named, c'), s') ↔ d.unread = [] ∧ named = values ∧ c' = d ∧ s' = between := by
    rw [reader_bind_ok]
    simp only [read_ok, finish_ok, reader_pure_ok]
    constructor
    · rintro ⟨_, _, _, ⟨⟨done, rfl⟩, rfl⟩, rfl, rfl, rfl⟩
      exact ⟨done, rfl, rfl, rfl⟩
    · rintro ⟨done, rfl, rfl, rfl⟩
      exact ⟨(), _, _, ⟨⟨done, rfl⟩, rfl⟩, rfl, rfl, rfl⟩
  constructor
  · rintro ⟨c', ran⟩
    obtain ⟨count, d, _, counted, further⟩ := reader_bind_ok.1 ran
    obtain ⟨found, rfl⟩ := read_ok.1 counted
    obtain ⟨values, e, between, listed, last⟩ := reader_bind_ok.1 further
    obtain ⟨done, rfl, rfl, rfl⟩ := (ended values).1 last
    rw [namedCount_eq] at found
    by_cases nothing : c.unread = []
    · rw [if_pos nothing] at found
      cases found
      obtain ⟨rfl, _, rfl⟩ := reader_pure_ok.1 listed
      rw [nothing]
      exact .left
    · rw [if_neg nothing] at found
      obtain ⟨bytes, rest, unread, ⟨two, rfl⟩, rfl⟩ := (takes_number (by decide) _ _ _).1 found
      obtain ⟨body, behind, left, rfl, _, gives⟩ := spends_namedArguments _ _ _ _ _ _ listed
      rw [Cursor.unread_move_append left] at done
      rw [Cursor.unread_move_append unread, done, List.append_nil] at left
      rw [unread, left]
      exact .counted two gives
  · intro form
    generalize there : c.unread = bytes at form
    cases form with
    | left =>
      have none : run ((read namedCount : ArgumentReader m Nat) c) s = .ok ((0, c), s) :=
        read_ok.2 ⟨by rw [namedCount_eq, if_pos there], rfl⟩
      refine ⟨c, reader_bind_ok.2 ⟨0, c, s, none, reader_bind_ok.2 ⟨[], c, s, ?_, ?_⟩⟩⟩
      · exact reader_pure_ok.2 ⟨rfl, rfl, rfl⟩
      · exact (ended []).2 ⟨there, rfl, rfl, rfl⟩
    | @counted count body _ _ two gives =>
      have some : c.unread ≠ [] := by
        intro nothing
        simp only [nothing, List.nil_eq, List.append_eq_nil_iff] at there
        simp [there.1] at two
      have counted : Reader.number 2 c = .ok (Bytes.spelled count) (c.move count.length) :=
        (takes_number (by decide) _ _ _).2 ⟨count, body, there, ⟨two, rfl⟩, rfl⟩
      have numbered : run ((read namedCount : ArgumentReader m Nat) c) s =
          .ok ((Bytes.spelled count, c.move count.length), s) :=
        read_ok.2 ⟨by rw [namedCount_eq, if_neg some, counted], rfl⟩
      have left : (c.move count.length).unread = body ++ [] := by
        rw [Cursor.unread_move_append there, List.append_nil]
      have done := Cursor.unread_move_append left
      exact ⟨_, reader_bind_ok.2 ⟨_, _, s, numbered, reader_bind_ok.2
        ⟨_, _, s', gives _ [] left, (ended _).2 ⟨done, rfl, rfl, rfl⟩⟩⟩⟩

theorem arguments_ok {types : List ArgumentType} {c c' : Cursor} {s s' : σ}
    {args : AttributeArguments} : run (arguments resolve types c) s = .ok ((args, c'), s') ↔
      ∃ d between, run (fixedPart resolve types c) s = .ok ((args.fixed, d), between) ∧
        run (namedPart resolve d) between = .ok ((args.named, c'), s') := by
  simp only [arguments, fixedPart, namedPart, reader_bind_ok, reader_pure_ok]
  constructor
  · rintro ⟨_, d, _, opened, fixed, e, _, fixedRan, n, f, _, counted, named, g, _, listed, _, _, _,
      ended, rfl, rfl, rfl⟩
    exact ⟨e, _, ⟨_, d, _, opened, fixedRan⟩, n, f, _, counted, named, _, _, listed, _, _, _, ended,
      rfl, rfl, rfl⟩
  · rintro ⟨e, _, ⟨_, d, _, opened, fixedRan⟩, n, f, _, counted, named, _, _, listed, _, _, _, ended,
      same, rfl, rfl⟩
    refine ⟨_, d, _, opened, _, e, _, fixedRan, n, f, _, counted, named, _, _, listed, _, _, _, ended,
      ?_, rfl, rfl⟩
    rw [← same]

theorem decode_ok {types : List ArgumentType} {blob : ByteArray} {s s' : σ}
    {args : AttributeArguments} : run (decode resolve types blob) s = .ok (args, s') ↔
      (blob.size = 0 ∧ types = [] ∧ args = {} ∧ s' = s) ∨
      ∃ front back between, blob.data.toList = front ++ back ∧
        Gives (fixedPart resolve types) s front args.fixed between ∧
        NamedForm resolve between back args.named s' := by
  have long {front back : List UInt8} {between : σ} {fixed : List AttributeValue}
      (split : blob.data.toList = front ++ back)
      (gives : Gives (fixedPart resolve types) s front fixed between) : blob.size ≠ 0 := by
    have least := ((spends_fixedPart types).holds gives).2
    have length := congrArg List.length split
    simp only [Array.length_toList, ByteArray.size_data, List.length_append] at length
    omega
  rw [decode]
  split
  next empty =>
    constructor
    · intro ran
      split at ran
      next none =>
        rw [run_pure] at ran
        cases ran
        exact .inl ⟨empty, List.isEmpty_iff.1 none, rfl, rfl⟩
      next =>
        rw [run_throw] at ran
        cases ran
    · rintro (⟨_, rfl, rfl, rfl⟩ | ⟨front, back, between, split, gives, _⟩)
      · exact run_pure _ _
      · exact absurd empty (long split gives)
  next some =>
    constructor
    · intro ran
      obtain ⟨⟨result, c'⟩, last, read, same⟩ := run_bind_ok.1 ran
      rw [run_pure] at same
      cases same
      obtain ⟨d, between, fixedRan, namedRan⟩ := arguments_ok.1 read
      obtain ⟨front, back, unread, rfl, _, gives⟩ := spends_fixedPart types _ _ _ _ _ fixedRan
      have form := namedPart_ok.1 ⟨c', namedRan⟩
      rw [Cursor.unread_move_append unread] at form
      exact .inr ⟨front, back, between, unread, gives, form⟩
    · rintro (⟨empty, _⟩ | ⟨front, back, between, split, gives, form⟩)
      · exact absurd empty some
      · let c : Cursor := { data := blob }
        have unread : c.unread = front ++ back := by rw [Cursor.unread_start, split]
        rw [← Cursor.unread_move_append unread] at form
        obtain ⟨c', namedRan⟩ := namedPart_ok.2 form
        have read := arguments_ok.2 ⟨_, between, gives c back unread, namedRan⟩
        exact run_bind_ok.2 ⟨(args, c'), s', read, run_pure _ _⟩

theorem named_spent {s s' : σ} {bytes : List UInt8} {named : List NamedArgument}
    (form : NamedForm resolve s bytes named s') :
    named.length + (named.map (·.value.elements)).sum ≤ bytes.length := by
  cases form with
  | left => exact Nat.le_refl 0
  | counted two gives =>
    have spent := (spends_namedArguments _).holds gives
    rw [sum_map_succ] at spent
    rw [List.length_append]
    omega

/-- No count in a blob makes more of it than it holds: each argument and each element at any level
takes a byte of its own. -/
theorem decode_within {τ : Type} {resolve : String → EStateM Error τ Primitive}
    {types : List ArgumentType} {blob : ByteArray} {s s' : τ} {args : AttributeArguments}
    (decoded : decode resolve types blob s = .ok args s') :
    args.fixed.length + args.named.length + args.elements ≤ blob.size := by
  rcases decode_ok.1 (runs_stateful.2 decoded) with
    ⟨_, _, rfl, _⟩ | ⟨front, back, between, split, gives, form⟩
  · exact Nat.zero_le _
  · have fixed := ((spends_fixedPart types).holds gives).2
    rw [AttributeValue.elementsOf_eq, sum_map_succ] at fixed
    have named := named_spent form
    have length := congrArg List.length split
    simp only [Array.length_toList, ByteArray.size_data, List.length_append] at length
    rw [AttributeArguments.elements]
    omega

def counting (_ : String) : EStateM Error Nat Primitive :=
  modifyGet fun asked => (.u1, asked + 1)

def nestedBlob : ByteArray :=
  ⟨#[0x01, 0x00, 0x02, 0x00, 0x00, 0x00,
    0x1D, 0x55, 0x01, 0x45, 0x03, 0x00, 0x00, 0x00, 0x07, 0x08, 0x09,
    0x1D, 0x1D, 0x02, 0x02, 0x00, 0x00, 0x00, 0x01, 0x00, 0x00, 0x00, 0x01, 0x00, 0x00, 0x00, 0x00,
    0x01, 0x00, 0x53, 0x51, 0x01, 0x46, 0x55, 0x01, 0x45, 0x05]⟩

def nestedArguments : AttributeArguments where
  fixed := [.array (some [
    .array (some [.enum "E" (.u1 7), .enum "E" (.u1 8), .enum "E" (.u1 9)]),
    .array (some [.array (some [.scalar (.boolean true)]), .array (some [])])])]
  named := [⟨.field, "F", .enum "E" (.u1 5)⟩]

theorem decode_within_nested :
    decode counting [.array .boxed] nestedBlob 0 = .ok nestedArguments 2 ∧
      nestedArguments.elements = 8 ∧ 1 + 1 + nestedArguments.elements ≤ nestedBlob.size := by
  have ran : (run (decode counting [.array .boxed] nestedBlob) 0).toOption =
      some (nestedArguments, 2) := by decide +kernel
  have decoded := runs_stateful.1 (except_toOption_some.1 ran)
  exact ⟨decoded, by decide, decode_within decoded⟩

end AttributeBlob

end CliMetadata
