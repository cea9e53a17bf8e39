import CliMetadata.Proofs.Table.Bisection
import Mathlib.Algebra.Group.Nat.Defs
import Mathlib.Data.Nat.Log

set_option autoImplicit false

namespace CliMetadata.TableView

variable {t : Table} {α β : Type} {view : TableView t}

def Refuses (view : TableView t) (e : Error) : Prop :=
  ∃ rid, 0 < rid ∧ rid ≤ view.count ∧ view.decode rid = .error e

/-- Having decoded `most` rows at the most, the scan ends: with a value that `P` ties to the number
of these rows, or with what a row of the table is refused for. -/
def EndsWithin (view : TableView t) (most : Nat) (P : Nat → α → Prop) (scan : Scan α) : Prop :=
  ∀ n, ∃ reads ≤ most, (∃ value, scan n = .ok value (n + reads) ∧ P reads value) ∨
    ∃ e, scan n = .error e (n + reads) ∧ view.Refuses e

theorem endsWithin_pure {P : Nat → α → Prop} {value : α} (holds : P 0 value) :
    view.EndsWithin 0 P (pure value) :=
  fun _ => ⟨0, Nat.le_refl 0, .inl ⟨value, rfl, holds⟩⟩

theorem EndsWithin.weaken {scan : Scan α} {most more : Nat} {P Q : Nat → α → Prop}
    (ends : view.EndsWithin most P scan) (le : most ≤ more)
    (implies : ∀ reads value, reads ≤ most → P reads value → Q reads value) :
    view.EndsWithin more Q scan := by
  intro n
  obtain ⟨reads, few, ⟨value, ran, holds⟩ | failed⟩ := ends n
  · exact ⟨reads, Nat.le_trans few le, .inl ⟨value, ran, implies reads value few holds⟩⟩
  · exact ⟨reads, Nat.le_trans few le, .inr failed⟩

theorem EndsWithin.relax {scan : Scan α} {most more : Nat} {P : Nat → α → Prop}
    (ends : view.EndsWithin most P scan) (le : most ≤ more) : view.EndsWithin more P scan :=
  ends.weaken le fun _ _ _ holds => holds

theorem EndsWithin.bind {x : Scan α} {f : α → Scan β} {most further : Nat} {P : Nat → α → Prop}
    {Q : Nat → β → Prop} (first : view.EndsWithin most P x)
    (next : ∀ reads value, reads ≤ most → P reads value →
      view.EndsWithin further (fun more result => Q (reads + more) result) (f value)) :
    view.EndsWithin (most + further) Q (x >>= f) := by
  intro n
  obtain ⟨reads, few, ⟨value, ran, holds⟩ | ⟨e, failed, refused⟩⟩ := first n
  · obtain ⟨more, fewMore, went⟩ := next reads value few holds (n + reads)
    rw [Nat.add_assoc] at went
    rw [bind_after_ok ran]
    exact ⟨reads + more, Nat.add_le_add few fewMore, went⟩
  · exact ⟨reads, Nat.le_add_right_of_le few, .inr ⟨e, bind_after_error failed f, refused⟩⟩

theorem endsWithin_get {rid : Nat} (start : 0 < rid) (inside : rid ≤ view.count) :
    view.EndsWithin 1 (fun reads _ => reads = 1) (view.get rid) := by
  intro n
  have within : ¬(rid = 0 ∨ view.count < rid) := by omega
  rw [get_eq, if_neg within]
  refine ⟨1, Nat.le_refl 1, ?_⟩
  cases decoded : view.decode rid with
  | ok row => exact .inl ⟨row, rfl, rfl⟩
  | error e => exact .inr ⟨e, rfl, rid, start, inside, decoded⟩

-- Each row that is decoded halves what is left of the interval, on whichever side of it the search
-- goes on.
theorem endsWithin_lowerBound (target : Nat) {rounds low high : Nat} (start : 0 < low)
    (span : low ≤ high) (stop : high ≤ view.count + 1) (short : high - low < 2 ^ rounds) :
    view.EndsWithin rounds (fun _ first => low ≤ first ∧ first ≤ high)
      (view.lowerBound target low high) := by
  induction rounds generalizing low high with
  | zero =>
    have done : ¬low < high := by omega
    rw [lowerBound, dif_neg done]
    exact endsWithin_pure ⟨Nat.le_refl low, span⟩
  | succ rounds ih =>
    rw [lowerBound]
    split
    next more =>
      rw [Nat.pow_succ] at short
      have right : view.EndsWithin rounds (fun _ first => low ≤ first ∧ first ≤ high)
          (view.lowerBound target (low + (high - low) / 2 + 1) high) :=
        (ih (by omega) (by omega) stop (by omega)).weaken (Nat.le_refl _)
          fun _ _ _ range => by omega
      have left : view.EndsWithin rounds (fun _ first => low ≤ first ∧ first ≤ high)
          (view.lowerBound target low (low + (high - low) / 2)) :=
        (ih start (by omega) (by omega) (by omega)).weaken (Nat.le_refl _)
          fun _ _ _ range => by omega
      rw [Nat.add_comm rounds]
      refine (endsWithin_get (by omega) (by omega)).bind fun _ row _ _ => ?_
      split
      next key _ =>
        split
        next => exact right
        next => exact left
      next => exact left
    next => exact (endsWithin_pure ⟨Nat.le_refl low, span⟩).relax (Nat.zero_le _)

theorem endsWithin_runFrom (key : Token) {count rid : Nat} (start : 0 < rid)
    (inside : rid + count ≤ view.count + 1) :
    view.EndsWithin count (fun reads rows => reads ≤ rows.length + 1)
      (view.runFrom key count rid) := by
  induction count generalizing rid with
  | zero => exact endsWithin_pure (Nat.zero_le _)
  | succ count ih =>
    rw [runFrom, Nat.add_comm count]
    refine (endsWithin_get start (by omega)).bind fun reads row _ one => ?_
    subst one
    split
    next =>
      refine (ih (Nat.succ_pos rid) (by omega)).bind fun more rows _ few => endsWithin_pure ?_
      simp only [List.length_cons]
      omega
    next => exact (endsWithin_pure (Nat.le_refl 1)).relax (Nat.zero_le _)

def rounds (view : TableView t) : Nat := Nat.log 2 view.count + 1

theorem endsWithin_bisection (view : TableView t) (target : Nat) :
    view.EndsWithin view.rounds (fun _ first => 0 < first ∧ first ≤ view.count + 1)
      (view.lowerBound target 1 (view.count + 1)) :=
  endsWithin_lowerBound target Nat.one_pos (by omega) (Nat.le_refl _)
    (Nat.lt_pow_succ_log_self Nat.one_lt_two view.count)

theorem endsWithin_findAny (bisects : view.canBisect = true) (key : Token) :
    view.EndsWithin (view.rounds + 1) (fun _ _ => True) (view.findAny key) := by
  rw [findAny, if_pos bisects]
  split
  next => exact (endsWithin_pure trivial).relax (Nat.zero_le _)
  next target _ =>
    refine (endsWithin_bisection view target).bind fun _ first _ range => ?_
    split
    next inside =>
      exact (endsWithin_get range.1 inside).bind fun _ row _ _ => endsWithin_pure trivial
    next => exact (endsWithin_pure trivial).relax (Nat.zero_le _)

theorem endsWithin_findAll (bisects : view.canBisect = true) (key : Token) :
    view.EndsWithin (view.rounds + view.count)
      (fun reads rows => reads ≤ view.rounds + 1 + rows.length) (view.findAll key) := by
  rw [findAll, if_pos bisects]
  split
  next => exact EndsWithin.relax (endsWithin_pure (by simp)) (Nat.zero_le _)
  next target _ =>
    refine (endsWithin_bisection view target).bind fun reads first few range => ?_
    refine (endsWithin_runFrom key range.1 (by omega)).weaken (by omega) fun more rows _ within => ?_
    omega

/-- A table whose rows are in order or not, readable or not: bisection ends, and a look-up decodes
hardly more rows than the logarithm of their number, beside those that it finds. -/
theorem find_endsWithin (view : TableView t) (bisects : view.canBisect = true) (key : Token) :
    (∀ target, view.EndsWithin (Nat.log 2 view.count + 1)
      (fun _ first => 0 < first ∧ first ≤ view.count + 1)
      (view.lowerBound target 1 (view.count + 1))) ∧
    view.EndsWithin (Nat.log 2 view.count + 2) (fun _ _ => True) (view.findAny key) ∧
    view.EndsWithin (Nat.log 2 view.count + 1 + view.count)
      (fun reads rows => reads ≤ Nat.log 2 view.count + 2 + rows.length) (view.findAll key) :=
  ⟨endsWithin_bisection view, endsWithin_findAny bisects key, endsWithin_findAll bisects key⟩

def scattered : TableView .customAttribute where
  data := ⟨#[63, 0, 10, 0, 0, 0, 32, 0, 10, 0, 1, 0, 35, 0, 10, 0, 2, 0, 35, 0, 10, 0, 3, 0,
    35, 0, 10, 0, 4, 0, 32, 0, 10, 0, 5, 0, 35, 0, 10, 0, 6, 0]⟩
  start := 0
  count := 7
  sorted := true
  widths := .ofRows [(.typeDef, 5), (.methodDef, 3)] false false false

theorem find_endsWithin_scattered :
    scattered.canBisect = true ∧ after (scattered.findAll ⟨0x02000001⟩) 0 = 7 ∧
      scattered.EndsWithin 4 (fun _ _ => True) (scattered.findAny ⟨0x02000001⟩) ∧
      scattered.EndsWithin 10 (fun reads rows => reads ≤ 4 + rows.length)
        (scattered.findAll ⟨0x02000001⟩) := by
  have levels : Nat.log 2 scattered.count = 2 := by decide
  obtain ⟨_, any, all⟩ := find_endsWithin scattered rfl ⟨0x02000001⟩
  rw [levels] at any all
  exact ⟨rfl, by decide +kernel, any, all⟩

end CliMetadata.TableView
