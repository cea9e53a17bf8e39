import CliMetadata.Proofs.Token
import CliMetadata.Table.View

set_option autoImplicit false

namespace CliMetadata

namespace CodedKind

theorem tagBits_le (kind : CodedKind) : kind.tagBits ≤ 5 := by
  cases kind <;> decide

theorem slots_tagOf? {kind : CodedKind} {table : Table} {tag : Nat}
    (tagged : kind.tagOf? table = some tag) : kind.slots[tag]? = some (some table) := by
  obtain ⟨inside, same, _⟩ := List.idxOf?_eq_some_iff.1 tagged
  rw [List.getElem?_eq_getElem inside, same]

theorem tagOf?_lt {kind : CodedKind} {table : Table} {tag : Nat}
    (tagged : kind.tagOf? table = some tag) : tag < 1 <<< kind.tagBits := by
  obtain ⟨inside, _⟩ := List.getElem?_eq_some_iff.1 (slots_tagOf? tagged)
  exact Nat.lt_of_lt_of_le inside kind.slots_length_le

end CodedKind

-- A row number of twenty-seven bits leaves room for every tag.
theorem CodedIndex.encode_tagged {kind : CodedKind} {table : Table} {row tag : Nat}
    (tagged : kind.tagOf? table = some tag) (room : row < 0x8000000) :
    encode kind table row = .ok (row <<< kind.tagBits + tag) := by
  have bits : 2 ^ kind.tagBits ≤ 2 ^ 5 := Nat.pow_le_pow_right (by decide) kind.tagBits_le
  have product : row * 2 ^ kind.tagBits < 0x100000000 :=
    Nat.mul_lt_mul_of_lt_of_le room bits (by decide)
  simp only [encode, tagged, Nat.shiftLeft_eq, Nat.mod_eq_of_lt product]

theorem CodedIndex.encode_ok {kind : CodedKind} {table : Table} {row n : Nat}
    (room : row < 0x1000000) (encoded : encode kind table row = .ok n) :
    ∃ tag, kind.tagOf? table = some tag ∧ n = row <<< kind.tagBits + tag := by
  cases tagged : kind.tagOf? table with
  | none =>
    rw [encode, tagged] at encoded
    cases encoded
  | some tag =>
    rw [encode_tagged tagged (by omega)] at encoded
    cases encoded
    exact ⟨tag, rfl, rfl⟩

theorem CodedIndex.encode_inj {kind : CodedKind} {table other : Table} {row otherRow n : Nat}
    (room : row < 0x1000000) (otherRoom : otherRow < 0x1000000)
    (encoded : encode kind table row = .ok n) (same : encode kind other otherRow = .ok n) :
    table = other ∧ row = otherRow := by
  obtain ⟨tag, tagged, rfl⟩ := encode_ok room encoded
  obtain ⟨otherTag, otherTagged, sum⟩ := encode_ok otherRoom same
  have least := CodedKind.tagOf?_lt tagged
  have otherLeast := CodedKind.tagOf?_lt otherTagged
  rw [Nat.one_shiftLeft] at least otherLeast
  rw [Nat.shiftLeft_eq, Nat.shiftLeft_eq, Nat.mul_comm row, Nat.mul_comm otherRow] at sum
  have positive : 0 < 2 ^ kind.tagBits := Nat.two_pow_pos _
  have tags := congrArg (· % 2 ^ kind.tagBits) sum
  have rows := congrArg (· / 2 ^ kind.tagBits) sum
  simp only [Nat.mul_add_mod, Nat.mod_eq_of_lt least, Nat.mod_eq_of_lt otherLeast] at tags
  simp only [Nat.mul_add_div positive, Nat.div_eq_of_lt least, Nat.div_eq_of_lt otherLeast,
    Nat.add_zero] at rows
  subst tags
  have slot := CodedKind.slots_tagOf? tagged
  rw [CodedKind.slots_tagOf? otherTagged] at slot
  simp only [Option.some.injEq] at slot
  exact ⟨slot.symm, rows⟩

namespace TableView

variable {t : Table}

theorem sortKey?_inj {key other : Token} {n : Nat} (sorted : sortKey? t key = some n)
    (same : sortKey? t other = some n) : key = other := by
  unfold sortKey? at sorted same
  split at sorted
  next table kind =>
    simp only [kind] at same
    split at sorted
    next number =>
      split at same
      next otherNumber =>
        cases sorted
        exact Token.ext_parts (number.trans otherNumber.symm) (Option.some.inj same).symm
      next => cases same
    next => cases sorted
  next coded kind =>
    simp only [kind] at same
    obtain ⟨table, named, encoded⟩ := Option.bind_eq_some_iff.1 sorted
    obtain ⟨otherTable, otherNamed, otherEncoded⟩ := Option.bind_eq_some_iff.1 same
    have ok {x : Except Error Nat} (defined : x.toOption = some n) : x = .ok n := by
      cases x with
      | ok value =>
        cases defined
        rfl
      | error e => cases defined
    obtain ⟨rfl, row⟩ :=
      CodedIndex.encode_inj key.row_lt other.row_lt (ok encoded) (ok otherEncoded)
    have number := Table.number_of_ofNumber? named
    have otherNumber := Table.number_of_ofNumber? otherNamed
    exact Token.ext_parts (number.symm.trans otherNumber) row
  next => cases sorted

end TableView

def Row.sortKey? {t : Table} (row : Row t) : Option Nat := row.key?.bind (TableView.sortKey? t)

/-- The first `first` keys are below the target, the others are not. -/
structure Splits (keys : List Nat) (target first : Nat) : Prop where
  below : ∀ k ∈ keys.take first, k < target
  above : ∀ k ∈ keys.drop first, target ≤ k

/-- Every row has a sort key, and the sort keys never fall. -/
def InKeyOrder {t : Table} (rows : List (Row t)) : Prop :=
  ∃ keys : List Nat, rows.map Row.sortKey? = keys.map some ∧ keys.Pairwise (· ≤ ·)

section
variable {t : Table} {key : Token} {target : Nat}

theorem Row.key?_eq_iff (known : TableView.sortKey? t key = some target) (row : Row t) :
    row.key? = some key ↔ row.sortKey? = some target := by
  constructor
  · intro same
    rw [sortKey?, same, Option.bind_some, known]
  · intro same
    obtain ⟨other, found, sorted⟩ := Option.bind_eq_some_iff.1 same
    rw [found, TableView.sortKey?_inj sorted known]

theorem Row.sortKey?_mem {rows : List (Row t)} {keys : List Nat}
    (keyed : rows.map Row.sortKey? = keys.map some) {row : Row t} (member : row ∈ rows) :
    ∃ k ∈ keys, row.sortKey? = some k := by
  have listed := List.mem_map_of_mem (f := Row.sortKey?) member
  rw [keyed] at listed
  obtain ⟨k, inside, same⟩ := List.mem_map.1 listed
  exact ⟨k, inside, same.symm⟩

theorem filter_absent (known : TableView.sortKey? t key = some target) {rows : List (Row t)}
    {keys : List Nat} (keyed : rows.map Row.sortKey? = keys.map some) (absent : target ∉ keys) :
    rows.filter (·.key? = some key) = [] := by
  rw [List.filter_eq_nil_iff]
  intro row member
  rw [decide_eq_true_eq, Row.key?_eq_iff known]
  intro same
  obtain ⟨k, inside, found⟩ := Row.sortKey?_mem keyed member
  rw [same] at found
  cases found
  exact absent inside

theorem filter_unsortable (unsortable : TableView.sortKey? t key = none) {rows : List (Row t)}
    (ordered : InKeyOrder rows) : rows.filter (·.key? = some key) = [] := by
  obtain ⟨keys, keyed, _⟩ := ordered
  rw [List.filter_eq_nil_iff]
  intro row member
  rw [decide_eq_true_eq]
  intro same
  obtain ⟨k, _, found⟩ := Row.sortKey?_mem keyed member
  rw [Row.sortKey?, same, Option.bind_some, unsortable] at found
  cases found

theorem filter_eq_takeWhile (known : TableView.sortKey? t key = some target) {rows : List (Row t)}
    {keys : List Nat} (keyed : rows.map Row.sortKey? = keys.map some)
    (ordered : keys.Pairwise (· ≤ ·)) (above : ∀ k ∈ keys, target ≤ k) :
    rows.filter (·.key? = some key) = rows.takeWhile (·.key? = some key) := by
  induction rows generalizing keys with
  | nil => rfl
  | cons row rest ih =>
    cases keys with
    | nil => cases keyed
    | cons k further =>
      obtain ⟨first, later⟩ := List.cons.inj keyed
      obtain ⟨least, ordered⟩ := List.pairwise_cons.1 ordered
      by_cases found : row.key? = some key
      · have rest := ih later ordered fun other member => above other (List.mem_cons_of_mem k member)
        simp [found, rest]
      · -- The first key is above the one that is looked for, and so are all after it.
        have greater : target < k := by
          rw [Row.key?_eq_iff known, first, Option.some.injEq] at found
          have := above k List.mem_cons_self
          omega
        have none : rest.filter (·.key? = some key) = [] := by
          refine filter_absent known later fun same => ?_
          have := least target same
          omega
        simpa [found] using none

theorem filter_of_splits (known : TableView.sortKey? t key = some target) {rows : List (Row t)}
    {keys : List Nat} (keyed : rows.map Row.sortKey? = keys.map some)
    (ordered : keys.Pairwise (· ≤ ·)) {first : Nat} (splits : Splits keys target first) :
    rows.filter (·.key? = some key) = (rows.drop first).takeWhile (·.key? = some key) := by
  have front : (rows.take first).filter (·.key? = some key) = [] := by
    have keyed : (rows.take first).map Row.sortKey? = (keys.take first).map some := by
      rw [List.map_take, keyed, List.map_take]
    refine filter_absent known keyed fun same => ?_
    exact Nat.lt_irrefl _ (splits.below target same)
  have keyed : (rows.drop first).map Row.sortKey? = (keys.drop first).map some := by
    rw [List.map_drop, keyed, List.map_drop]
  have back := filter_eq_takeWhile known keyed ordered.drop splits.above
  rw [← List.take_append_drop first rows, List.filter_append, front, List.nil_append, back,
    List.take_append_drop]

end

end CliMetadata
