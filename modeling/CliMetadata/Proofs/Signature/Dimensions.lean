import CliMetadata.Proofs.Signature.WellFormed
import CliMetadata.Signature.Decoder
import CliMetadata.Signature.Encoder

set_option autoImplicit false

namespace CliMetadata

namespace SignatureReader

@[simp] theorem length_dimensions (sizes : List Nat) (lows : List Int) :
    (dimensions sizes lows).length = max sizes.length lows.length := by
  fun_induction dimensions sizes lows <;> simp only [List.length_nil, List.length_cons] at * <;>
    omega

@[simp] theorem getElem_dimensions (sizes : List Nat) (lows : List Int) (i : Nat)
    (inside : i < (dimensions sizes lows).length) :
    (dimensions sizes lows)[i] = ⟨sizes[i]?, lows[i]?⟩ := by
  fun_induction dimensions sizes lows generalizing i with
  | case1 => simp at inside
  | case2 size sizes ih => cases i <;> simp [ih]
  | case3 low lows ih => cases i <;> simp [ih]
  | case4 size sizes low lows ih => cases i <;> simp [ih]

theorem shape_dimensions {rank : Nat} {sizes : List Nat} {lows : List Int} (some : rank ≠ 0)
    (rankFits : rank < 0x20000000) (fewSizes : sizes.length ≤ rank) (fewLows : lows.length ≤ rank)
    (sizesFit : ∀ size ∈ sizes, size < 0x20000000)
    (lowsFit : ∀ low ∈ lows, -0x10000000 ≤ low ∧ low < 0x10000000) :
    ArrayShape rank (dimensions sizes lows) where
  some := Nat.one_le_iff_ne_zero.2 some
  rankFits := rankFits
  prefixes := by
    refine ⟨sizes.length, lows.length, fewSizes, fewLows, length_dimensions sizes lows, ?_⟩
    intro i inside
    simp [getElem_dimensions sizes lows i inside]
  sizesFit := by
    intro d member size has
    obtain ⟨i, inside, rfl⟩ := List.getElem_of_mem member
    rw [getElem_dimensions sizes lows i inside] at has
    exact sizesFit size (List.mem_of_getElem? has)
  lowsFit := by
    intro d member low has
    obtain ⟨i, inside, rfl⟩ := List.getElem_of_mem member
    rw [getElem_dimensions sizes lows i inside] at has
    exact lowsFit low (List.mem_of_getElem? has)

end SignatureReader

@[simp] theorem sizesOf_dimensions (sizes : List Nat) (lows : List Int) :
    sizesOf (SignatureReader.dimensions sizes lows) = sizes := by
  fun_induction SignatureReader.dimensions sizes lows with
  | case1 => rfl
  | case2 size sizes ih => rw [sizesOf, ih]
  | case3 low lows ih => rfl
  | case4 size sizes low lows ih => rw [sizesOf, ih]

@[simp] theorem lowerBoundsOf_dimensions (sizes : List Nat) (lows : List Int) :
    lowerBoundsOf (SignatureReader.dimensions sizes lows) = lows := by
  fun_induction SignatureReader.dimensions sizes lows with
  | case1 => rfl
  | case2 size sizes ih => rfl
  | case3 low lows ih => rw [lowerBoundsOf, ih]
  | case4 size sizes low lows ih => rw [lowerBoundsOf, ih]

theorem mem_sizesOf {dims : List ArrayDimension} {size : Nat} (member : size ∈ sizesOf dims) :
    ∃ d ∈ dims, d.size = some size := by
  fun_induction sizesOf dims with
  | case1 first low rest ih =>
    obtain rfl | member := List.mem_cons.1 member
    · exact ⟨_, List.mem_cons_self, rfl⟩
    · obtain ⟨d, inside, has⟩ := ih member
      exact ⟨d, List.mem_cons_of_mem _ inside, has⟩
  | case2 => cases member

theorem mem_lowerBoundsOf {dims : List ArrayDimension} {low : Int}
    (member : low ∈ lowerBoundsOf dims) : ∃ d ∈ dims, d.lowerBound = some low := by
  fun_induction lowerBoundsOf dims with
  | case1 size first rest ih =>
    obtain rfl | member := List.mem_cons.1 member
    · exact ⟨_, List.mem_cons_self, rfl⟩
    · obtain ⟨d, inside, has⟩ := ih member
      exact ⟨d, List.mem_cons_of_mem _ inside, has⟩
  | case2 => cases member

theorem dimensions_of {dims : List ArrayDimension} {sizes lows : Nat}
    (length : dims.length = max sizes lows)
    (firsts : ∀ i (inside : i < dims.length), (dims[i].size.isSome ↔ i < sizes) ∧
      (dims[i].lowerBound.isSome ↔ i < lows)) :
    SignatureReader.dimensions (sizesOf dims) (lowerBoundsOf dims) = dims ∧
      (sizesOf dims).length = sizes ∧ (lowerBoundsOf dims).length = lows := by
  induction dims generalizing sizes lows with
  | nil =>
    rw [List.length_nil] at length
    refine ⟨by simp [sizesOf, lowerBoundsOf, SignatureReader.dimensions], ?_, ?_⟩
    · simp only [sizesOf, List.length_nil]
      omega
    · simp only [lowerBoundsOf, List.length_nil]
      omega
  | cons d rest ih =>
    rw [List.length_cons] at length
    obtain ⟨hasSize, hasLow⟩ := firsts 0 (by simp)
    have behind := @ih (sizes - 1) (lows - 1) (by omega) fun i inside => by
      have next := firsts (i + 1) (by simpa using inside)
      simp only [List.getElem_cons_succ] at next
      rw [next.1, next.2]
      omega
    obtain ⟨same, sizesLeft, lowsLeft⟩ := behind
    obtain ⟨size, low⟩ := d
    rw [List.getElem_cons_zero] at hasSize hasLow
    cases size with
    | none =>
      have noSize : sizes = 0 := by simpa using hasSize
      cases low with
      | none =>
        have noLow : lows = 0 := by simpa using hasLow
        omega
      | some low =>
        have someLow : 0 < lows := by simpa using hasLow
        have noSizes : sizesOf rest = [] := List.eq_nil_of_length_eq_zero (by omega)
        rw [noSizes] at same
        refine ⟨by simp [sizesOf, lowerBoundsOf, SignatureReader.dimensions, same], ?_, ?_⟩
        · simpa [sizesOf] using noSize.symm
        · simp only [lowerBoundsOf, List.length_cons]
          omega
    | some size =>
      have someSize : 0 < sizes := by simpa using hasSize
      cases low with
      | none =>
        have noLow : lows = 0 := by simpa using hasLow
        have noLows : lowerBoundsOf rest = [] := List.eq_nil_of_length_eq_zero (by omega)
        rw [noLows] at same
        refine ⟨by simp [sizesOf, lowerBoundsOf, SignatureReader.dimensions, same], ?_, ?_⟩
        · simp only [sizesOf, List.length_cons]
          omega
        · simpa [lowerBoundsOf] using noLow.symm
      | some low =>
        have someLow : 0 < lows := by simpa using hasLow
        refine ⟨by simp [sizesOf, lowerBoundsOf, SignatureReader.dimensions, same], ?_, ?_⟩
        · simp only [sizesOf, List.length_cons]
          omega
        · simp only [lowerBoundsOf, List.length_cons]
          omega

end CliMetadata
