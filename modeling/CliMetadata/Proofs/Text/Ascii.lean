import CliMetadata.Text.Ascii

set_option autoImplicit false

namespace CliMetadata.Text

structure Unpadded (cs : List Char) : Prop where
  front : ∀ c ∈ cs.head?, isBlank c = false
  back : ∀ c ∈ cs.getLast?, isBlank c = false

theorem trimStart_eq {cs : List Char} (front : ∀ c ∈ cs.head?, isBlank c = false) :
    trimStart cs = cs := by
  cases cs with
  | nil => rfl
  | cons c cs => exact List.dropWhile_cons_of_neg (by simp [front c rfl])

theorem Unpadded.trim_eq {cs : List Char} (unpadded : Unpadded cs) : trim cs = cs := by
  have back : ∀ c ∈ cs.reverse.head?, isBlank c = false := by simpa using unpadded.back
  rw [trim, trimStart_eq unpadded.front, trimStart_eq back, List.reverse_reverse]

theorem Unpadded.trim_blanks {blanks cs : List Char} (unpadded : Unpadded cs)
    (blank : ∀ c ∈ blanks, isBlank c = true) : trim (blanks ++ cs) = cs := by
  have dropped : trimStart (blanks ++ cs) = trimStart cs := List.dropWhile_append_of_pos blank
  rw [trim, dropped]
  exact unpadded.trim_eq

theorem unpadded_map {f : Char → Char} {cs : List Char}
    (blank : ∀ c, isBlank (f c) = isBlank c) : Unpadded (cs.map f) ↔ Unpadded cs := by
  constructor
  · intro unpadded
    exact ⟨by simpa [blank] using unpadded.front, by simpa [blank] using unpadded.back⟩
  · intro unpadded
    exact ⟨by simpa [blank] using unpadded.front, by simpa [blank] using unpadded.back⟩

-- A change of case swaps letters for letters, which are neither blanks nor commas.
theorem toLower_cases (c : Char) : c.toLower = c ∨
    (0x41 ≤ c.toNat ∧ c.toNat ≤ 0x5A ∧ c.toLower.toNat = c.toNat + 0x20) := by
  unfold Char.toLower
  split
  next capital =>
    have low : 0x41 ≤ c.val.toNat := UInt32.le_iff_toNat_le.1 capital.1
    have high : c.val.toNat ≤ 0x5A := UInt32.le_iff_toNat_le.1 capital.2
    have shift : ('a'.val - 'A'.val).toNat = 0x20 := rfl
    refine .inr ⟨low, high, ?_⟩
    change (c.val + ('a'.val - 'A'.val)).toNat = c.val.toNat + 0x20
    rw [UInt32.toNat_add, shift]
    omega
  next => exact .inl rfl

theorem isBlank_letter {c : Char} (low : 0x41 ≤ c.toNat) (high : c.toNat ≤ 0x7A) :
    isBlank c = false := by
  simp only [isBlank]
  grind

theorem isBlank_toLower (c : Char) : isBlank c.toLower = isBlank c := by
  obtain same | ⟨low, high, lower⟩ := toLower_cases c
  · rw [same]
  · rw [isBlank_letter low (by omega), isBlank_letter (by omega) (by omega)]

@[simp] theorem toLower_eq_comma {c : Char} : c.toLower = ',' ↔ c = ',' := by
  obtain same | ⟨low, high, lower⟩ := toLower_cases c
  · rw [same]
  · have comma : ','.toNat = 0x2C := rfl
    constructor
    · intro same
      rw [same] at lower
      omega
    · rintro rfl
      omega

end CliMetadata.Text
