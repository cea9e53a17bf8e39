import CliMetadata.Proofs.Signature.Format

set_option autoImplicit false

namespace CliMetadata

open SignatureReader

namespace SignatureFormat

-- A signature whose types are too deep is written in a form for more levels than the reader has.
theorem WellFormed.read_written {format : SignatureFormat} {value : format.Value}
    (wellFormed : format.WellFormed value) {bytes : List UInt8}
    (written : format.encode value = .ok bytes) :
    format.read bytes.toByteArray = .ok value ∨
      format.read bytes.toByteArray = .error (.recursionLimit maxDepth) := by
  let many := max levels (TypeSignature.deepest (format.parts value))
  have deepest : TypeSignature.deepest (format.parts value) ≤ many := Nat.le_max_right _ _
  obtain ⟨_, again, form⟩ := wellFormed.writes ((TypeSignature.deepest_le _ many).1 deepest)
  obtain rfl := Except.ok.inj (written.symm.trans again)
  rw [read_eq]
  refine whole_within (format.within_reader (Nat.le_max_left _ _)) (format.takes_reader many) ?_
  simpa using form

/-- What is written of a well-formed signature is read back exactly if its types are less than fifty
deep. -/
theorem read_written_iff_depth {format : SignatureFormat} {value : format.Value}
    (wellFormed : format.WellFormed value) :
    ∃ bytes, format.encode value = .ok bytes ∧
      ((∀ part ∈ format.parts value, part.depth ≤ 49) →
        format.read bytes.toByteArray = .ok value) ∧
      ((∃ part ∈ format.parts value, 50 ≤ part.depth) →
        format.read bytes.toByteArray = .error (.recursionLimit 50)) := by
  have deepest := (TypeSignature.deepest_le (format.parts value) _).1 (Nat.le_refl _)
  obtain ⟨bytes, written, _⟩ := wellFormed.writes deepest
  refine ⟨bytes, written, fun shallow => ?_, ?_⟩
  · have few : ∀ part ∈ format.parts value, part.depth ≤ levels := shallow
    obtain ⟨_, again, form⟩ := wellFormed.writes few
    obtain rfl := Except.ok.inj (written.symm.trans again)
    rw [read_ok]
    simpa using form
  · rintro ⟨part, member, deep⟩
    refine (wellFormed.read_written written).resolve_left fun read => ?_
    have shallow : part.depth ≤ 49 := ((format.read_ok _ _).1 read).depth_le part member
    omega

end SignatureFormat

def TypeSignature.nestedVectors : Nat → TypeSignature
  | 0 => .primitive .i4
  | n + 1 => .vector [] (nestedVectors n)

namespace TypeSignature

@[simp] theorem depth_nestedVectors (n : Nat) : (nestedVectors n).depth = n + 1 := by
  induction n with
  | zero => simp [nestedVectors, depth]
  | succ n ih => simp [nestedVectors, depth, ih]

theorem wellFormed_nestedVectors (n : Nat) : (nestedVectors n).WellFormed := by
  induction n with
  | zero => exact .intro trivial fun part member => absurd member List.not_mem_nil
  | succ n ih =>
    refine .intro ⟨fun token member => absurd member List.not_mem_nil, ?_⟩ fun part member => ?_
    · cases n <;> exact id
    · obtain rfl := List.mem_singleton.1 member
      exact ih

end TypeSignature

namespace SignatureFormat

theorem read_written_nestedVectors :
    (∃ bytes, (TypeSignature.nestedVectors 48).encode = .ok bytes ∧
      readType bytes.toByteArray = .ok (.nestedVectors 48)) ∧
    (∃ bytes, (TypeSignature.nestedVectors 49).encode = .ok bytes ∧
      readType bytes.toByteArray = .error (.recursionLimit 50)) := by
  have wellFormed (n : Nat) : type.WellFormed (TypeSignature.nestedVectors n) :=
    ⟨trivial, fun part member => by
      rw [List.mem_singleton.1 member]
      exact TypeSignature.wellFormed_nestedVectors n⟩
  obtain ⟨short, written, read, _⟩ := read_written_iff_depth (wellFormed 48)
  obtain ⟨long, writtenToo, _, refused⟩ := read_written_iff_depth (wellFormed 49)
  constructor
  · refine ⟨short, written, read fun part member => ?_⟩
    rw [List.mem_singleton.1 member]
    exact Nat.le_of_eq (TypeSignature.depth_nestedVectors 48)
  · refine ⟨long, writtenToo, refused ⟨.nestedVectors 49, List.mem_singleton.2 rfl, ?_⟩⟩
    exact Nat.le_of_eq (TypeSignature.depth_nestedVectors 49).symm

/-- What has been read, in whatever spelling, is read again from what is written of it. -/
theorem read_written_read {format : SignatureFormat} {blob : ByteArray} {value : format.Value}
    (read : format.read blob = .ok value)
    (named : ∀ token, format.Mentions token value → token.NamesType) :
    ∃ bytes, format.encode value = .ok bytes ∧ format.read bytes.toByteArray = .ok value := by
  have form := (format.read_ok blob value).1 read
  obtain ⟨bytes, written, again⟩ := (form.wellFormed named).writes form.depth_le
  refine ⟨bytes, written, ?_⟩
  rw [read_ok]
  simpa using again

theorem read_written_read_field :
    readField [0x06, 0x1F, 0x80, 0x05, 0x12, 0x80, 0x08].toByteArray =
        .ok ⟨[⟨true, ⟨0x01000001⟩⟩], .classType ⟨0x02000002⟩⟩ ∧
      ∃ bytes, FieldSignature.encode ⟨[⟨true, ⟨0x01000001⟩⟩], .classType ⟨0x02000002⟩⟩ = .ok bytes ∧
        readField bytes.toByteArray =
          .ok ⟨[⟨true, ⟨0x01000001⟩⟩], .classType ⟨0x02000002⟩⟩ := by
  have read : readField [0x06, 0x1F, 0x80, 0x05, 0x12, 0x80, 0x08].toByteArray =
      .ok ⟨[⟨true, ⟨0x01000001⟩⟩], .classType ⟨0x02000002⟩⟩ := rfl
  refine ⟨read, @read_written_read field _ _ read fun token mentions => ?_⟩
  rcases mentions with own | ⟨part, member, inside⟩
  · obtain rfl := List.mem_singleton.1 own
    exact .inr (.inl rfl)
  · obtain rfl := List.mem_singleton.1 member
    cases inside with
    | own member =>
      obtain rfl := List.mem_singleton.1 member
      exact .inl rfl
    | inside member => cases member

end SignatureFormat

end CliMetadata
