import CliMetadata.Proofs.Attribute.Reading

set_option autoImplicit false

namespace CliMetadata.AttributeBlob

open Reader

variable {m : Type → Type} [Monad m] [MonadExceptOf Error m]

theorem yields_scalar (value : Scalar) :
    Yields (scalar value.primitive : ArgumentReader m Scalar) value.written value := by
  obtain ⟨reader, has, spells⟩ := value.spells_written
  rw [scalar, has]
  exact yields_read spells

theorem argumentPrimitive?_byte {p : Primitive} (scalars : (Scalar.reader? p).isSome) :
    argumentPrimitive? p.byte = some p := by
  rw [argumentPrimitive?, Primitive.ofByte?_byte, Option.filter_some, if_pos scalars]

variable [LawfulMonad m] {resolve : String → m Primitive}

theorem yields_type {t : ArgumentType} (tagged : t.Tagged resolve) {levels : Nat}
    (shallow : t.depth ≤ levels) : Yields (type resolve (levels + 1)) t.tag t := by
  induction tagged generalizing levels with
  | @primitive p scalars =>
    refine (yields_read (spells_byte p.byte)).bind ?_
    rw [argumentPrimitive?_byte scalars]
    exact yields_pure _
  | text => exact (yields_read (spells_byte Primitive.string.byte)).bind (yields_pure _)
  | type => exact (yields_read (spells_byte typeTag)).bind (yields_pure _)
  | boxed => exact (yields_read (spells_byte boxedTag)).bind (yields_pure _)
  | @enum name underlying fits known =>
    have named : Yields (type resolve (levels + 1))
        ([enumTag] ++ (AttributeBlob.textBytes name ++ [])) (.enum name underlying) := by
      refine (yields_read (spells_byte enumTag)).bind ?_
      refine (yields_read (spells_text fits)).bind ?_
      exact (yields_lift known).map (ArgumentType.enum name)
    rwa [List.append_nil] at named
  | @array element tagged ih =>
    obtain _ | levels := levels
    · exact absurd shallow (Nat.not_succ_le_zero _)
    refine (yields_read (spells_byte Element.vector)).bind ?_
    exact (ih (Nat.le_of_succ_le_succ shallow)).map ArgumentType.array

theorem yields_value {t : ArgumentType} {a : Argument} (serves : a.Serves resolve t) {levels : Nat}
    (shallow : a.depth ≤ levels) : Yields (value resolve (levels + 1) t) a.written a.value := by
  induction serves generalizing levels with
  | scalar v =>
    rw [Argument.written, Argument.value]
    exact (yields_scalar v).map _
  | text fits =>
    rw [Argument.written, Argument.value]
    exact (yields_read (spells_writtenText fits)).map _
  | type fits =>
    rw [Argument.written, Argument.value]
    exact (yields_read (spells_writtenText fits)).map _
  | enum name v =>
    rw [Argument.written, Argument.value]
    exact (yields_scalar v).map _
  | boxed tagged served ih =>
    rw [Argument.depth] at shallow
    obtain _ | levels := levels
    · exact absurd shallow (Nat.not_succ_le_zero _)
    rw [Argument.written, Argument.value]
    exact (yields_type tagged (by omega)).bind (ih (by omega))
  | nullArray element =>
    have spells : (Reader.number 4).Spells (Bytes.written 4 nullArray) nullArray :=
      spells_number (by decide) (by decide)
    rw [Argument.written, Argument.value, ← List.append_nil (Bytes.written 4 nullArray)]
    exact (yields_read spells).bind (yields_pure _)
  | @array element elements few served ih =>
    rw [Argument.depth] at shallow
    have fits : elements.length < Bytes.span 4 := by
      have : Bytes.span 4 = nullArray + 1 := rfl
      omega
    have each (b : Argument) (member : b ∈ elements) :
        Yields (value resolve levels element) b.written b.value := by
      have deeper := Argument.depth_lt_below member
      obtain _ | levels := levels
      · omega
      exact ih b member (by omega)
    rw [Argument.written, Argument.value, Argument.writtenAll_eq, Argument.values_eq]
    refine (yields_read (spells_number (by decide) fits)).bind ?_
    rw [if_neg (Nat.ne_of_lt few)]
    exact (yields_times each).map _

theorem yields_fixedArguments {items : List FixedArgument}
    (storable : ∀ x ∈ items, x.Storable resolve) :
    Yields (fixedArguments resolve (items.map (·.type))) (items.flatMap (·.argument.written))
      (items.map (·.argument.value)) := by
  induction items with
  | nil => exact yields_pure _
  | cons x items ih =>
    have first := storable x List.mem_cons_self
    have others := ih fun other member => storable other (List.mem_cons_of_mem _ member)
    exact (yields_value first.serves first.shallow).bind (others.map _)

@[simp] theorem namedKind_kindTag (kind : NamedArgumentKind) :
    namedKind (kindTag kind) = .ok kind := by
  cases kind <;> rfl

theorem yields_namedArgument {x : TaggedArgument} (storable : x.Storable resolve) :
    Yields (namedArgument resolve) x.written x.value := by
  refine (yields_read (spells_byte (kindTag x.kind))).bind ?_
  rw [namedKind_kindTag]
  refine (yields_type storable.tagged storable.tagShallow).bind ?_
  refine (yields_read (spells_text storable.nameFits)).bind ?_
  exact (yields_value storable.serves storable.shallow).map _

theorem spells_expectProlog : expectProlog.Spells (Bytes.written 2 prolog) () :=
  (spells_number (by decide) (by decide)).bind (spells_pure ())

theorem spells_namedCount {n : Nat} (fits : n < Bytes.span 2) :
    namedCount.Spells (Bytes.written 2 n) n := by
  intro c rest unread
  have more : c.hasMore = true := by
    rw [Cursor.hasMore_iff, unread]
    simp [Bytes.written]
  refine bind_ok.2 ⟨true, c, by rw [← more]; rfl, ?_⟩
  exact spells_number (by decide) fits c rest unread

theorem ends_finish {α : Type} (a : α) :
    Ends (do read finish; return a : ArgumentReader m α) [] a := by
  intro c unread
  have noMore : c.hasMore = false :=
    Bool.eq_false_iff.2 fun more => (Cursor.hasMore_iff c).1 more unread
  have finished : finish c = .ok () c := bind_ok.2 ⟨false, c, by rw [← noMore]; rfl, rfl⟩
  refine ⟨c, ?_⟩
  change (read finish c >>= fun r => pure (a, r.2)) = _
  rw [read, finished, pure_bind]

theorem ends_arguments {content : AttributeContent} (storable : content.Storable resolve) :
    Ends (arguments resolve content.types) content.written content.arguments := by
  have few : content.named.length < Bytes.span 2 := Nat.lt_succ_of_le storable.few
  have named := yields_times fun x member => yields_namedArgument (storable.named x member)
  refine (yields_read spells_expectProlog).ends ?_
  refine (yields_fixedArguments storable.fixed).ends ?_
  refine (yields_read (spells_namedCount few)).ends ?_
  rw [← List.append_nil (content.named.flatMap _)]
  exact named.ends (ends_finish _)

/-- Reading the blob of storable contents gives the arguments that it stores. -/
theorem decode_written {content : AttributeContent} (storable : content.Storable resolve) :
    decode resolve content.types content.written.toByteArray = pure content.arguments := by
  have size : content.written.toByteArray.size ≠ 0 := by
    simp [AttributeContent.written]
  have unread : ({ data := content.written.toByteArray } : Cursor).unread = content.written := by
    simp
  obtain ⟨c', ran⟩ := ends_arguments storable _ unread
  rw [decode, if_neg size, StateT.run, ran, pure_bind]

def colors (name : String) : Except Error Primitive :=
  if name = "Color" then .ok .u1 else .error (.typeNotFound name)

def painted : AttributeContent where
  fixed := [⟨.primitive .i4, .scalar (.i4 (-2))⟩,
    ⟨.boxed, .boxed (.array (.enum "Color" .u1)) (.array [.enum "Color" (.u1 3)])⟩,
    ⟨.array .text, .nullArray⟩]
  named := [⟨.property, "Name", .text, .text (some "é")⟩, ⟨.field, "Any", .boxed,
    .boxed .type (.type none)⟩]

theorem painted_storable : painted.Storable colors := by
  have color : ArgumentType.Tagged colors (.enum "Color" .u1) := .enum (by decide) rfl
  refine ⟨?_, ?_, by decide⟩
  · simp only [painted, List.forall_mem_cons]
    refine ⟨⟨.scalar (.i4 (-2)), by decide⟩,
      ⟨.boxed (.array color) (.array (by decide) ?_), by decide⟩, ⟨.nullArray .text, by decide⟩,
      List.forall_mem_nil _⟩
    intro a member
    obtain rfl := List.mem_singleton.1 member
    exact .enum "Color" (.u1 3)
  · simp only [painted, List.forall_mem_cons]
    refine ⟨⟨by decide, .text, by decide, .text ?_, by decide⟩,
      ⟨by decide, .boxed, by decide, .boxed .type (.type ?_), by decide⟩, List.forall_mem_nil _⟩
    · rintro s ⟨rfl⟩
      decide
    · rintro s ⟨⟩

theorem decode_written_painted :
    painted.written = [0x01, 0x00,
      0xFE, 0xFF, 0xFF, 0xFF,
      0x1D, 0x55, 0x05, 0x43, 0x6F, 0x6C, 0x6F, 0x72, 0x01, 0x00, 0x00, 0x00, 0x03,
      0xFF, 0xFF, 0xFF, 0xFF,
      0x02, 0x00,
      0x54, 0x0E, 0x04, 0x4E, 0x61, 0x6D, 0x65, 0x02, 0xC3, 0xA9,
      0x53, 0x51, 0x03, 0x41, 0x6E, 0x79, 0x50, 0xFF] ∧
    painted.Storable colors ∧
    decode colors painted.types painted.written.toByteArray = .ok {
      fixed := [.scalar (.i4 (-2)), .array (some [.enum "Color" (.u1 3)]), .array none]
      named := [⟨.property, "Name", .text (some "é")⟩, ⟨.field, "Any", .type none⟩] } :=
  ⟨by decide +kernel, painted_storable, decode_written painted_storable⟩

end CliMetadata.AttributeBlob
