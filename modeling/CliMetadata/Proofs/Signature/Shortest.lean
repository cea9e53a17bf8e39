import CliMetadata.Proofs.Signature.Tokens

set_option autoImplicit false

namespace CliMetadata

open Writer

/-- No form of the value is shorter than what the writer puts. -/
def WritesShortest {α : Type} (writer : Writer Unit) (form : List UInt8 → α → Prop) (value : α) :
    Prop :=
  ∀ bytes, form bytes value → writer.NoLongerThan bytes

theorem shortest_uint (n : Nat) : WritesShortest (compressedUint n) UintForm n :=
  fun _ form => Compressed.encodesShortest_uint.noLongerThan appends_compressedUint form.lt form

theorem shortest_int (value : Int) : WritesShortest (compressedInt value) IntForm value :=
  fun _ form => Compressed.encodesShortest_int.noLongerThan appends_compressedInt form.range form

theorem shortest_count (length : Nat) : WritesShortest (count length) UintForm length := by
  intro bytes form
  have fits := form.lt
  rw [count, if_pos (by omega)]
  exact shortest_uint length bytes form

-- A row that fits is written as the number it was read from; any other took all four bytes.
theorem shortest_token {t : Token} (named : t.NamesType) :
    WritesShortest (compressedToken t) TokenForm t := by
  rintro bytes ⟨raw, table, form, tagged, rfl⟩
  obtain ⟨written, encoded, _, _, again, _⟩ := Compressed.token_form named
  refine ((appends_compressedToken _).puts encoded).noLongerThan ?_
  by_cases room : raw / 4 ≤ Token.maxRow
  · rw [Reader.token_ofBits tagged room] at encoded
    exact Compressed.encodesShortest_uint.least raw written bytes encoded form
  · have large : 0x3FFFFFF < raw := by
      rw [Token.maxRow] at room
      omega
    have wide : bytes.length = 4 := by
      rcases form.width with ⟨_, small⟩ | ⟨_, small⟩ | wide
      · omega
      · omega
      · exact wide
    rw [wide]
    exact again.length_le

section
variable {α : Type} {write : α → Writer Unit} {form : List UInt8 → α → Prop}

theorem shortest_each {values : List α}
    (each : ∀ value ∈ values, WritesShortest (write value) form value) :
    WritesShortest (Writer.each write values) (FormList form) values := by
  intro bytes listed
  induction listed with
  | nil => exact nothing_noLongerThan []
  | cons first others ih =>
    have next := ih fun value member => each value (List.mem_cons_of_mem _ member)
    exact (each _ List.mem_cons_self _ first).append next

end

theorem shortest_modifier {m : CustomModifier} (named : m.type.NamesType) :
    WritesShortest m.write ModifierForm m := by
  rintro _ ⟨token, rfl, form⟩
  exact (shortest_token named token form).cons

theorem shortest_modifiers {modifiers : List CustomModifier}
    (named : ∀ token ∈ modifierTokens modifiers, token.NamesType) :
    WritesShortest (writeModifiers modifiers) (FormList ModifierForm) modifiers :=
  shortest_each fun _ member => shortest_modifier (named _ (List.mem_map_of_mem member))

section
variable {inner : List UInt8 → TypeSignature → Prop}

theorem shortest_types {types : List TypeSignature}
    (each : ∀ type ∈ types, WritesShortest type.write inner type) :
    WritesShortest (TypeSignature.writeList types) (FormList inner) types := by
  rw [TypeSignature.writeList_eq]
  exact shortest_each each

theorem shortest_params {params : List ParamSignature}
    (each : ∀ p ∈ params, WritesShortest p.write (ParamForm inner) p) :
    WritesShortest (ParamSignature.writeList params) (FormList (ParamForm inner)) params := by
  rw [ParamSignature.writeList_eq]
  exact shortest_each each

theorem shortest_modified {modifiers : List CustomModifier} {type : TypeSignature}
    (named : ∀ token ∈ modifierTokens modifiers, token.NamesType)
    (base : WritesShortest type.write inner type) {bytes : List UInt8}
    (form : ModifiedForm inner bytes modifiers type) :
    NoLongerThan (do writeModifiers modifiers; type.write) bytes := by
  obtain ⟨listed, based, plain⟩ := form
  exact (shortest_modifiers named _ listed).append (base _ based)

theorem shortest_param {p : ParamSignature} (named : ∀ token ∈ p.tokens, token.NamesType)
    (base : WritesShortest p.type.write inner p.type) :
    WritesShortest p.write (ParamForm inner) p := by
  intro bytes form
  cases form with
  | byReference listed based =>
    rw [ParamSignature.write]
    exact (shortest_modifiers named _ listed).append (base _ based).cons
  | byValue listed based =>
    rw [ParamSignature.write]
    exact (shortest_modifiers named _ listed).append
      ((nothing_noLongerThan []).append (base _ based))

-- A header may say that a method is generic and then count no parameters; such a count is left out.
theorem shortest_generics (header : UInt8) (n : Nat) :
    WritesShortest (writeGenerics n) (GenericForm header) n := by
  intro bytes form
  rw [GenericForm] at form
  by_cases generic : 0 < n
  · rw [writeGenerics, if_pos generic]
    split at form
    next => exact shortest_uint n bytes form
    next => omega
  · rw [writeGenerics, if_neg generic]
    exact nothing_noLongerThan bytes

theorem shortest_apart {varargs : Bool} {bytes : List UInt8} {params extra : List ParamSignature}
    (each : ∀ p ∈ params ++ extra, WritesShortest p.write (ParamForm inner) p)
    (form : ParamsForm inner varargs bytes params extra) :
    NoLongerThan
      (do
        ParamSignature.writeList params
        writeMarker (!extra.isEmpty) Element.sentinel
        ParamSignature.writeList extra)
      bytes := by
  have front := shortest_params fun p member => each p (List.mem_append_left extra member)
  have back := shortest_params fun p member => each p (List.mem_append_right params member)
  cases form with
  | fixed listed =>
    have whole := (front _ listed).append ((nothing_noLongerThan []).append (back [] .nil))
    rwa [List.append_nil, List.append_nil] at whole
  | apart allowed some listed behind =>
    have marked : (!extra.isEmpty) = true := by simpa using some
    rw [marked]
    exact (front _ listed).append (back _ behind).cons

theorem shortest_method {m : MethodSignature}
    (named : ∀ p ∈ m.allParams, ∀ token ∈ p.tokens, token.NamesType)
    (each : ∀ p ∈ m.allParams, WritesShortest p.type.write inner p.type) :
    WritesShortest m.write (MethodForm inner) m := by
  have params : ∀ p ∈ m.allParams, WritesShortest p.write (ParamForm inner) p :=
    fun p member => shortest_param (named p member) (each p member)
  rintro _ ⟨known, generic, counted, returning, taking⟩
  rw [MethodSignature.write]
  refine .cons ((shortest_generics _ _ _ generic).append ((shortest_count _ _ counted).append ?_))
  refine (params _ List.mem_cons_self _ returning).append ?_
  exact shortest_apart (fun p member => params p (List.mem_cons_of_mem _ member)) taking

theorem shortest_array {bytes : List UInt8} {type : TypeSignature}
    (form : ArrayForm inner bytes type)
    (each : ∀ part ∈ type.parts, WritesShortest part.write inner part) :
    type.write.NoLongerThan (Element.array :: bytes) := by
  obtain ⟨based, ranks, some, sizesCounted, sizesFit, sizesListed, lowsCounted, lowsFit,
    lowsListed⟩ := form
  rw [TypeSignature.write, writeShape, sizesOf_dimensions, lowerBoundsOf_dimensions]
  refine .cons ((each _ List.mem_cons_self _ based).append ?_)
  refine (shortest_uint _ _ ranks).append ((shortest_count _ _ sizesCounted).append ?_)
  refine (shortest_each (fun size _ => shortest_uint size) _ sizesListed).append ?_
  refine (shortest_count _ _ lowsCounted).append ?_
  exact shortest_each (fun low _ => shortest_int low) _ lowsListed

theorem shortest_instantiation {bytes : List UInt8} {type : TypeSignature}
    (form : InstantiationForm inner bytes type)
    (each : ∀ part ∈ type.parts, WritesShortest part.write inner part) :
    type.write.NoLongerThan (Element.instantiation :: bytes) := by
  obtain ⟨based, isNamed, counted, some, listed⟩ := form
  have args := shortest_types fun arg member => each arg (List.mem_cons_of_mem _ member)
  rw [TypeSignature.write]
  refine .cons ((each _ List.mem_cons_self _ based).append ?_)
  exact (shortest_count _ _ counted).append (args _ listed)

theorem shortest_body {type : TypeSignature} (named : ∀ token ∈ type.ownTokens, token.NamesType)
    (each : ∀ part ∈ type.parts, WritesShortest part.write inner part) :
    WritesShortest type.write (BodyForm inner) type := by
  intro bytes form
  cases form with
  | primitive p =>
    rw [TypeSignature.write]
    exact byte_noLongerThan p.byte p.byte
  | pointer form | vector form =>
    rw [TypeSignature.write]
    exact (shortest_modified named (each _ List.mem_cons_self) form).cons
  | byReference form =>
    rw [TypeSignature.write]
    exact (each _ List.mem_cons_self _ form).cons
  | valueType form | classType form =>
    rw [TypeSignature.write]
    exact (shortest_token (named _ List.mem_cons_self) _ form).cons
  | typeVariable form | methodVariable form =>
    rw [TypeSignature.write]
    exact (shortest_uint _ _ form).cons
  | array form => exact shortest_array form each
  | instantiation form => exact shortest_instantiation form each
  | functionPointer form =>
    rw [TypeSignature.write]
    refine .cons (shortest_method ?_ ?_ _ form)
    · exact fun p member token own => named token (List.mem_flatMap.2 ⟨p, member, own⟩)
    · exact fun p member => each p.type (List.mem_map_of_mem member)
  | modified form =>
    rw [TypeSignature.write]
    exact shortest_modified named (each _ List.mem_cons_self) form

theorem shortest_field {f : FieldSignature}
    (named : ∀ token ∈ modifierTokens f.modifiers, token.NamesType)
    (base : WritesShortest f.type.write inner f.type) :
    WritesShortest f.write (FieldForm inner) f := by
  rintro _ ⟨form⟩
  exact (shortest_modified named base form).cons

theorem shortest_property {p : PropertySignature}
    (named : ∀ token ∈ modifierTokens p.modifiers, token.NamesType)
    (base : WritesShortest p.type.write inner p.type)
    (params : ∀ param ∈ p.params, WritesShortest param.write (ParamForm inner) param) :
    WritesShortest p.write (PropertyForm inner) p := by
  rintro _ ⟨known, counted, ⟨listed, based, plain⟩, taking⟩
  rw [List.append_assoc]
  refine .cons ((shortest_count _ _ counted).append ?_)
  refine (shortest_modifiers named _ listed).append ?_
  exact (base _ based).append (shortest_params params _ taking)

theorem shortest_methodSpec {m : MethodSpecSignature}
    (each : ∀ arg ∈ m.args, WritesShortest arg.write inner arg) :
    WritesShortest m.write (MethodSpecForm inner) m := by
  have args : WritesShortest (Writer.each TypeSignature.append m.args) (FormList inner) m.args :=
    shortest_each fun arg member bytes form => (each arg member bytes form).restoring
  rintro _ ⟨counted, listed⟩
  exact .cons ((shortest_count _ _ counted).append (args _ listed))

end

-- Each level of the form is shortened for itself, the parts of the type one level further in.
theorem TypeSignature.shortest {type : TypeSignature}
    (named : ∀ token, type.Mentions token → token.NamesType) (levels : Nat) :
    WritesShortest type.write (TypeForm levels) type := by
  induction levels generalizing type with
  | zero => exact fun bytes form => form.elim
  | succ levels ih =>
    refine shortest_body (fun token own => named token (.own own)) fun part member => ?_
    exact ih fun token inside => named token (.inside member inside)

namespace SignatureFormat

theorem shortest_format {format : SignatureFormat} {value : format.Value}
    {inner : List UInt8 → TypeSignature → Prop}
    (named : ∀ token ∈ format.ownTokens value, token.NamesType)
    (each : ∀ part ∈ format.parts value, WritesShortest part.write inner part) :
    WritesShortest (format.write value) (format.Form inner) value := by
  cases format with
  | type | typeSpec => exact each _ List.mem_cons_self
  | field => exact shortest_field named (each _ List.mem_cons_self)
  | methodDef =>
    refine shortest_method (fun p member token own => named token ?_) fun p member => ?_
    · exact List.mem_flatMap.2 ⟨p, member, own⟩
    · exact each _ (List.mem_map_of_mem member)
  | property =>
    refine shortest_property (fun token own => named token (List.mem_append_left _ own))
      (each _ List.mem_cons_self) fun p member => shortest_param (fun token own => ?_) ?_
    · exact named token (List.mem_append_right _ (List.mem_flatMap.2 ⟨p, member, own⟩))
    · exact each _ (List.mem_cons_of_mem _ (List.mem_map_of_mem member))
  | methodSpec => exact shortest_methodSpec each

theorem length_written_le {format : SignatureFormat} {value : format.Value}
    (named : ∀ token, format.Mentions token value → token.NamesType) {written : List UInt8}
    (encoded : format.encode value = .ok written) {levels : Nat} {bytes : List UInt8}
    (form : format.Form (TypeForm levels) bytes value) : written.length ≤ bytes.length := by
  have parts : ∀ part ∈ format.parts value, WritesShortest part.write (TypeForm levels) part :=
    fun part member => part.shortest (fun token inside => named token (.inr ⟨part, member, inside⟩))
      levels
  obtain ⟨again, puts, le⟩ :=
    shortest_format (fun token own => named token (.inl own)) parts bytes form
  rw [encode_eq, puts.written] at encoded
  cases encoded
  exact le

/-- Of all blobs that are read as the signature, whichever it came from, none is shorter than the
one that is written. -/
theorem written_shortest {format : SignatureFormat} {blob : ByteArray} {value : format.Value}
    (read : format.read blob = .ok value)
    (named : ∀ token, format.Mentions token value → token.NamesType) :
    ∃ bytes, format.encode value = .ok bytes ∧ bytes.length ≤ blob.size ∧
      format.read bytes.toByteArray = .ok value ∧
      ∀ other, format.read other = .ok value → bytes.length ≤ other.size := by
  have form := (format.read_ok blob value).1 read
  obtain ⟨bytes, encoded, again⟩ := (form.wellFormed named).writes form.depth_le
  have least : ∀ other, format.read other = .ok value → bytes.length ≤ other.size := by
    intro other alsoRead
    simpa using length_written_le named encoded ((format.read_ok other value).1 alsoRead)
  refine ⟨bytes, encoded, least blob read, ?_, least⟩
  rw [read_ok]
  simpa using again

/-- A method that is called generic and has no generic parameters, all numbers in longer forms than
they need. -/
def longMethod : ByteArray := [0x10, 0x80, 0x00, 0x80, 0x01, 0x12, 0x80, 0x0A, 0x08].toByteArray

def longMethodSignature : MethodSignature :=
  ⟨false, false, 0, 0, ⟨[], false, .classType ⟨0x1B000002⟩⟩, [⟨[], false, .primitive .i4⟩], []⟩

theorem written_shortest_longMethod :
    readMethodDef longMethod = .ok longMethodSignature ∧
    (∀ token, methodDef.Mentions token longMethodSignature → token.NamesType) ∧
    ∃ bytes, longMethodSignature.encode = .ok bytes ∧ bytes.length ≤ longMethod.size ∧
      readMethodDef bytes.toByteArray = .ok longMethodSignature ∧
      ∀ other, readMethodDef other = .ok longMethodSignature → bytes.length ≤ other.size := by
  have read : readMethodDef longMethod = .ok longMethodSignature := rfl
  have named : ∀ token, methodDef.Mentions token longMethodSignature → token.NamesType := by
    rintro token (own | ⟨part, member, inside⟩)
    · cases own
    obtain rfl | member := List.mem_cons.1 member
    · cases inside with
      | own member =>
        obtain rfl := List.mem_singleton.1 member
        exact .inr (.inr rfl)
      | inside member => cases member
    · obtain rfl := List.mem_singleton.1 member
      cases inside with
      | own member => cases member
      | inside member => cases member
  exact ⟨read, named, @written_shortest methodDef _ _ read named⟩

end SignatureFormat

end CliMetadata
