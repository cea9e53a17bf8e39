import CliMetadata.Proofs.Running
import CliMetadata.Proofs.Signature.Format

set_option autoImplicit false

namespace CliMetadata

/-- The token is the one that the number spells, and it is written as that number again. -/
structure Token.SpelledBy (t : Token) (u : Nat) : Prop where
  named : ∃ table, [.typeDef, .typeRef, .typeSpec][u % 4]? = some table ∧ t.Names table (u / 4)
  written : ∃ bytes, Compressed.token t = .ok bytes ∧ UintForm bytes u

structure Cursor.ReadsToken (c : Cursor) : Prop where
  tagged : ∀ u c', Reader.compressedUint c = .ok u c' → u % 4 ≠ 3 →
    ∃ t, Reader.compressedToken c = .ok t c' ∧ (t.SpelledBy u ↔ u / 4 ≤ Token.maxRow)
  untagged : ∀ u c', Reader.compressedUint c = .ok u c' → u % 4 = 3 →
    ∃ e, Reader.compressedToken c = .error e c'
  failed : ∀ e c', Reader.compressedUint c = .error e c' → Reader.compressedToken c = .error e c'

theorem Token.SpelledBy.namesType {t : Token} {u : Nat} (spelled : t.SpelledBy u) :
    t.NamesType := by
  obtain ⟨table, listed, named⟩ := spelled.named
  have types := List.mem_of_getElem? listed
  simp only [List.mem_cons, List.not_mem_nil, or_false] at types
  simpa [NamesType, named.1] using types

namespace Reader

theorem tokenTable?_eq {tag : Nat} (small : tag < 4) :
    tokenTable? tag = [.typeDef, .typeRef, .typeSpec][tag]? := by
  have all : ∀ i : Fin 4, tokenTable? i = [.typeDef, .typeRef, .typeSpec][i.val]? := by decide
  exact all ⟨tag, small⟩

theorem tokenTag?_of_tokenTable? {tag : Nat} {table : Table}
    (tagged : tokenTable? tag = some table) : Compressed.tokenTag? (some table) = some tag := by
  unfold tokenTable? at tagged
  split at tagged <;> cases tagged <;> rfl

theorem token_ofBits {u : Nat} {table : Table} (tagged : tokenTable? (u % 4) = some table)
    (room : u / 4 ≤ Token.maxRow) :
    Compressed.token (Token.ofBits table (u / 4)) = Compressed.uint u := by
  have named := (Token.names_ofBits_iff table (u / 4)).2 room
  have whole : u / 4 * 4 + u % 4 = u := by omega
  have tag := tokenTag?_of_tokenTable? tagged
  rw [Compressed.token_eq (named.1 ▸ tag), named.2, whole]

-- The row is put beside the table without a check, so that it spills over where it is too large.
theorem spelledBy_iff {u : Nat} {table : Table} (small : u < 0x20000000)
    (tagged : tokenTable? (u % 4) = some table) :
    (Token.ofBits table (u / 4)).SpelledBy u ↔ u / 4 ≤ Token.maxRow := by
  constructor
  next =>
    intro spelled
    obtain ⟨other, listed, named⟩ := spelled.named
    exact named.le_maxRow
  next =>
    intro room
    have named := (Token.names_ofBits_iff table (u / 4)).2 room
    obtain ⟨bytes, written, form⟩ := Compressed.uint_form small
    have again := token_ofBits tagged room
    rw [tokenTable?_eq (Nat.mod_lt u (by decide))] at tagged
    exact ⟨⟨table, tagged, named⟩, bytes, again.trans written, form⟩

theorem compressedToken_eq {c c' : Cursor} {u : Nat} (read : compressedUint c = .ok u c') :
    compressedToken c = tokenOf u c' :=
  bind_after_ok read tokenOf

theorem compressedUint_lt {c c' : Cursor} {u : Nat} (read : compressedUint c = .ok u c') :
    u < 0x20000000 := by
  obtain ⟨bytes, rest, unread, form, moved⟩ := (takes_compressedUint c u c').1 read
  exact form.lt

theorem readsToken (c : Cursor) : c.ReadsToken where
  tagged u c' read tag := by
    have some : (tokenTable? (u % 4)).isSome := by
      have all : ∀ i : Fin 4, i.val ≠ 3 → (tokenTable? i).isSome := by decide
      exact all ⟨u % 4, Nat.mod_lt u (by decide)⟩ tag
    obtain ⟨table, tagged⟩ := Option.isSome_iff_exists.1 some
    refine ⟨.ofBits table (u / 4), ?_, spelledBy_iff (compressedUint_lt read) tagged⟩
    rw [compressedToken_eq read, tokenOf, tagged]
    rfl
  untagged u c' read tag := by
    refine ⟨.malformed (.compressedToken u), ?_⟩
    rw [compressedToken_eq read, tokenOf, tag]
    rfl
  failed e c' read := bind_after_error read tokenOf

end Reader

theorem modifierForms_token {bytes : List UInt8} {modifiers : List CustomModifier} {token : Token}
    (listed : FormList ModifierForm bytes modifiers) (own : token ∈ modifierTokens modifiers) :
    FormWithin TokenForm bytes token := by
  obtain ⟨m, member, rfl⟩ := List.mem_map.1 own
  refine (listed.of_mem member).within fun part form => ?_
  obtain ⟨bytes, rfl, form⟩ := form
  exact (FormWithin.whole form).cons

section
variable {inner : List UInt8 → TypeSignature → Prop} {bytes : List UInt8} {token : Token}

theorem ModifiedForm.spelled {modifiers : List CustomModifier} {type : TypeSignature}
    (form : ModifiedForm inner bytes modifiers type) (own : token ∈ modifierTokens modifiers) :
    FormWithin TokenForm bytes token := by
  obtain ⟨listed, base, plain⟩ := form
  exact (modifierForms_token listed own).append_right

theorem ParamForm.spelled {p : ParamSignature} (form : ParamForm inner bytes p)
    (own : token ∈ p.tokens) : FormWithin TokenForm bytes token := by
  cases form with
  | byReference listed base => exact (modifierForms_token listed own).append_right
  | byValue listed base => exact (modifierForms_token listed own).append_right

theorem MethodForm.spelled {m : MethodSignature} (form : MethodForm inner bytes m)
    (own : token ∈ m.allParams.flatMap (·.tokens)) : FormWithin TokenForm bytes token := by
  obtain ⟨p, member, own⟩ := List.mem_flatMap.1 own
  exact (form.param member).within fun part form => form.spelled own

theorem BodyForm.spelled {type : TypeSignature} (form : BodyForm inner bytes type)
    (own : token ∈ type.ownTokens) : FormWithin TokenForm bytes token := by
  cases form with
  | primitive | byReference | typeVariable | methodVariable => cases own
  | pointer form | vector form => exact (form.spelled own).cons
  | modified form => exact form.spelled own
  | valueType form | classType form =>
    obtain rfl := List.mem_singleton.1 own
    exact (FormWithin.whole form).cons
  | array form =>
    obtain ⟨base⟩ := form
    cases own
  | instantiation form =>
    obtain ⟨base⟩ := form
    cases own
  | functionPointer form => exact (form.spelled own).cons

end

theorem TypeForm.spelled {levels : Nat} {bytes : List UInt8} {type : TypeSignature} {token : Token}
    (form : TypeForm levels bytes type) (mentions : type.Mentions token) :
    FormWithin TokenForm bytes token := by
  induction levels generalizing bytes type with
  | zero => exact form.elim
  | succ levels ih =>
    cases mentions with
    | own member => exact BodyForm.spelled form member
    | inside member mentions =>
      exact (BodyForm.part form member).within fun part form => ih form mentions

namespace SignatureFormat

theorem Form.spelled {format : SignatureFormat} {levels : Nat} {bytes : List UInt8}
    {value : format.Value} {token : Token} (form : format.Form (TypeForm levels) bytes value)
    (mentions : format.Mentions token value) : FormWithin TokenForm bytes token := by
  rcases mentions with own | ⟨part, member, inside⟩
  · cases format with
    | type | typeSpec | methodSpec => cases own
    | field =>
      obtain ⟨form⟩ := (form : FieldForm (TypeForm levels) bytes value)
      exact (form.spelled own).cons
    | methodDef => exact MethodForm.spelled form own
    | property =>
      obtain ⟨known, counted, form, taking⟩ := (form : PropertyForm (TypeForm levels) bytes value)
      refine FormWithin.cons (FormWithin.append_left ?_)
      rcases List.mem_append.1 own with own | own
      · exact (form.spelled own).append_right
      · obtain ⟨p, member, own⟩ := List.mem_flatMap.1 own
        exact ((taking.of_mem member).within fun part form => form.spelled own).append_left
  · exact (form.part member).within fun bytes form => form.spelled inside

end SignatureFormat

namespace Reader

theorem reads_of_formWithin {blob : ByteArray} {token : Token}
    (within : FormWithin TokenForm blob.data.toList token) :
    ∃ pos u c', compressedUint ⟨blob, pos⟩ = .ok u c' ∧
      compressedToken ⟨blob, pos⟩ = .ok token c' := by
  obtain ⟨part, ⟨front, back, whole⟩, u, table, form, tagged, rfl⟩ := within
  have unread : Cursor.unread ⟨blob, front.length⟩ = part ++ back := by
    rw [Cursor.unread, ← whole, List.append_assoc, List.drop_left]
  refine ⟨front.length, u, _, (takes_compressedUint _ _ _).2 ⟨part, back, unread, form, rfl⟩, ?_⟩
  exact (takes_compressedToken _ _ _).2 ⟨part, back, unread, ⟨u, table, form, tagged, rfl⟩, rfl⟩

/-- A token is the one spelled if its row fits, and so is every token of a signature. -/
theorem compressedToken_spelled (blob : ByteArray) :
    (∀ pos, Cursor.ReadsToken ⟨blob, pos⟩) ∧
    ∀ (format : SignatureFormat) (value : format.Value), format.read blob = .ok value →
      ∀ token, format.Mentions token value →
        ∃ pos u c', compressedUint ⟨blob, pos⟩ = .ok u c' ∧
          compressedToken ⟨blob, pos⟩ = .ok token c' ∧
          (u / 4 ≤ Token.maxRow → token.NamesType) := by
  refine ⟨fun pos => readsToken _, fun format value read token mentions => ?_⟩
  have form := (format.read_ok blob value).1 read
  obtain ⟨pos, u, c', uint, came⟩ := reads_of_formWithin (form.spelled mentions)
  refine ⟨pos, u, c', uint, came, fun room => ?_⟩
  have tag : u % 4 ≠ 3 := by
    intro untagged
    obtain ⟨e, failed⟩ := (readsToken _).untagged u c' uint untagged
    rw [came] at failed
    cases failed
  obtain ⟨t, same, spelled⟩ := (readsToken _).tagged u c' uint tag
  rw [came] at same
  cases same
  exact (spelled.2 room).namesType

/-- The mark of a class and a compressed token that has one row more than fits. -/
def overrunClass : ByteArray := [0x12, 0xC4, 0x00, 0x00, 0x00].toByteArray

/-- Row 0x1000000 of `TypeDef` is read as a token of another table, which cannot be written. -/
theorem overrun_misread :
    (∃ c', compressedUint ⟨overrunClass, 1⟩ = .ok 0x4000000 c' ∧
      compressedToken ⟨overrunClass, 1⟩ = .ok ⟨0x03000000⟩ c') ∧
    readType overrunClass = .ok (.classType ⟨0x03000000⟩) ∧
    Token.table? ⟨0x03000000⟩ = some .fieldPtr ∧ ¬Token.SpelledBy ⟨0x03000000⟩ 0x4000000 ∧
    Compressed.token ⟨0x03000000⟩ = .error (.malformed (.tokenUnencodable ⟨0x03000000⟩)) := by
  have uint : UintForm [0xC4, 0, 0, 0] 0x4000000 := by
    simpa using UintForm.four (a := 0xC4) (b := 0) (c := 0) (d := 0) (by decide) (by decide)
  have form : TokenForm [0xC4, 0, 0, 0] ⟨0x03000000⟩ := ⟨0x4000000, .typeDef, uint, rfl, by decide⟩
  have whole : TypeForm SignatureReader.levels overrunClass.data.toList (.classType ⟨0x03000000⟩) :=
    BodyForm.classType form
  have unread : Cursor.unread ⟨overrunClass, 1⟩ = [0xC4, 0, 0, 0] ++ [] := rfl
  refine ⟨⟨⟨overrunClass, 5⟩, ?_, ?_⟩, (SignatureFormat.type.read_ok _ _).2 whole, rfl, ?_, rfl⟩
  next => exact (takes_compressedUint _ _ _).2 ⟨_, _, unread, uint, rfl⟩
  next => exact (takes_compressedToken _ _ _).2 ⟨_, _, unread, form, rfl⟩
  intro spelled
  rcases spelled.namesType with named | named | named <;> cases named

end Reader

end CliMetadata
