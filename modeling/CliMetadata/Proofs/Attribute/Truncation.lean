import CliMetadata.Proofs.Attribute.Consumption

set_option autoImplicit false

namespace CliMetadata.AttributeBlob

open Runs

variable {m : Type → Type} {σ : Type} [Monad m] [MonadExceptOf Error m] [Runs m σ]
  {resolve : String → m Primitive}

def fixedEnd (resolve : String → m Primitive) (types : List ArgumentType) (blob : ByteArray) :
    m Nat := do
  let (_, c) ← (fixedPart resolve types).run { data := blob }
  return c.pos

theorem fixedEnd_ok {types : List ArgumentType} {blob : ByteArray} {front back : List UInt8}
    {s s' : σ} {fixed : List AttributeValue} (split : blob.data.toList = front ++ back)
    (gives : Gives (fixedPart resolve types) s front fixed s') :
    run (fixedEnd resolve types blob) s = .ok (front.length, s') := by
  have read := gives { data := blob } back (by rw [Cursor.unread_start, split])
  refine run_bind_ok.2 ⟨_, s', read, ?_⟩
  rw [run_pure]
  simp [Cursor.move]

-- A number of arguments without all of these is not read, and neither is half a number.
theorem NamedForm.cut {s s' s'' : σ} {bytes more : List UInt8} {named others : List NamedArgument}
    (form : NamedForm resolve s (bytes ++ more) named s')
    (short : NamedForm resolve s bytes others s'') (some : more ≠ []) :
    bytes = [] ∧ others = [] ∧ s'' = s := by
  cases short with
  | left => exact ⟨rfl, rfl, rfl⟩
  | @counted count body _ _ two gives =>
    generalize whole : count ++ body ++ more = all at form
    cases form with
    | left => simp [some] at whole
    | @counted count' body' _ _ two' gives' =>
      rw [List.append_assoc] at whole
      obtain ⟨rfl, rest⟩ := List.append_inj whole (two.trans two'.symm)
      obtain ⟨rfl, _⟩ := gives.unique gives' (rest.trans (List.append_nil _).symm)
      exact absurd (List.append_right_eq_self.1 rest) some

theorem decode_take {types : List ArgumentType} {blob : ByteArray} {s s' : σ}
    {args : AttributeArguments} (decoded : run (decode resolve types blob) s = .ok (args, s'))
    {n : Nat} (cut : n < blob.size) :
    ∃ front back between, blob.data.toList = front ++ back ∧
      Gives (fixedPart resolve types) s front args.fixed between ∧
      ∀ r s'', run (decode resolve types (blob.extract 0 n)) s = .ok (r, s'') ↔
        r = { fixed := args.fixed } ∧
          (n = front.length ∧ s'' = between ∨ n = 0 ∧ types = [] ∧ s'' = s) := by
  rcases decode_ok.1 decoded with ⟨empty, _⟩ | ⟨front, back, between, split, gives, form⟩
  · omega
  refine ⟨front, back, between, split, gives, fun r s'' => ?_⟩
  have size : (blob.extract 0 n).size = n := by simp; omega
  have taken : (blob.extract 0 n).data.toList = (front ++ back).take n := by simp [← split]
  have length : n < (front ++ back).length := by simpa [← split] using cut
  have noFixed (none : types = []) : args.fixed = [] := by
    have arity := ((spends_fixedPart types).holds gives).1
    rwa [none, List.length_nil, List.length_eq_zero_iff] at arity
  rw [decode_ok, size, taken]
  constructor
  · rintro (⟨empty, none, rfl, rfl⟩ | ⟨front', back', between', prefixed, gives', short⟩)
    · exact ⟨by rw [noFixed none], .inr ⟨empty, none, rfl⟩⟩
    · have whole := List.take_append_drop n (front ++ back)
      rw [prefixed, List.append_assoc] at whole
      obtain ⟨rfl, fixed, rfl⟩ := gives.unique gives' whole.symm
      rw [← List.append_cancel_left whole] at form
      obtain ⟨rfl, named, rfl⟩ := form.cut short (by simpa using length)
      have stop := congrArg List.length prefixed
      rw [List.length_take_of_le (Nat.le_of_lt length), List.append_nil] at stop
      cases r
      cases fixed
      cases named
      exact ⟨rfl, .inl ⟨stop, rfl⟩⟩
  · rintro ⟨rfl, ⟨rfl, rfl⟩ | ⟨rfl, none, rfl⟩⟩
    · exact .inr ⟨front, [], _, by simp, gives, .left⟩
    · exact .inl ⟨rfl, none, by rw [noFixed none], rfl⟩

/-- A part of a blob is read as the same fixed arguments and no named ones if it was cut behind the
fixed arguments; a cut inside these, inside the number of the named ones or inside these is an
error. Where there are no fixed arguments even their prolog may be left out. -/
theorem decode_cut {resolve : String → Except Error Primitive} {types : List ArgumentType}
    {blob : ByteArray} {args : AttributeArguments} (decoded : decode resolve types blob = .ok args)
    {n : Nat} (cut : n < blob.size) :
    ∃ stop, fixedEnd resolve types blob = .ok stop ∧ stop ≤ blob.size ∧
      ((n = stop ∨ n = 0 ∧ types = []) →
        decode resolve types (blob.extract 0 n) = .ok { fixed := args.fixed, named := [] }) ∧
      (¬(n = stop ∨ n = 0 ∧ types = []) →
        ∃ e, decode resolve types (blob.extract 0 n) = .error e) := by
  obtain ⟨front, back, between, split, gives, read⟩ :=
    decode_take (runs_stateless.2 decoded : run _ () = .ok (args, ())) cut
  have length := congrArg List.length split
  simp only [Array.length_toList, ByteArray.size_data, List.length_append] at length
  refine ⟨front.length, runs_stateless.1 (fixedEnd_ok split gives), by omega, fun inside => ?_,
    fun outside => ?_⟩
  · refine runs_stateless.1 ((read _ ()).2 ⟨rfl, ?_⟩)
    exact inside.imp (⟨·, rfl⟩) fun both => ⟨both.1, both.2, rfl⟩
  · cases ran : decode resolve types (blob.extract 0 n) with
    | error e => exact ⟨e, rfl⟩
    | ok r =>
      obtain ⟨_, place⟩ := (read r ()).1 (runs_stateless.2 ran)
      exact absurd (place.imp (·.1) fun both => ⟨both.1, both.2.1⟩) outside

def byted (_ : String) : Except Error Primitive :=
  .ok .u1

def fieldBlob : ByteArray :=
  ⟨#[0x01, 0x00, 0x1D, 0x55, 0x01, 0x45, 0x02, 0x00, 0x00, 0x00, 0x07, 0x08, 0x01, 0x00,
    0x53, 0x02, 0x01, 0x46, 0x01]⟩

def fieldArguments : AttributeArguments where
  fixed := [.array (some [.enum "E" (.u1 7), .enum "E" (.u1 8)])]
  named := [⟨.field, "F", .scalar (.boolean true)⟩]

theorem decode_cut_field :
    decode byted [.boxed] fieldBlob = .ok fieldArguments ∧
      decode byted [.boxed] (fieldBlob.extract 0 12) =
        .ok { fixed := fieldArguments.fixed, named := [] } ∧
      ∀ n < fieldBlob.size, n ≠ 12 →
        ∃ e, decode byted [.boxed] (fieldBlob.extract 0 n) = .error e := by
  have decoded : decode byted [.boxed] fieldBlob = .ok fieldArguments :=
    except_toOption_some.1 (by decide +kernel)
  have twelve : fixedEnd byted [.boxed] fieldBlob = .ok 12 :=
    except_toOption_some.1 (by decide +kernel)
  refine ⟨decoded, ?_, fun n cut other => ?_⟩
  · obtain ⟨stop, same, _, kept, _⟩ := decode_cut decoded (n := 12) (by decide)
    cases twelve.symm.trans same
    exact kept (.inl rfl)
  · obtain ⟨stop, same, _, _, refused⟩ := decode_cut decoded (n := n) cut
    cases twelve.symm.trans same
    exact refused (by simp [other])

end CliMetadata.AttributeBlob
