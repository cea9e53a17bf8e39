import CliMetadata.Proofs.Signature.Reading

set_option autoImplicit false

namespace CliMetadata

open Reader

theorem Primitive.byte_of_ofByte? {b : UInt8} {p : Primitive} (named : ofByte? b = some p) :
    p.byte = b := by
  simpa using List.find?_some named

namespace SignatureReader

section
variable {reader : Reader TypeSignature} {inner : List UInt8 → TypeSignature → Prop}

theorem takes_modified (takes : reader.Takes fun bytes _ type => inner bytes type)
    (leads : Leads inner) :
    (modified reader).Takes fun bytes _ both => ModifiedForm inner bytes both.1 both.2 := by
  have composed : (modified reader).Takes _ :=
    Takes.bind takes_modifiers fun modifiers => takes.map fun type => (modifiers, type)
  refine composed.congr ?_
  intro bytes rest both
  have stops {back : List UInt8} {type : TypeSignature} (base : inner back type) :
      StartsModifier (back ++ rest) ↔ type.IsModified := by
    simp [StartsModifier, leads back type base, TypeSignature.isModifier_lead]
  constructor
  · rintro ⟨front, back, modifiers, rfl, ⟨listed, plain⟩, type, base, rfl⟩
    rw [stops base] at plain
    exact .intro listed base plain
  · rintro ⟨listed, base, plain⟩
    rw [← stops base] at plain
    exact ⟨_, _, _, rfl, ⟨listed, plain⟩, _, base, rfl⟩

theorem takes_array (takes : reader.Takes fun bytes _ type => inner bytes type) :
    (array reader).Takes fun bytes _ type => ArrayForm inner bytes type := by
  have composed : (array reader).Takes _ :=
    Takes.bind takes fun base =>
    Takes.bind takes_compressedUint fun rank =>
    Takes.check (p := rank = 0) <|
    Takes.bind (takes_count .arraySize) fun sizeCount =>
    Takes.check (p := rank < sizeCount) <|
    Takes.bind (takes_times takes_compressedUint sizeCount) fun sizes =>
    Takes.bind (takes_count .arrayLowerBound) fun lowCount =>
    Takes.check (p := rank < lowCount) <|
    (takes_times takes_compressedInt lowCount).map fun lows =>
      TypeSignature.array base rank (dimensions sizes lows)
  refine composed.congr ?_
  intro bytes rest type
  constructor
  · rintro ⟨front, _, base, rfl, based, ranked, _, rank, rfl, ranks, some, sizeCount, _, _, rfl,
      ⟨sizesCounted, _⟩, sizesFit, sized, _, sizes, rfl, ⟨sizesListed, rfl⟩, lowCount, bounded, _,
      rfl, ⟨lowsCounted, _⟩, lowsFit, lows, ⟨lowsListed, rfl⟩, rfl⟩
    exact .intro based ranks some sizesCounted (by omega) sizesListed lowsCounted (by omega)
      lowsListed
  · intro form
    cases form with
    | @intro front ranked sizeCount sized lowCount bounded base rank sizes lows based ranks some
        sizesCounted sizesFit sizesListed lowsCounted lowsFit lowsListed =>
      have sizesInside := sizesListed.length_le fun _ _ form => form.length_pos
      have lowsInside := lowsListed.length_le fun _ _ form => form.length_pos
      refine ⟨front, _, base, rfl, based, ranked, _, rank, rfl, ranks, some, sizeCount, _, _, rfl,
        ⟨sizesCounted, ?_⟩, by omega, sized, _, sizes, rfl, ⟨sizesListed, rfl⟩, lowCount, bounded,
        _, rfl, ⟨lowsCounted, ?_⟩, by omega, lows, ⟨lowsListed, rfl⟩, rfl⟩
      · simp only [List.length_append]
        omega
      · simp only [List.length_append]
        omega

theorem takes_instantiation (takes : reader.Takes fun bytes _ type => inner bytes type)
    (leads : Leads inner) :
    (instantiation reader).Takes fun bytes _ type => InstantiationForm inner bytes type := by
  have composed : (instantiation reader).Takes _ :=
    Takes.bind takes_peek fun next =>
    Takes.check (p := next ≠ Element.classType ∧ next ≠ Element.valueType) <|
    Takes.bind takes fun base =>
    Takes.bind (takes_count .instantiationArgument) fun n =>
    Takes.check (p := n = 0) <|
    (takes_times takes n).map fun args => TypeSignature.instantiation base args
  refine composed.congr ?_
  intro bytes rest type
  have named {next : UInt8} {front back : List UInt8} {base : TypeSignature}
      (based : inner front base) (head : (front ++ back ++ rest).head? = some next) :
      ¬(next ≠ Element.classType ∧ next ≠ Element.valueType) ↔ base.IsNamed := by
    have lead : base.lead = next := by simpa [leads front base based] using head
    rw [← base.lead_named, lead]
    by_cases isClass : next = Element.classType <;> simp [isClass]
  constructor
  · rintro ⟨_, _, next, rfl, ⟨rfl, head⟩, allowed, front, _, base, rfl, based, count, back, _, rfl,
      ⟨counted, _⟩, some, args, ⟨listed, rfl⟩, rfl⟩
    rw [List.nil_append]
    refine .intro based ((named based head).1 allowed) counted ?_ listed
    rintro rfl
    exact some rfl
  · intro form
    cases form with
    | @intro front count back base args based isNamed counted some listed =>
      have head : (front ++ (count ++ back) ++ rest).head? = Option.some base.lead := by
        simp [leads front base based]
      have inside := listed.length_le fun _ _ form => leads.length_pos form
      refine ⟨[], _, base.lead, rfl, ⟨rfl, head⟩, (named based head).2 isNamed, front, _, base, rfl,
        based, count, back, _, rfl, ⟨counted, ?_⟩, ?_, args, ⟨listed, rfl⟩, rfl⟩
      · simp only [List.length_append]
        omega
      · simpa using some

theorem startedBy_modifier {b : UInt8} (starts : Element.isModifier b = true) {c : Cursor}
    {behind : List UInt8} (unread : c.unread = b :: behind) :
    startedBy reader b (c.move 1) =
      (modified reader >>= fun both => pure (.modified both.1 both.2)) c := by
  have inside : c.pos ≤ c.data.size := by
    have := c.remaining_eq
    simp only [unread, List.length_cons, Cursor.remaining] at this
    omega
  have back : seek ((c.move 1).pos - 1) (c.move 1) = .ok () c := if_pos inside
  simp only [Element.isModifier, Bool.or_eq_true, beq_iff_eq] at starts
  rcases starts with rfl | rfl
  · change EStateM.bind (seek ((c.move 1).pos - 1)) _ (c.move 1) = _
    rw [EStateM.bind, back]
  · change EStateM.bind (seek ((c.move 1).pos - 1)) _ (c.move 1) = _
    rw [EStateM.bind, back]

-- Only the byte of a modifier goes back in front of its type; what any other byte starts is spelt
-- by that byte and those read after it.
theorem gives_startedBy (takes : reader.Takes fun bytes _ type => inner bytes type)
    (leads : Leads inner) {b : UInt8} (plain : ¬Element.isModifier b = true) :
    (startedBy reader b).Gives fun bytes type => BodyForm inner (b :: bytes) type := by
  unfold startedBy
  cases named : Primitive.ofByte? b with
  | some p =>
    refine (takes_pure _).gives ?_
    rintro _ _ _ ⟨rfl, rfl⟩
    exact Primitive.byte_of_ofByte? named ▸ .primitive p
  | none =>
    refine Gives.ite (fun lead => ?_) fun _ => ?_
    · refine ((takes_modified takes leads).map _).gives ?_
      rintro _ _ _ ⟨_, form, rfl⟩
      exact lead ▸ .pointer form
    refine Gives.ite (fun lead => ?_) fun _ => ?_
    · refine (takes.map _).gives ?_
      rintro _ _ _ ⟨_, form, rfl⟩
      exact lead ▸ .byReference form
    refine Gives.ite (fun lead => ?_) fun _ => ?_
    · refine (takes_compressedToken.map _).gives ?_
      rintro _ _ _ ⟨_, form, rfl⟩
      exact lead ▸ .valueType form
    refine Gives.ite (fun lead => ?_) fun _ => ?_
    · refine (takes_compressedToken.map _).gives ?_
      rintro _ _ _ ⟨_, form, rfl⟩
      exact lead ▸ .classType form
    refine Gives.ite (fun lead => ?_) fun _ => ?_
    · refine (takes_compressedUint.map _).gives ?_
      rintro _ _ _ ⟨_, form, rfl⟩
      exact lead ▸ .typeVariable form
    refine Gives.ite (fun lead => ?_) fun _ => ?_
    · refine (takes_compressedUint.map _).gives ?_
      rintro _ _ _ ⟨_, form, rfl⟩
      exact lead ▸ .methodVariable form
    refine Gives.ite (fun lead => ?_) fun _ => ?_
    · exact (takes_array takes).gives fun _ _ _ form => lead ▸ .array form
    refine Gives.ite (fun lead => ?_) fun _ => ?_
    · exact (takes_instantiation takes leads).gives fun _ _ _ form => lead ▸ .instantiation form
    refine Gives.ite (fun lead => ?_) fun _ => ?_
    · refine ((takes_method takes leads).map _).gives ?_
      rintro _ _ _ ⟨_, form, rfl⟩
      exact lead ▸ .functionPointer form
    refine Gives.ite (fun lead => ?_) fun _ => ?_
    · refine ((takes_modified takes leads).map _).gives ?_
      rintro _ _ _ ⟨_, form, rfl⟩
      exact lead ▸ .vector form
    rw [if_neg plain]
    exact (takes_bind_malformed _ _).gives fun _ _ _ impossible => impossible.elim

theorem modifiers_ne_nil (leads : Leads inner) {b : UInt8} (starts : Element.isModifier b = true)
    {bytes rest : List UInt8} {modifiers : List CustomModifier} {base : TypeSignature}
    (form : ModifiedForm inner bytes modifiers base) (head : (bytes ++ rest).head? = some b) :
    modifiers ≠ [] := by
  rintro rfl
  obtain ⟨listed, based, plain⟩ := form
  cases listed
  have same : base.lead = b := by
    simpa [leads _ base based] using head
  rw [← TypeSignature.isModifier_lead, same] at plain
  exact plain starts

theorem gives_body (takes : reader.Takes fun bytes _ type => inner bytes type)
    (leads : Leads inner) : (body reader).Gives (BodyForm inner) := by
  intro c type c' ran
  obtain ⟨b, _, read, went⟩ := bind_ok.1 ran
  obtain ⟨_, behind, unread, rfl, rfl⟩ := (takes_byte _ _ _).1 read
  by_cases starts : Element.isModifier b = true
  · rw [List.length_singleton, startedBy_modifier starts unread] at went
    obtain ⟨bytes, rest, left, ⟨⟨modifiers, base⟩, form, rfl⟩, rfl⟩ :=
      ((takes_modified takes leads).map _ _ _ _).1 went
    have head : (bytes ++ rest).head? = some b := congrArg List.head? (left.symm.trans unread)
    exact ⟨bytes, rest, left, .modified form (modifiers_ne_nil leads starts form head), rfl⟩
  · obtain ⟨bytes, rest, left, form, rfl⟩ := gives_startedBy takes leads starts _ _ _ went
    rw [Cursor.unread_move_append unread] at left
    refine ⟨b :: bytes, rest, ?_, form, by simp [Nat.add_comm]⟩
    rw [unread, left]
    rfl

theorem takes_body (takes : reader.Takes fun bytes _ type => inner bytes type)
    (leads : Leads inner) : (body reader).Takes fun bytes _ type => BodyForm inner bytes type := by
  intro c type c'
  constructor
  · exact gives_body takes leads c type c'
  · rintro ⟨bytes, rest, unread, form, rfl⟩
    have given {b : UInt8} {bytes : List UInt8} (unread : c.unread = (b :: bytes) ++ rest)
        {R : List UInt8 → List UInt8 → TypeSignature → Prop}
        (takes : (startedBy reader b).Takes R) (holds : R bytes rest type) :
        body reader c = .ok type (c.move (b :: bytes).length) := by
      refine bind_ok.2 ⟨b, c.move 1, (takes_byte _ _ _).2 ⟨[b], _, unread, rfl, rfl⟩, ?_⟩
      refine (takes _ _ _).2 ⟨bytes, rest, ?_, holds, by simp [Nat.add_comm]⟩
      rw [Cursor.unread_move, unread]
      rfl
    cases form with
    | primitive p =>
      refine given unread (R := fun bytes _ type => bytes = [] ∧ type = .primitive p) ?_ ⟨rfl, rfl⟩
      rw [startedBy, Primitive.ofByte?_byte]
      exact takes_pure _
    | pointer form => exact given unread ((takes_modified takes leads).map _) ⟨(_, _), form, rfl⟩
    | byReference form => exact given unread (takes.map _) ⟨_, form, rfl⟩
    | valueType form => exact given unread (takes_compressedToken.map _) ⟨_, form, rfl⟩
    | classType form => exact given unread (takes_compressedToken.map _) ⟨_, form, rfl⟩
    | typeVariable form => exact given unread (takes_compressedUint.map _) ⟨_, form, rfl⟩
    | methodVariable form => exact given unread (takes_compressedUint.map _) ⟨_, form, rfl⟩
    | array form => exact given unread (takes_array takes) form
    | vector form => exact given unread ((takes_modified takes leads).map _) ⟨(_, _), form, rfl⟩
    | instantiation form => exact given unread (takes_instantiation takes leads) form
    | functionPointer form => exact given unread ((takes_method takes leads).map _) ⟨_, form, rfl⟩
    | @modified bytes modifiers base form some =>
      -- The byte that is read first belongs to the form and is read once more as part of it.
      have head := leads_body inner _ _ (.modified form some)
      have starts := (TypeSignature.isModifier_lead (.modified modifiers base)).2 trivial
      obtain ⟨tail, rfl⟩ := List.head?_eq_some_iff.1 head
      refine bind_ok.2 ⟨_, c.move 1, (takes_byte _ _ _).2 ⟨[_], tail ++ rest, unread, rfl, rfl⟩, ?_⟩
      rw [startedBy_modifier starts unread]
      exact ((takes_modified takes leads).map _ _ _ _).2 ⟨_, rest, unread, ⟨(_, _), form, rfl⟩, rfl⟩

end

theorem takes_type (levels : Nat) :
    (type levels).Takes fun bytes _ value => TypeForm levels bytes value := by
  induction levels with
  | zero => exact takes_throw _
  | succ levels ih => exact takes_body ih (leads_type levels)

theorem takes_methodDef (levels : Nat) :
    (methodDef levels).Takes fun bytes _ m => MethodForm (TypeForm levels) bytes m :=
  takes_method (takes_type levels) (leads_type levels)

theorem takes_field (levels : Nat) :
    (field levels).Takes fun bytes _ f => FieldForm (TypeForm levels) bytes f := by
  have composed : (field levels).Takes _ :=
    Takes.bind takes_byte fun header =>
    Takes.check (p := header ≠ Header.field) <|
    (takes_modified (takes_type levels) (leads_type levels)).map fun both =>
      FieldSignature.mk both.1 both.2
  refine composed.congr ?_
  intro bytes rest f
  constructor
  · rintro ⟨_, back, header, rfl, rfl, known, both, form, rfl⟩
    obtain rfl := Decidable.not_not.1 known
    exact .intro form
  · rintro ⟨form⟩
    exact ⟨[Header.field], _, Header.field, rfl, rfl, not_not_intro rfl, (_, _), form, rfl⟩

theorem takes_property (levels : Nat) :
    (property levels).Takes fun bytes _ p => PropertyForm (TypeForm levels) bytes p := by
  have takes := takes_type levels
  have leads := leads_type levels
  have composed : (property levels).Takes _ :=
    Takes.bind takes_byte fun header =>
    Takes.check (p := header &&& ~~~Header.hasThis ≠ Header.property) <|
    Takes.bind (takes_count .propertyParameter) fun n =>
    Takes.bind (takes_modified takes leads) fun both =>
    (takes_times (takes_param takes leads) n).map fun params =>
      PropertySignature.mk (header &&& Header.hasThis != 0) both.1 both.2 params
  refine composed.congr ?_
  intro bytes rest p
  constructor
  · rintro ⟨_, _, header, rfl, rfl, known, count, _, n, rfl, ⟨counted, _⟩, base, listed, both, rfl,
      form, params, ⟨taking, rfl⟩, rfl⟩
    rw [List.singleton_append]
    exact .intro (Decidable.not_not.1 known) counted form taking
  · intro form
    cases form with
    | @intro header count base listed modifiers type params known counted form taking =>
      have inside := taking.length_le fun _ _ form => form.length_pos leads
      refine ⟨[header], _, header, rfl, rfl, not_not_intro known, count, _, _, rfl, ⟨counted, ?_⟩,
        base, listed, (modifiers, type), rfl, form, params, ⟨taking, rfl⟩, rfl⟩
      simp only [List.length_append]
      omega

theorem takes_methodSpec (levels : Nat) :
    (methodSpec levels).Takes fun bytes _ m => MethodSpecForm (TypeForm levels) bytes m := by
  have composed : (methodSpec levels).Takes _ :=
    Takes.bind takes_byte fun header =>
    Takes.check (p := header ≠ Header.instantiation) <|
    Takes.bind (takes_count .methodSpecArgument) fun n =>
    (takes_times (takes_type levels) n).map MethodSpecSignature.mk
  refine composed.congr ?_
  intro bytes rest m
  constructor
  · rintro ⟨_, _, header, rfl, rfl, known, count, back, n, rfl, ⟨counted, _⟩, args, ⟨listed, rfl⟩,
      rfl⟩
    obtain rfl := Decidable.not_not.1 known
    rw [List.singleton_append]
    exact .intro counted listed
  · intro form
    cases form with
    | @intro count back args counted listed =>
      have inside := listed.length_le fun _ _ form => (leads_type levels).length_pos form
      refine ⟨[Header.instantiation], _, _, rfl, rfl, not_not_intro rfl, count, back, _, rfl,
        ⟨counted, ?_⟩, args, ⟨listed, rfl⟩, rfl⟩
      simp only [List.length_append]
      omega

theorem takes_finish : finish.Takes fun bytes rest _ => bytes = [] ∧ rest = [] := by
  intro c _ c'
  have run : finish c = (if c.hasMore then
      (do malformed (.signatureTrailing (← remaining) (← pos)) : Reader Unit) else pure ()) c := rfl
  rw [run]
  by_cases more : c.hasMore
  · rw [if_pos more]
    constructor
    · intro went
      cases went
    · rintro ⟨_, _, unread, ⟨rfl, rfl⟩, _⟩
      exact absurd unread ((Cursor.hasMore_iff c).1 more)
  · rw [if_neg more]
    have nothing : c.unread = [] := by simpa [Cursor.hasMore_iff] using more
    constructor
    · intro went
      cases went
      exact ⟨[], [], nothing, ⟨rfl, rfl⟩, rfl⟩
    · rintro ⟨_, _, _, ⟨rfl, _⟩, rfl⟩
      rfl

theorem complete_ok {α : Type} {x : Reader α} {form : List UInt8 → α → Prop}
    (takes : x.Takes fun bytes _ value => form bytes value) (blob : ByteArray) (value : α) :
    runOn (do let value ← x; finish; return value) blob = .ok value ↔
      form blob.data.toList value := by
  have composed : Takes (do let value ← x; finish; return value) _ :=
    Takes.bind takes fun value => Takes.bind takes_finish fun _ => takes_pure value
  rw [runOn_ok]
  constructor
  · rintro ⟨c', ran⟩
    obtain ⟨_, _, unread, ⟨bytes, _, _, rfl, holds, _, _, _, rfl, ⟨rfl, nothing⟩, rfl, rfl⟩, _⟩ :=
      (composed _ _ _).1 ran
    obtain rfl : _ = [] := nothing
    rw [Cursor.unread_start] at unread
    simpa [unread] using holds
  · intro holds
    refine ⟨_, (composed _ _ _).2 ⟨blob.data.toList, [], ?_, ?_, rfl⟩⟩
    · simp
    · exact ⟨_, [], value, by simp, holds, [], [], (), rfl, ⟨rfl, rfl⟩, rfl, rfl⟩

theorem whole_ok {α : Type} {reader : Nat → Reader α} {form : List UInt8 → α → Prop}
    (takes : (reader levels).Takes fun bytes _ value => form bytes value) (blob : ByteArray)
    (value : α) : whole reader blob = .ok value ↔ form blob.data.toList value :=
  complete_ok takes blob value

end SignatureReader

end CliMetadata
