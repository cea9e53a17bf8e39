import CliMetadata.Proofs.Signature.Grammar

set_option autoImplicit false

namespace CliMetadata

open Reader

namespace FormList

variable {α : Type} {form : List UInt8 → α → Prop}

theorem length_le (nonempty : ∀ bytes value, form bytes value → 0 < bytes.length)
    {bytes : List UInt8} {values : List α} (listed : FormList form bytes values) :
    values.length ≤ bytes.length := by
  induction listed with
  | nil => simp
  | cons first others ih =>
    have := nonempty _ _ first
    simp only [List.length_cons, List.length_append]
    omega

end FormList

theorem ModifierForm.length_pos {bytes : List UInt8} {m : CustomModifier}
    (form : ModifierForm bytes m) : 0 < bytes.length := by
  obtain ⟨token, rfl, _⟩ := form
  simp

namespace SignatureReader

variable {α : Type}

theorem takes_times {reader : Reader α} {form : List UInt8 → α → Prop}
    (takes : reader.Takes fun bytes _ value => form bytes value) (n : Nat) :
    (times reader n).Takes fun bytes _ values =>
      FormList form bytes values ∧ values.length = n := by
  induction n with
  | zero =>
    refine (takes_pure []).congr ?_
    intro bytes rest values
    constructor
    · rintro ⟨rfl, rfl⟩
      exact ⟨.nil, rfl⟩
    · rintro ⟨listed, none⟩
      cases listed with
      | nil => exact ⟨rfl, rfl⟩
      | cons => cases none
  | succ n ih =>
    have composed : (times reader (n + 1)).Takes _ :=
      Takes.bind takes fun value => Takes.bind ih fun values => takes_pure (value :: values)
    refine composed.congr ?_
    intro bytes rest values
    constructor
    · rintro ⟨front, _, value, rfl, first, back, _, others, rfl, ⟨listed, rfl⟩, rfl, rfl⟩
      rw [List.append_nil]
      exact ⟨.cons first listed, rfl⟩
    · rintro ⟨listed, length⟩
      cases listed with
      | nil => cases length
      | @cons front back value others first listed =>
        refine ⟨front, back, value, rfl, first, back, [], others, by simp, ⟨listed, ?_⟩, rfl, rfl⟩
        simpa using length

theorem takes_count (what : Counted) :
    (count what).Takes fun bytes rest n => UintForm bytes n ∧ n ≤ rest.length := by
  have composed : (count what).Takes _ :=
    Takes.bind takes_compressedUint fun n =>
    Takes.bind takes_remaining fun rest => Takes.check (p := rest < n) (takes_pure n)
  refine composed.congr ?_
  intro bytes rest n
  constructor
  · rintro ⟨front, _, _, rfl, form, _, _, _, rfl, ⟨rfl, rfl⟩, fits, rfl, rfl⟩
    simp only [List.append_nil, List.nil_append] at fits ⊢
    exact ⟨form, by omega⟩
  · rintro ⟨form, fits⟩
    refine ⟨bytes, [], n, by simp, form, [], [], rest.length, rfl, ⟨rfl, rfl⟩, ?_, rfl, rfl⟩
    omega

def StartsModifier (bytes : List UInt8) : Prop := bytes.head?.any Element.isModifier = true

@[simp] theorem isModifier_element (m : CustomModifier) : Element.isModifier m.element = true := by
  unfold CustomModifier.element
  split <;> rfl

theorem element_of_isModifier {b : UInt8} (starts : Element.isModifier b = true) (type : Token) :
    CustomModifier.element ⟨b == Element.requiredModifier, type⟩ = b := by
  simp only [Element.isModifier, Bool.or_eq_true, beq_iff_eq] at starts
  rcases starts with rfl | rfl <;> rfl

theorem takes_modifier : modifier.Takes fun bytes _ m =>
    ∃ b token type, bytes = b :: token ∧ TokenForm token type ∧
      m = ⟨b == Element.requiredModifier, type⟩ := by
  have composed : modifier.Takes _ :=
    Takes.bind takes_byte fun b => Takes.bind takes_compressedToken fun type =>
      takes_pure (CustomModifier.mk (b == Element.requiredModifier) type)
  refine composed.congr ?_
  intro bytes rest m
  constructor
  · rintro ⟨_, _, b, rfl, rfl, token, _, type, rfl, form, rfl, rfl⟩
    exact ⟨b, token, type, by simp, form, rfl⟩
  · rintro ⟨b, token, type, rfl, form, rfl⟩
    exact ⟨[b], token, b, rfl, rfl, token, [], type, by simp, form, rfl, rfl⟩

theorem takes_modifiersUpTo (limit : Nat) :
    (modifiersUpTo limit).Takes fun bytes rest modifiers =>
      FormList ModifierForm bytes modifiers ∧ modifiers.length ≤ limit ∧
        (modifiers.length < limit → ¬StartsModifier rest) := by
  induction limit with
  | zero =>
    refine (takes_pure []).congr ?_
    intro bytes rest modifiers
    constructor
    · rintro ⟨rfl, rfl⟩
      exact ⟨.nil, Nat.le_refl _, fun less => absurd less (Nat.lt_irrefl _)⟩
    · rintro ⟨listed, none, _⟩
      cases listed with
      | nil => exact ⟨rfl, rfl⟩
      | cons => simp at none
  | succ limit ih =>
    have composed : (modifiersUpTo (limit + 1)).Takes _ :=
      Takes.bind takes_next? fun next => Takes.ite (p := next.any Element.isModifier)
        (Takes.bind takes_modifier fun first => Takes.bind ih fun others =>
          takes_pure (first :: others))
        (takes_pure [])
    refine composed.congr ?_
    intro bytes rest modifiers
    constructor
    · rintro ⟨_, behind, next, rfl, ⟨rfl, rfl⟩, branch⟩
      rw [List.nil_append]
      obtain ⟨starts, _, _, first, rfl, ⟨b, token, type, rfl, form, rfl⟩, back, _, others, rfl,
        ⟨listed, few, stops⟩, rfl, rfl⟩ | ⟨stops, rfl, rfl⟩ := branch
      · rw [List.append_nil]
        have modifies : Element.isModifier b = true := by simpa using starts
        refine ⟨.cons ⟨token, ?_, form⟩ listed, by simpa using few, fun less => ?_⟩
        · rw [element_of_isModifier modifies]
        · exact stops (by simpa using less)
      · exact ⟨.nil, Nat.zero_le _, fun _ => by simpa [StartsModifier] using stops⟩
    · rintro ⟨listed, few, stops⟩
      cases listed with
      | nil =>
        refine ⟨[], [], _, rfl, ⟨rfl, rfl⟩, .inr ⟨?_, rfl, rfl⟩⟩
        simpa [StartsModifier] using stops (by simp)
      | @cons front back first others form listed =>
        obtain ⟨token, rfl, named⟩ := form
        refine ⟨[], _, _, rfl, ⟨rfl, rfl⟩, .inl ⟨?_, ?_⟩⟩
        · simp
        refine ⟨_, back, first, rfl, ⟨_, token, first.type, rfl, named, ?_⟩, back, [], others,
          by simp, ⟨listed, by simpa using few, fun less => ?_⟩, rfl, rfl⟩
        · obtain ⟨required, type⟩ := first
          cases required <;> rfl
        · simpa using stops (by simpa using less)

theorem takes_modifiers : modifiers.Takes fun bytes rest modifiers =>
    FormList ModifierForm bytes modifiers ∧ ¬StartsModifier rest := by
  have composed : modifiers.Takes _ := Takes.bind takes_remaining takes_modifiersUpTo
  refine composed.congr ?_
  intro bytes rest modifiers
  constructor
  · rintro ⟨_, taken, _, rfl, ⟨rfl, rfl⟩, listed, few, stops⟩
    rw [List.nil_append]
    refine ⟨listed, ?_⟩
    cases rest with
    | nil => simp [StartsModifier]
    | cons b behind =>
      have most := listed.length_le fun _ _ => ModifierForm.length_pos
      apply stops
      simp only [List.length_append, List.length_cons]
      omega
  · rintro ⟨listed, stops⟩
    have few := listed.length_le fun _ _ => ModifierForm.length_pos
    refine ⟨[], bytes, _, rfl, ⟨rfl, rfl⟩, listed, ?_, fun _ => stops⟩
    simp only [List.length_append]
    omega

end SignatureReader

namespace TypeSignature

def lead : TypeSignature → UInt8
  | .primitive p => p.byte
  | .pointer .. => Element.pointer
  | .byReference _ => Element.byReference
  | .valueType _ => Element.valueType
  | .classType _ => Element.classType
  | .typeVariable _ => Element.typeVariable
  | .methodVariable _ => Element.methodVariable
  | .array .. => Element.array
  | .vector .. => Element.vector
  | .instantiation .. => Element.instantiation
  | .functionPointer _ => Element.functionPointer
  | .modified (m :: _) _ => m.element
  | .modified [] _ => Element.optionalModifier

theorem modified_lead (modifiers : List CustomModifier) (base : TypeSignature) :
    (modified modifiers base).lead = Element.requiredModifier ∨
      (modified modifiers base).lead = Element.optionalModifier := by
  rcases modifiers with _ | ⟨⟨required, type⟩, rest⟩
  · exact .inr rfl
  · cases required
    · exact .inr rfl
    · exact .inl rfl

@[simp] theorem isModifier_lead (type : TypeSignature) :
    Element.isModifier type.lead = true ↔ type.IsModified := by
  cases type with
  | primitive p => cases p <;> simp [lead, IsModified, Primitive.byte] <;> decide
  | modified modifiers base =>
    rcases modified_lead modifiers base with same | same <;> simp [same, IsModified] <;> decide
  | _ => simp [lead, IsModified]; decide

@[simp] theorem lead_eq_byReference (type : TypeSignature) :
    type.lead = Element.byReference ↔ type.IsByReference := by
  cases type with
  | primitive p => cases p <;> simp [lead, IsByReference, Primitive.byte] <;> decide
  | byReference base => simp [lead, IsByReference]
  | modified modifiers base =>
    rcases modified_lead modifiers base with same | same <;> simp [same, IsByReference] <;> decide
  | _ => simp [lead, IsByReference]; decide

@[simp] theorem lead_named (type : TypeSignature) :
    type.lead = Element.classType ∨ type.lead = Element.valueType ↔ type.IsNamed := by
  cases type with
  | primitive p => cases p <;> simp [lead, IsNamed, Primitive.byte] <;> decide
  | classType token => simp [lead, IsNamed]
  | valueType token => simp [lead, IsNamed]
  | modified modifiers base =>
    rcases modified_lead modifiers base with same | same <;> simp [same, IsNamed] <;> decide
  | _ => simp [lead, IsNamed]; decide

theorem lead_ne_sentinel (type : TypeSignature) : type.lead ≠ Element.sentinel := by
  cases type with
  | primitive p => cases p <;> decide
  | modified modifiers base =>
    rcases modified_lead modifiers base with same | same <;> rw [same] <;> decide
  | _ => simp only [lead]; decide

end TypeSignature

/-- Every form begins with the byte that starts its type. -/
def Leads (inner : List UInt8 → TypeSignature → Prop) : Prop :=
  ∀ bytes type, inner bytes type → bytes.head? = some type.lead

theorem leads_body (inner : List UInt8 → TypeSignature → Prop) : Leads (BodyForm inner) := by
  intro bytes type form
  cases form with
  | array form => cases form; rfl
  | instantiation form => cases form; rfl
  | modified form some =>
    obtain ⟨listed, base, unmodified⟩ := form
    cases listed with
    | nil => exact absurd rfl some
    | cons first others =>
      obtain ⟨token, rfl, _⟩ := first
      rfl
  | _ => rfl

theorem leads_type (levels : Nat) : Leads (TypeForm levels) := by
  cases levels with
  | zero => exact fun _ _ => False.elim
  | succ levels => exact leads_body _

theorem Leads.length_pos {inner : List UInt8 → TypeSignature → Prop} (leads : Leads inner)
    {bytes : List UInt8} {type : TypeSignature} (form : inner bytes type) : 0 < bytes.length := by
  have head := leads bytes type form
  cases bytes with
  | nil => cases head
  | cons => simp

theorem ParamForm.head {inner : List UInt8 → TypeSignature → Prop} (leads : Leads inner)
    {bytes : List UInt8} {p : ParamSignature} (form : ParamForm inner bytes p) :
    ∃ b, bytes.head? = some b ∧ b ≠ Element.sentinel := by
  have modifying {front : List UInt8} {modifiers : List CustomModifier}
      (listed : FormList ModifierForm front modifiers) :
      front = [] ∨ ∃ b, front.head? = some b ∧ b ≠ Element.sentinel := by
    cases listed with
    | nil => exact .inl rfl
    | @cons _ _ m _ first others =>
      obtain ⟨token, rfl, _⟩ := first
      refine .inr ⟨m.element, rfl, ?_⟩
      unfold CustomModifier.element
      split <;> decide
  cases form with
  | byReference listed base =>
    obtain rfl | ⟨b, head, other⟩ := modifying listed
    · exact ⟨_, rfl, by decide⟩
    · exact ⟨b, by simp [head], other⟩
  | @byValue _ _ _ type listed base =>
    obtain rfl | ⟨b, head, other⟩ := modifying listed
    · exact ⟨type.lead, leads _ _ base, type.lead_ne_sentinel⟩
    · exact ⟨b, by simp [head], other⟩

theorem ParamForm.unmarked {inner : List UInt8 → TypeSignature → Prop} (leads : Leads inner)
    {front : List UInt8} {p : ParamSignature} (form : ParamForm inner front p)
    (behind : List UInt8) : (front ++ behind).head? ≠ some Element.sentinel := by
  obtain ⟨b, head, other⟩ := form.head leads
  simpa [head] using other

theorem ParamForm.length_pos {inner : List UInt8 → TypeSignature → Prop} (leads : Leads inner)
    {bytes : List UInt8} {p : ParamSignature} (form : ParamForm inner bytes p) :
    0 < bytes.length := by
  obtain ⟨b, head, _⟩ := form.head leads
  cases bytes with
  | nil => cases head
  | cons => simp

theorem ParamsForm.cons {inner : List UInt8 → TypeSignature → Prop} {varargs : Bool}
    {front back : List UInt8} {next : ParamSignature} {params extra : List ParamSignature}
    (first : ParamForm inner front next) (form : ParamsForm inner varargs back params extra) :
    ParamsForm inner varargs (front ++ back) (next :: params) extra := by
  cases form with
  | fixed listed => exact .fixed (.cons first listed)
  | apart allowed some listed behind =>
    rw [← List.append_assoc]
    exact .apart allowed some (.cons first listed) behind

theorem ParamsForm.first {inner : List UInt8 → TypeSignature → Prop} {varargs : Bool}
    {bytes : List UInt8} {params extra : List ParamSignature}
    (form : ParamsForm inner varargs bytes params extra) (some : 0 < params.length + extra.length) :
    (∃ front back next more, bytes = front ++ back ∧ ParamForm inner front next ∧
      ParamsForm inner varargs back more extra ∧ params = next :: more) ∨
    ∃ front back next apart, varargs = true ∧ bytes = Element.sentinel :: (front ++ back) ∧
      ParamForm inner front next ∧ FormList (ParamForm inner) back apart ∧ params = [] ∧
      extra = next :: apart := by
  cases form with
  | fixed listed =>
    cases listed with
    | nil => cases some
    | cons first others => exact .inl ⟨_, _, _, _, rfl, first, .fixed others, rfl⟩
  | apart allowed apart listed behind =>
    cases listed with
    | nil =>
      cases behind with
      | nil => exact absurd rfl apart
      | cons first others => exact .inr ⟨_, _, _, _, allowed, rfl, first, others, rfl, rfl⟩
    | cons first others =>
      refine .inl ⟨_, _, _, _, ?_, first, .apart allowed apart others behind, rfl⟩
      rw [List.append_assoc]

theorem ParamsForm.length_le {inner : List UInt8 → TypeSignature → Prop} (leads : Leads inner)
    {varargs : Bool} {bytes : List UInt8} {params extra : List ParamSignature}
    (form : ParamsForm inner varargs bytes params extra) :
    params.length + extra.length ≤ bytes.length := by
  have nonempty (bytes : List UInt8) (p : ParamSignature) (form : ParamForm inner bytes p) :
      0 < bytes.length := form.length_pos leads
  cases form with
  | fixed listed => simpa using listed.length_le nonempty
  | apart allowed some listed behind =>
    have front := listed.length_le nonempty
    have back := behind.length_le nonempty
    simp only [List.length_append, List.length_cons]
    omega

namespace SignatureReader

section
variable {reader : Reader TypeSignature} {inner : List UInt8 → TypeSignature → Prop}

theorem takes_param (takes : reader.Takes fun bytes _ type => inner bytes type)
    (leads : Leads inner) : (param reader).Takes fun bytes _ p => ParamForm inner bytes p := by
  have composed : (param reader).Takes _ :=
    Takes.bind takes_modifiers fun modifiers =>
    Takes.bind (takes_consumeIf Element.byReference) fun byReference =>
    Takes.bind takes fun type =>
      takes_pure (ParamSignature.mk modifiers byReference type)
  refine composed.congr ?_
  intro bytes rest p
  constructor
  · rintro ⟨front, _, modifiers, rfl, ⟨listed, stops⟩, _, _, _, rfl, marker, back, _, type, rfl,
      base, rfl, rfl⟩
    rw [List.append_nil]
    obtain ⟨rfl, rfl⟩ | ⟨rfl, rfl, absent⟩ := marker
    · exact .byReference listed base
    · have head := leads back type base
      simp only [StartsModifier, List.nil_append, List.append_nil, List.head?_append, head,
        Option.some_or, Option.any_some] at stops absent
      refine .byValue listed base ?_ ?_
      · rwa [TypeSignature.isModifier_lead] at stops
      · rwa [ne_eq, Option.some_inj, TypeSignature.lead_eq_byReference] at absent
  · intro form
    cases form with
    | @byReference front back modifiers type listed base =>
      refine ⟨front, _, modifiers, rfl, ⟨listed, ?_⟩, [Element.byReference], back, true, rfl,
        .inl ⟨rfl, rfl⟩, back, [], type, by simp, base, rfl, rfl⟩
      simp only [StartsModifier, List.cons_append, List.head?_cons, Option.any_some]
      decide
    | @byValue front back modifiers type listed base unmodified byValue =>
      have head := leads back type base
      refine ⟨front, back, modifiers, rfl, ⟨listed, ?_⟩, [], back, false, rfl,
        .inr ⟨rfl, rfl, ?_⟩, back, [], type, by simp, base, rfl, rfl⟩
      · simp only [StartsModifier, List.head?_append, head, Option.some_or, Option.any_some]
        rwa [TypeSignature.isModifier_lead]
      · simp only [List.head?_append, head, Option.some_or]
        rwa [ne_eq, Option.some_inj, TypeSignature.lead_eq_byReference]

theorem takes_paramsApart (takes : reader.Takes fun bytes _ type => inner bytes type)
    (leads : Leads inner) (varargs : Bool) (n : Nat) (fixed extra : List ParamSignature)
    (some : extra ≠ []) :
    (params reader varargs n fixed extra).Takes fun bytes _ both =>
      ∃ apart, FormList (ParamForm inner) bytes apart ∧ apart.length = n ∧
        both = (fixed, extra ++ apart) := by
  induction n generalizing fixed extra with
  | zero =>
    refine (takes_pure (fixed, extra)).congr ?_
    intro bytes rest both
    constructor
    · rintro ⟨rfl, rfl⟩
      exact ⟨[], .nil, rfl, by simp⟩
    · rintro ⟨apart, listed, none, rfl⟩
      obtain rfl := List.eq_nil_of_length_eq_zero none
      cases listed
      exact ⟨rfl, by simp⟩
  | succ n ih =>
    have composed : (params reader varargs (n + 1) fixed extra).Takes _ :=
      Takes.bind (takes_consumeIf Element.sentinel) fun marked => Takes.ite (p := marked = true)
        (Takes.check (p := (!varargs || !extra.isEmpty) = true)
          (Takes.bind (takes_param takes leads) fun next => ih fixed (extra ++ [next]) (by simp)))
        (Takes.bind (takes_param takes leads) fun next => Takes.ite (p := extra.isEmpty = true)
          (ih (fixed ++ [next]) extra some)
          (ih fixed (extra ++ [next]) (by simp)))
    refine composed.congr ?_
    intro bytes rest both
    constructor
    · rintro ⟨_, _, marked, rfl, marker, ⟨rfl, allowed, _⟩ | ⟨unmarked, branch⟩⟩
      · simp [some] at allowed
      · obtain ⟨rfl, _⟩ | ⟨rfl, rfl, _⟩ := marker
        · exact absurd rfl unmarked
        · obtain ⟨front, back, next, rfl, first, ⟨none, _⟩ | ⟨_, apart, listed, rfl, rfl⟩⟩ := branch
          · simp [some] at none
          · rw [List.nil_append]
            exact ⟨next :: apart, .cons first listed, rfl, by simp⟩
    · rintro ⟨apart, listed, count, rfl⟩
      cases listed with
      | nil => cases count
      | @cons front back next apart first others =>
        refine ⟨[], front ++ back, false, rfl, .inr ⟨rfl, rfl, ?_⟩, .inr ⟨by simp, ?_⟩⟩
        · rw [List.append_assoc]
          exact first.unmarked leads _
        · refine ⟨front, back, next, rfl, first, .inr ⟨by simpa using some, apart, others, ?_⟩⟩
          exact ⟨Nat.succ.inj count, by simp⟩

theorem takes_params (takes : reader.Takes fun bytes _ type => inner bytes type)
    (leads : Leads inner) (varargs : Bool) (n : Nat) (fixed : List ParamSignature) :
    (params reader varargs n fixed []).Takes fun bytes _ both =>
      ∃ more apart, ParamsForm inner varargs bytes more apart ∧
        more.length + apart.length = n ∧ both = (fixed ++ more, apart) := by
  induction n generalizing fixed with
  | zero =>
    refine (takes_pure (fixed, [])).congr ?_
    intro bytes rest both
    constructor
    · rintro ⟨rfl, rfl⟩
      exact ⟨[], [], .fixed .nil, rfl, by simp⟩
    · rintro ⟨more, apart, form, none, rfl⟩
      obtain rfl := List.eq_nil_of_length_eq_zero (show more.length = 0 by omega)
      obtain rfl := List.eq_nil_of_length_eq_zero (show apart.length = 0 by omega)
      cases form with
      | fixed listed =>
        cases listed
        exact ⟨rfl, by simp⟩
      | apart allowed some => exact absurd rfl some
  | succ n ih =>
    have composed : (params reader varargs (n + 1) fixed []).Takes _ :=
      Takes.bind (takes_consumeIf Element.sentinel) fun marked => Takes.ite (p := marked = true)
        (Takes.check (p := (!varargs || !List.isEmpty []) = true)
          (Takes.bind (takes_param takes leads) fun next =>
            takes_paramsApart takes leads varargs n fixed ([] ++ [next]) (by simp)))
        (Takes.bind (takes_param takes leads) fun next => Takes.ite (p := List.isEmpty [] = true)
          (ih (fixed ++ [next]))
          (takes_paramsApart takes leads varargs n fixed ([] ++ [next]) (by simp)))
    refine composed.congr ?_
    intro bytes rest both
    constructor
    · rintro ⟨_, _, marked, rfl, marker, ⟨rfl, allowed, branch⟩ | ⟨unmarked, branch⟩⟩
      · obtain ⟨_, rfl⟩ | ⟨impossible, _⟩ := marker
        · obtain rfl : varargs = true := by simpa using allowed
          obtain ⟨front, back, next, rfl, first, apart, listed, rfl, rfl⟩ := branch
          refine ⟨[], next :: apart, ?_, by simp, by simp⟩
          rw [List.singleton_append]
          exact ParamsForm.apart rfl (by simp) .nil (.cons first listed)
        · cases impossible
      · obtain ⟨rfl, _⟩ | ⟨rfl, rfl, _⟩ := marker
        · exact absurd rfl unmarked
        · obtain ⟨front, back, next, rfl, first,
            ⟨_, more, apart, form, rfl, rfl⟩ | ⟨impossible, _⟩⟩ := branch
          · rw [List.nil_append]
            refine ⟨next :: more, apart, form.cons first, ?_, by simp⟩
            rw [List.length_cons, Nat.add_right_comm]
          · exact absurd rfl impossible
    · rintro ⟨more, apart, form, count, rfl⟩
      obtain ⟨front, back, next, more, rfl, first, others, rfl⟩ |
        ⟨front, back, next, apart, allowed, rfl, first, others, rfl, rfl⟩ := form.first (by omega)
      · refine ⟨[], front ++ back, false, rfl, .inr ⟨rfl, rfl, ?_⟩, .inr ⟨by simp, ?_⟩⟩
        · rw [List.append_assoc]
          exact first.unmarked leads _
        · refine ⟨front, back, next, rfl, first, .inl ⟨rfl, more, apart, others, ?_, by simp⟩⟩
          simp only [List.length_cons] at count
          omega
      · refine ⟨[Element.sentinel], _, true, rfl, .inl ⟨rfl, rfl⟩, .inl ⟨rfl, ?_⟩⟩
        refine ⟨by simp [allowed], front, back, next, rfl, first, apart, others, ?_, by simp⟩
        simpa using count

theorem takes_generics (header : UInt8) :
    Takes (if header &&& Header.generic ≠ 0 then compressedUint else pure 0) fun bytes _ n =>
      GenericForm header bytes n := by
  unfold GenericForm
  by_cases flagged : header &&& Header.generic ≠ 0
  · simpa only [if_pos flagged] using takes_compressedUint
  · simpa only [if_neg flagged] using takes_pure 0

theorem takes_method (takes : reader.Takes fun bytes _ type => inner bytes type)
    (leads : Leads inner) : (method reader).Takes fun bytes _ m => MethodForm inner bytes m := by
  have composed : (method reader).Takes _ :=
    Takes.bind takes_byte fun header =>
    Takes.check (p := Header.varargs < header &&& Header.conventionMask) <|
    Takes.iteBind (takes_generics header) fun genericParams =>
    Takes.bind (takes_count .parameter) fun n =>
    Takes.bind (takes_param takes leads) fun returns =>
    Takes.bind
      (takes_params takes leads (header &&& Header.conventionMask == Header.varargs) n [])
      fun both => takes_pure
        (MethodSignature.mk (header &&& Header.hasThis != 0) (header &&& Header.explicitThis != 0)
          (header &&& Header.conventionMask) genericParams returns both.1 both.2)
  refine composed.congr ?_
  intro bytes rest m
  constructor
  · rintro ⟨_, _, header, rfl, rfl, known, generics, _, genericParams, rfl, generic, count, _, n,
      rfl, ⟨counted, _⟩, returned, _, returns, rfl, returning, listed, _, both, rfl,
      ⟨params, extra, taking, rfl, rfl⟩, rfl, rfl⟩
    have known : header &&& Header.conventionMask ≤ Header.varargs := UInt8.not_lt.1 known
    simpa using MethodForm.intro known generic counted returning taking
  · intro form
    cases form with
    | @intro header generics count returned listed genericParams returns params extra known generic
        counted returning taking =>
      have fits : params.length + extra.length ≤ (returned ++ listed ++ rest).length := by
        have := taking.length_le leads
        simp only [List.length_append]
        omega
      exact ⟨[header], _, header, rfl, rfl, UInt8.not_lt.2 known, generics, _, genericParams, rfl,
        generic, count, _, _, rfl, ⟨counted, fits⟩, returned, _, returns, rfl, returning, listed,
        [], (params, extra), by simp, ⟨params, extra, taking, rfl, by simp⟩, rfl, rfl⟩

end

end SignatureReader

end CliMetadata
