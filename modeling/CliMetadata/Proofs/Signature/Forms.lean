import CliMetadata.Proofs.Signature.Dimensions
import CliMetadata.Proofs.Signature.Grammar

set_option autoImplicit false

namespace CliMetadata

/-- A form of the value stands somewhere among the bytes. -/
def FormWithin {α : Type} (form : List UInt8 → α → Prop) (bytes : List UInt8) (value : α) : Prop :=
  ∃ part, part <:+: bytes ∧ form part value

section
variable {α β : Type} {form : List UInt8 → α → Prop} {other : List UInt8 → β → Prop}
  {bytes part front back : List UInt8} {value : α}

theorem FormWithin.mono (inside : part <:+: bytes) (within : FormWithin form part value) :
    FormWithin form bytes value := by
  obtain ⟨inner, deeper, spelled⟩ := within
  exact ⟨inner, deeper.trans inside, spelled⟩

theorem FormWithin.whole (spelled : form bytes value) : FormWithin form bytes value :=
  ⟨bytes, List.infix_rfl, spelled⟩

theorem FormWithin.append_left (within : FormWithin form back value) :
    FormWithin form (front ++ back) value :=
  within.mono (List.suffix_append front back).isInfix

theorem FormWithin.append_right (within : FormWithin form front value) :
    FormWithin form (front ++ back) value :=
  within.mono (List.prefix_append front back).isInfix

theorem FormWithin.cons {b : UInt8} (within : FormWithin form bytes value) :
    FormWithin form (b :: bytes) value :=
  within.mono (List.suffix_cons b bytes).isInfix

theorem FormWithin.within {inner : β} (outer : FormWithin form bytes value)
    (each : ∀ part, form part value → FormWithin other part inner) :
    FormWithin other bytes inner := by
  obtain ⟨part, inside, spelled⟩ := outer
  exact (each part spelled).mono inside

theorem FormList.of_mem {values : List α} (listed : FormList form bytes values)
    (member : value ∈ values) : FormWithin form bytes value := by
  induction listed with
  | nil => cases member
  | cons first others ih =>
    obtain rfl | member := List.mem_cons.1 member
    · exact (FormWithin.whole first).append_right
    · exact (ih member).append_left

end

section
variable {inner : List UInt8 → TypeSignature → Prop} {bytes : List UInt8}

theorem ModifiedForm.base {modifiers : List CustomModifier} {type : TypeSignature}
    (form : ModifiedForm inner bytes modifiers type) : FormWithin inner bytes type := by
  obtain ⟨listed, base, plain⟩ := form
  exact (FormWithin.whole base).append_left

theorem ModifiedForm.plain {modifiers : List CustomModifier} {type : TypeSignature}
    (form : ModifiedForm inner bytes modifiers type) : ¬type.IsModified := by
  obtain ⟨listed, base, plain⟩ := form
  exact plain

theorem ParamForm.base {p : ParamSignature} (form : ParamForm inner bytes p) :
    FormWithin inner bytes p.type := by
  cases form with
  | byReference listed base => exact (FormWithin.whole base).cons.append_left
  | byValue listed base => exact (FormWithin.whole base).append_left

theorem ParamForm.sound {p : ParamSignature} (form : ParamForm inner bytes p)
    (named : ∀ token ∈ p.tokens, token.NamesType) : p.Sound := by
  refine ⟨named, fun unmarked => ?_⟩
  cases form with
  | byReference listed base => cases unmarked
  | byValue listed base plain byValue => exact ⟨plain, byValue⟩

theorem ParamsForm.of_mem {varargs : Bool} {params extra : List ParamSignature}
    (form : ParamsForm inner varargs bytes params extra) {p : ParamSignature}
    (member : p ∈ params ++ extra) : FormWithin (ParamForm inner) bytes p := by
  cases form with
  | fixed listed => exact listed.of_mem (by simpa using member)
  | apart allowed some listed behind =>
    obtain member | member := List.mem_append.1 member
    · exact (listed.of_mem member).append_right
    · exact (behind.of_mem member).cons.append_left

theorem MethodForm.param {m : MethodSignature} (form : MethodForm inner bytes m)
    {p : ParamSignature} (member : p ∈ m.allParams) : FormWithin (ParamForm inner) bytes p := by
  obtain ⟨known, generic, counted, returning, taking⟩ := form
  refine FormWithin.cons (FormWithin.append_left (FormWithin.append_left ?_))
  obtain rfl | member := List.mem_cons.1 member
  · exact (FormWithin.whole returning).append_right
  · exact (taking.of_mem member).append_left

theorem GenericForm.lt {header : UInt8} {n : Nat} (form : GenericForm header bytes n) :
    n < 0x20000000 := by
  unfold GenericForm at form
  split at form
  next => exact form.lt
  next => omega

theorem MethodForm.sound {m : MethodSignature} (form : MethodForm inner bytes m)
    (named : ∀ p ∈ m.allParams, ∀ token ∈ p.tokens, token.NamesType) : m.Sound := by
  have params : ∀ p ∈ m.allParams, p.Sound := by
    intro p member
    obtain ⟨_, _, form⟩ := form.param member
    exact form.sound (named p member)
  obtain ⟨known, generic, counted, returning, taking⟩ := form
  refine ⟨known, generic.lt, counted.lt, fun other => ?_, params⟩
  cases taking with
  | fixed listed => rfl
  | apart allowed some listed behind => exact absurd (beq_iff_eq.1 allowed) other

theorem BodyForm.part {type : TypeSignature} (form : BodyForm inner bytes type)
    {part : TypeSignature} (member : part ∈ type.parts) : FormWithin inner bytes part := by
  cases form with
  | primitive | valueType | classType | typeVariable | methodVariable => cases member
  | pointer form | vector form =>
    obtain rfl := List.mem_singleton.1 member
    exact form.base.cons
  | modified form =>
    obtain rfl := List.mem_singleton.1 member
    exact form.base
  | byReference form =>
    obtain rfl := List.mem_singleton.1 member
    exact (FormWithin.whole form).cons
  | array form =>
    obtain ⟨base⟩ := form
    obtain rfl := List.mem_singleton.1 member
    exact (FormWithin.whole base).append_right.cons
  | instantiation form =>
    obtain ⟨base, named, counted, some, listed⟩ := form
    obtain rfl | member := List.mem_cons.1 member
    · exact (FormWithin.whole base).append_right.cons
    · exact (listed.of_mem member).append_left.append_left.cons
  | @functionPointer _ method form =>
    obtain ⟨p, own, rfl⟩ := List.mem_map.1 (show part ∈ method.allParams.map (·.type) from member)
    exact ((form.param own).within fun _ form => form.base).cons

theorem BodyForm.sound {type : TypeSignature} (form : BodyForm inner bytes type)
    (named : ∀ token ∈ type.ownTokens, token.NamesType) : type.Sound := by
  cases form with
  | primitive | byReference => trivial
  | valueType | classType => exact named _ List.mem_cons_self
  | typeVariable form | methodVariable form => exact form.lt
  | pointer form | vector form => exact ⟨named, form.plain⟩
  | modified form some => exact ⟨some, named, form.plain⟩
  | array form =>
    obtain ⟨base, ranks, some, sizesCounted, sizesFit, sizesListed, lowsCounted, lowsFit,
      lowsListed⟩ := form
    refine SignatureReader.shape_dimensions some ranks.lt sizesFit lowsFit ?_ ?_
    · intro size member
      obtain ⟨_, _, form⟩ := sizesListed.of_mem member
      exact form.lt
    · intro low member
      obtain ⟨_, _, form⟩ := lowsListed.of_mem member
      exact form.range
  | instantiation form =>
    obtain ⟨base, isNamed, counted, some, listed⟩ := form
    exact ⟨isNamed, some, counted.lt⟩
  | functionPointer form =>
    refine form.sound fun p member token own => named token ?_
    exact List.mem_flatMap.2 ⟨p, member, own⟩

end

namespace TypeForm

theorem depth_le {levels : Nat} {bytes : List UInt8} {type : TypeSignature}
    (form : TypeForm levels bytes type) : type.depth ≤ levels := by
  induction levels generalizing bytes type with
  | zero => exact form.elim
  | succ levels ih =>
    refine (type.depth_le_iff levels).2 fun part member => ?_
    obtain ⟨_, _, form⟩ := BodyForm.part form member
    exact ih form

theorem wellFormed {levels : Nat} {bytes : List UInt8} {type : TypeSignature}
    (form : TypeForm levels bytes type) (named : ∀ token, type.Mentions token → token.NamesType) :
    type.WellFormed := by
  induction levels generalizing bytes type with
  | zero => exact form.elim
  | succ levels ih =>
    refine .intro (BodyForm.sound form fun token own => named token (.own own)) ?_
    intro part member
    obtain ⟨_, _, form⟩ := BodyForm.part form member
    exact ih form fun token inside => named token (.inside member inside)

end TypeForm

end CliMetadata
