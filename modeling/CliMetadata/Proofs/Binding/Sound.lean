import CliMetadata.Proofs.Binding.Keeping

set_option autoImplicit false

namespace CliMetadata

namespace Session

def Holds (s : Session) : (slot : Slot) → slot.Value → Prop
  | .definition id, t => ∃ a, s.context.assembly? id.assembly = some a ∧
      a.definition id.assembly id.rid = .ok t
  | .primitive .., node => node.Fits s
  | _, _ => True

def Sound (s : Session) : Prop := ∀ slot value, s.value? slot = some value → s.Holds slot value

theorem Holds.gained {s s' : Session} (gains : s.Gains s') {slot : Slot} {value : slot.Value}
    (holds : s.Holds slot value) : s'.Holds slot value := by
  cases slot with
  | definition id =>
    obtain ⟨a, there, gives⟩ := holds
    exact ⟨a, gains.assembly? there, gives⟩
  | primitive a p => exact TypeNode.Fits.retained gains.values holds
  | _ => trivial

theorem Tells.holds {s : Session} {slot : Slot} {value : slot.Value} (tells : s.Tells slot value) :
    s.Holds slot value := by
  cases slot with
  | definition id => exact tells
  | primitive a p =>
    obtain ⟨t, has, rfl⟩ := tells
    exact TypeNode.Fits.bound t.kind has (List.forall_mem_nil _)
  | _ => trivial

theorem Tells.holds_of_told {s : Session} {slot : Slot} {value : slot.Value}
    (tells : slot.isTold = true → s.Tells slot value) : s.Holds slot value := by
  cases slot with
  | definition id => exact (tells rfl).holds
  | primitive a p => exact (tells rfl).holds
  | _ => trivial

structure Follows (s s' : Session) : Prop where
  grows : s.Grows s'
  waiting : ∀ slot ∈ s.running, s.value? slot = none → s'.value? slot = none
  sound : s'.Sound

end Session

namespace Ledger

def fitting : Ledger where
  Allows _ := True
  Holds := Session.Holds
  kept := ⟨fun _ _ => trivial, fun _ _ _ => trivial, fun _ _ _ _ _ => trivial,
    fun _ _ _ _ => trivial, fun _ _ _ _ => trivial, fun _ _ _ _ _ => trivial⟩
  gained := Session.Holds.gained
  told := Session.Tells.holds

variable {s s' : Session}

theorem sound_fitting : fitting.Sound s ↔ s.Sound :=
  ⟨fun sound => sound.cells, fun sound => ⟨trivial, sound⟩⟩

theorem follows_fitting : fitting.Follows s s' ↔ s.Follows s' :=
  ⟨fun ⟨grows, waiting, sound⟩ => ⟨grows, waiting, sound_fitting.1 sound⟩,
    fun ⟨grows, waiting, sound⟩ => ⟨grows, waiting, sound_fitting.2 sound⟩⟩

end Ledger

theorem Session.Follows.refl {s : Session} (sound : s.Sound) : s.Follows s :=
  Ledger.follows_fitting.1 (.refl (Ledger.sound_fitting.2 sound))

theorem Session.Follows.trans {s s' s'' : Session} (first : s.Follows s')
    (second : s'.Follows s'') : s.Follows s'' :=
  Ledger.follows_fitting.1
    ((Ledger.follows_fitting.2 first).trans (Ledger.follows_fitting.2 second))

namespace Binding

variable {α β : Type}

def Ensures (x : Binding α) (s : Session) (post : α → Session → Prop) : Prop :=
  s.Sound → s.Follows (after x s) ∧ ∀ value s', x s = .ok value s' → post value s'

def Safe (x : Binding α) : Prop := ∀ s, Ensures x s fun _ _ => True

section
variable {x : Binding α} {s : Session} {post : α → Session → Prop}

theorem ensures_iff : Ensures x s post ↔ Ledger.fitting.Ensures x s post := by
  unfold Ensures Ledger.Ensures
  rw [Ledger.sound_fitting, Ledger.follows_fitting]

theorem Safe.of_kept (safe : Ledger.fitting.Safe x) : Safe x := fun s => ensures_iff.2 (safe s)

theorem Ensures.weaken {other : α → Session → Prop} (leads : Ensures x s post)
    (implies : ∀ value s', s'.Sound → post value s' → other value s') : Ensures x s other :=
  ensures_iff.2 ((ensures_iff.1 leads).weaken fun value s' follows =>
    implies value s' (Ledger.sound_fitting.1 follows.sound))

theorem Ensures.bind {f : α → Binding β} {mid : β → Session → Prop} (first : Ensures x s post)
    (next : ∀ value s', s.Grows s' → post value s' → Ensures (f value) s' mid) :
    Ensures (x >>= f) s mid :=
  ensures_iff.2 ((ensures_iff.1 first).bind fun value s' grows holds =>
    ensures_iff.1 (next value s' grows holds))

theorem ensures_pure {value : α} (holds : post value s) : Ensures (pure value) s post :=
  ensures_iff.2 (Ledger.ensures_pure holds)

theorem ensures_throw (e : Error) : Ensures (throw e) s post :=
  ensures_iff.2 (Ledger.ensures_throw e)

theorem ensures_view (f : Session → Except Error α) :
    Ensures (view f) s fun value s' => s' = s ∧ f s = .ok value :=
  ensures_iff.2 (Ledger.ensures_view f)

theorem ensures_lift (result : Except Error α) :
    Ensures (lift result) s fun value s' => s' = s ∧ result = .ok value :=
  ensures_view fun _ => result

end

theorem outcome_definition {s : Session} {a : AssemblyId} {assembly : Assembly} {rid : Nat}
    (sound : s.Sound) (idle : .definition ⟨a, rid⟩ ∉ s.running)
    (there : s.context.assembly? a = some assembly) (least : 1 ≤ rid)
    (most : rid ≤ assembly.typeCount) :
    outcome (definition a rid) s = assembly.definition a rid := by
  rw [outcome_congr (definition_inside there least most)]
  cases present : s.value? (.definition ⟨a, rid⟩) with
  | some value =>
    obtain ⟨_, same, given⟩ := sound (.definition ⟨a, rid⟩) value present
    cases there.symm.trans same
    exact (outcome_ok (cell_of_value present)).trans given.symm
  | none =>
    cases gives : assembly.definition a rid with
    | ok t => exact outcome_ok (cell_of_unchanged present idle rfl)
    | error e => exact outcome_error (Cells.fetch_failed present idle rfl)

end Binding

end CliMetadata
