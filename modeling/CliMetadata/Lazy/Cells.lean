import CliMetadata.Error
import Std.Data.DHashMap.Basic

/-!
Cells whose values are computed when they are first asked for. A value stays once it is there; a
failed computation leaves its cell empty, so that it runs again at the next request. A cell that is
asked for while its own value is being computed is refused.
-/

set_option autoImplicit false

namespace CliMetadata

structure Cells (κ : Type) [BEq κ] [Hashable κ] (V : κ → Type) (ρ : Type) where
  values : Std.DHashMap κ V := ∅
  running : List κ := []
  rest : ρ

namespace Cells

variable {κ ρ : Type} [BEq κ] [Hashable κ] {V : κ → Type}

def value? [LawfulBEq κ] (s : Cells κ V ρ) (k : κ) : Option (V k) := s.values.get? k

def enter (s : Cells κ V ρ) (k : κ) : Cells κ V ρ := { s with running := k :: s.running }

def leave (s : Cells κ V ρ) (k : κ) : Cells κ V ρ := { s with running := s.running.erase k }

def store (s : Cells κ V ρ) (k : κ) (value : V k) : Cells κ V ρ :=
  { s with values := s.values.insert k value }

def fetch [LawfulBEq κ] (k : κ) (compute : EStateM Error (Cells κ V ρ) (V k)) :
    EStateM Error (Cells κ V ρ) (V k) := fun s =>
  match s.value? k with
  | some value => .ok value s
  | none =>
    if s.running.contains k then .error (.malformed .cyclic) s
    else
      match compute (s.enter k) with
      | .ok value s => .ok value ((s.leave k).store k value)
      | .error e s => .error e (s.leave k)

end Cells

end CliMetadata
