import CliMetadata.Proofs.Assembly
import CliMetadata.Proofs.Loading.Kept

set_option autoImplicit false

namespace CliMetadata

structure LoadContext.Grows (c c' : LoadContext) : Prop extends LoadContext.Extends c c' where
  resolver : c'.resolver = c.resolver

namespace LoadContext.Grows

theorem refl (c : LoadContext) : c.Grows c := ⟨.refl c, rfl⟩

theorem trans {c c' c'' : LoadContext} (first : c.Grows c') (second : c'.Grows c'') :
    c.Grows c'' :=
  ⟨first.toExtends.trans second.toExtends, second.resolver.trans first.resolver⟩

end LoadContext.Grows

namespace LoadContext

theorem grows_place (c : LoadContext) (a : Assembly) : c.Grows (c.place a).2 := by
  refine ⟨c.extends_place a, ?_⟩
  unfold place
  split <;> rfl

theorem grows_addKey (c : LoadContext) (identity : AssemblyIdentity) (id : AssemblyId) :
    c.Grows (c.addKey identity id) := by
  refine ⟨c.extends_addKey identity id, ?_⟩
  unfold addKey
  split <;> rfl

def Made (c : LoadContext) : Prop := ∀ a ∈ c.assemblies, Assembly.ofModule a.module = .ok a

namespace Made

variable {c : LoadContext}

theorem assembly? (made : c.Made) {id : AssemblyId} {a : Assembly}
    (there : c.assembly? id = some a) : Assembly.ofModule a.module = .ok a :=
  made a (List.mem_of_getElem? there)

theorem place (made : c.Made) {m : Module} {a : Assembly} (makes : Assembly.ofModule m = .ok a) :
    (c.place a).2.Made := by
  unfold LoadContext.place
  split
  · exact made
  have own : Assembly.ofModule a.module = .ok a := (Assembly.ofModule_eq makes).1.symm ▸ makes
  intro other member
  rcases List.mem_append.1 member with old | new
  · exact made other old
  · exact List.mem_singleton.1 new ▸ own

theorem addKey (made : c.Made) (identity : AssemblyIdentity) (id : AssemblyId) :
    (c.addKey identity id).Made := by
  unfold LoadContext.addKey
  split <;> exact made

end Made

end LoadContext

namespace Loading

def Growing {α : Type} (x : Loading α) : Prop :=
  ∀ c : LoadContext, c.Grows (after x c)

theorem kept_grows : Kept LoadContext.Grows where
  refl := .refl
  trans := .trans
  place c _ a _ := c.grows_place a
  addKey := LoadContext.grows_addKey
  record _ _ _ := ⟨⟨List.prefix_rfl, List.prefix_rfl⟩, rfl⟩
  undone _ _ _ grows := ⟨⟨grows.assemblies, grows.index⟩, grows.resolver⟩

theorem kept_made : Kept fun c c' => c.Made → c'.Made where
  refl _ made := made
  trans first second made := second (first made)
  place _ _ _ makes made := made.place makes
  addKey _ identity id made := made.addKey identity id
  record _ _ _ made := made
  undone _ _ _ kept made := kept made

theorem growing_resolve (depth : Nat) (identity : AssemblyIdentity) (flags : Nat) :
    Growing (resolve depth identity flags) :=
  kept_grows.resolve depth identity flags

end Loading

end CliMetadata
