import CliMetadata.Proofs.Binding.Reached
import CliMetadata.Proofs.Storage.Image
import CliMetadata.Proofs.Text.Ascii

set_option autoImplicit false

namespace CliMetadata

namespace ReflectionName

/-- A text that is read as it stands between two commas. -/
structure Part (cs : List Char) : Prop extends Text.Unpadded cs where
  commaless : ',' ∉ cs

def spelled (fullName : String) : String := fullName.map fun c => if c == '/' then '+' else c

def unspelled (text : String) : String := text.map fun c => if c == '+' then '/' else c

/-- A full name that comes back from its spelling. -/
structure Spellable (fullName : String) : Prop where
  part : Part fullName.toList
  plusless : '+' ∉ fullName.toList

theorem part_map {f : Char → Char} {cs : List Char} (comma : ∀ c, f c = ',' ↔ c = ',')
    (blank : ∀ c, Text.isBlank (f c) = Text.isBlank c) : Part (cs.map f) ↔ Part cs := by
  have commas : ',' ∈ cs.map f ↔ ',' ∈ cs := by simp [comma]
  have unpadded : Text.Unpadded (cs.map f) ↔ Text.Unpadded cs := Text.unpadded_map blank
  constructor
  · rintro ⟨ends, commaless⟩
    exact ⟨unpadded.1 ends, mt commas.2 commaless⟩
  · rintro ⟨ends, commaless⟩
    exact ⟨unpadded.2 ends, mt commas.1 commaless⟩

theorem Part.spelled {fullName : String} (part : Part fullName.toList) :
    Part (spelled fullName).toList := by
  rw [ReflectionName.spelled, String.toList_map]
  refine (part_map (fun c => ?_) fun c => ?_).2 part
  · by_cases slash : c = '/'
    · subst slash
      decide
    · simp [slash]
  · by_cases slash : c = '/'
    · subst slash
      decide
    · simp [slash]

theorem Part.recased {name other : String} (part : Part name.toList)
    (same : Text.equalIgnoringCase other name = true) : Part other.toList := by
  have folded : Text.foldCase other = Text.foldCase name := Text.equalIgnoringCase_iff.1 same
  have lower : Part (name.toList.map Char.toLower) :=
    (part_map (fun _ => Text.toLower_eq_comma) Text.isBlank_toLower).2 part
  rw [Text.foldCase, Text.foldCase] at folded
  rw [← folded] at lower
  exact (part_map (fun _ => Text.toLower_eq_comma) Text.isBlank_toLower).1 lower

theorem ne_comma {cs : List Char} (commaless : ',' ∉ cs) : ∀ c ∈ cs, (c != ',') = true := by
  intro c member
  rw [bne_iff_ne]
  rintro rfl
  exact commaless member

section
variable {cs tail : List Char} (commaless : ',' ∉ cs)
  (ends : tail = [] ∨ ∃ rest, tail = ',' :: rest)
include commaless ends

theorem takeWhile_ended : (cs ++ tail).takeWhile (· != ',') = cs := by
  rw [List.takeWhile_append_of_pos (ne_comma commaless)]
  obtain rfl | ⟨rest, rfl⟩ := ends
  · simp
  · simp

theorem dropWhile_ended : (cs ++ tail).dropWhile (· != ',') = tail := by
  rw [List.dropWhile_append_of_pos (ne_comma commaless)]
  obtain rfl | ⟨rest, rfl⟩ := ends
  · rfl
  · rfl

end

theorem parse_alone {text : String} (part : Part text.toList) :
    parse text = { fullName := unspelled text, assembly := none } := by
  have whole : text.toList.takeWhile (· != ',') = text.toList := by
    simpa using takeWhile_ended part.commaless (.inl rfl)
  have nothing : text.toList.dropWhile (· != ',') = [] := by
    simpa using dropWhile_ended part.commaless (.inl rfl)
  simp [parse, whole, nothing, trimmed, part.trim_eq, unspelled]

theorem parse_qualified {text blanks assembly tail : String} (part : Part text.toList)
    (blank : ∀ c ∈ blanks.toList, Text.isBlank c = true) (simple : Part assembly.toList)
    (ends : tail = "" ∨ ∃ rest, tail = "," ++ rest) :
    parse (text ++ "," ++ blanks ++ assembly ++ tail) =
      { fullName := unspelled text, assembly := some assembly } := by
  have split : (text ++ "," ++ blanks ++ assembly ++ tail).toList =
      text.toList ++ ',' :: ((blanks.toList ++ assembly.toList) ++ tail.toList) := by simp
  have name : (text ++ "," ++ blanks ++ assembly ++ tail).toList.takeWhile (· != ',') =
      text.toList := by
    rw [split]
    exact takeWhile_ended part.commaless (.inr ⟨_, rfl⟩)
  have behind : (text ++ "," ++ blanks ++ assembly ++ tail).toList.dropWhile (· != ',') =
      ',' :: ((blanks.toList ++ assembly.toList) ++ tail.toList) := by
    rw [split]
    exact dropWhile_ended part.commaless (.inr ⟨_, rfl⟩)
  have commaless : ',' ∉ blanks.toList ++ assembly.toList := by
    rw [List.mem_append]
    rintro (inBlanks | inName)
    · exact absurd (blank _ inBlanks) (by decide)
    · exact simple.commaless inName
  have ended : tail.toList = [] ∨ ∃ rest, tail.toList = ',' :: rest := by
    obtain rfl | ⟨rest, rfl⟩ := ends
    · exact .inl rfl
    · exact .inr ⟨rest.toList, by simp⟩
  have simpleName := takeWhile_ended commaless ended
  simp only [parse, name, behind, simpleName, trimmed, part.trim_eq, simple.trim_blanks blank,
    String.ofList_toList, unspelled]

theorem Spellable.unspelled_spelled {fullName : String} (spellable : Spellable fullName) :
    unspelled (spelled fullName) = fullName := by
  rw [← String.toList_inj, unspelled, spelled, String.toList_map, String.toList_map, List.map_map]
  refine (List.map_congr_left fun c member => ?_).trans (List.map_id _)
  have other : c ≠ '+' := by
    rintro rfl
    exact spellable.plusless member
  by_cases slash : c = '/'
  · subst slash
    rfl
  · simp [slash, other]

end ReflectionName

namespace Binding

open ReflectionName

/-- Behind the assembly's own name, in any case and whatever follows it, a spelled name is looked up
as the full name is. By itself it leads to what the full name leads to. -/
theorem definitionReflected_spelled {s : Session} {id : AssemblyId} {a : Assembly}
    {fullName : String} (there : s.context.assembly? id = some a) (own : Part a.name.toList)
    (spellable : Spellable fullName) :
    (∀ blanks name tail : String, (∀ c ∈ blanks.toList, Text.isBlank c = true) →
      Text.equalIgnoringCase name a.name = true → (tail = "" ∨ ∃ rest, tail = "," ++ rest) →
      definitionReflected id (spelled fullName ++ "," ++ blanks ++ name ++ tail) s =
        definitionNamed id fullName s) ∧
    ∀ t s', definitionNamed id fullName s = .ok (some t) s' →
      definitionReflected id (spelled fullName) s = .ok (some t) s' := by
  constructor
  · intro blanks name tail blank same ends
    have found : Binding.assembly id s = .ok a s := assembly_loaded there
    have parsed := parse_qualified spellable.part.spelled blank (own.recased same) ends
    rw [spellable.unspelled_spelled] at parsed
    unfold definitionReflected
    simp only [parsed]
    rw [bind_after_ok found, if_pos same]
  · intro t s' found
    have parsed := parse_alone spellable.part.spelled
    rw [spellable.unspelled_spelled] at parsed
    unfold definitionReflected
    simp only [parsed]
    rw [bind_after_ok found]
    rfl

def nestedPair : ByteArray := image [
  ("#~", tableStream [
    (.module, [[0, 0, 5, 0, 0, 0, 0, 0, 0, 0]]),
    (.typeDef, [
      [0, 0, 0, 0, 1, 0, 5, 0, 0, 0, 1, 0, 1, 0],
      [0, 0, 0, 0, 3, 0, 0, 0, 0, 0, 1, 0, 1, 0]]),
    (.nestedClass, [[2, 0, 1, 0]])]),
  ("#Strings", stringHeap ["A", "B", "N"])]

theorem definitionReflected_spelled_nested : ∃ (s s' : Session) (a : Assembly)
    (t : TypeDefinition), s.context.assembly? ⟨0⟩ = some a ∧ a.name = "N" ∧
      t.fullName = "N.A/B" ∧ definitionNamed ⟨0⟩ "N.A/B" s = .ok (some t) s' ∧
      definitionReflected ⟨0⟩ "N.A+B" s = .ok (some t) s' ∧
      definitionReflected ⟨0⟩ "N.A+B, n, Version=1.0.0.0" s = .ok (some t) s' := by
  obtain ⟨a, -, -, passes⟩ := Assembly.exists_read nestedPair (fun a =>
    a.name = "N" && a.typeCount = 2 && (a.typeNamed? "N.A/B").toOption = some (some 2) &&
      (a.definition ⟨0⟩ 2).toOption.any fun t => t.fullName = "N.A/B") (by decide +kernel)
  simp only [Bool.and_eq_true, decide_eq_true_eq, Option.any_eq_true, except_toOption_some]
    at passes
  obtain ⟨⟨⟨own, count⟩, named⟩, t, gives, full⟩ := passes
  have there : (Session.holding a).context.assembly? ⟨0⟩ = some a := rfl
  have found : Binding.assembly ⟨0⟩ (Session.holding a) = .ok a (Session.holding a) :=
    assembly_loaded there
  have defined : definition ⟨0⟩ 2 (Session.holding a) =
      .ok t ((Session.holding a).store (.definition ⟨⟨0⟩, 2⟩) t) := by
    rw [definition_inside there (by decide) (Nat.le_of_eq count.symm)]
    refine cell_of_unchanged (by simp) List.not_mem_nil ?_
    rw [gives]
    rfl
  have looked : definitionNamed ⟨0⟩ "N.A/B" (Session.holding a) =
      .ok (some t) ((Session.holding a).store (.definition ⟨⟨0⟩, 2⟩) t) := by
    rw [definitionNamed, definitionNamedWithin, bind_after_ok found, lift_bind_ok named]
    exact bind_after_ok defined _
  have simple : Part a.name.toList :=
    own ▸ ⟨⟨by simp [Text.isBlank], by simp [Text.isBlank]⟩, by simp⟩
  have spellable : Spellable "N.A/B" :=
    ⟨⟨⟨by simp [Text.isBlank], by simp [Text.isBlank]⟩, by simp⟩, by simp⟩
  have blank : ∀ c ∈ " ".toList, Text.isBlank c = true := by simp [Text.isBlank]
  obtain ⟨qualified, alone⟩ := definitionReflected_spelled there simple spellable
  have spells : spelled "N.A/B" = "N.A+B" := by
    simp [← String.toList_inj, spelled]
  have behind : ", Version=1.0.0.0" = "," ++ " Version=1.0.0.0" := rfl
  rw [spells] at qualified alone
  refine ⟨_, _, a, t, there, own, full, looked, alone t _ looked, ?_⟩
  rw [← looked]
  exact qualified " " "n" ", Version=1.0.0.0" blank (own ▸ by decide) (.inr ⟨_, behind⟩)

end Binding

end CliMetadata
