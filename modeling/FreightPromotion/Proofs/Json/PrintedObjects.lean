import FreightPromotion.Proofs.Json.Objects
import FreightPromotion.Proofs.Json.Values

/-!
# Printed objects

An object that is printed, in either arrangement and with blanks or none after it, is an object with
the members that were printed, in their order (`Arrangement.isObject_printed`).  What a member is
can then be read off it.

If all members are texts, then these texts can be read off the body
(`Arrangement.isTextObject_printed`), and so two objects of texts that are printed alike have the
same members.
-/

namespace FreightPromotion.Json

open FreightPromotion.Text (Bytes encode)

variable {arrangement : Arrangement} {depth : Nat} {members : List Member}
  {given : List (String × Bytes)} {name : String} {input : Bytes}

/-- A printed object is an object with the members that were printed. -/
theorem Arrangement.isObject_printed {blanks : Bytes} (hblanks : ∀ byte ∈ blanks, isBlank byte)
    (hends : ∀ member ∈ members, arrangement.Ends (depth + 1) member.2) :
    ∃ given, IsObject (encode (arrangement.text depth (.object members)) ++ blanks) given ∧
      arrangement.DueAs (depth + 1) members given := by
  have hblank : isBlank '\x7b'.toUInt8 = false := by decide
  obtain ⟨given, inner, hspelling, hmembers, hdue⟩ := arrangement.members blanks hends
  refine ⟨given, ⟨inner, blanks, ?_, hmembers, ?_⟩, hdue⟩
  · rw [hspelling, skipBlanks_of_not_blank hblank]
  · rw [← List.append_nil blanks, skipBlanks_append hblanks]
    rfl

/-! ## What a member is -/

theorem Spelling.DueAs.lookup_eq_none {spelling : Spelling}
    (hdue : spelling.DueAs depth members given) (hmember : members.lookup name = none) :
    given.lookup name = none := by
  have hfound := Matches.lookup hdue name
  rw [hmember] at hfound
  generalize given.lookup name = found at hfound ⊢
  cases hfound
  rfl

theorem Spelling.DueAs.lookup_eq_some {spelling : Spelling} {value : Value}
    (hdue : spelling.DueAs depth members given) (hmember : members.lookup name = some value) :
    ∃ input, given.lookup name = some input ∧ spelling.DueAt depth value input := by
  have hfound := Matches.lookup hdue name
  rw [hmember] at hfound
  generalize given.lookup name = found at hfound ⊢
  cases hfound with
  | some hinput => exact ⟨_, rfl, hinput⟩

theorem Arrangement.isNull_of_dueAt (hdue : arrangement.DueAt depth .null input) :
    ∃ after, IsNull input after := by
  have hword : encode (word .null) = ['n'.toUInt8, 'u'.toUInt8, 'l'.toUInt8, 'l'.toUInt8] := by
    decide
  have hblank : isBlank 'n'.toUInt8 = false := by decide
  have hnull : Value.null.IsWord := trivial
  obtain ⟨beyond, -, hinput⟩ := hdue
  refine ⟨beyond, ['u'.toUInt8, 'l'.toUInt8, 'l'.toUInt8] ++ beyond, ?_, by simp [readLetters]⟩
  rw [hinput, arrangement.text_word depth hnull, hword, List.cons_append,
    skipBlanks_of_not_blank hblank]

theorem Arrangement.isText_of_dueAt {text : String}
    (hdue : arrangement.DueAt depth (.text text) input) : IsText input text := by
  have hreads : arrangement.Reads (readText memberNesting) depth (.text text) text :=
    arrangement.reads_readText text
  exact hreads.of_dueAt (regular_readText memberNesting) hdue

/-- A member that is a text is found as that text. -/
theorem Arrangement.hasText_of_dueAs {text : String} (hdue : arrangement.DueAs depth members given)
    (hmember : members.lookup name = some (.text text)) : HasText given name text := by
  obtain ⟨input, hlookup, hinput⟩ := hdue.lookup_eq_some hmember
  exact ⟨input, hlookup, arrangement.isText_of_dueAt hinput⟩

/-! ## Objects of texts -/

/-- The texts of a printed object can be read off it. -/
theorem Arrangement.isTextObject_printed (arrangement : Arrangement) (depth : Nat)
    (texts : List (String × String)) :
    IsTextObject
      (encode (arrangement.text depth (.object (texts.map fun text => (text.1, .text text.2)))))
      texts := by
  have hends : ∀ member ∈ texts.map fun text => (text.1, Value.text text.2),
      arrangement.Ends (depth + 1) member.2 := by
    intro member hmember
    obtain ⟨text, -, rfl⟩ := List.mem_map.mp hmember
    exact arrangement.ends_text text.2
  obtain ⟨given, hobject, hdue⟩ :=
    arrangement.isObject_printed (List.forall_mem_nil _) hends
  rw [List.append_nil] at hobject
  refine ⟨given, hobject, (List.forall₂_map_left_iff.mp hdue).flip.imp ?_⟩
  rintro found text ⟨hkey, hinput⟩
  exact ⟨hkey.symm, arrangement.isText_of_dueAt hinput⟩

end FreightPromotion.Json
