import FreightPromotion.Proofs.Replacement

/-!
# Trees that differ in one file

Two trees may hold the same but for the content of one file.  What can be done in the
one can be done in the other, with the same result (`Twins.resolve` and the lemmas
after it), because no operation but a read looks at content.

So it is with a save at the path of that file: in both trees it makes the same
directories, fails in the same way or not at all, and leaves trees that differ in the
same file only (`Store.twins_save`).
-/

namespace FreightPromotion

open FreightPromotion.Files (Location Tree Entry)
open FreightPromotion.Text (Bytes)

namespace Files.Tree

/-- The trees hold the same but for the content of the file at one place. -/
structure Twins (place : Location) (first second : Tree) : Prop where
  workingDirectory : second.workingDirectory = first.workingDirectory
  others : ∀ location, location ≠ place → second.entry? location = first.entry? location
  file : ∃ content, first.entry? place = some (.file content)
  otherFile : ∃ content, second.entry? place = some (.file content)

namespace Twins

variable {place location : Location} {first second : Tree} {path : String} {entry : Entry}

/-- At every location the trees hold the same, or each of them a file. -/
theorem entries (htwins : Twins place first second) (location : Location) :
    second.entry? location = first.entry? location ∨
      (∃ content, first.entry? location = some (.file content)) ∧
        ∃ content, second.entry? location = some (.file content) := by
  by_cases hplace : location = place
  · subst hplace
    exact .inr ⟨htwins.file, htwins.otherFile⟩
  · exact .inl (htwins.others location hplace)

theorem directory_iff (htwins : Twins place first second) (location : Location) :
    second.entry? location = some .directory ↔ first.entry? location = some .directory := by
  rcases htwins.entries location with hsame | ⟨⟨content, hfirst⟩, ⟨other, hsecond⟩⟩
  · rw [hsame]
  · simp [hfirst, hsecond]

/-! ## What is done in both -/

theorem walk (htwins : Twins place first second) (origin : Location) (names : List String) :
    second.walk origin names = first.walk origin names := by
  induction names generalizing origin with
  | nil => rfl
  | cons name names ih =>
      rw [Tree.walk, Tree.walk, ih, ih]
      rcases htwins.entries (origin ++ [name]) with hsame | ⟨⟨content, hfirst⟩, ⟨other, hsecond⟩⟩
      · rw [hsame, ih]
      · rw [hfirst, hsecond]

theorem resolve (htwins : Twins place first second) (path : String) :
    second.resolve path = first.resolve path := by
  unfold Tree.resolve
  simp only [htwins.workingDirectory, htwins.walk]

theorem isDirectory (htwins : Twins place first second) (path : String) :
    second.isDirectory path = first.isDirectory path := by
  unfold Tree.isDirectory
  simp only [htwins.resolve, htwins.directory_iff]

theorem truncate (htwins : Twins place first second) (path : String) :
    (∃ fault, first.truncate path = .error fault ∧ second.truncate path = .error fault) ∨
      ∃ next other, first.truncate path = .ok next ∧ second.truncate path = .ok other := by
  unfold Tree.truncate
  rw [htwins.resolve path]
  split
  · exact .inl ⟨_, rfl, rfl⟩
  · exact .inl ⟨_, rfl, rfl⟩
  · simp only [htwins.directory_iff]
    split_ifs
    · exact .inl ⟨_, rfl, rfl⟩
    · exact .inl ⟨_, rfl, rfl⟩
    · exact .inr ⟨_, _, rfl, rfl⟩

theorem put (htwins : Twins place first second) (hlocation : location ≠ [])
    (hplace : location ≠ place) (entry : Entry) :
    Twins place (first.put location entry) (second.put location entry) where
  workingDirectory := htwins.workingDirectory
  others other hother := by
    rw [lookup_put hlocation, lookup_put hlocation, htwins.others other hother]
  file := by
    rw [lookup_put hlocation, if_neg hplace.symm]
    exact htwins.file
  otherFile := by
    rw [lookup_put hlocation, if_neg hplace.symm]
    exact htwins.otherFile

/-- A directory is made in both trees or in neither, and the place is not where it is
made. -/
theorem makeDirectory (htwins : Twins place first second) (path : String) :
    (∃ fault, first.makeDirectory path = .error fault ∧ second.makeDirectory path = .error fault) ∨
      ∃ next other, first.makeDirectory path = .ok next ∧ second.makeDirectory path = .ok other ∧
        Twins place next other := by
  unfold Tree.makeDirectory
  rw [htwins.resolve path]
  split
  · exact .inl ⟨_, rfl, rfl⟩
  · exact .inl ⟨_, rfl, rfl⟩
  · rename_i directory name marked hresolve
    rcases htwins.entries (directory ++ [name]) with hsame | ⟨⟨content, hfirst⟩, ⟨other, hsecond⟩⟩
    · rw [hsame]
      cases hentry : first.entry? (directory ++ [name]) with
      | some entry => exact .inl ⟨_, rfl, rfl⟩
      | none =>
          have hplace : directory ++ [name] ≠ place := by
            rintro rfl
            obtain ⟨content, hfile⟩ := htwins.file
            simp [hentry] at hfile
          exact .inr ⟨_, _, rfl, rfl, htwins.put (location_ne_nil _ _) hplace .directory⟩
    · rw [hfirst, hsecond]
      exact .inl ⟨_, rfl, rfl⟩

theorem makeDirectories (htwins : Twins place first second) (paths : List String) :
    Twins place (first.makeDirectories paths).1 (second.makeDirectories paths).1 ∧
      (second.makeDirectories paths).2 = (first.makeDirectories paths).2 := by
  induction paths with
  | nil => exact ⟨htwins, rfl⟩
  | cons path above ih =>
      rw [Tree.makeDirectories, Tree.makeDirectories]
      split
      · exact ⟨htwins, rfl⟩
      · rcases htwins.makeDirectory path with ⟨fault, hfirst, hsecond⟩ |
          ⟨next, other, hfirst, hsecond, hnext⟩
        · rw [hfirst, hsecond]
          -- A missing directory is tried again after those above it, any other fault ends it.
          by_cases hmissing : fault = .notFound
          · subst hmissing
            cases habove : first.makeDirectories above with
            | mk reached result =>
                cases hotherAbove : second.makeDirectories above with
                | mk otherReached otherResult =>
                    rw [habove, hotherAbove] at ih
                    obtain ⟨hreached, hresult⟩ := ih
                    obtain rfl : otherResult = result := hresult
                    cases otherResult with
                    | error fault => exact ⟨hreached, rfl⟩
                    | ok done =>
                        rcases hreached.makeDirectory path with ⟨fault, hagain, hotherAgain⟩ |
                          ⟨next, other, hagain, hotherAgain, hnext⟩
                        · simp only [hagain, hotherAgain, hreached.isDirectory]
                          exact ⟨hreached, trivial⟩
                        · simp only [hagain, hotherAgain]
                          exact ⟨hnext, trivial⟩
          · simp only [htwins.isDirectory]
            exact ⟨htwins, trivial⟩
        · rw [hfirst, hsecond]
          exact ⟨hnext, rfl⟩

end Twins

end Files.Tree

namespace Store

open Files.Tree (Twins)

variable {place : Location} {first second : Tree} {store : Store}

/-! ## A save in both trees -/

theorem twins_makeParents (store : Store) (htwins : Twins place first second) :
    Twins place (store.makeParents first).1 (store.makeParents second).1 ∧
      (store.makeParents second).2 = (store.makeParents first).2 := by
  unfold makeParents
  cases Files.parent? store.path with
  | none => exact ⟨htwins, rfl⟩
  | some directory =>
      obtain ⟨hreached, hresult⟩ := htwins.makeDirectories (Files.ancestors directory)
      exact ⟨hreached, congrArg (Except.mapError _) hresult⟩

/-- Replacing the content of the file in both trees has the same result, and then the
file is again the only difference. -/
theorem twins_replace {directory : Location} {name : String}
    (htwins : Twins (directory ++ [name]) first second)
    (hresolve : first.resolve store.path = .ok (.name directory name false))
    (content other : Bytes) :
    Twins (directory ++ [name]) (store.replace content first).1 (store.replace other second).1 ∧
      (store.replace other second).2 = (store.replace content first).2 := by
  have hkeeps := store.keeps_makeParents first
  have hparents := store.twins_makeParents htwins
  cases hmade : store.makeParents first with
  | mk prepared result =>
      cases hotherMade : store.makeParents second with
      | mk otherPrepared otherResult =>
          rw [hmade] at hkeeps
          rw [hmade, hotherMade] at hparents
          obtain ⟨hprepared, hresult⟩ := hparents
          obtain rfl : otherResult = result := hresult
          cases otherResult with
          | error failure =>
              unfold replace
              rw [hmade, hotherMade]
              exact ⟨hprepared, rfl⟩
          | ok done =>
              rcases hprepared.truncate store.temporaryPath with
                ⟨fault, htruncate, hotherTruncate⟩ |
                ⟨emptied, otherEmptied, htruncate, hotherTruncate⟩
              · unfold replace
                rw [hmade, hotherMade]
                unfold writeTemporary
                simp only [htruncate, hotherTruncate]
                exact ⟨hprepared, trivial⟩
              · -- Nothing can fail any more, and what is left is known entry by entry.
                have hplace := hkeeps.resolve hresolve
                have hotherPlace := (hprepared.resolve store.path).trans hplace
                obtain ⟨held, hfile⟩ := hprepared.file
                obtain ⟨otherHeld, hotherFile⟩ := hprepared.otherFile
                obtain ⟨reached, hreplace, hdirectory, hentries⟩ :=
                  replace_of_truncate hmade hplace (by simp [hfile]) htruncate content
                obtain ⟨otherReached, hotherReplace, hotherDirectory, hotherEntries⟩ :=
                  replace_of_truncate hotherMade hotherPlace (by simp [hotherFile]) hotherTruncate
                    other
                rw [hreplace, hotherReplace]
                refine ⟨⟨?_, fun location hlocation => ?_, ?_, ?_⟩, rfl⟩
                · rw [hdirectory, hotherDirectory, hprepared.workingDirectory]
                · rw [hentries, hotherEntries, if_neg hlocation, if_neg hlocation,
                    hprepared.others location hlocation]
                · exact ⟨content, by rw [hentries, if_pos rfl]⟩
                · exact ⟨other, by rw [hotherEntries, if_pos rfl]⟩

/-- Settings are saved in both trees or in neither. -/
theorem twins_save {directory : Location} {name : String}
    (htwins : Twins (directory ++ [name]) first second)
    (hresolve : first.resolve store.path = .ok (.name directory name false))
    (settings other : Settings) :
    Twins (directory ++ [name]) (store.save settings first).value.1
        (store.save other second).value.1 ∧
      (store.save other second).value.2 = (store.save settings first).value.2 ∧
      (store.save other second).steps = (store.save settings first).steps := by
  have hreplace := twins_replace htwins hresolve (contentOf settings) (contentOf other)
  unfold save
  cases hfirst : store.replace (contentOf settings) first with
  | mk reached result =>
      cases hsecond : store.replace (contentOf other) second with
      | mk otherReached otherResult =>
          rw [hfirst, hsecond] at hreplace
          obtain ⟨hreached, hresult⟩ := hreplace
          obtain rfl : otherResult = result := hresult
          cases otherResult with
          | error failure => exact ⟨hreached, rfl, rfl⟩
          | ok done => exact ⟨hreached, rfl, rfl⟩

end Store

end FreightPromotion
