import FreightPromotion.Proofs.Files.PlainPaths
import FreightPromotion.Proofs.Settings
import FreightPromotion.Store
import Mathlib.Logic.Relation

/-!
# Replacing the settings

Saving makes the directories above the settings, makes the temporary file empty,
appends the document to it and moves it into place, and it stops at the first of
these steps that fails.  `Replacement` lists how far it can get.

All steps before the last one leave a file of settings as it was
(`Prepares.read`), and the last one puts in its place what was written to the
temporary file.  Hence what was saved is loaded again (`saved_settings_load_back`).
-/

namespace FreightPromotion

open FreightPromotion.Files (Location Tree)
open FreightPromotion.Files.Tree (ChangesAt)
open FreightPromotion.Text (Bytes)
open Relation (ReflTransGen)

/-- The settings can be read from the file at the path. -/
def Settings.WrittenAt (settings : Settings) (path : String) (tree : Tree) : Prop :=
  ∃ content, tree.read path = .ok content ∧ Json.read Settings.read content = .ok settings

/-- The document of settings is read as these settings. -/
theorem Settings.writtenAt_of_contentOf {settings : Settings} {path : String} {tree : Tree}
    (hread : tree.read path = .ok (Store.contentOf settings)) : settings.WrittenAt path tree :=
  ⟨_, hread, settings.read_pretty_document⟩

/-- The document of settings where nothing else is. -/
theorem Settings.writtenAt_alone (settings : Settings) :
    settings.WrittenAt "config.json"
      { entries := [(["config.json"], .file (Store.contentOf settings))] } := by
  refine settings.writtenAt_of_contentOf (Tree.read_eq_ok_iff.mpr ⟨[], "config.json", ?_, rfl⟩)
  exact Tree.resolve_bare _ (by decide) (by decide) (by decide) (by decide)

namespace Store

variable {store : Store} {tree next : Tree} {content : Bytes}

/-! ## The temporary file -/

/-- Where the temporary file can be found, its path is that of the settings with a name of its
own. -/
theorem names_of_resolve_temporaryPath {above : List String} {name temporary : String}
    {directory : Location} {marked : Bool} (hnames : Tree.names store.path = above ++ [name])
    (hname : name ≠ "." ∧ name ≠ "..")
    (hresolve : tree.resolve store.temporaryPath = .ok (.name directory temporary marked)) :
    temporary = store.temporaryName name ∧
      Tree.names store.temporaryPath = above ++ [temporary] ∧
      tree.walk (tree.start store.path) above = .ok directory := by
  obtain ⟨last, hcases, hbeside, habsolute⟩ := names_temporaryPath hnames hname
  obtain ⟨-, found, hfound, hwalk, hproper, -⟩ := Tree.resolve_eq_name_iff.mp hresolve
  obtain ⟨rfl, hlast⟩ := List.append_inj' (hfound.symm.trans hbeside) rfl
  obtain rfl : temporary = last := List.singleton_injective hlast
  rw [Tree.start, habsolute] at hwalk
  exact ⟨hcases.resolve_right hproper.2, hbeside, hwalk⟩

/-- Where the settings can be found, the temporary file lies beside them. -/
theorem temporary_beside {directory other : Location} {name temporary : String}
    {marked temporaryMarked : Bool}
    (hpath : tree.resolve store.path = .ok (.name directory name marked))
    (htemporary : tree.resolve store.temporaryPath = .ok (.name other temporary temporaryMarked)) :
    other = directory ∧ temporary = store.temporaryName name := by
  obtain ⟨-, above, hnames, hwalk, hname, -⟩ := Tree.resolve_eq_name_iff.mp hpath
  obtain ⟨hlast, -, hotherWalk⟩ := names_of_resolve_temporaryPath hnames hname htemporary
  exact ⟨Except.ok.inj (hotherWalk.symm.trans hwalk), hlast⟩

/-- A change of the temporary file is none of the settings. -/
theorem read_of_changesAt_temporary (store : Store) {directory : Location} {temporary : String}
    {marked : Bool}
    (htemporary : tree.resolve store.temporaryPath = .ok (.name directory temporary marked))
    (hchanges : ChangesAt (directory ++ [temporary]) tree next)
    (hread : tree.read store.path = .ok content) : next.read store.path = .ok content := by
  obtain ⟨found, name, hresolve, -⟩ := Tree.read_eq_ok_iff.mp hread
  obtain ⟨rfl, rfl⟩ := temporary_beside hresolve htemporary
  refine hchanges.read hresolve ?_ hread
  simpa using (temporaryName_ne store name).symm

/-! ## Steps before the settings are replaced -/

/-- One of the directories above the settings is made. -/
def MakesParent (store : Store) (tree next : Tree) : Prop :=
  ∃ directory ∈ store.parents, tree.makeDirectory directory = .ok next

/-- A step of a save that does not replace the settings. -/
inductive Prepares (store : Store) : Tree → Tree → Prop
  | makeParent {tree next : Tree} (hmake : store.MakesParent tree next) : Prepares store tree next
  | truncate {tree next : Tree} (htruncate : tree.truncate store.temporaryPath = .ok next) :
      Prepares store tree next
  | append {tree next : Tree} {more : Bytes}
      (happend : tree.append store.temporaryPath more = .ok next) : Prepares store tree next

theorem MakesParent.keeps (hmake : store.MakesParent tree next) : Tree.Keeps tree next := by
  obtain ⟨parent, -, hmake⟩ := hmake
  obtain ⟨directory, name, marked, -, -, hchanges⟩ := Tree.changesAt_of_makeDirectory hmake
  exact hchanges.keeps

/-- A new directory does not take the place of a file. -/
theorem MakesParent.read {path : String} (hmake : store.MakesParent tree next)
    (hread : tree.read path = .ok content) : next.read path = .ok content := by
  obtain ⟨parent, -, hmake⟩ := hmake
  obtain ⟨directory, name, marked, -, hnothing, hchanges⟩ := Tree.changesAt_of_makeDirectory hmake
  obtain ⟨found, foundName, hresolve, hentry⟩ := Tree.read_eq_ok_iff.mp hread
  refine hchanges.read hresolve (fun hsame => ?_) hread
  simp [hsame, hnothing] at hentry

theorem Prepares.keeps (hstep : store.Prepares tree next) : Tree.Keeps tree next := by
  cases hstep with
  | makeParent hmake => exact hmake.keeps
  | truncate htruncate =>
      obtain ⟨directory, name, -, hchanges⟩ := Tree.changesAt_of_truncate htruncate
      exact hchanges.keeps
  | append happend =>
      obtain ⟨directory, name, -, hchanges⟩ := Tree.changesAt_of_append happend
      exact hchanges.keeps

theorem keeps_of_prepares (hsteps : ReflTransGen store.Prepares tree next) :
    Tree.Keeps tree next := by
  induction hsteps with
  | refl => exact .refl tree
  | tail _ hstep ih => exact ih.trans hstep.keeps

theorem prepares_of_makesParent (hparents : ReflTransGen store.MakesParent tree next) :
    ReflTransGen store.Prepares tree next :=
  ReflTransGen.mono (fun _ _ hmake => Prepares.makeParent hmake) _ _ hparents

/-- No step before the last one changes what is read. -/
theorem Prepares.read (hstep : store.Prepares tree next)
    (hread : tree.read store.path = .ok content) : next.read store.path = .ok content := by
  cases hstep with
  | makeParent hmake => exact hmake.read hread
  | truncate htruncate =>
      obtain ⟨directory, name, hresolve, hchanges⟩ := Tree.changesAt_of_truncate htruncate
      exact read_of_changesAt_temporary store hresolve hchanges hread
  | append happend =>
      obtain ⟨directory, name, hresolve, hchanges⟩ := Tree.changesAt_of_append happend
      exact read_of_changesAt_temporary store hresolve hchanges hread

theorem writtenAt_of_prepares {settings : Settings} (hwritten : settings.WrittenAt store.path tree)
    (hsteps : ReflTransGen store.Prepares tree next) : settings.WrittenAt store.path next := by
  obtain ⟨content, hread, hsettings⟩ := hwritten
  refine ⟨content, ?_, hsettings⟩
  induction hsteps with
  | refl => exact hread
  | tail _ hstep ih => exact hstep.read ih

/-! ## Steps along a path without dots -/

section Plain

variable {above : List String} {name : String}

/-- The temporary file of a path without dots has its place whatever is in the tree. -/
theorem temporary_location (store : Store) (hplain : Files.IsPlain store.path)
    (hnames : Tree.names store.path = above ++ [name]) {directory : Location}
    {temporary : String} {marked : Bool}
    (hresolve : tree.resolve store.temporaryPath = .ok (.name directory temporary marked)) :
    directory ++ [temporary] = tree.start store.path ++ above ++ [store.temporaryName name] := by
  obtain ⟨habove, hname⟩ := hplain.of_names hnames
  obtain ⟨rfl, -, hwalk⟩ := names_of_resolve_temporaryPath hnames hname hresolve
  obtain ⟨hdirectory, -⟩ := (Tree.walk_eq_ok_iff habove).mp hwalk
  rw [hdirectory]

/-- A file with another name than the settings lies beside the way to them. -/
theorem beside_way (store : Store) (hnames : Tree.names store.path = above ++ [name])
    {other : String} (hother : other ≠ name) {before : List String}
    (hbefore : before <+: Tree.names store.path) :
    tree.start store.path ++ before ≠ tree.start store.path ++ above ++ [other] := by
  intro hsame
  rw [List.append_assoc] at hsame
  have hsame := List.append_cancel_left hsame
  rw [hnames] at hbefore
  rcases List.prefix_concat_iff.mp hbefore with rfl | habove
  · have hlast := List.singleton_injective (List.append_cancel_left hsame)
    exact hother hlast.symm
  · -- It has one name more than any directory above the settings.
    have hlength := habove.length_le
    rw [hsame, List.length_append, List.length_singleton] at hlength
    omega

/-- A directory that is made does not take the place of the settings. -/
theorem MakesParent.exists_location (hmake : store.MakesParent tree next)
    (hplain : Files.IsPlain store.path) :
    ∃ location, location ≠ tree.location store.path ∧
      next.entry? location = some .directory ∧ ChangesAt location tree next := by
  obtain ⟨parent, hparent, hmake⟩ := hmake
  obtain ⟨directory, name, marked, hresolve, hentry, rfl⟩ := Tree.makeDirectory_eq_ok_iff.mp hmake
  have hnonempty := Tree.location_ne_nil directory name
  refine ⟨directory ++ [name], ?_, by rw [Tree.lookup_put hnonempty, if_pos rfl],
    Tree.changesAt_put hnonempty (.inl rfl)⟩
  rcases names_of_mem_parents hparent with rfl | ⟨habsolute, hbefore⟩
  · exact absurd rfl (Tree.resolve_eq_name_iff.mp hresolve).1.2.1
  · have hinside := hbefore.trans (List.dropLast_prefix _)
    have hplainParent : Files.IsPlain parent :=
      fun other hother => hplain other (hinside.subset hother)
    have hstart : tree.start parent = tree.start store.path := by
      rw [Tree.start, Tree.start, habsolute]
    rw [Tree.location_of_resolve hplainParent hresolve, Tree.location, Tree.location, hstart]
    intro hsame
    -- The names of the parent would be all names of the path, but the last one is missing.
    have hnames := List.append_cancel_left hsame
    have hlength := hbefore.length_le
    obtain ⟨-, above, hparentNames, -⟩ := Tree.resolve_eq_name_iff.mp hresolve
    rw [List.length_dropLast, ← hnames, hparentNames, List.length_append,
      List.length_singleton] at hlength
    omega

end Plain

/-! ## How far a replacement gets -/

/-- What replacing the settings can lead to, by the last step that succeeds. -/
inductive Replacement (store : Store) (content : Bytes) (tree : Tree) :
    Tree → Result Unit → Prop
  | prepared {reached : Tree} {failure : Failure}
      (hparents : ReflTransGen store.MakesParent tree reached) :
      Replacement store content tree reached (.error failure)
  | emptied {prepared reached : Tree} {failure : Failure}
      (hparents : ReflTransGen store.MakesParent tree prepared)
      (htruncate : prepared.truncate store.temporaryPath = .ok reached) :
      Replacement store content tree reached (.error failure)
  | written {prepared emptied reached : Tree} {failure : Failure}
      (hparents : ReflTransGen store.MakesParent tree prepared)
      (htruncate : prepared.truncate store.temporaryPath = .ok emptied)
      (happend : emptied.append store.temporaryPath content = .ok reached) :
      Replacement store content tree reached (.error failure)
  | moved {prepared emptied written reached : Tree}
      (hparents : ReflTransGen store.MakesParent tree prepared)
      (htruncate : prepared.truncate store.temporaryPath = .ok emptied)
      (happend : emptied.append store.temporaryPath content = .ok written)
      (hrename : written.rename store.temporaryPath store.path = .ok reached) :
      Replacement store content tree reached (.ok ())

theorem reaches_makeDirectories {paths : List String}
    (hpaths : ∀ path ∈ paths, path ∈ store.parents) (tree : Tree) :
    ReflTransGen store.MakesParent tree (tree.makeDirectories paths).1 := by
  induction paths generalizing tree with
  | nil => exact .refl
  | cons path above ih =>
      have hpath := hpaths path List.mem_cons_self
      have habove := ih (fun other hother => hpaths other (List.mem_cons_of_mem _ hother)) tree
      rw [Tree.makeDirectories]
      split
      · exact .refl
      · split
        · rename_i made hmake
          exact .single ⟨path, hpath, hmake⟩
        · -- The directories above are made first, and then this one is tried again.
          split
          · rename_i reached fault hreached
            rwa [hreached] at habove
          · rename_i reached hreached
            rw [hreached] at habove
            split
            · rename_i made hmake
              exact habove.tail ⟨path, hpath, hmake⟩
            · exact habove
        · exact .refl

theorem reaches_makeParents (store : Store) (tree : Tree) :
    ReflTransGen store.MakesParent tree (store.makeParents tree).1 := by
  unfold makeParents
  cases hparent : Files.parent? store.path with
  | none => exact .refl
  | some directory =>
      refine reaches_makeDirectories ?_ tree
      simp [parents, hparent]

theorem keeps_makeParents (store : Store) (tree : Tree) :
    Tree.Keeps tree (store.makeParents tree).1 :=
  keeps_of_prepares (prepares_of_makesParent (store.reaches_makeParents tree))

/-- Beside the working directory nothing has to be made for a bare name. -/
theorem makeParents_of_bare (hparent : Files.parent? store.path = some "") (tree : Tree) :
    store.makeParents tree = (tree, .ok ()) := by
  simp [makeParents, hparent, Files.ancestors, Files.ancestors.go, Tree.makeDirectories,
    Except.mapError]

theorem replacement_replace (store : Store) (content : Bytes) (tree : Tree) :
    Replacement store content tree (store.replace content tree).1
      (store.replace content tree).2 := by
  have hparents := store.reaches_makeParents tree
  unfold replace
  split
  · rename_i prepared failure hmade
    rw [hmade] at hparents
    exact .prepared hparents
  · rename_i prepared hmade
    rw [hmade] at hparents
    unfold writeTemporary
    cases htruncate : prepared.truncate store.temporaryPath with
    | error fault => exact .prepared hparents
    | ok emptied =>
        cases happend : emptied.append store.temporaryPath content with
        | error fault =>
            simp only [happend]
            exact .emptied hparents htruncate
        | ok written =>
            simp only [happend]
            unfold moveIntoPlace
            cases hrename : written.rename store.temporaryPath store.path with
            | error fault => exact .written hparents htruncate happend
            | ok reached => exact .moved hparents htruncate happend hrename

/-- If the path leads to a file or to nothing, and the temporary file can be made,
then the content comes to where the path leads, and the temporary file is gone. -/
theorem replace_of_truncate {prepared emptied : Tree} {directory : Location} {name : String}
    (hparents : store.makeParents tree = (prepared, .ok ()))
    (hresolve : prepared.resolve store.path = .ok (.name directory name false))
    (hentry : prepared.entry? (directory ++ [name]) ≠ some .directory)
    (htruncate : prepared.truncate store.temporaryPath = .ok emptied) (content : Bytes) :
    ∃ reached, store.replace content tree = (reached, .ok ()) ∧
      reached.workingDirectory = prepared.workingDirectory ∧
      ∀ location, reached.entry? location =
        if location = directory ++ [name] then some (.file content)
        else if location = directory ++ [store.temporaryName name] then none
        else prepared.entry? location := by
  obtain ⟨other, temporary, htemporary, hfree, rfl⟩ := Tree.truncate_eq_ok_iff.mp htruncate
  obtain ⟨rfl, rfl⟩ := temporary_beside hresolve htemporary
  have hnonempty := Tree.location_ne_nil other
  have hbeside : other ++ [name] ≠ other ++ [store.temporaryName name] := by
    simpa using (temporaryName_ne store name).symm
  set emptied := prepared.put (other ++ [store.temporaryName name]) (.file []) with hemptied
  set written := emptied.put (other ++ [store.temporaryName name]) (.file content) with hwritten
  have hfile : emptied.entry? (other ++ [store.temporaryName name]) = some (.file []) := by
    rw [hemptied, Tree.lookup_put (hnonempty _), if_pos rfl]
  have hcontent : written.entry? (other ++ [store.temporaryName name]) = some (.file content) := by
    rw [hwritten, Tree.lookup_put (hnonempty _), if_pos rfl]
  have hempty : Tree.Keeps prepared emptied := Tree.keeps_put (hnonempty _) (.inr hfree)
  have hwrite : Tree.Keeps emptied written := Tree.keeps_put (hnonempty _) (.inr (by simp [hfile]))
  have happend : emptied.append store.temporaryPath content = .ok written :=
    Tree.append_eq_ok_iff.mpr ⟨other, _, [], hempty.resolve htemporary, hfile, rfl⟩
  have hplace : written.entry? (other ++ [name]) ≠ some .directory := by
    rwa [hwritten, Tree.lookup_put (hnonempty _), if_neg hbeside, hemptied,
      Tree.lookup_put (hnonempty _), if_neg hbeside]
  have hrename := Tree.rename_eq_ok_iff.mpr ⟨other, _, false, content, other, name,
    hwrite.resolve (hempty.resolve htemporary), hwrite.resolve (hempty.resolve hresolve), hcontent,
    hplace, rfl⟩
  refine ⟨(written.remove (other ++ [store.temporaryName name])).put (other ++ [name])
    (.file content), ?_, rfl, fun location => ?_⟩
  · unfold replace writeTemporary moveIntoPlace
    simp only [hparents, htruncate, happend, hrename]
  · rw [Tree.lookup_put (hnonempty _), Tree.lookup_remove (hnonempty _), hwritten,
      Tree.lookup_put (hnonempty _), hemptied, Tree.lookup_put (hnonempty _)]
    split_ifs <;> rfl

/-- Which failure ends a replacement does not matter to the files. -/
theorem Replacement.relabel {reached : Tree} {failure : Failure}
    (hreplacement : Replacement store content tree reached (.error failure)) (other : Failure) :
    Replacement store content tree reached (.error other) := by
  cases hreplacement with
  | prepared hparents => exact .prepared hparents
  | emptied hparents htruncate => exact .emptied hparents htruncate
  | written hparents htruncate happend => exact .written hparents htruncate happend

/-- Saving is replacing the content by the document. -/
theorem replacement_save (store : Store) (settings : Settings) (tree : Tree) :
    Replacement store (contentOf settings) tree (store.save settings tree).value.1
      (store.save settings tree).value.2 := by
  have hreplacement := replacement_replace store (contentOf settings) tree
  unfold save
  split
  · rename_i reached failure hreplace
    rw [hreplace] at hreplacement
    exact hreplacement.relabel _
  · rename_i reached hreplace
    rw [hreplace] at hreplacement
    exact hreplacement

/-- A replacement that fails has only prepared. -/
theorem Replacement.prepares {reached : Tree} {failure : Failure}
    (hreplacement : Replacement store content tree reached (.error failure)) :
    ReflTransGen store.Prepares tree reached := by
  cases hreplacement with
  | prepared hparents => exact prepares_of_makesParent hparents
  | emptied hparents htruncate =>
      exact (prepares_of_makesParent hparents).tail (.truncate htruncate)
  | written hparents htruncate happend =>
      exact ((prepares_of_makesParent hparents).tail (.truncate htruncate)).tail (.append happend)

/-- However a replacement ends, every directory is left. -/
theorem Replacement.keeps {reached : Tree} {result : Result Unit}
    (hreplacement : Replacement store content tree reached result) : Tree.Keeps tree reached := by
  cases result with
  | error failure => exact keeps_of_prepares hreplacement.prepares
  | ok done =>
      cases hreplacement with
      | moved hparents htruncate happend hrename =>
          have hsteps :=
            ((prepares_of_makesParent hparents).tail (.truncate htruncate)).tail (.append happend)
          exact (keeps_of_prepares hsteps).trans (Tree.keeps_of_rename hrename)

/-- A replacement that succeeds leaves its content where the settings are read. -/
theorem Replacement.read {reached : Tree}
    (hreplacement : Replacement store content tree reached (.ok ())) :
    reached.read store.path = .ok content := by
  cases hreplacement with
  | moved hparents htruncate happend hrename =>
      have hwritten := Tree.read_of_append (Tree.read_of_truncate htruncate) happend
      obtain ⟨-, -, -, -, -, -, -, -, -, -, hmoved⟩ := Tree.changesAt_of_rename hrename
      exact hmoved _ hwritten

/-! ## Loading what was saved -/

theorem load_of_written {settings : Settings} (hwritten : settings.WrittenAt store.path tree) :
    store.load tree = .ok settings := by
  obtain ⟨content, hread, hsettings⟩ := hwritten
  simp [load, hread, hsettings]

theorem load_of_missing (hread : tree.read store.path = .error .notFound) :
    store.load tree = .ok {} := by
  simp [load, hread]

theorem load_contentOf {settings : Settings}
    (hread : tree.read store.path = .ok (contentOf settings)) : store.load tree = .ok settings :=
  load_of_written (Settings.writtenAt_of_contentOf hread)

theorem save_of_replace {settings : Settings} {saved : Tree}
    (hreplace : store.replace (contentOf settings) tree = (saved, .ok ())) :
    (store.save settings tree).value = (saved, .ok ()) := by
  simp [save, hreplace]

theorem keeps_save (store : Store) (settings : Settings) (tree : Tree) :
    Tree.Keeps tree (store.save settings tree).value.1 :=
  (store.replacement_save settings tree).keeps

theorem prepares_of_save {settings : Settings} {failure : Failure}
    (hsave : (store.save settings tree).value.2 = .error failure) :
    ReflTransGen store.Prepares tree (store.save settings tree).value.1 := by
  have hreplacement := store.replacement_save settings tree
  rw [hsave] at hreplacement
  exact hreplacement.prepares

theorem writtenAt_of_save {settings : Settings}
    (hsave : (store.save settings tree).value.2 = .ok ()) :
    settings.WrittenAt store.path (store.save settings tree).value.1 := by
  have hreplacement := store.replacement_save settings tree
  rw [hsave] at hreplacement
  exact Settings.writtenAt_of_contentOf hreplacement.read

/-- An update of settings that can be loaded is a save of what becomes of them. -/
theorem value_update {before : Settings} (hload : store.load tree = .ok before)
    (change : Settings → Settings) :
    (store.update change tree).value = ((store.save (change before) tree).value.1,
      (store.save (change before) tree).value.2.map fun _ => change before) := by
  unfold update
  rw [hload]
  rfl

theorem steps_update {before : Settings} (hload : store.load tree = .ok before)
    (change : Settings → Settings) :
    (store.update change tree).steps = (store.save (change before) tree).steps := by
  unfold update
  rw [hload, Traced.steps_bind, Traced.steps_pure, List.append_nil]

theorem update_of_save {change : Settings → Settings} {before : Settings} {saved : Tree}
    (hload : store.load tree = .ok before)
    (hsave : (store.save (change before) tree).value = (saved, .ok ())) :
    (store.update change tree).value = (saved, .ok (change before)) := by
  rw [value_update hload, hsave]
  rfl

theorem update_eq_ok {change : Settings → Settings} {saved : Tree} {result : Settings}
    (hupdate : (store.update change tree).value = (saved, .ok result)) :
    ∃ before, store.load tree = .ok before ∧ result = change before ∧
      (store.save (change before) tree).value = (saved, .ok ()) := by
  cases hload : store.load tree with
  | error failure =>
      unfold update at hupdate
      rw [hload] at hupdate
      cases hupdate
  | ok before =>
      rw [value_update hload] at hupdate
      obtain ⟨rfl, hresult⟩ := Prod.mk.inj hupdate
      obtain ⟨⟨⟩, hsaved, rfl⟩ := map_eq_ok_iff.mp hresult
      exact ⟨before, rfl, rfl, Prod.ext rfl hsaved⟩

end Store

/-- Settings that were saved are loaded again as they are, whatever they hold and
wherever they are kept, and by every process.  A change that succeeds returns what
it makes of the settings that were loaded before, and that is loaded afterwards. -/
theorem saved_settings_load_back (store : Store) (tree : Tree) :
    (∀ settings saved, (store.save settings tree).value = (saved, .ok ()) →
      ∀ process, Store.load { store with process } saved = .ok settings) ∧
    (∀ change saved result, (store.update change tree).value = (saved, .ok result) →
      ∃ before, store.load tree = .ok before ∧ result = change before ∧
        ∀ process, Store.load { store with process } saved = .ok result) := by
  have hsave : ∀ settings saved, (store.save settings tree).value = (saved, .ok ()) →
      ∀ process, Store.load { store with process } saved = .ok settings := by
    intro settings saved hsaved process
    have hwritten := Store.writtenAt_of_save (congrArg Prod.snd hsaved)
    rw [hsaved] at hwritten
    exact Store.load_of_written hwritten
  refine ⟨hsave, fun change saved result hupdate => ?_⟩
  obtain ⟨before, hload, rfl, hsaved⟩ := Store.update_eq_ok hupdate
  exact ⟨before, hload, rfl, hsave _ _ hsaved⟩

/-- Where no directories stand in the way, settings can be saved. -/
theorem Store.exists_save_of_bare (tree : Tree)
    (hplace : tree.entry? (tree.workingDirectory ++ ["config.json"]) ≠ some .directory)
    (htemporary : tree.entry? (tree.workingDirectory ++ ["config.tmp.7"]) ≠ some .directory)
    (settings : Settings) :
    ∃ saved, (Store.save ⟨"config.json", 7⟩ settings tree).value = (saved, .ok ()) := by
  have hpath : tree.resolve "config.json" = .ok (.name tree.workingDirectory "config.json" false) :=
    Tree.resolve_bare tree (by decide) (by decide) (by decide) (by decide)
  have hbeside : tree.resolve (Store.temporaryPath ⟨"config.json", 7⟩) =
      .ok (.name tree.workingDirectory "config.tmp.7" false) :=
    Tree.resolve_bare tree (by decide) (by decide) (by decide) (by decide)
  have hparent : Files.parent? "config.json" = some "" := by decide
  have htruncate := Tree.truncate_eq_ok_iff.mpr ⟨_, _, hbeside, htemporary, rfl⟩
  obtain ⟨saved, hreplace, -⟩ := Store.replace_of_truncate (Store.makeParents_of_bare hparent tree)
    hpath hplace htruncate (Store.contentOf settings)
  exact ⟨saved, Store.save_of_replace hreplace⟩

/-- Where no file is, settings can be saved. -/
theorem Store.save_fresh (settings : Settings) :
    let store : Store := ⟨"config.json", 7⟩
    store.load {} = .ok {} ∧ ∃ saved, (store.save settings {}).value = (saved, .ok ()) := by
  intro store
  have hpath : Tree.resolve {} store.path = .ok (.name [] "config.json" false) :=
    Tree.resolve_bare {} (by decide) (by decide) (by decide) (by decide)
  exact ⟨Store.load_of_missing (Tree.read_of_free hpath rfl),
    Store.exists_save_of_bare {} (by decide) (by decide) settings⟩

/-- A token that is empty but present, and a project with a quote, a line break and a
control character, come back. -/
theorem empty_token_loads_back :
    let store : Store := ⟨"config.json", 7⟩
    let settings : Settings := { bearerToken := some "", project := some "a \"b\"\n\x01" }
    (∃ saved, (store.save settings {}).value = (saved, .ok ()) ∧ store.load saved = .ok settings) ∧
      ∃ saved, (store.update (fun _ => settings) {}).value = (saved, .ok settings) ∧
        store.load saved = .ok settings := by
  intro store settings
  obtain ⟨hload, saved, hsave⟩ := Store.save_fresh settings
  have hupdate : (store.update (fun _ => settings) {}).value = (saved, .ok settings) :=
    Store.update_of_save hload hsave
  obtain ⟨hsaved, hupdated⟩ := saved_settings_load_back store {}
  obtain ⟨before, -, -, hresult⟩ := hupdated _ _ _ hupdate
  exact ⟨⟨saved, hsave, hsaved _ _ hsave store.process⟩, ⟨saved, hupdate, hresult store.process⟩⟩

end FreightPromotion
