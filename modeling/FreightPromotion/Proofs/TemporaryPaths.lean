import FreightPromotion.Proofs.Replacement

/-!
# Where the temporary file lies

What stands above the name that a path ends in and the name itself can be told from the path
(`EndsIn.unique`), and so can the directory that the path lies in (`EndsIn.parent?_congr`).

The path of the temporary file ends in a name of its own, after the same text as the path of the
settings (`endsIn_temporaryPath`).  So it lies in the same directory, it is another path than that
of the settings, and it is another one for every process.

All of this fails for a path that ends with a name of two dots and an extension.  Then the temporary
path ends in the two dots, for every process (`temporary_path_beside_unless_dotted`).
-/

namespace FreightPromotion

namespace Files

/-! ## Paths that end in a name -/

/-- What trimming drops adds nothing to the path. -/
theorem exists_idle_trimReversed (reversed : List Char) :
    ∃ rest, reversed = rest.reverse ++ trimReversed reversed ∧ IsIdle rest := by
  have hslash : ∀ {rest : List Char}, IsIdle rest → IsIdle (rest ++ ['/']) := by
    intro rest hrest
    induction hrest with
    | nil => exact .slash .nil
    | slash _ ih => exact .slash ih
    | dot _ ih => exact .dot ih
  have hdot : ∀ {rest : List Char}, IsIdle rest → IsIdle (rest ++ ['/', '.']) := by
    intro rest hrest
    induction hrest with
    | nil => exact .dot .nil
    | slash _ ih => exact .slash ih
    | dot _ ih => exact .dot ih
  induction reversed using trimReversed.induct with
  | case1 path ih =>
      obtain ⟨rest, hpath, hrest⟩ := ih
      refine ⟨rest ++ ['/'], ?_, hslash hrest⟩
      rw [trimReversed]
      simpa using hpath
  | case2 path ih =>
      obtain ⟨rest, hpath, hrest⟩ := ih
      refine ⟨rest ++ ['/', '.'], ?_, hdot hrest⟩
      rw [trimReversed]
      simpa using hpath
  | case3 path hslash hdot => exact ⟨[], by rw [trimReversed_eq_self hslash hdot]; rfl, .nil⟩

section EndsIn

variable {path other above otherAbove name otherName : String}

/-- A path ends in one name only. -/
theorem EndsIn.unique (hends : EndsIn path above name) (hother : EndsIn path otherAbove otherName) :
    above = otherAbove ∧ name = otherName := by
  constructor
  · exact String.toList_inj.mp (hends.beforeLastName_eq.symm.trans hother.beforeLastName_eq)
  · exact String.toList_inj.mp (hends.lastName_eq.symm.trans hother.lastName_eq)

/-- Paths that end in names after the same text lie in the same directory. -/
theorem EndsIn.parent?_congr (hends : EndsIn path above name)
    (hother : EndsIn other above otherName) : parent? path = parent? other := by
  unfold parent?
  split
  · rename_i hnothing
    exact absurd hnothing hends.trimPath_ne_nil
  · split
    · rename_i hnothing
      exact absurd hnothing hother.trimPath_ne_nil
    · rw [hends.beforeLastName_eq, hother.beforeLastName_eq]

/-- A path ends in a name exactly if its last name is that of a file. -/
theorem exists_endsIn_iff :
    (∃ above name, EndsIn path above name) ↔
      isProperName (lastName (trimPath path.toList)) = true := by
  constructor
  · rintro ⟨above, name, hends⟩
    rw [hends.lastName_eq]
    exact isProperName_iff.mpr hends.proper
  · intro hproper
    obtain ⟨rest, hpath, hidle⟩ := exists_idle_trimReversed path.toList.reverse
    have hspelling : path.toList = trimPath path.toList ++ rest := by
      rw [trimPath]
      simpa using congrArg List.reverse hpath
    refine ⟨String.ofList (beforeLastName (trimPath path.toList)),
      String.ofList (lastName (trimPath path.toList)), ⟨rest, ?_, hidle⟩, ?_, ?_, ?_⟩
    · simpa [beforeLastName_append_lastName] using hspelling
    · simpa using isAbove_beforeLastName (trimPath path.toList)
    · simpa using slash_notMem_lastName (trimPath path.toList)
    · exact isProperName_iff.mp (by simpa using hproper)

end EndsIn

/-! ## Paths beside each other -/

section Beside

variable {tree : Tree} {path other above name otherName : String} {rest before : List Char}

theorem components_append_idle (hidle : IsIdle rest) (before : List Char) :
    components (before ++ rest) = components before ++ components rest := by
  cases hidle with
  | nil => simp
  | slash hrest => rw [components_append_slash, components_slash]
  | dot hrest => rw [components_append_slash, components_slash]

/-- What adds nothing has no names but dots. -/
theorem eq_dot_of_mem_components (hidle : IsIdle rest) : ∀ name ∈ components rest, name = ['.'] := by
  have hdot : components ['.'] = [['.']] := by decide
  induction hidle with
  | nil => simp
  | slash _ ih => rwa [components_slash]
  | @dot rest hrest ih =>
      rw [components_slash, show '.' :: rest = ['.'] ++ rest from rfl, components_append_idle hrest,
        hdot]
      simpa using ih

theorem EndsIn.isAbsolute_eq (hends : EndsIn path above name) :
    isAbsolute path.toList = isAbsolute above.toList := by
  obtain ⟨rest, hpath, -⟩ := hends.spelling
  rw [hpath, ← isAbsolute_initial (List.prefix_append _ rest) (by simp [hends.nonempty]),
    isAbsolute_append hends.slash]

/-- A path that leads to a name leads to the one it ends in, by way of what stands above it. -/
theorem EndsIn.resolve (hends : EndsIn path above name) {directory : Location} {entry : String}
    {marked : Bool} (hresolve : tree.resolve path = .ok (.name directory entry marked)) :
    entry = name ∧ tree.walk (tree.start above) (Tree.names above) = .ok directory := by
  obtain ⟨-, found, hnames, hwalk, ⟨hdot, -⟩, -⟩ := Tree.resolve_eq_name_iff.mp hresolve
  obtain ⟨rest, hpath, hidle⟩ := hends.spelling
  have hspelling : Tree.names path =
      Tree.names above ++ [name] ++ (components rest).map String.ofList := by
    rw [names_eq, names_eq, hpath, components_append_idle hidle, components_append hends.above,
      components_name hends.slash hends.nonempty]
    simp
  -- A dot after the name would be the last name of the path.
  have hrest : components rest = [] := by
    by_contra hmore
    have hlast : entry = String.ofList ((components rest).getLast hmore) := by
      have hends := congrArg List.getLast? (hnames.symm.trans hspelling)
      rw [List.getLast?_concat, List.getLast?_append_of_ne_nil _ (by simpa using hmore),
        List.getLast?_map, List.getLast?_eq_some_getLast hmore] at hends
      exact Option.some.inj hends
    rw [eq_dot_of_mem_components hidle _ (List.getLast_mem hmore)] at hlast
    exact hdot hlast
  rw [hrest, List.map_nil, List.append_nil] at hspelling
  obtain ⟨rfl, hentry⟩ := List.append_inj' (hnames.symm.trans hspelling) rfl
  rw [Tree.start, hends.isAbsolute_eq] at hwalk
  exact ⟨by simpa using hentry, hwalk⟩

/-- The other path ends in the name of a file too, the paths are different and lie in the same
directory, and in no tree do they lead to the same place: where both lead to a name, the names are
different ones in the same directory. -/
structure Beside (path other : String) : Prop where
  named : ∃ above name, EndsIn other above name
  parent? : parent? other = parent? path
  distinct : other ≠ path
  place : ∀ {tree : Tree} {directory otherDirectory : Location} {name otherName : String}
    {marked otherMarked : Bool},
    tree.resolve path = .ok (.name directory name marked) →
      tree.resolve other = .ok (.name otherDirectory otherName otherMarked) →
        otherDirectory = directory ∧ otherName ≠ name

/-- Paths that end in different names after the same text lie beside each other. -/
theorem EndsIn.beside (hends : EndsIn path above name) (hother : EndsIn other above otherName)
    (hname : otherName ≠ name) : Beside path other where
  named := ⟨above, otherName, hother⟩
  parent? := hother.parent?_congr hends
  distinct := by
    rintro rfl
    exact hname (hother.unique hends).2
  place := by
    intro tree directory otherDirectory entry otherEntry marked otherMarked hresolve hotherResolve
    obtain ⟨rfl, hwalk⟩ := hends.resolve hresolve
    obtain ⟨rfl, hotherWalk⟩ := hother.resolve hotherResolve
    exact ⟨Except.ok.inj (hotherWalk.symm.trans hwalk), hname⟩

end Beside

end Files

/-! ## The path of the temporary file -/

namespace Store

open FreightPromotion.Files (EndsIn IsDotted)

variable {store : Store} {above name : String}

theorem endsIn_temporaryPath (hends : EndsIn store.path above name)
    (hsound : ¬ IsDotted store.path above name) :
    EndsIn store.temporaryPath above (store.temporaryName name) := by
  refine ⟨⟨[], ?_, .nil⟩, hends.above, slash_notMem_temporaryName hends.slash, ?_⟩
  · rw [temporaryPath_of_not_dotted hends hsound, String.toList_append, List.append_nil]
  · refine ⟨fun hempty => ?_, store.temporaryName_proper name⟩
    simp [temporaryName, Files.temporaryName] at hempty

/-- Two dots are not the name of a file. -/
theorem not_endsIn_temporaryPath (hends : EndsIn store.path above name)
    (hdotted : IsDotted store.path above name) :
    ¬ ∃ front last, EndsIn store.temporaryPath front last := by
  have hpath : store.temporaryPath.toList = above.toList ++ ['.', '.'] := by
    rw [temporaryPath_of_dotted hends hdotted, String.toList_append]
    rfl
  rw [Files.exists_endsIn_iff, hpath, Files.lastName_trimPath_dots hends.above]
  decide

end Store

/-- The path of the temporary file, for every path that ends in the name of a file and for every
process.

It ends in a name after the same text as the path of the settings, it lies beside that path, and
beside the temporary paths of all other processes, exactly unless the path ends with a name of two
dots and an extension.  Then it ends in the two dots, whatever the process is. -/
theorem temporary_path_beside_unless_dotted {path above name : String}
    (hends : Files.EndsIn path above name) (process : Nat) :
    let temporary (process : Nat) : String := Store.temporaryPath ⟨path, process⟩
    let spoiled := path = above ++ name ∧
      ∃ extension, name = ".." ++ extension ∧ '.' ∉ extension.toList
    ((∃ temporaryName, Files.EndsIn (temporary process) above temporaryName) ↔ ¬ spoiled) ∧
      (Files.Beside path (temporary process) ↔ ¬ spoiled) ∧
      (∀ other, other ≠ process →
        (Files.Beside (temporary process) (temporary other) ↔ ¬ spoiled)) ∧
      (spoiled → temporary process = above ++ "..") := by
  intro temporary spoiled
  by_cases hspoiled : spoiled
  · have hnameless : ∀ process, ¬ ∃ front last, Files.EndsIn (temporary process) front last :=
      fun process => @Store.not_endsIn_temporaryPath ⟨path, process⟩ _ _ hends hspoiled
    refine ⟨iff_of_false ?_ (not_not.mpr hspoiled), iff_of_false ?_ (not_not.mpr hspoiled),
      fun other _ => iff_of_false ?_ (not_not.mpr hspoiled),
      fun _ => @Store.temporaryPath_of_dotted ⟨path, process⟩ _ _ hends hspoiled⟩
    · exact fun ⟨temporaryName, htemporary⟩ => hnameless process ⟨above, temporaryName, htemporary⟩
    · exact fun hbeside => hnameless process hbeside.named
    · exact fun hbeside => hnameless other hbeside.named
  · have htemporary : ∀ process, Files.EndsIn (temporary process) above
        (Store.temporaryName ⟨path, process⟩ name) :=
      fun process => @Store.endsIn_temporaryPath ⟨path, process⟩ _ _ hends hspoiled
    refine ⟨iff_of_true ⟨_, htemporary process⟩ hspoiled, iff_of_true ?_ hspoiled,
      fun other hother => iff_of_true ?_ hspoiled, fun h => absurd h hspoiled⟩
    · exact hends.beside (htemporary process) (Store.temporaryName_ne _ name)
    · refine (htemporary process).beside (htemporary other) fun hsame => hother ?_
      exact Store.process_eq_of_temporaryName hsame

/-- The name of a hidden file that looks like that of a temporary file already, with slashes and a
dot after it. -/
theorem temporary_path_of_temporary_name :
    let path := "a/.b.tmp.7//."
    let temporary (process : Nat) : String := Store.temporaryPath ⟨path, process⟩
    temporary 7 = "a/.b.tmp.tmp.7" ∧ Files.Beside path (temporary 7) ∧
      Files.Beside (temporary 7) (temporary 77) := by
  intro path temporary
  have hends : Files.EndsIn path "a/" ".b.tmp.7" :=
    ⟨⟨['/', '/', '.'], by decide, .slash (.dot .nil)⟩, .inr ⟨['a'], rfl⟩, by decide, by decide⟩
  obtain ⟨-, hsettings, hothers, -⟩ := temporary_path_beside_unless_dotted hends 7
  have hsound : path ≠ "a/" ++ ".b.tmp.7" := by decide
  refine ⟨by decide, hsettings.mpr fun hspoiled => hsound hspoiled.1, ?_⟩
  exact (hothers 77 (by decide)).mpr fun hspoiled => hsound hspoiled.1

/-- Two dots and an extension are the name of a file, but two processes use the directory above as
their temporary file there. -/
theorem temporary_path_of_dotted_name :
    let path := "dir/..json"
    let temporary (process : Nat) : String := Store.temporaryPath ⟨path, process⟩
    Files.EndsIn path "dir/" "..json" ∧ temporary 7 = "dir/.." ∧ temporary 77 = "dir/.." ∧
      ¬ Files.Beside path (temporary 7) ∧ ¬ Files.Beside (temporary 7) (temporary 77) := by
  intro path temporary
  have hends : Files.EndsIn path "dir/" "..json" :=
    ⟨⟨[], by decide, .nil⟩, .inr ⟨['d', 'i', 'r'], rfl⟩, by decide, by decide⟩
  have hdotted : Files.IsDotted path "dir/" "..json" := ⟨rfl, "json", rfl, by decide⟩
  have hnameless : ∀ process, ¬ ∃ front last, Files.EndsIn (temporary process) front last :=
    fun process => @Store.not_endsIn_temporaryPath ⟨path, process⟩ _ _ hends hdotted
  exact ⟨hends, by decide, by decide, fun hbeside => hnameless 7 hbeside.named,
    fun hbeside => hnameless 77 hbeside.named⟩

end FreightPromotion
