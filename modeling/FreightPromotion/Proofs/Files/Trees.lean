import FreightPromotion.Proofs.Files.Extensions

/-!
# What the operations change

Every operation puts one entry into the tree, and a move takes another one out.  None
of them replaces a directory, so a path that leads somewhere leads there ever after
(`Keeps.resolve`).  An operation that succeeds is described by where its path leads
and what was there.
-/

namespace FreightPromotion.Files.Tree

open FreightPromotion.Text (Bytes)

variable {tree next : Tree} {location other directory : Location} {entry : Entry}
  {path name : String} {marked : Bool}

/-! ## Entries -/

theorem lookup_filter_ne (entries : List (Location × Entry)) (location other : Location) :
    (entries.filter fun present => present.1 ≠ location).lookup other =
      if other = location then none else entries.lookup other := by
  induction entries with
  | nil => simp
  | cons present entries ih =>
      obtain ⟨found, entry⟩ := present
      rw [List.lookup_cons]
      by_cases hfound : found = location
      · rw [List.filter_cons_of_neg (by simpa using hfound), ih]
        split_ifs with hother
        · rfl
        · have hne : other ≠ found := fun hsame => hother (hsame.trans hfound)
          rw [beq_false_of_ne hne]
      · rw [List.filter_cons_of_pos (by simpa using hfound), List.lookup_cons, ih]
        by_cases hsame : other = found
        · simp [hsame, hfound]
        · rw [beq_false_of_ne hsame]

theorem lookup_put (hlocation : location ≠ []) :
    entry? (tree.put location entry) other =
      if other = location then some entry else tree.entry? other := by
  unfold entry? put
  rw [List.lookup_cons]
  by_cases hroot : other = []
  · rw [if_pos hroot, if_pos hroot, if_neg (hroot ▸ hlocation.symm)]
  · rw [if_neg hroot, if_neg hroot]
    by_cases hsame : other = location
    · simp [hsame]
    · rw [beq_false_of_ne hsame, if_neg hsame, lookup_filter_ne, if_neg hsame]

theorem lookup_remove (hlocation : location ≠ []) :
    entry? (tree.remove location) other =
      if other = location then none else tree.entry? other := by
  unfold entry? remove
  rw [lookup_filter_ne]
  by_cases hroot : other = []
  · rw [if_pos hroot, if_pos hroot, if_neg (hroot ▸ hlocation.symm)]
  · rw [if_neg hroot, if_neg hroot]

/-! ## Where paths lead -/

/-- Where following a path begins. -/
def start (tree : Tree) (path : String) : Location :=
  if isAbsolute path.toList then [] else tree.workingDirectory

/-- A path that is not refused for its spelling. -/
def Admissible (path : String) : Prop :=
  '\x00' ∉ path.toList ∧ path ≠ "" ∧ path.utf8ByteSize < pathLimit

instance (path : String) : Decidable (Admissible path) := by
  unfold Admissible
  infer_instance

theorem resolve_of_admissible (hpath : Admissible path) :
    tree.resolve path =
      match (names path).getLast? with
      | none => .ok (.steps (tree.start path))
      | some last =>
        match tree.walk (tree.start path) (names path).dropLast with
        | .error fault => .error fault
        | .ok directory =>
          if last = "." then .ok (.steps directory)
          else if last = ".." then .ok (.steps directory.dropLast)
          else if longestName < last.utf8ByteSize then .error .nameTooLong
          else .ok (.name directory last (isMarked path.toList)) := by
  obtain ⟨hnul, hempty, hlimit⟩ := hpath
  have hstart : (if path.startsWith '/' then [] else tree.workingDirectory) = tree.start path := by
    rw [start, String.startsWith_char_eq_head?, isAbsolute]
  have hmarked : path.endsWith '/' = isMarked path.toList := by
    rw [String.endsWith_char_eq_getLast?, isMarked]
  unfold resolve
  rw [if_neg (by simpa using hnul), if_neg (by simpa using hempty), if_neg (Nat.not_le.mpr hlimit)]
  cases (names path).getLast? with
  | none => simp only [hstart]
  | some last =>
      simp only [hstart]
      cases tree.walk (tree.start path) (names path).dropLast with
      | error fault => rfl
      | ok directory => simp only [hmarked]

theorem admissible_of_resolve {target : Target} (hresolve : tree.resolve path = .ok target) :
    Admissible path := by
  unfold resolve at hresolve
  split at hresolve
  · contradiction
  · rename_i hnul
    split at hresolve
    · contradiction
    · rename_i hempty
      split at hresolve
      · contradiction
      · rename_i hlimit
        exact ⟨by simpa using hnul, by simpa using hempty, Nat.not_le.mp hlimit⟩

/-- A path leads to a name when the names above it can be followed. -/
theorem resolve_eq_name_iff :
    tree.resolve path = .ok (.name directory name marked) ↔
      Admissible path ∧ ∃ above, names path = above ++ [name] ∧
        tree.walk (tree.start path) above = .ok directory ∧ (name ≠ "." ∧ name ≠ "..") ∧
        name.utf8ByteSize ≤ longestName ∧ isMarked path.toList = marked := by
  constructor
  · intro hresolve
    have hpath := admissible_of_resolve hresolve
    refine ⟨hpath, ?_⟩
    rw [resolve_of_admissible hpath] at hresolve
    split at hresolve
    · cases hresolve
    · rename_i last hlast
      obtain ⟨above, hnames⟩ := List.getLast?_eq_some_iff.mp hlast
      rw [hnames, List.dropLast_concat] at hresolve
      split at hresolve
      · contradiction
      · rename_i found hwalk
        split_ifs at hresolve with hdot hdots hlong
        · cases hresolve
        · cases hresolve
        · cases hresolve
          exact ⟨above, hnames, hwalk, ⟨hdot, hdots⟩, Nat.not_lt.mp hlong, rfl⟩
  · rintro ⟨hpath, above, hnames, hwalk, ⟨hdot, hdots⟩, hshort, rfl⟩
    rw [resolve_of_admissible hpath, hnames, List.getLast?_concat, List.dropLast_concat]
    simp [hwalk, hdot, hdots, Nat.not_lt.mpr hshort]

/-- A single name is looked up in the working directory. -/
theorem resolve_bare (tree : Tree) (hpath : Admissible path) (hnames : names path = [name])
    (hproper : (name ≠ "." ∧ name ≠ "..") ∧ name.utf8ByteSize ≤ longestName)
    (hslashes : isAbsolute path.toList = false ∧ isMarked path.toList = false) :
    tree.resolve path = .ok (.name tree.workingDirectory name false) := by
  refine resolve_eq_name_iff.mpr ⟨hpath, [], hnames, ?_, hproper.1, hproper.2, hslashes.2⟩
  rw [walk, start, hslashes.1, if_neg Bool.false_ne_true]

/-! ## Directories stay -/

/-- Every directory of the one tree is one of the other. -/
structure Keeps (tree next : Tree) : Prop where
  workingDirectory : next.workingDirectory = tree.workingDirectory
  directories : ∀ location, tree.entry? location = some .directory →
    next.entry? location = some .directory

theorem Keeps.refl (tree : Tree) : Keeps tree tree where
  workingDirectory := rfl
  directories _ := id

theorem Keeps.trans {last : Tree} (hfirst : Keeps tree next) (hsecond : Keeps next last) :
    Keeps tree last where
  workingDirectory := hsecond.workingDirectory.trans hfirst.workingDirectory
  directories location hdirectory :=
    hsecond.directories location (hfirst.directories location hdirectory)

theorem Keeps.start (hkeeps : Keeps tree next) (path : String) :
    next.start path = tree.start path := by
  rw [Tree.start, Tree.start, hkeeps.workingDirectory]

theorem Keeps.walk (hkeeps : Keeps tree next) {names : List String}
    (hwalk : tree.walk location names = .ok directory) :
    next.walk location names = .ok directory := by
  induction names generalizing location with
  | nil => exact hwalk
  | cons name names ih =>
      rw [Tree.walk] at hwalk ⊢
      split_ifs at hwalk ⊢ with hdot hdots hlong
      · exact ih hwalk
      · exact ih hwalk
      · split at hwalk
        · cases hwalk
        · cases hwalk
        · rename_i hentry
          rw [hkeeps.directories _ hentry]
          exact ih hwalk

theorem Keeps.resolve (hkeeps : Keeps tree next)
    (hresolve : tree.resolve path = .ok (.name directory name marked)) :
    next.resolve path = .ok (.name directory name marked) := by
  obtain ⟨hpath, above, hnames, hwalk, hproper⟩ := resolve_eq_name_iff.mp hresolve
  rw [← hkeeps.start path] at hwalk
  exact resolve_eq_name_iff.mpr ⟨hpath, above, hnames, hkeeps.walk hwalk, hproper⟩

theorem keeps_put (hlocation : location ≠ [])
    (hentry : entry = .directory ∨ tree.entry? location ≠ some .directory) :
    Keeps tree (tree.put location entry) where
  workingDirectory := rfl
  directories other hother := by
    rw [lookup_put hlocation]
    split_ifs with hsame
    · subst hsame
      rw [hentry.resolve_right (not_not.mpr hother)]
    · exact hother

theorem keeps_remove (hlocation : location ≠ []) (hentry : tree.entry? location ≠ some .directory) :
    Keeps tree (tree.remove location) where
  workingDirectory := rfl
  directories other hother := by
    rw [lookup_remove hlocation, if_neg (by rintro rfl; exact hentry hother)]
    exact hother

/-! ## Operations that succeed -/

section Operations

variable {source destination : String} {content more : Bytes}

theorem read_eq_ok_iff :
    tree.read path = .ok content ↔
      ∃ directory name, tree.resolve path = .ok (.name directory name false) ∧
        tree.entry? (directory ++ [name]) = some (.file content) := by
  unfold read
  constructor
  · intro hread
    split at hread
    · cases hread
    · cases hread
    · rename_i directory name marked hresolve
      split at hread
      · cases hread
      · cases hread
      · rename_i found hentry
        split_ifs at hread with hmarked
        · cases hread
          exact ⟨directory, name, by simpa [hmarked] using hresolve, hentry⟩
  · rintro ⟨directory, name, hresolve, hentry⟩
    simp [hresolve, hentry]

theorem read_of_free (hresolve : tree.resolve path = .ok (.name directory name marked))
    (hentry : tree.entry? (directory ++ [name]) = none) : tree.read path = .error .notFound := by
  simp [read, hresolve, hentry]

theorem makeDirectory_eq_ok_iff :
    tree.makeDirectory path = .ok next ↔
      ∃ directory name marked, tree.resolve path = .ok (.name directory name marked) ∧
        tree.entry? (directory ++ [name]) = none ∧
        next = tree.put (directory ++ [name]) .directory := by
  unfold makeDirectory
  constructor
  · intro hmake
    split at hmake
    · cases hmake
    · cases hmake
    · rename_i directory name marked hresolve
      split at hmake
      · cases hmake
      · rename_i hentry
        cases hmake
        exact ⟨directory, name, marked, hresolve, hentry, rfl⟩
  · rintro ⟨directory, name, marked, hresolve, hentry, rfl⟩
    simp [hresolve, hentry]

theorem truncate_eq_ok_iff :
    tree.truncate path = .ok next ↔
      ∃ directory name, tree.resolve path = .ok (.name directory name false) ∧
        tree.entry? (directory ++ [name]) ≠ some .directory ∧
        next = tree.put (directory ++ [name]) (.file []) := by
  unfold truncate
  constructor
  · intro htruncate
    split at htruncate
    · cases htruncate
    · cases htruncate
    · rename_i directory name marked hresolve
      split_ifs at htruncate with hmarked hentry
      cases htruncate
      exact ⟨directory, name, by simpa [hmarked] using hresolve, hentry, rfl⟩
  · rintro ⟨directory, name, hresolve, hentry, rfl⟩
    simp [hresolve, hentry]

theorem append_eq_ok_iff :
    tree.append path more = .ok next ↔
      ∃ directory name content, tree.resolve path = .ok (.name directory name false) ∧
        tree.entry? (directory ++ [name]) = some (.file content) ∧
        next = tree.put (directory ++ [name]) (.file (content ++ more)) := by
  unfold append
  constructor
  · intro happend
    split at happend
    · cases happend
    · cases happend
    · rename_i directory name marked hresolve
      split at happend
      · cases happend
      · cases happend
      · rename_i content hentry
        split_ifs at happend with hmarked
        cases happend
        exact ⟨directory, name, content, by simpa [hmarked] using hresolve, hentry, rfl⟩
  · rintro ⟨directory, name, content, hresolve, hentry, rfl⟩
    simp [hresolve, hentry]

theorem rename_eq_ok_iff :
    tree.rename source destination = .ok next ↔
      ∃ directory name marked content target targetName,
        tree.resolve source = .ok (.name directory name marked) ∧
        tree.resolve destination = .ok (.name target targetName false) ∧
        tree.entry? (directory ++ [name]) = some (.file content) ∧
        tree.entry? (target ++ [targetName]) ≠ some .directory ∧
        next =
          (tree.remove (directory ++ [name])).put (target ++ [targetName]) (.file content) := by
  unfold rename
  constructor
  · intro hrename
    split at hrename
    · cases hrename
    · cases hrename
    · cases hrename
    · cases hrename
    · rename_i directory name marked target targetName targetMarked hsource hdestination
      split at hrename
      · cases hrename
      · cases hrename
      · rename_i content hentry
        split_ifs at hrename with hmarked htarget
        cases hrename
        exact ⟨directory, name, marked, content, target, targetName, hsource,
          by simpa [hmarked] using hdestination, hentry, htarget, rfl⟩
  · rintro ⟨directory, name, marked, content, target, targetName, hsource, hdestination, hentry,
      htarget, rfl⟩
    simp [hsource, hdestination, hentry, htarget]

/-! ## What can be read afterwards -/

theorem location_ne_nil (directory : Location) (name : String) : directory ++ [name] ≠ [] := by
  simp

/-- At most the entry at one location is another one, and every directory stays. -/
structure ChangesAt (location : Location) (tree next : Tree) : Prop where
  keeps : Keeps tree next
  others : ∀ other, other ≠ location → next.entry? other = tree.entry? other

theorem changesAt_put (hlocation : location ≠ [])
    (hentry : entry = .directory ∨ tree.entry? location ≠ some .directory) :
    ChangesAt location tree (tree.put location entry) where
  keeps := keeps_put hlocation hentry
  others other hother := by rw [lookup_put hlocation, if_neg hother]

theorem changesAt_remove (hlocation : location ≠ [])
    (hentry : tree.entry? location ≠ some .directory) :
    ChangesAt location tree (tree.remove location) where
  keeps := keeps_remove hlocation hentry
  others other hother := by rw [lookup_remove hlocation, if_neg hother]

/-- A file that lies elsewhere can still be read. -/
theorem ChangesAt.read (hchanges : ChangesAt location tree next)
    (hresolve : tree.resolve path = .ok (.name directory name marked))
    (helsewhere : directory ++ [name] ≠ location) (hread : tree.read path = .ok content) :
    next.read path = .ok content := by
  obtain ⟨found, foundName, hfound, hentry⟩ := read_eq_ok_iff.mp hread
  obtain ⟨rfl, rfl, rfl⟩ : found = directory ∧ foundName = name ∧ false = marked := by
    simpa using hfound.symm.trans hresolve
  refine read_eq_ok_iff.mpr ⟨found, foundName, hchanges.keeps.resolve hfound, ?_⟩
  rw [hchanges.others _ helsewhere, hentry]

/-- A file that is put where a path leads is read there. -/
theorem read_put_file (hresolve : tree.resolve path = .ok (.name directory name false))
    (hentry : tree.entry? (directory ++ [name]) ≠ some .directory) :
    (tree.put (directory ++ [name]) (.file content)).read path = .ok content := by
  have hkeeps := keeps_put (location_ne_nil directory name) (.inr hentry : .file content = _ ∨ _)
  refine read_eq_ok_iff.mpr ⟨directory, name, hkeeps.resolve hresolve, ?_⟩
  rw [lookup_put (location_ne_nil _ _), if_pos rfl]

theorem changesAt_of_makeDirectory (hmake : tree.makeDirectory path = .ok next) :
    ∃ directory name marked, tree.resolve path = .ok (.name directory name marked) ∧
      tree.entry? (directory ++ [name]) = none ∧ ChangesAt (directory ++ [name]) tree next := by
  obtain ⟨directory, name, marked, hresolve, hentry, rfl⟩ := makeDirectory_eq_ok_iff.mp hmake
  exact ⟨directory, name, marked, hresolve, hentry,
    changesAt_put (location_ne_nil _ _) (.inl rfl)⟩

theorem changesAt_of_truncate (htruncate : tree.truncate path = .ok next) :
    ∃ directory name, tree.resolve path = .ok (.name directory name false) ∧
      ChangesAt (directory ++ [name]) tree next := by
  obtain ⟨directory, name, hresolve, hentry, rfl⟩ := truncate_eq_ok_iff.mp htruncate
  exact ⟨directory, name, hresolve, changesAt_put (location_ne_nil _ _) (.inr hentry)⟩

theorem changesAt_of_append (happend : tree.append path more = .ok next) :
    ∃ directory name, tree.resolve path = .ok (.name directory name false) ∧
      ChangesAt (directory ++ [name]) tree next := by
  obtain ⟨directory, name, found, hresolve, hentry, rfl⟩ := append_eq_ok_iff.mp happend
  exact ⟨directory, name, hresolve,
    changesAt_put (location_ne_nil _ _) (.inr (by simp [hentry]))⟩

theorem read_of_truncate (htruncate : tree.truncate path = .ok next) : next.read path = .ok [] := by
  obtain ⟨directory, name, hresolve, hentry, rfl⟩ := truncate_eq_ok_iff.mp htruncate
  exact read_put_file hresolve hentry

theorem read_of_append (hread : tree.read path = .ok content)
    (happend : tree.append path more = .ok next) : next.read path = .ok (content ++ more) := by
  obtain ⟨directory, name, found, hresolve, hentry, rfl⟩ := append_eq_ok_iff.mp happend
  obtain rfl : content = found := by
    refine Except.ok.inj (hread.symm.trans ?_)
    exact read_eq_ok_iff.mpr ⟨directory, name, hresolve, hentry⟩
  exact read_put_file hresolve (by simp [hentry])

/-- A move takes the file out and puts it in place of what was there. -/
theorem changesAt_of_rename (hrename : tree.rename source destination = .ok next) :
    ∃ directory name marked target targetName middle,
      tree.resolve source = .ok (.name directory name marked) ∧
      tree.resolve destination = .ok (.name target targetName false) ∧
      ChangesAt (directory ++ [name]) tree middle ∧ ChangesAt (target ++ [targetName]) middle next ∧
      ∀ content, tree.read source = .ok content → next.read destination = .ok content := by
  obtain ⟨directory, name, marked, content, target, targetName, hsource, hdestination, hentry,
    htarget, rfl⟩ := rename_eq_ok_iff.mp hrename
  have hfile : tree.entry? (directory ++ [name]) ≠ some .directory := by simp [hentry]
  -- The file is taken out first, and the destination is still found then.
  have hremove := changesAt_remove (location_ne_nil directory name) hfile
  have htarget : entry? (tree.remove (directory ++ [name])) (target ++ [targetName]) ≠
      some .directory := by
    rw [lookup_remove (location_ne_nil _ _)]
    split_ifs
    · simp
    · exact htarget
  refine ⟨directory, name, marked, target, targetName, _, hsource, hdestination, hremove,
    changesAt_put (location_ne_nil _ _) (.inr htarget), fun other hread => ?_⟩
  obtain ⟨found, foundName, hfound, hother⟩ := read_eq_ok_iff.mp hread
  obtain ⟨rfl, rfl, rfl⟩ : found = directory ∧ foundName = name ∧ false = marked := by
    simpa using hfound.symm.trans hsource
  obtain rfl : content = other := by simpa using hentry.symm.trans hother
  exact read_put_file (hremove.keeps.resolve hdestination) htarget

theorem keeps_of_rename (hrename : tree.rename source destination = .ok next) :
    Keeps tree next := by
  obtain ⟨_, _, _, _, _, _, _, _, hout, hin, _⟩ := changesAt_of_rename hrename
  exact hout.keeps.trans hin.keeps

end Operations

end FreightPromotion.Files.Tree
