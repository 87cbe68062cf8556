import FreightPromotion.Proofs.Files.Trees

/-!
# Paths without dots

A path without single and double dots leads down from where it starts, one directory
after the other, so its location does not depend on what is in the tree
(`location_of_resolve`).  In a tree whose entries all lie in directories, the file at
that location is what is read (`WellFormed.read_eq_ok_iff`).

Where nothing is found there is nothing at the location, and no file on the way to it
(`vacant_of_notFound`).  That remains so when directories are made on the way, but
reading may then get as far as a name that is too long (`Vacant.read`).
-/

namespace FreightPromotion.Files

/-- The path has neither single nor double dots among its names. -/
def IsPlain (path : String) : Prop :=
  ∀ name ∈ Tree.names path, name ≠ "." ∧ name ≠ ".."

instance (path : String) : Decidable (IsPlain path) := by
  unfold IsPlain
  infer_instance

theorem IsPlain.of_names {path last : String} {above : List String} (hplain : IsPlain path)
    (hnames : Tree.names path = above ++ [last]) :
    (∀ name ∈ above, name ≠ "." ∧ name ≠ "..") ∧ last ≠ "." ∧ last ≠ ".." :=
  ⟨fun name hname => hplain name (by simp [hnames, hname]), hplain last (by simp [hnames])⟩

namespace Tree

open FreightPromotion.Text (Bytes)

variable {tree : Tree} {origin directory : Location} {path name : String} {marked : Bool}
  {names : List String} {content : Bytes}

/-- Where a path without dots leads. -/
def location (tree : Tree) (path : String) : Location :=
  tree.start path ++ Tree.names path

/-! ## Following plain names -/

/-- Plain names are followed through directories, and lead to where they say. -/
theorem walk_eq_ok_iff (hplain : ∀ name ∈ names, name ≠ "." ∧ name ≠ "..") :
    tree.walk origin names = .ok directory ↔
      directory = origin ++ names ∧ (∀ name ∈ names, name.utf8ByteSize ≤ longestName) ∧
        ∀ before, before ≠ [] → before <+: names →
          tree.entry? (origin ++ before) = some .directory := by
  induction names generalizing origin with
  | nil =>
      simp only [walk, List.append_nil, List.prefix_nil, Except.ok.injEq]
      exact ⟨fun hwalk => ⟨hwalk.symm, by simp, fun _ hbefore hnil => absurd hnil hbefore⟩,
        fun hwalk => hwalk.1.symm⟩
  | cons name names ih =>
      obtain ⟨hdot, hdots⟩ := hplain name List.mem_cons_self
      have hlater := fun other hother => hplain other (List.mem_cons_of_mem _ hother)
      rw [walk, if_neg hdot, if_neg hdots]
      constructor
      · intro hwalk
        split_ifs at hwalk with hlong
        split at hwalk
        · cases hwalk
        · cases hwalk
        · rename_i hentry
          obtain ⟨rfl, hshort, hdirectories⟩ := (ih hlater).mp hwalk
          refine ⟨by simp, ?_, ?_⟩
          · rintro other (_ | ⟨_, hother⟩)
            · exact Nat.not_lt.mp hlong
            · exact hshort other hother
          · rintro (_ | ⟨first, before⟩) hnonempty hbefore
            · contradiction
            · obtain ⟨rfl, hrest⟩ := List.cons_prefix_cons.mp hbefore
              rcases eq_or_ne before [] with rfl | hmore
              · exact hentry
              · simpa using hdirectories before hmore hrest
      · rintro ⟨rfl, hshort, hdirectories⟩
        have hentry := hdirectories [name] (by simp) (by simp)
        rw [if_neg (Nat.not_lt.mpr (hshort name List.mem_cons_self)), hentry]
        refine (ih hlater).mpr ⟨by simp, fun other hother =>
          hshort other (List.mem_cons_of_mem _ hother), fun before hnonempty hbefore => ?_⟩
        simpa using
          hdirectories (name :: before) (by simp) (List.cons_prefix_cons.mpr ⟨rfl, hbefore⟩)

theorem location_of_resolve (hplain : IsPlain path)
    (hresolve : tree.resolve path = .ok (.name directory name marked)) :
    directory ++ [name] = tree.location path := by
  obtain ⟨-, above, hnames, hwalk, -⟩ := resolve_eq_name_iff.mp hresolve
  obtain ⟨habove, -⟩ := hplain.of_names hnames
  rw [((walk_eq_ok_iff habove).mp hwalk).1, location, hnames, List.append_assoc]

/-! ## What is read -/

/-- A path that can be followed to a file if there is one. -/
structure Legible (path : String) : Prop where
  admissible : Admissible path
  nonempty : Tree.names path ≠ []
  short : ∀ name ∈ Tree.names path, name.utf8ByteSize ≤ longestName
  unmarked : isMarked path.toList = false

/-- Everything in the tree lies in a directory. -/
def WellFormed (tree : Tree) : Prop :=
  ∀ entry ∈ tree.entries, tree.entry? entry.1.dropLast = some .directory

instance (tree : Tree) : Decidable tree.WellFormed := by
  unfold WellFormed
  infer_instance

theorem WellFormed.above (hformed : tree.WellFormed) {entry : Entry}
    (hentry : tree.entry? (origin ++ [name]) = some entry) :
    tree.entry? origin = some .directory := by
  unfold entry? at hentry
  rw [if_neg (location_ne_nil origin name)] at hentry
  obtain ⟨before, after, hentries, -⟩ := List.lookup_eq_some_iff.mp hentry
  have hmem : (origin ++ [name], entry) ∈ tree.entries := by simp [hentries]
  simpa using hformed _ hmem

theorem WellFormed.way (hformed : tree.WellFormed) {entry : Entry} (hnames : names ≠ [])
    (hentry : tree.entry? (origin ++ names) = some entry) :
    tree.entry? origin = some .directory := by
  induction names using List.reverseRecOn generalizing entry with
  | nil => contradiction
  | append_singleton names name ih =>
      rw [← List.append_assoc] at hentry
      have habove := hformed.above hentry
      rcases eq_or_ne names [] with rfl | hmore
      · simpa using habove
      · exact ih hmore habove

theorem legible_of_read (hplain : IsPlain path) (hread : tree.read path = .ok content) :
    Legible path ∧ tree.entry? (tree.location path) = some (.file content) := by
  obtain ⟨directory, name, hresolve, hentry⟩ := read_eq_ok_iff.mp hread
  rw [location_of_resolve hplain hresolve] at hentry
  obtain ⟨hpath, above, hnames, hwalk, hname, hshort, hmarked⟩ := resolve_eq_name_iff.mp hresolve
  obtain ⟨habove, -⟩ := hplain.of_names hnames
  refine ⟨⟨hpath, by simp [hnames], ?_, hmarked⟩, hentry⟩
  intro other hother
  rw [hnames, List.mem_append, List.mem_singleton] at hother
  rcases hother with hother | rfl
  · exact ((walk_eq_ok_iff habove).mp hwalk).2.1 other hother
  · exact hshort

/-- What is read is the file at the location of the path. -/
theorem WellFormed.read_eq_ok_iff (hformed : tree.WellFormed) (hplain : IsPlain path) :
    tree.read path = .ok content ↔
      Legible path ∧ tree.entry? (tree.location path) = some (.file content) := by
  refine ⟨legible_of_read hplain, ?_⟩
  rintro ⟨⟨hpath, hnonempty, hshort, hmarked⟩, hentry⟩
  obtain ⟨above, name, hnames⟩ : ∃ above name, Tree.names path = above ++ [name] :=
    ⟨_, _, (List.dropLast_append_getLast hnonempty).symm⟩
  obtain ⟨habove, hname⟩ := hplain.of_names hnames
  have hwalk : tree.walk (tree.start path) above = .ok (tree.start path ++ above) := by
    refine (walk_eq_ok_iff habove).mpr
      ⟨rfl, fun other hother => hshort other (by simp [hnames, hother]),
        fun before hbefore hinitial => ?_⟩
    obtain ⟨after, rfl⟩ := hinitial
    have hbelow : tree.entry? (tree.start path ++ before ++ (after ++ [name])) =
        some (.file content) := by
      rw [← hentry, location, hnames]
      simp
    exact hformed.way (by simp) hbelow
  refine Tree.read_eq_ok_iff.mpr ⟨tree.start path ++ above, name, resolve_eq_name_iff.mpr
    ⟨hpath, above, hnames, hwalk, hname, hshort name (by simp [hnames]), hmarked⟩, ?_⟩
  rw [← hentry, location, hnames, List.append_assoc]

/-! ## Where nothing is found -/

/-- There is nothing where the names lead, and no file on the way. -/
structure VacantFrom (tree : Tree) (origin : Location) (names : List String) : Prop where
  free : tree.entry? (origin ++ names) = none
  way : ∀ before, before ≠ [] → before <+: names → ∀ content,
    tree.entry? (origin ++ before) ≠ some (.file content)

/-- There is nothing at the location of the path, and no file on the way to it. -/
def Vacant (tree : Tree) (path : String) : Prop :=
  tree.VacantFrom (tree.start path) (Tree.names path)

theorem VacantFrom.cons (hlater : tree.VacantFrom (origin ++ [name]) names)
    (hentry : ∀ content, tree.entry? (origin ++ [name]) ≠ some (.file content)) :
    tree.VacantFrom origin (name :: names) where
  free := by simpa using hlater.free
  way := by
    rintro (_ | ⟨first, before⟩) hnonempty hbefore
    · contradiction
    · obtain ⟨rfl, hrest⟩ := List.cons_prefix_cons.mp hbefore
      rcases eq_or_ne before [] with rfl | hmore
      · exact hentry
      · simpa using hlater.way before hmore hrest

/-- Below a place where nothing is there is nothing. -/
theorem WellFormed.vacantFrom (hformed : tree.WellFormed) (hentry : tree.entry? origin = none) :
    tree.VacantFrom origin names := by
  have hbelow : ∀ before : List String, tree.entry? (origin ++ before) = none := by
    intro before
    rcases eq_or_ne before [] with rfl | hmore
    · simpa using hentry
    · by_contra hpresent
      obtain ⟨entry, hpresent⟩ := Option.ne_none_iff_exists'.mp hpresent
      simp [hformed.way hmore hpresent] at hentry
  exact ⟨hbelow names, fun before _ _ content => by simp [hbelow before]⟩

/-- Names that cannot be followed because one is missing lead to nothing. -/
theorem WellFormed.vacantFrom_of_walk (hformed : tree.WellFormed)
    (hplain : ∀ name ∈ names, name ≠ "." ∧ name ≠ "..")
    (hwalk : tree.walk origin names = .error .notFound) (more : List String) :
    tree.VacantFrom origin (names ++ more) := by
  induction names generalizing origin with
  | nil => cases hwalk
  | cons name names ih =>
      obtain ⟨hdot, hdots⟩ := hplain name List.mem_cons_self
      rw [walk, if_neg hdot, if_neg hdots] at hwalk
      split_ifs at hwalk with hlong
      · cases hwalk
      · split at hwalk
        · rename_i hentry
          exact (hformed.vacantFrom hentry).cons (by simp [hentry])
        · cases hwalk
        · rename_i hentry
          exact (ih (fun other hother => hplain other (List.mem_cons_of_mem _ hother)) hwalk).cons
            (by simp [hentry])

theorem resolve_of_names (tree : Tree) {above : List String} {last : String}
    (hpath : Admissible path) (hnames : Tree.names path = above ++ [last])
    (hlast : last ≠ "." ∧ last ≠ "..") :
    tree.resolve path =
      match tree.walk (tree.start path) above with
      | .error fault => .error fault
      | .ok directory =>
        if longestName < last.utf8ByteSize then .error .nameTooLong
        else .ok (.name directory last (isMarked path.toList)) := by
  rw [resolve_of_admissible hpath, hnames, List.getLast?_concat, List.dropLast_concat]
  cases tree.walk (tree.start path) above with
  | error fault => rfl
  | ok directory => simp only [hlast.1, hlast.2, if_false]

/-- A path is refused for its spelling with another fault than that of a missing file. -/
theorem admissible_of_notFound (hpath : path ≠ "") (hread : tree.read path = .error .notFound) :
    Admissible path := by
  refine ⟨fun hnul => ?_, hpath, ?_⟩
  · have hresolve : tree.resolve path = .error .nulInName := by simp [resolve, hnul]
    simp [Tree.read, hresolve] at hread
  · by_contra hlimit
    have hresolve : ∃ fault, fault ≠ .notFound ∧ tree.resolve path = .error fault := by
      by_cases hnul : '\x00' ∈ path.toList <;> simp [resolve, hnul, hpath, Nat.not_lt.mp hlimit]
    obtain ⟨fault, hfault, hresolve⟩ := hresolve
    simp [Tree.read, hresolve, hfault] at hread

/-- A path that is not found, other than the empty one, leads to nothing. -/
theorem WellFormed.vacant_of_notFound (hformed : tree.WellFormed) (hplain : IsPlain path)
    (hpath : path ≠ "") (hread : tree.read path = .error .notFound) :
    Admissible path ∧ Tree.names path ≠ [] ∧ tree.Vacant path := by
  have hadmissible := admissible_of_notFound hpath hread
  cases hlast : (Tree.names path).getLast? with
  | none =>
      have hresolve : tree.resolve path = .ok (.steps (tree.start path)) := by
        rw [resolve_of_admissible hadmissible, hlast]
      simp [Tree.read, hresolve] at hread
  | some last =>
      obtain ⟨above, hnames⟩ := List.getLast?_eq_some_iff.mp hlast
      obtain ⟨habove, hname⟩ := hplain.of_names hnames
      have hresolve := resolve_of_names tree hadmissible hnames hname
      refine ⟨hadmissible, by simp [hnames], ?_⟩
      rw [Vacant, hnames]
      cases hwalk : tree.walk (tree.start path) above with
      | error fault =>
          obtain rfl : fault = .notFound := by simpa [Tree.read, hresolve, hwalk] using hread
          exact hformed.vacantFrom_of_walk habove hwalk [last]
      | ok directory =>
          -- The way can be followed, so it is the last name that is missing.
          obtain ⟨rfl, -, hdirectories⟩ := (walk_eq_ok_iff habove).mp hwalk
          have hfree : tree.entry? (tree.start path ++ (above ++ [last])) = none := by
            by_contra hpresent
            obtain ⟨entry, hentry⟩ := Option.ne_none_iff_exists'.mp hpresent
            by_cases hlong : longestName < last.utf8ByteSize
            · simp [Tree.read, hresolve, hwalk, hlong] at hread
            · cases entry with
              | directory => simp [Tree.read, hresolve, hwalk, hlong, hentry] at hread
              | file content =>
                  simp only [Tree.read, hresolve, hwalk, hlong, if_false, List.append_assoc,
                    hentry] at hread
                  split_ifs at hread
                  cases hread
          refine ⟨hfree, fun before hnonempty hbefore content => ?_⟩
          rcases List.prefix_concat_iff.mp hbefore with rfl | hbefore
          · rw [hfree]
            simp
          · rw [hdirectories before hnonempty hbefore]
            simp

/-- What changes beside the way, or becomes a directory on it, leaves the place vacant. -/
theorem Vacant.of_changesAt {next : Tree} {location : Location} (hvacant : tree.Vacant path)
    (hchanges : ChangesAt location tree next) (hplace : location ≠ tree.location path)
    (hway : next.entry? location = some .directory ∨
      ∀ before, before <+: Tree.names path → tree.start path ++ before ≠ location) :
    next.Vacant path := by
  rw [Vacant, hchanges.keeps.start path]
  constructor
  · show next.entry? (tree.location path) = none
    rw [hchanges.others _ hplace.symm]
    exact hvacant.free
  · intro before hmore hbefore content
    by_cases hsame : tree.start path ++ before = location
    · rw [hsame, hway.resolve_right fun hbeside => hbeside before hbefore hsame]
      simp
    · rw [hchanges.others _ hsame]
      exact hvacant.way before hmore hbefore content

theorem walk_of_no_file (hplain : ∀ name ∈ names, name ≠ "." ∧ name ≠ "..")
    (hway : ∀ before, before ≠ [] → before <+: names → ∀ content,
      tree.entry? (origin ++ before) ≠ some (.file content)) :
    (∃ directory, tree.walk origin names = .ok directory) ∨
      tree.walk origin names = .error .notFound ∨
      tree.walk origin names = .error .nameTooLong ∧
        ∃ name ∈ names, longestName < name.utf8ByteSize := by
  induction names generalizing origin with
  | nil => exact .inl ⟨origin, rfl⟩
  | cons name names ih =>
      obtain ⟨hdot, hdots⟩ := hplain name List.mem_cons_self
      rw [walk, if_neg hdot, if_neg hdots]
      by_cases hlong : longestName < name.utf8ByteSize
      · exact .inr (.inr ⟨if_pos hlong, name, List.mem_cons_self, hlong⟩)
      · rw [if_neg hlong]
        cases hentry : tree.entry? (origin ++ [name]) with
        | none => exact .inr (.inl rfl)
        | some entry =>
            cases entry with
            | file content => exact absurd hentry (hway [name] (by simp) (by simp) content)
            | directory =>
                have hlater : ∀ before, before ≠ [] → before <+: names → ∀ content,
                    tree.entry? (origin ++ [name] ++ before) ≠ some (.file content) := by
                  intro before hmore hbefore content
                  simpa using hway (name :: before) (by simp)
                    (List.cons_prefix_cons.mpr ⟨rfl, hbefore⟩) content
                rcases ih (fun other hother => hplain other (List.mem_cons_of_mem _ hother)) hlater
                  with hok | hmissing | ⟨hfault, other, hother, hlonger⟩
                · exact .inl hok
                · exact .inr (.inl hmissing)
                · exact .inr (.inr ⟨hfault, other, List.mem_cons_of_mem _ hother, hlonger⟩)

/-- Nothing is found at the path, and nothing will be until a file is put there. -/
inductive Unused (path : String) (tree : Tree) : Prop
  | nowhere (hpath : path = "")
  | vacant (hpath : Admissible path) (hnames : Tree.names path ≠ []) (hvacant : tree.Vacant path)

theorem WellFormed.unused_of_notFound (hformed : tree.WellFormed) (hplain : IsPlain path)
    (hread : tree.read path = .error .notFound) : Unused path tree := by
  by_cases hpath : path = ""
  · exact .nowhere hpath
  · obtain ⟨hadmissible, hnames, hvacant⟩ := hformed.vacant_of_notFound hplain hpath hread
    exact .vacant hadmissible hnames hvacant

/-- What is read where nothing is. -/
theorem Vacant.read (hvacant : tree.Vacant path) (hplain : IsPlain path)
    (hpath : Admissible path) (hnonempty : Tree.names path ≠ []) :
    tree.read path = .error .notFound ∨
      tree.read path = .error .nameTooLong ∧
        ∃ name ∈ Tree.names path, longestName < name.utf8ByteSize := by
  obtain ⟨above, last, hnames⟩ : ∃ above last, Tree.names path = above ++ [last] :=
    ⟨_, _, (List.dropLast_append_getLast hnonempty).symm⟩
  obtain ⟨habove, hlast⟩ := hplain.of_names hnames
  have hresolve := resolve_of_names tree hpath hnames hlast
  obtain ⟨hfree, hway⟩ := hvacant
  rw [hnames] at hfree hway
  rcases walk_of_no_file habove fun before hmore hbefore =>
      hway before hmore (hbefore.trans (List.prefix_append ..)) with
    ⟨directory, hwalk⟩ | hwalk | ⟨hwalk, name, hname, hlong⟩
  · obtain ⟨rfl, -, -⟩ := (walk_eq_ok_iff habove).mp hwalk
    by_cases hlong : longestName < last.utf8ByteSize
    · refine .inr ⟨?_, last, by simp [hnames], hlong⟩
      simp [Tree.read, hresolve, hwalk, hlong]
    · refine .inl ?_
      simp [Tree.read, hresolve, hwalk, hlong, hfree]
  · exact .inl (by simp [Tree.read, hresolve, hwalk])
  · exact .inr ⟨by simp [Tree.read, hresolve, hwalk], name, by simp [hnames, hname], hlong⟩

theorem Unused.read (hunused : Unused path tree) (hplain : IsPlain path) :
    tree.read path = .error .notFound ∨
      tree.read path = .error .nameTooLong ∧
        ∃ name ∈ Tree.names path, longestName < name.utf8ByteSize := by
  cases hunused with
  | nowhere hpath =>
      subst hpath
      exact .inl rfl
  | vacant hpath hnames hvacant => exact hvacant.read hplain hpath hnames

end Tree

end FreightPromotion.Files
