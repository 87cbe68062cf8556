import FreightPromotion.Proofs.Changes

/-!
# What a change of the settings touches

Saving works at two places, that of the settings and that of the temporary file, and
on the way to them it makes the directories that are missing.  Everywhere else the
tree stays as it is, whether saving succeeds or fails (`Settled`).

What is present on the way to the settings therefore stays, and so does what reading
them gives, unless nothing was found (`Tree.KeepsWay.read`).  Then the directories
that were made let the search get further, and it may end at a name that is too long
(`failed_update_changes_load`).
-/

namespace FreightPromotion

open FreightPromotion.Files (IsPlain Location Tree)
open FreightPromotion.Files.Tree (ChangesAt)
open FreightPromotion.Text (Bytes)
open Relation (ReflTransGen)

namespace Files.Tree

variable {tree next : Tree} {origin : Location} {path : String} {names : List String}

/-! ## What is present on the way -/

/-- What is present on the way to a path, and at its end, is present in the other tree. -/
structure KeepsWay (path : String) (tree next : Tree) : Prop where
  workingDirectory : next.workingDirectory = tree.workingDirectory
  way : ∀ before, before ≠ [] → before <+: Tree.names path → ∀ entry,
    tree.entry? (tree.start path ++ before) = some entry →
      next.entry? (tree.start path ++ before) = some entry

theorem walk_of_way (hplain : ∀ name ∈ names, name ≠ "." ∧ name ≠ "..")
    (hway : ∀ before, before ≠ [] → before <+: names → ∀ entry,
      tree.entry? (origin ++ before) = some entry → next.entry? (origin ++ before) = some entry)
    (hfound : tree.walk origin names ≠ .error .notFound) :
    next.walk origin names = tree.walk origin names := by
  induction names generalizing origin with
  | nil => rfl
  | cons name names ih =>
      obtain ⟨hdot, hdots⟩ := hplain name List.mem_cons_self
      rw [walk, if_neg hdot, if_neg hdots] at hfound ⊢
      conv_rhs => rw [walk, if_neg hdot, if_neg hdots]
      by_cases hlong : longestName < name.utf8ByteSize
      · rw [if_pos hlong, if_pos hlong]
      · rw [if_neg hlong] at hfound ⊢
        rw [if_neg hlong]
        have hhere := hway [name] (by simp) (by simp)
        cases hentry : tree.entry? (origin ++ [name]) with
        | none => simp [hentry] at hfound
        | some entry =>
            rw [hhere entry hentry]
            rw [hentry] at hfound
            cases entry with
            | file content => rfl
            | directory =>
                refine ih (fun other hother => hplain other (List.mem_cons_of_mem _ hother)) ?_ hfound
                intro before _ hbefore entry hpresent
                simpa using hway (name :: before) (by simp)
                  (List.cons_prefix_cons.mpr ⟨rfl, hbefore⟩) entry (by simpa using hpresent)

/-- A path is refused for its spelling whatever is in the tree. -/
theorem resolve_of_not_admissible (hpath : ¬ Admissible path) :
    ∃ fault, ∀ tree : Tree, tree.resolve path = .error fault := by
  by_cases hnul : '\x00' ∈ path.toList
  · exact ⟨.nulInName, fun tree => by simp [resolve, hnul]⟩
  · by_cases hempty : path = ""
    · exact ⟨.notFound, fun tree => by simp [resolve, hempty]⟩
    · refine ⟨.nameTooLong, fun tree => ?_⟩
      have hlimit : pathLimit ≤ path.utf8ByteSize := by
        by_contra hlimit
        exact hpath ⟨hnul, hempty, Nat.not_le.mp hlimit⟩
      simp [resolve, hnul, hempty, hlimit]

theorem KeepsWay.resolve (hkeeps : KeepsWay path tree next) (hplain : IsPlain path)
    (hfound : tree.resolve path ≠ .error .notFound) : next.resolve path = tree.resolve path := by
  by_cases hpath : Admissible path
  · have hstart : next.start path = tree.start path := by
      rw [start, start, hkeeps.workingDirectory]
    cases hlast : (Tree.names path).getLast? with
    | none =>
        rw [resolve_of_admissible hpath, resolve_of_admissible hpath, hlast]
        simp only [hstart]
    | some last =>
        obtain ⟨above, hnames⟩ := List.getLast?_eq_some_iff.mp hlast
        obtain ⟨habove, hproper⟩ := hplain.of_names hnames
        rw [resolve_of_names tree hpath hnames hproper] at hfound ⊢
        rw [resolve_of_names next hpath hnames hproper, hstart]
        have hwalk : next.walk (tree.start path) above = tree.walk (tree.start path) above := by
          refine walk_of_way habove (fun before hmore hbefore => ?_) fun hmissing => ?_
          · exact hkeeps.way before hmore (hnames ▸ hbefore.trans (List.prefix_append ..))
          · simp [hmissing] at hfound
        rw [hwalk]
  · obtain ⟨fault, hfault⟩ := resolve_of_not_admissible hpath
    rw [hfault, hfault]

/-- Whatever reading finds, be it a file or a fault, is found again. -/
theorem KeepsWay.read (hkeeps : KeepsWay path tree next) (hplain : IsPlain path)
    (hfound : tree.read path ≠ .error .notFound) : next.read path = tree.read path := by
  unfold Tree.read at hfound ⊢
  have hresolve : next.resolve path = tree.resolve path := by
    refine hkeeps.resolve hplain fun hmissing => ?_
    simp [hmissing] at hfound
  rw [hresolve]
  cases htarget : tree.resolve path with
  | error fault => rfl
  | ok target =>
      cases target with
      | steps directory => rfl
      | name directory name marked =>
          obtain ⟨-, above, hnames, -⟩ := resolve_eq_name_iff.mp htarget
          have hend := hkeeps.way _ (by simp [hnames]) List.prefix_rfl
          rw [show tree.start path ++ Tree.names path = directory ++ [name] from
            (location_of_resolve hplain htarget).symm] at hend
          simp only [htarget] at hfound ⊢
          cases hentry : tree.entry? (directory ++ [name]) with
          | none => simp [hentry] at hfound
          | some entry => rw [hend entry hentry]

end Files.Tree

namespace Store

variable {store : Store} {tree middle next : Tree} {content : Bytes} {places : List Location}

/-! ## Places -/

/-- Where the temporary file lies. -/
def temporaryPlace (store : Store) (tree : Tree) : Location :=
  tree.location store.temporaryPath

/-- The temporary file lies beside the way to the settings. -/
theorem temporaryPlace_ne (hplain : IsPlain store.path) {before : List String}
    (hnonempty : before ≠ []) (hbefore : before <+: Tree.names store.path) :
    tree.start store.path ++ before ≠ store.temporaryPlace tree := by
  have hsome : Tree.names store.path ≠ [] := by
    intro hempty
    rw [hempty, List.prefix_nil] at hbefore
    exact hnonempty hbefore
  obtain ⟨above, name, hnames⟩ : ∃ above name, Tree.names store.path = above ++ [name] :=
    ⟨_, _, (List.dropLast_append_getLast hsome).symm⟩
  have hname := (hplain.of_names hnames).2
  obtain ⟨temporary, hcases, hbeside, habsolute⟩ := names_temporaryPath hnames hname
  have hother : temporary ≠ name := by
    rcases hcases with rfl | rfl
    · exact temporaryName_ne store name
    · exact hname.2.symm
  have hstart : tree.start store.temporaryPath = tree.start store.path := by
    rw [Tree.start, Tree.start, habsolute]
  rw [temporaryPlace, Tree.location, hstart, hbeside, ← List.append_assoc]
  exact store.beside_way hnames hother hbefore

/-! ## What changes elsewhere -/

/-- A directory above the settings was missing and is there now. -/
structure MadeAbove (store : Store) (tree next : Tree) (location : Location) : Prop where
  above : ∃ before, before ≠ [] ∧ before <+: (Tree.names store.path).dropLast ∧
    location = tree.start store.path ++ before
  missing : tree.entry? location = none
  made : next.entry? location = some .directory

/-- Outside of the places, nothing has changed but that directories above the settings
were made. -/
structure Settled (store : Store) (places : List Location) (tree next : Tree) : Prop where
  workingDirectory : next.workingDirectory = tree.workingDirectory
  others : ∀ location, location ∉ places →
    next.entry? location = tree.entry? location ∨ store.MadeAbove tree next location

theorem Settled.refl (store : Store) (places : List Location) (tree : Tree) :
    store.Settled places tree tree where
  workingDirectory := rfl
  others _ _ := .inl rfl

theorem Settled.start (hsettled : store.Settled places tree next) (path : String) :
    next.start path = tree.start path := by
  rw [Tree.start, Tree.start, hsettled.workingDirectory]

theorem Settled.trans (hfirst : store.Settled places tree middle)
    (hsecond : store.Settled places middle next) : store.Settled places tree next where
  workingDirectory := hsecond.workingDirectory.trans hfirst.workingDirectory
  others location hlocation := by
    rcases hfirst.others location hlocation with hsame | hmade
    · rcases hsecond.others location hlocation with hlater | ⟨habove, hmissing, hdirectory⟩
      · exact .inl (hlater.trans hsame)
      · rw [hfirst.start] at habove
        exact .inr ⟨habove, hsame ▸ hmissing, hdirectory⟩
    · refine .inr ⟨hmade.above, hmade.missing, ?_⟩
      rcases hsecond.others location hlocation with hlater | hagain
      · exact hlater.trans hmade.made
      · exact hagain.made

theorem Settled.mono {more : List Location} (hsettled : store.Settled places tree next)
    (hmore : places ⊆ more) : store.Settled more tree next where
  workingDirectory := hsettled.workingDirectory
  others location hlocation := hsettled.others location fun hmem => hlocation (hmore hmem)

theorem settled_of_changesAt {location : Location} (hchanges : ChangesAt location tree next)
    (hlocation : location ∈ places) : store.Settled places tree next where
  workingDirectory := hchanges.keeps.workingDirectory
  others other hother := .inl (hchanges.others other (ne_of_mem_of_not_mem hlocation hother).symm)

theorem MakesParent.settled (hmake : store.MakesParent tree next) (hplain : IsPlain store.path) :
    store.Settled [] tree next := by
  obtain ⟨parent, hparent, hmake⟩ := hmake
  obtain ⟨directory, name, marked, hresolve, hentry, rfl⟩ := Tree.makeDirectory_eq_ok_iff.mp hmake
  have hnonempty := Tree.location_ne_nil directory name
  refine ⟨rfl, fun location _ => ?_⟩
  by_cases hsame : location = directory ++ [name]
  · refine .inr ⟨?_, hsame ▸ hentry, by rw [Tree.lookup_put hnonempty, if_pos hsame]⟩
    rcases names_of_mem_parents hparent with rfl | ⟨habsolute, hbefore⟩
    · exact absurd rfl (Tree.resolve_eq_name_iff.mp hresolve).1.2.1
    · have hplainParent : IsPlain parent := fun other hother =>
        hplain other (List.dropLast_subset _ (hbefore.subset hother))
      obtain ⟨-, above, hnames, -⟩ := Tree.resolve_eq_name_iff.mp hresolve
      refine ⟨Tree.names parent, by simp [hnames], hbefore, ?_⟩
      rw [hsame, Tree.location_of_resolve hplainParent hresolve, Tree.location, Tree.start,
        Tree.start, habsolute]
  · exact .inl (by rw [Tree.lookup_put hnonempty, if_neg hsame])

theorem settled_of_makesParent (hparents : ReflTransGen store.MakesParent tree next)
    (hplain : IsPlain store.path) : store.Settled [] tree next := by
  induction hparents with
  | refl => exact .refl store [] tree
  | tail _ hmake ih => exact ih.trans (hmake.settled hplain)

/-! ## The steps at the two places -/

section Steps

variable (hplain : IsPlain store.path)

theorem Settled.temporaryPlace (hsettled : store.Settled places tree next) :
    store.temporaryPlace next = store.temporaryPlace tree := by
  rw [Store.temporaryPlace, Store.temporaryPlace, Tree.location, Tree.location, hsettled.start]

theorem Settled.location (hsettled : store.Settled places tree next) (path : String) :
    next.location path = tree.location path := by
  rw [Tree.location, Tree.location, hsettled.start]

include hplain

/-- A path that leads to the temporary file does not lead to the settings. -/
theorem location_ne_temporaryPlace {directory : Location} {name : String} {marked : Bool}
    (hresolve : tree.resolve store.temporaryPath = .ok (.name directory name marked)) :
    directory ++ [name] = store.temporaryPlace tree ∧
      tree.location store.path ≠ store.temporaryPlace tree := by
  have hsome : Tree.names store.path ≠ [] := by
    intro hempty
    obtain ⟨-, above, hnames, -⟩ := Tree.resolve_eq_name_iff.mp hresolve
    rw [temporaryPath_of_nameless hempty, hempty] at hnames
    simp at hnames
  obtain ⟨above, last, hnames⟩ : ∃ above last, Tree.names store.path = above ++ [last] :=
    ⟨_, _, (List.dropLast_append_getLast hsome).symm⟩
  obtain ⟨habove, hlast⟩ := hplain.of_names hnames
  obtain ⟨rfl, hbeside, -⟩ := names_of_resolve_temporaryPath hnames hlast hresolve
  have htemporary : IsPlain store.temporaryPath := by
    intro other hother
    rw [hbeside, List.mem_append, List.mem_singleton] at hother
    rcases hother with hother | rfl
    · exact habove other hother
    · exact store.temporaryName_proper last
  exact ⟨Tree.location_of_resolve htemporary hresolve,
    temporaryPlace_ne hplain hsome List.prefix_rfl⟩

/-- No directory above the settings is at the place of the temporary file, nor at that of
the settings. -/
theorem not_madeAbove {location : Location}
    (hlocation : location = store.temporaryPlace tree ∨ location = tree.location store.path) :
    ¬ store.MadeAbove tree next location := by
  rintro ⟨⟨before, hnonempty, hbefore, rfl⟩, -, -⟩
  rcases hlocation with hplace | hplace
  · exact temporaryPlace_ne hplain hnonempty (hbefore.trans (List.dropLast_prefix _)) hplace
  · have hnames := List.append_cancel_left hplace
    have hlength := hbefore.length_le
    have hpositive := List.length_pos_of_ne_nil hnonempty
    rw [List.length_dropLast, ← hnames] at hlength
    omega

theorem settled_of_truncate (htruncate : tree.truncate store.temporaryPath = .ok next) :
    store.Settled [store.temporaryPlace tree] tree next ∧
      tree.location store.path ≠ store.temporaryPlace tree ∧
      ∃ content, next.entry? (store.temporaryPlace tree) = some (.file content) := by
  obtain ⟨directory, name, hresolve, hentry, rfl⟩ := Tree.truncate_eq_ok_iff.mp htruncate
  obtain ⟨hplace, hbeside⟩ := location_ne_temporaryPlace hplain hresolve
  have hnonempty := Tree.location_ne_nil directory name
  rw [hplace] at hentry hnonempty ⊢
  refine ⟨settled_of_changesAt ?_ (List.mem_singleton_self _), hbeside, [], ?_⟩
  · exact Tree.changesAt_put hnonempty (.inr hentry)
  · rw [Tree.lookup_put hnonempty, if_pos rfl]

theorem settled_of_append {more : Bytes}
    (happend : tree.append store.temporaryPath more = .ok next) :
    store.Settled [store.temporaryPlace tree] tree next ∧
      ∃ content, next.entry? (store.temporaryPlace tree) = some (.file content) := by
  obtain ⟨directory, name, content, hresolve, hentry, rfl⟩ := Tree.append_eq_ok_iff.mp happend
  obtain ⟨hplace, -⟩ := location_ne_temporaryPlace hplain hresolve
  have hnonempty := Tree.location_ne_nil directory name
  rw [hplace] at hentry hnonempty ⊢
  refine ⟨settled_of_changesAt ?_ (List.mem_singleton_self _), content ++ more, ?_⟩
  · exact Tree.changesAt_put hnonempty (.inr (by simp [hentry]))
  · rw [Tree.lookup_put hnonempty, if_pos rfl]

theorem settled_of_rename (hrename : tree.rename store.temporaryPath store.path = .ok next) :
    store.Settled [tree.location store.path, store.temporaryPlace tree] tree next ∧
      next.entry? (store.temporaryPlace tree) = none := by
  obtain ⟨directory, name, marked, content, target, targetName, hsource, hdestination, hentry,
    htarget, rfl⟩ := Tree.rename_eq_ok_iff.mp hrename
  obtain ⟨hplace, hbeside⟩ := location_ne_temporaryPlace hplain hsource
  have hsettings := Tree.location_of_resolve hplain hdestination
  have hout := Tree.location_ne_nil directory name
  have hin := Tree.location_ne_nil target targetName
  rw [hplace] at hout ⊢
  rw [hsettings] at hin ⊢
  refine ⟨⟨rfl, fun location hlocation => .inl ?_⟩, ?_⟩
  · rw [List.mem_pair, not_or] at hlocation
    rw [Tree.lookup_put hin, if_neg hlocation.1, Tree.lookup_remove hout, if_neg hlocation.2]
  · rw [Tree.lookup_put hin, if_neg hbeside.symm, Tree.lookup_remove hout, if_pos rfl]

end Steps

/-! ## Changes that fail -/

/-- The tree after a change that failed: the settings are what they were, what is loaded
is what was loaded, and what is new is a temporary file and directories above the
settings.  Where nothing was found before, it may be that a name is too long now. -/
structure Spares (store : Store) (tree next : Tree) : Prop where
  settled : store.Settled [store.temporaryPlace tree] tree next
  settings : next.entry? (tree.location store.path) = tree.entry? (tree.location store.path)
  temporary : next.entry? (store.temporaryPlace tree) = tree.entry? (store.temporaryPlace tree) ∨
    ∃ content, next.entry? (store.temporaryPlace tree) = some (.file content)
  content : ∀ content, next.read store.path = .ok content ↔ tree.read store.path = .ok content
  loads : store.load next = store.load tree ∨
    store.load tree = .ok {} ∧
      (∃ name ∈ Tree.names store.path, Tree.longestName < name.utf8ByteSize) ∧
      store.load next = .error (tooLong store.path)

/-- The tree after a change that succeeded: the settings are replaced, nothing is left at
the place of the temporary file, and all that is new are directories above the settings. -/
structure Replaces (store : Store) (content : Bytes) (tree next : Tree) : Prop where
  settled : store.Settled [tree.location store.path, store.temporaryPlace tree] tree next
  settings : next.entry? (tree.location store.path) = some (.file content)
  temporary : next.entry? (store.temporaryPlace tree) = none
  content : next.read store.path = .ok content

/-- A replacement that fails has worked at the place of the temporary file only, and what
it has left there is a file. -/
theorem Replacement.settled_of_failed {failure : Failure}
    (hreplacement : Replacement store content tree next (.error failure))
    (hplain : IsPlain store.path) :
    store.Settled [store.temporaryPlace tree] tree next ∧
      (next.entry? (store.temporaryPlace tree) = tree.entry? (store.temporaryPlace tree) ∨
        tree.location store.path ≠ store.temporaryPlace tree ∧
          ∃ content, next.entry? (store.temporaryPlace tree) = some (.file content)) := by
  cases hreplacement with
  | prepared hparents =>
      have hprepared := settled_of_makesParent hparents hplain
      refine ⟨hprepared.mono (List.nil_subset _), .inl ?_⟩
      exact (hprepared.others _ List.not_mem_nil).resolve_right (not_madeAbove hplain (.inl rfl))
  | emptied hparents htruncate =>
      have hprepared := settled_of_makesParent hparents hplain
      obtain ⟨hemptied, hbeside, hfile⟩ := settled_of_truncate hplain htruncate
      rw [hprepared.temporaryPlace] at hemptied hbeside hfile
      rw [hprepared.location] at hbeside
      exact ⟨(hprepared.mono (List.nil_subset _)).trans hemptied, .inr ⟨hbeside, hfile⟩⟩
  | written hparents htruncate happend =>
      have hprepared := settled_of_makesParent hparents hplain
      obtain ⟨hemptied, hbeside, -⟩ := settled_of_truncate hplain htruncate
      obtain ⟨hwritten, hfile⟩ := settled_of_append hplain happend
      rw [hemptied.temporaryPlace, hprepared.temporaryPlace] at hwritten hfile
      rw [hprepared.temporaryPlace] at hemptied hbeside
      rw [hprepared.location] at hbeside
      exact ⟨((hprepared.mono (List.nil_subset _)).trans hemptied).trans hwritten,
        .inr ⟨hbeside, hfile⟩⟩

/-- What is present on the way to the settings stays. -/
theorem Settled.keepsWay (hsettled : store.Settled [store.temporaryPlace tree] tree next)
    (hplain : IsPlain store.path) : Tree.KeepsWay store.path tree next where
  workingDirectory := hsettled.workingDirectory
  way before hnonempty hbefore entry hentry := by
    have hbeside : tree.start store.path ++ before ∉ [store.temporaryPlace tree] := by
      rw [List.mem_singleton]
      exact temporaryPlace_ne hplain hnonempty hbefore
    rcases hsettled.others _ hbeside with hsame | ⟨-, hmissing, -⟩
    · exact hsame.trans hentry
    · rw [hentry] at hmissing
      cases hmissing

/-- What is read after a replacement that fails is what was read before.  Only where
nothing was found may the search now end at a name that is too long. -/
theorem Replacement.read_of_failed {failure : Failure}
    (hreplacement : Replacement store content tree next (.error failure))
    (hplain : IsPlain store.path) (hformed : tree.WellFormed) :
    next.read store.path = tree.read store.path ∨
      tree.read store.path = .error .notFound ∧
        (∃ name ∈ Tree.names store.path, Tree.longestName < name.utf8ByteSize) ∧
        next.read store.path = .error .nameTooLong := by
  obtain ⟨hsettled, -⟩ := hreplacement.settled_of_failed hplain
  by_cases hmissing : tree.read store.path = .error .notFound
  · have hunused := hformed.unused_of_notFound hplain hmissing
    have hlater := unused_of_prepares hreplacement.prepares hplain hunused
    rcases hlater.read hplain with hstill | ⟨hlong, hname⟩
    · exact .inl (hstill.trans hmissing.symm)
    · exact .inr ⟨hmissing, hname, hlong⟩
  · exact .inl ((hsettled.keepsWay hplain).read hplain hmissing)

theorem load_congr (hread : next.read store.path = tree.read store.path) :
    store.load next = store.load tree := by
  rw [load, load, hread]

theorem load_of_nameTooLong (hread : tree.read store.path = .error .nameTooLong) :
    store.load tree = .error (tooLong store.path) := by
  rw [load, hread]
  rfl

theorem Replacement.spares {failure : Failure}
    (hreplacement : Replacement store content tree next (.error failure))
    (hplain : IsPlain store.path) (hformed : tree.WellFormed) : store.Spares tree next := by
  obtain ⟨hsettled, htemporary⟩ := hreplacement.settled_of_failed hplain
  have hread := hreplacement.read_of_failed hplain hformed
  constructor
  case settled => exact hsettled
  case settings =>
    by_cases hplace : tree.location store.path = store.temporaryPlace tree
    · rw [hplace]
      exact htemporary.resolve_right fun hother => hother.1 hplace
    · have hothers := hsettled.others _ (List.mem_singleton.not.mpr hplace)
      exact hothers.resolve_right (not_madeAbove hplain (.inr rfl))
  case temporary => exact htemporary.imp_right And.right
  case content =>
    intro content
    rcases hread with hsame | ⟨hmissing, -, hlong⟩
    · rw [hsame]
    · simp [hmissing, hlong]
  case loads =>
    rcases hread with hsame | ⟨hmissing, hname, hlong⟩
    · exact .inl (load_congr hsame)
    · exact .inr ⟨load_of_missing hmissing, hname, load_of_nameTooLong hlong⟩

/-- Without a save nothing changes. -/
theorem Spares.refl (store : Store) (tree : Tree) : store.Spares tree tree where
  settled := .refl store _ tree
  settings := rfl
  temporary := .inl rfl
  content _ := .rfl
  loads := .inl rfl

/-! ## Changes that succeed -/

theorem Replacement.replaces (hreplacement : Replacement store content tree next (.ok ()))
    (hplain : IsPlain store.path) : store.Replaces content tree next := by
  have hread := hreplacement.read
  cases hreplacement with
  | moved hparents htruncate happend hrename =>
      have hfailed : Replacement store content tree _ (.error (tooLong store.path)) :=
        .written hparents htruncate happend
      obtain ⟨hwritten, -⟩ := hfailed.settled_of_failed hplain
      obtain ⟨hmoved, hnone⟩ := settled_of_rename hplain hrename
      rw [hwritten.temporaryPlace, hwritten.location] at hmoved
      rw [hwritten.temporaryPlace] at hnone
      have hsettled := (hwritten.mono (List.subset_cons_self ..)).trans hmoved
      obtain ⟨-, hentry⟩ := Tree.legible_of_read hplain hread
      rw [hsettled.location] at hentry
      exact ⟨hsettled, hentry, hnone, hread⟩

theorem footprint_save (store : Store) (hplain : IsPlain store.path) (hformed : tree.WellFormed)
    (settings : Settings) :
    match (store.save settings tree).value with
    | (saved, .error _) => store.Spares tree saved
    | (saved, .ok _) => store.Replaces (contentOf settings) tree saved := by
  have hreplacement := store.replacement_save settings tree
  generalize (store.save settings tree).value = outcome at hreplacement ⊢
  obtain ⟨saved, result⟩ := outcome
  cases result with
  | error failure => exact hreplacement.spares hplain hformed
  | ok done => exact hreplacement.replaces hplain

theorem footprint_update (store : Store) (hplain : IsPlain store.path) (hformed : tree.WellFormed)
    (change : Settings → Settings) :
    match (store.update change tree).value with
    | (updated, .error _) => store.Spares tree updated
    | (updated, .ok result) =>
      (∃ before, store.load tree = .ok before ∧ result = change before) ∧
        store.Replaces (contentOf result) tree updated := by
  cases hload : store.load tree with
  | error failure =>
      unfold update
      rw [hload]
      exact .refl store tree
  | ok before =>
      have hsaved := store.footprint_save hplain hformed (change before)
      rw [value_update hload]
      generalize (store.save (change before) tree).value = outcome at hsaved ⊢
      obtain ⟨saved, result⟩ := outcome
      cases result with
      | error failure => exact hsaved
      | ok done => exact ⟨⟨before, rfl, rfl⟩, hsaved⟩

end Store

/-- Whatever the settings, the change and the tree are, saving and changing work at two
places.  If they fail, the settings are what they were and are loaded as they were, and at
most directories above them and the temporary file are new; only where no settings were
found may loading fail afterwards, with a name that is too long.  If they succeed, the new
settings are in place, the temporary file is gone, and at most directories above are new. -/
theorem changes_stay_in_place (store : Store) (hplain : IsPlain store.path) (tree : Tree)
    (hformed : tree.WellFormed) :
    (∀ settings,
      match (store.save settings tree).value with
      | (saved, .error _) => store.Spares tree saved
      | (saved, .ok _) => store.Replaces (Store.contentOf settings) tree saved) ∧
    ∀ change,
      match (store.update change tree).value with
      | (updated, .error _) => store.Spares tree updated
      | (updated, .ok result) =>
        (∃ before, store.load tree = .ok before ∧ result = change before) ∧
          store.Replaces (Store.contentOf result) tree updated :=
  ⟨store.footprint_save hplain hformed, store.footprint_update hplain hformed⟩


/-- A document that is no settings is left as it is by a change, which fails, and is
replaced by a save.  The file beside it is left in both cases. -/
theorem malformed_document_stays :
    let store : Store := ⟨"config.json", 7⟩
    let document : Bytes := Text.encode "[]]"
    let tree : Tree := { entries := [(["config.json"], .file document), (["notes"], .file [])] }
    (∃ updated failure, (store.update id tree).value = (updated, .error failure) ∧
      updated.read "config.json" = .ok document ∧ store.load updated = store.load tree ∧
      updated.entry? ["notes"] = some (.file [])) ∧
    ∃ saved, (store.save {} tree).value = (saved, .ok ()) ∧
      saved.read "config.json" = .ok (Store.contentOf {}) ∧
      saved.entry? ["config.tmp.7"] = none ∧ saved.entry? ["notes"] = some (.file []) := by
  intro store document tree
  have hplain : IsPlain store.path := by decide
  have hformed : tree.WellFormed := by decide
  have hpath : tree.resolve store.path = .ok (.name [] "config.json" false) :=
    Tree.resolve_bare tree (by decide) (by decide) (by decide) (by decide)
  have htemporary : tree.resolve store.temporaryPath = .ok (.name [] "config.tmp.7" false) :=
    Tree.resolve_bare tree (by decide) (by decide) (by decide) (by decide)
  have hread : tree.read store.path = .ok document :=
    Tree.read_eq_ok_iff.mpr ⟨[], "config.json", hpath, rfl⟩
  obtain ⟨failure, hload⟩ : ∃ failure, store.load tree = .error failure := by
    unfold Store.load
    rw [hread]
    exact ⟨_, rfl⟩
  have hupdate : (store.update id tree).value = (tree, .error failure) := by
    unfold Store.update
    rw [hload]
    rfl
  have hparents := Store.makeParents_of_bare (show Files.parent? store.path = some "" by decide) tree
  have htruncate := Tree.truncate_eq_ok_iff.mpr ⟨_, _, htemporary, by decide, rfl⟩
  obtain ⟨saved, hreplace, -⟩ :=
    Store.replace_of_truncate hparents hpath (by decide) htruncate (Store.contentOf {})
  have hsave := Store.save_of_replace hreplace
  -- There is no directory to be made above a bare name.
  have hbare : ∀ next location, ¬ store.MadeAbove tree next location := by
    rintro next location ⟨⟨before, hnonempty, hbefore, -⟩, -, -⟩
    rw [show (Tree.names store.path).dropLast = [] by decide, List.prefix_nil] at hbefore
    exact hnonempty hbefore
  have hnotes : tree.entry? ["notes"] = some (.file []) := by decide
  have helsewhere : ["notes"] ∉ [tree.location store.path, store.temporaryPlace tree] := by decide
  have hplace : store.temporaryPlace tree = ["config.tmp.7"] := by decide
  obtain ⟨hsaves, hupdates⟩ := changes_stay_in_place store hplain tree hformed
  have hspares := hupdates id
  rw [hupdate] at hspares
  have hreplaces := hsaves {}
  rw [hsave] at hreplaces
  refine ⟨⟨tree, failure, hupdate, (hspares.content _).mpr hread, ?_, hnotes⟩,
    saved, hsave, hreplaces.content, hplace ▸ hreplaces.temporary, ?_⟩
  · exact hspares.loads.resolve_right fun hmissing => by simp [hload] at hmissing
  · exact ((hreplaces.settled.others _ helsewhere).resolve_right (hbare _ _)).trans hnotes

/-! ## A failure that shows -/

/-- In a directory that is missing, an update of settings with a name that is too long
fails, and changes what is loaded. -/
theorem update_in_directory {name : String} (hslash : '/' ∉ name.toList)
    (hlong : Tree.longestName < name.utf8ByteSize) (hnul : '\x00' ∉ name.toList)
    (hdot : '.' ∉ name.toList) (hlimit : name.utf8ByteSize + 7 < Tree.pathLimit)
    (process : Nat) (change : Settings → Settings) :
    let store : Store := ⟨"newdir/" ++ name, process⟩
    let updated := (store.update change {}).value
    IsPlain store.path ∧ updated.2.isOk = false ∧ store.load {} = .ok {} ∧
      store.load updated.1 ≠ store.load {} := by
  intro store updated
  have hpath : store.path = "newdir/" ++ name := rfl
  have hplain : IsPlain store.path := by
    intro other hother
    rw [hpath, names_in_directory hslash hlong] at hother
    rcases List.mem_pair.mp hother with rfl | rfl
    · decide
    · exact proper_of_long hlong
  obtain ⟨hbefore, hfailed, hafter⟩ :=
    change_in_directory hslash hlong hnul hdot hlimit hpath change
  refine ⟨hplain, hfailed, hbefore, ?_⟩
  rw [hafter, hbefore]
  exact fun hsame => nomatch hsame

/-- A name of nothing but letters that is too long. -/
def longName : String := String.ofList (List.replicate 256 'n')

theorem notMem_longName {character : Char} (hother : character ≠ 'n') :
    character ∉ longName.toList := by
  have hletters : longName.toList = List.replicate 256 'n' := String.toList_ofList
  rw [hletters]
  exact fun hmem => hother (List.eq_of_mem_replicate hmem)

theorem utf8ByteSize_longName : longName.utf8ByteSize = 256 := by
  decide +kernel

/-- An update that fails, and what is loaded before it and after it. -/
theorem failed_update_changes_load :
    let store : Store := ⟨"newdir/" ++ longName, 1⟩
    let updated := (store.update (fun settings => { settings with project := some "p" }) {}).value
    Tree.WellFormed {} ∧ IsPlain store.path ∧ updated.2.isOk = false ∧ store.load {} = .ok {} ∧
      store.load updated.1 ≠ store.load {} := by
  refine ⟨by decide, update_in_directory (notMem_longName (by decide)) ?_
    (notMem_longName (by decide)) (notMem_longName (by decide)) ?_ 1 _⟩
  · rw [utf8ByteSize_longName]
    decide
  · rw [utf8ByteSize_longName]
    decide

end FreightPromotion
