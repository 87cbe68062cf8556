import FreightPromotion.Files.Tree
import FreightPromotion.Store
import Mathlib.Data.List.DropRight
import Mathlib.Data.List.Infix
import Mathlib.Data.List.TakeWhile

/-!
# The names in a path

A path with a name in it is what stands above its last name, that name, and the
slashes after it (`Shape`).  From this form one can tell where the directories lie
that the store makes for its settings (`names_of_mem_parents`).
-/

namespace FreightPromotion.Files

/-! ## Components -/

/-- The names in a path, as characters. -/
def components (path : List Char) : List (List Char) :=
  (path.splitOn '/').filter fun name => !name.isEmpty

theorem names_eq (path : String) : Tree.names path = (components path.toList).map String.ofList :=
  rfl

@[simp]
theorem components_nil : components [] = [] := by
  decide

theorem components_append_slash (before after : List Char) :
    components (before ++ '/' :: after) = components before ++ components after := by
  rw [components, List.splitOn_append_cons_self, List.filter_append]
  rfl

theorem components_slash (path : List Char) : components ('/' :: path) = components path :=
  components_append_slash [] path

theorem components_name {name : List Char} (hslash : '/' ∉ name) (hname : name ≠ []) :
    components name = [name] := by
  rw [components, List.splitOn_eq_singleton hslash]
  simp [hname]

theorem components_slashes {slashes : List Char}
    (hslashes : ∀ character ∈ slashes, character = '/') : components slashes = [] := by
  induction slashes with
  | nil => rfl
  | cons character slashes ih =>
      obtain rfl := hslashes character List.mem_cons_self
      rw [components_slash]
      exact ih fun other hother => hslashes other (List.mem_cons_of_mem _ hother)

/-! ## The last name -/

/-- Nothing, or a path that ends in a slash. -/
def IsAbove (above : List Char) : Prop :=
  above = [] ∨ ∃ before, above = before ++ ['/']

theorem components_append {above : List Char} (habove : IsAbove above) (after : List Char) :
    components (above ++ after) = components above ++ components after := by
  rcases habove with rfl | ⟨before, rfl⟩
  · simp
  · rw [List.append_assoc, List.singleton_append, components_append_slash, components_append_slash]
    simp

/-- A path is what stands above its last name, that name, and slashes. -/
structure Shape (path above name : List Char) : Prop where
  spelling : ∃ slashes, path = above ++ name ++ slashes ∧ ∀ character ∈ slashes, character = '/'
  above : IsAbove above
  slash : '/' ∉ name
  nonempty : name ≠ []

theorem beforeLastName_append_lastName (path : List Char) :
    beforeLastName path ++ lastName path = path :=
  List.rdropWhile_append_rtakeWhile

theorem isAbove_beforeLastName (path : List Char) : IsAbove (beforeLastName path) := by
  by_cases hempty : beforeLastName path = []
  · exact .inl hempty
  · have hlast : (beforeLastName path).getLast hempty = '/' := by
      by_contra hother
      exact List.rdropWhile_last_not (· ≠ '/') path hempty (decide_eq_true hother)
    exact .inr ⟨(beforeLastName path).dropLast, by rw [← hlast, List.dropLast_append_getLast]⟩

theorem slash_notMem_lastName (path : List Char) : '/' ∉ lastName path := by
  intro hmem
  simpa using List.mem_rtakeWhile_imp hmem

theorem lastName_ne_nil {path : List Char} (hpath : path ≠ []) (hlast : path.getLast hpath ≠ '/') :
    lastName path ≠ [] := by
  intro hempty
  have hslash := List.rtakeWhile_eq_nil_iff.mp hempty hpath
  simp [hlast] at hslash

/-- The last name is found again. -/
theorem splitLastName {above name : List Char} (habove : IsAbove above) (hslash : '/' ∉ name) :
    lastName (above ++ name) = name ∧ beforeLastName (above ++ name) = above := by
  have hname : ∀ character ∈ name.reverse,
      (fun other => decide (other ≠ '/')) character = true := by
    intro character hmem
    rw [List.mem_reverse] at hmem
    simpa using ne_of_mem_of_not_mem hmem hslash
  rw [lastName, beforeLastName, List.reverse_append, List.takeWhile_append_of_pos hname,
    List.dropWhile_append_of_pos hname]
  rcases habove with rfl | ⟨before, rfl⟩ <;> simp

theorem exists_shape {path : List Char} (hnames : components path ≠ []) :
    ∃ above name, Shape path above name := by
  have hpath : path.rdropWhile (· = '/') ++ path.rtakeWhile (· = '/') = path :=
    List.rdropWhile_append_rtakeWhile
  have hslashes : ∀ character ∈ path.rtakeWhile (· = '/'), character = '/' :=
    fun character hmem => by simpa using List.mem_rtakeWhile_imp hmem
  have hnonempty : path.rdropWhile (· = '/') ≠ [] := by
    intro hempty
    rw [hempty, List.nil_append] at hpath
    exact hnames (hpath ▸ components_slashes hslashes)
  have hlast := List.rdropWhile_last_not (· = '/') path hnonempty
  refine ⟨_, _, ⟨_, ?_, hslashes⟩, isAbove_beforeLastName (path.rdropWhile (· = '/')),
    slash_notMem_lastName _, lastName_ne_nil hnonempty (by simpa using hlast)⟩
  rw [beforeLastName_append_lastName, hpath]

section Shape

variable {path above name : List Char}

theorem Shape.components_eq (hshape : Shape path above name) :
    components path = components above ++ [name] := by
  obtain ⟨slashes, rfl, hslashes⟩ := hshape.spelling
  have hname := components_name hshape.slash hshape.nonempty
  rw [List.append_assoc, components_append hshape.above]
  cases slashes with
  | nil => rw [List.append_nil, hname]
  | cons slash slashes =>
      obtain rfl := hslashes slash List.mem_cons_self
      rw [components_append_slash, hname,
        components_slashes fun other hother => hslashes other (List.mem_cons_of_mem _ hother),
        List.append_nil]

/-! ## Trimming -/

theorem trimReversed_slashes {slashes : List Char}
    (hslashes : ∀ character ∈ slashes, character = '/') (rest : List Char) :
    trimReversed (slashes ++ rest) = trimReversed rest := by
  induction slashes with
  | nil => rfl
  | cons slash slashes ih =>
      obtain rfl := hslashes slash List.mem_cons_self
      rw [List.cons_append, trimReversed]
      exact ih fun other hother => hslashes other (List.mem_cons_of_mem _ hother)

theorem trimReversed_eq_self {path : List Char} (hslash : ∀ rest, path ≠ '/' :: rest)
    (hdot : ∀ rest, path ≠ '.' :: '/' :: rest) : trimReversed path = path :=
  trimReversed.eq_3 path hslash hdot

/-- A name other than a dot ends the trimming. -/
theorem Shape.trimPath_eq (hshape : Shape path above name) (hdot : name ≠ ['.']) :
    trimPath path = above ++ name := by
  obtain ⟨slashes, rfl, hslashes⟩ := hshape.spelling
  have hreversed : ∀ character ∈ slashes.reverse, character = '/' :=
    fun character hmem => hslashes character (List.mem_reverse.mp hmem)
  rw [trimPath, List.reverse_append, trimReversed_slashes hreversed, List.reverse_append]
  have hslash : ∀ character ∈ name.reverse, character ≠ '/' :=
    fun character hmem => ne_of_mem_of_not_mem (List.mem_reverse.mp hmem) hshape.slash
  obtain ⟨last, before, hname⟩ :=
    List.exists_cons_of_ne_nil (List.reverse_ne_nil_iff.mpr hshape.nonempty)
  rw [hname] at hslash
  -- Read backwards, the path now begins with the name, which is neither slash nor dot.
  have hkept : trimReversed (name.reverse ++ above.reverse) = name.reverse ++ above.reverse := by
    rw [hname, List.cons_append]
    refine trimReversed_eq_self ?_ ?_
    · intro rest hrest
      exact hslash last List.mem_cons_self (List.cons.inj hrest).1
    · intro rest hrest
      obtain ⟨rfl, hbefore⟩ := List.cons.inj hrest
      cases before with
      | nil => exact hdot (List.reverse_inj.mp hname)
      | cons next before =>
          exact hslash next (by simp) (List.cons.inj hbefore).1
  rw [hkept, List.reverse_append, List.reverse_reverse, List.reverse_reverse]

end Shape

/-- A path with names in it has a shape with the last of them. -/
theorem exists_shape_of_names {path name : String} {above : List String}
    (hnames : Tree.names path = above ++ [name]) :
    ∃ before, Shape path.toList before name.toList ∧
      (components before).map String.ofList = above := by
  rw [names_eq] at hnames
  have hnonempty : components path.toList ≠ [] := by
    intro hempty
    simp [hempty] at hnames
  obtain ⟨before, last, hshape⟩ := exists_shape hnonempty
  rw [hshape.components_eq, List.map_append] at hnames
  obtain ⟨habove, hlast⟩ := List.append_inj' hnames rfl
  obtain rfl : String.ofList last = name := by simpa using hlast
  exact ⟨before, by rwa [String.toList_ofList], habove⟩

/-! ## Directories above a path -/

theorem components_trimReversed (reversed : List Char) :
    components (trimReversed reversed).reverse <+: components reversed.reverse := by
  induction reversed using trimReversed.induct with
  | case1 rest ih =>
      rw [trimReversed, List.reverse_cons, components_append_slash, components_nil, List.append_nil]
      exact ih
  | case2 rest ih =>
      rw [trimReversed, List.reverse_cons, List.reverse_cons, List.append_assoc,
        List.singleton_append, components_append_slash]
      exact ih.trans (List.prefix_append ..)
  | case3 path hslash hdot => rw [trimReversed_eq_self hslash hdot]

theorem trimReversed_suffix (reversed : List Char) : trimReversed reversed <:+ reversed := by
  induction reversed using trimReversed.induct with
  | case1 rest ih =>
      rw [trimReversed]
      exact ih.trans (List.suffix_cons ..)
  | case2 rest ih =>
      rw [trimReversed]
      exact ih.trans ((List.suffix_cons ..).trans (List.suffix_cons ..))
  | case3 path hslash hdot => rw [trimReversed_eq_self hslash hdot]

theorem head?_trimReversed (reversed : List Char) : (trimReversed reversed).head? ≠ some '/' := by
  induction reversed using trimReversed.induct with
  | case1 rest ih => rwa [trimReversed]
  | case2 rest ih => rwa [trimReversed]
  | case3 path hslash hdot =>
      rw [trimReversed_eq_self hslash hdot]
      intro hhead
      obtain ⟨rest, rfl⟩ := List.head?_eq_some_iff.mp hhead
      exact hslash rest rfl

/-- Trimming drops names from the end, if any. -/
theorem components_trimPath (path : List Char) :
    components (trimPath path) <+: components path := by
  simpa [trimPath] using components_trimReversed path.reverse

theorem trimPath_isInitial (path : List Char) : trimPath path <+: path := by
  rw [trimPath, ← List.reverse_suffix, List.reverse_reverse]
  exact trimReversed_suffix path.reverse

/-- A path that is left after trimming ends in a name. -/
theorem shape_trimPath {path : List Char} (htrimmed : trimPath path ≠ []) :
    Shape (trimPath path) (beforeLastName (trimPath path)) (lastName (trimPath path)) where
  spelling := ⟨[], by simp [beforeLastName_append_lastName], by simp⟩
  above := isAbove_beforeLastName _
  slash := slash_notMem_lastName _
  nonempty := by
    refine lastName_ne_nil htrimmed fun hlast => head?_trimReversed path.reverse ?_
    have hlast? := (List.getLast?_eq_some_getLast htrimmed).trans (congrArg some hlast)
    rwa [trimPath, List.getLast?_reverse] at hlast?

/-- Whether a path leads from the root. -/
def isAbsolute (path : List Char) : Bool :=
  path.head? == some '/'

/-- Whether a slash marks the last name of a path as that of a directory. -/
def isMarked (path : List Char) : Bool :=
  path.getLast? == some '/'

theorem isAbsolute_initial {before path : List Char} (hinitial : before <+: path)
    (hbefore : before ≠ []) : isAbsolute before = isAbsolute path := by
  obtain ⟨after, rfl⟩ := hinitial
  rw [isAbsolute, isAbsolute, List.head?_append_of_ne_nil _ hbefore]

theorem isAbsolute_append {name : List Char} (hslash : '/' ∉ name) (above : List Char) :
    isAbsolute (above ++ name) = isAbsolute above := by
  cases above with
  | cons character above => rfl
  | nil =>
      cases name with
      | nil => rfl
      | cons character name =>
          have hother : character ≠ '/' := ne_of_mem_of_not_mem List.mem_cons_self hslash
          simp [isAbsolute, hother]

theorem Shape.isAbsolute_eq {path above name : List Char} (hshape : Shape path above name) :
    isAbsolute path = isAbsolute above := by
  obtain ⟨slashes, rfl, -⟩ := hshape.spelling
  rw [← isAbsolute_initial (List.prefix_append _ slashes) (by simp [hshape.nonempty]),
    isAbsolute_append hshape.slash]

/-- The directory that a path lies in is the empty path, or starts where the path
does and has some of the names above its last one. -/
theorem names_of_parent? {path directory : String} (hparent : parent? path = some directory) :
    directory = "" ∨
      isAbsolute directory.toList = isAbsolute path.toList ∧
        components directory.toList <+: (components path.toList).dropLast := by
  unfold parent? at hparent
  split at hparent
  · contradiction
  · rename_i htrimmed
    have hshape := shape_trimPath htrimmed
    have hnames : components (beforeLastName (trimPath path.toList)) <+:
        (components path.toList).dropLast := by
      obtain ⟨dropped, hdropped⟩ := components_trimPath path.toList
      rw [← hdropped, hshape.components_eq, List.append_assoc,
        List.dropLast_append_of_ne_nil (by simp)]
      exact List.prefix_append ..
    have habove : beforeLastName (trimPath path.toList) <+: path.toList :=
      (List.rdropWhile_prefix (· ≠ '/') _).trans (trimPath_isInitial _)
    dsimp only at hparent
    split at hparent
    -- A path that lies in the root has slashes only before its name.
    · rename_i rest heq hroot
      rw [← Option.some.inj hparent]
      refine .inr ⟨?_, by simp [components_slashes]⟩
      rw [← isAbsolute_initial habove (by simp [heq]), heq]
      rfl
    · rw [← Option.some.inj hparent, String.toList_ofList]
      by_cases hempty : trimPath (beforeLastName (trimPath path.toList)) = []
      · exact .inl (by rw [hempty, String.ofList_nil])
      · exact .inr ⟨isAbsolute_initial ((trimPath_isInitial _).trans habove) hempty,
          (components_trimPath _).trans hnames⟩

/-- Above the empty path there is nothing. -/
theorem eq_of_mem_ancestors_empty {bound : Nat} {directory : String}
    (hmem : directory ∈ ancestors.go bound "") : directory = "" := by
  have hnone : parent? "" = none := by rfl
  cases bound <;> simp_all [ancestors.go]

theorem names_of_mem_ancestors {path directory : String} (hmem : directory ∈ ancestors path) :
    directory = "" ∨
      isAbsolute directory.toList = isAbsolute path.toList ∧
        components directory.toList <+: components path.toList := by
  rw [ancestors] at hmem
  -- The bound belongs to the path at the start, and the induction changes the path.
  generalize path.length + 1 = bound at hmem
  induction bound generalizing path with
  | zero => simp [ancestors.go] at hmem
  | succ bound ih =>
      rw [ancestors.go, List.mem_cons] at hmem
      rcases hmem with rfl | hmem
      · exact .inr ⟨rfl, List.prefix_refl _⟩
      · cases hparent : parent? path with
        | none => simp [hparent] at hmem
        | some above =>
            rw [hparent] at hmem
            rcases names_of_parent? hparent with rfl | ⟨hsame, hinitial⟩
            · exact .inl (eq_of_mem_ancestors_empty hmem)
            · rcases ih hmem with rfl | ⟨habsolute, hnames⟩
              · exact .inl rfl
              · exact .inr ⟨habsolute.trans hsame,
                  hnames.trans (hinitial.trans (List.dropLast_prefix _))⟩

end FreightPromotion.Files

/-! ## The paths of a store -/

namespace FreightPromotion.Store

open FreightPromotion.Files

variable {store : Store}

/-- The paths of the directories to be made, innermost first. -/
def parents (store : Store) : List String :=
  match parent? store.path with
  | none => []
  | some directory => ancestors directory

/-- The directories to be made start where the path does and lie above it. -/
theorem names_of_mem_parents {directory : String} (hmem : directory ∈ store.parents) :
    directory = "" ∨
      isAbsolute directory.toList = isAbsolute store.path.toList ∧
        Tree.names directory <+: (Tree.names store.path).dropLast := by
  unfold parents at hmem
  cases hparent : parent? store.path with
  | none => simp [hparent] at hmem
  | some above =>
      rw [hparent] at hmem
      rcases names_of_mem_ancestors hmem with rfl | ⟨habsolute, hnames⟩
      · exact .inl rfl
      · rcases names_of_parent? hparent with rfl | ⟨hsame, hinitial⟩
        · exact .inl (eq_of_mem_ancestors_empty hmem)
        · refine .inr ⟨habsolute.trans hsame, ?_⟩
          rw [names_eq, names_eq, ← List.map_dropLast]
          exact (hnames.trans hinitial).map _

end FreightPromotion.Store
