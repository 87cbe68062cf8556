import FreightPromotion.Proofs.Files.Paths
import FreightPromotion.Proofs.Prelude

/-!
# Endings and extensions

A path ends in the name of a file if nothing follows that name but slashes and single dots
(`EndsIn`).  When its extension is replaced, so many characters are cut off first as the old one
has.  They may be those that follow the name, so that some of the extension is left, but the stem
is not touched, and the name that is left has the same one (`EndsIn.cutExtension_of_not_dotted`).

There is one exception.  From a name of two dots and an extension, after which nothing follows, the
cut leaves the two dots (`IsDotted`), and these are not the name of a file.

So the temporary file has a name of its own after the same text as the settings
(`Store.temporaryPath_of_not_dotted`), or its path ends in two dots there
(`Store.temporaryPath_of_dotted`).
-/

namespace FreightPromotion.Files

/-! ## Paths that end in a name -/

/-- What may follow the last name of a path and adds nothing to it: slashes, each of which a
single dot may follow. -/
inductive IsIdle : List Char → Prop
  | nil : IsIdle []
  | slash {rest : List Char} (hrest : IsIdle rest) : IsIdle ('/' :: rest)
  | dot {rest : List Char} (hrest : IsIdle rest) : IsIdle ('/' :: '.' :: rest)

theorem isIdle_slashes {slashes : List Char} (hslashes : ∀ character ∈ slashes, character = '/') :
    IsIdle slashes := by
  induction slashes with
  | nil => exact .nil
  | cons slash slashes ih =>
      obtain rfl := hslashes slash List.mem_cons_self
      exact .slash (ih fun other hother => hslashes other (List.mem_cons_of_mem _ hother))

/-- What comes first of what adds nothing adds nothing. -/
theorem IsIdle.take {rest : List Char} (hidle : IsIdle rest) (count : Nat) :
    IsIdle (rest.take count) := by
  induction hidle generalizing count with
  | nil => simpa using .nil
  | slash _ ih =>
      cases count with
      | zero => exact .nil
      | succ count => exact .slash (ih count)
  | dot _ ih =>
      match count with
      | 0 => exact .nil
      | 1 => exact .slash .nil
      | count + 2 => exact .dot (ih count)

/-- The path is what stands above a name, the name of a file, and what adds nothing. -/
structure EndsIn (path above name : String) : Prop where
  spelling : ∃ rest, path.toList = above.toList ++ name.toList ++ rest ∧ IsIdle rest
  above : IsAbove above.toList
  slash : '/' ∉ name.toList
  proper : name ≠ "" ∧ name ≠ "." ∧ name ≠ ".."

/-- A path with a name in it that is no step ends in that name. -/
theorem Shape.endsIn {path name : String} {above : List Char}
    (hshape : Shape path.toList above name.toList) (hname : name ≠ "." ∧ name ≠ "..") :
    EndsIn path (String.ofList above) name := by
  obtain ⟨slashes, hpath, hslashes⟩ := hshape.spelling
  refine ⟨⟨slashes, by simpa using hpath, isIdle_slashes hslashes⟩, by simpa using hshape.above,
    hshape.slash, ?_, hname⟩
  rintro rfl
  exact hshape.nonempty String.toList_empty

theorem trimReversed_idle {rest : List Char} (hidle : IsIdle rest) (before : List Char) :
    trimReversed (rest.reverse ++ before) = trimReversed before := by
  induction hidle generalizing before with
  | nil => rfl
  | slash hrest ih =>
      rw [List.reverse_cons, List.append_assoc, ih, List.singleton_append, trimReversed]
  | dot hrest ih =>
      rw [List.reverse_cons, List.reverse_cons, List.append_assoc, List.append_assoc, ih,
        List.singleton_append, List.singleton_append, trimReversed]

section EndsIn

variable {path above name : String}

theorem isProperName_iff :
    isProperName name.toList = true ↔ name ≠ "" ∧ name ≠ "." ∧ name ≠ ".." := by
  have htext : ∀ text : String, name = text ↔ name.toList = text.toList :=
    fun text => String.toList_inj.symm
  simp only [isProperName, decide_eq_true_eq, List.mem_cons, List.not_mem_nil, or_false, not_or,
    ne_eq, htext]
  exact Iff.rfl

theorem EndsIn.nonempty (hends : EndsIn path above name) : name.toList ≠ [] :=
  fun hempty => hends.proper.1 (String.toList_eq_nil_iff.mp hempty)

/-- Trimming leaves the path up to its last name. -/
theorem EndsIn.trimPath_eq (hends : EndsIn path above name) :
    trimPath path.toList = above.toList ++ name.toList := by
  obtain ⟨rest, hpath, hidle⟩ := hends.spelling
  have hshape : Shape (above.toList ++ name.toList) above.toList name.toList :=
    ⟨⟨[], by simp, by simp⟩, hends.above, hends.slash, hends.nonempty⟩
  have hdot : name.toList ≠ ['.'] := fun hdot => hends.proper.2.1 (String.toList_inj.mp hdot)
  rw [trimPath, hpath, List.reverse_append, trimReversed_idle hidle]
  exact hshape.trimPath_eq hdot

theorem EndsIn.trimPath_ne_nil (hends : EndsIn path above name) : trimPath path.toList ≠ [] := by
  rw [hends.trimPath_eq]
  exact List.append_ne_nil_of_right_ne_nil _ hends.nonempty

theorem EndsIn.lastName_eq (hends : EndsIn path above name) :
    lastName (trimPath path.toList) = name.toList := by
  rw [hends.trimPath_eq]
  exact (splitLastName hends.above hends.slash).1

theorem EndsIn.beforeLastName_eq (hends : EndsIn path above name) :
    beforeLastName (trimPath path.toList) = above.toList := by
  rw [hends.trimPath_eq]
  exact (splitLastName hends.above hends.slash).2

end EndsIn

/-! ## Stems -/

/-- A name is its stem, or its stem and an extension without a dot. -/
theorem eq_stem_or_extension (name : List Char) :
    name = stem name ∨ ∃ extension, name = stem name ++ '.' :: extension ∧ '.' ∉ extension := by
  have hsplit : name.rdropWhile (· ≠ '.') ++ name.rtakeWhile (· ≠ '.') = name :=
    List.rdropWhile_append_rtakeWhile
  have hdot : '.' ∉ name.rtakeWhile (· ≠ '.') := by
    intro hmem
    simpa using List.mem_rtakeWhile_imp hmem
  unfold stem
  split
  · rename_i character before hdrop
    split_ifs with hempty
    · exact .inl rfl
    · obtain rfl : character = '.' := by
        have hhead := List.head?_dropWhile_not (· ≠ '.') name.reverse
        rw [hdrop] at hhead
        simpa using hhead
      rw [List.rdropWhile, hdrop, List.reverse_cons, List.append_assoc,
        List.singleton_append] at hsplit
      exact .inr ⟨_, hsplit.symm, hdot⟩
  · exact .inl rfl

theorem stem_ne_nil {name : List Char} (hname : name ≠ []) : stem name ≠ [] := by
  unfold stem
  split
  · split_ifs with hempty
    · exact hname
    · simpa using hempty
  · exact hname

/-- The stem ends before the last dot. -/
theorem stem_append_extension {name extension : List Char} (hname : name ≠ [])
    (hdot : '.' ∉ extension) : stem (name ++ '.' :: extension) = name := by
  have hextension : ∀ character ∈ extension.reverse, (decide (character ≠ '.')) = true := by
    intro character hmem
    rw [List.mem_reverse] at hmem
    simpa using ne_of_mem_of_not_mem hmem hdot
  have hdrop : (name ++ '.' :: extension).reverse.dropWhile (· ≠ '.') = '.' :: name.reverse := by
    rw [List.reverse_append, List.reverse_cons, List.append_assoc,
      List.dropWhile_append_of_pos hextension]
    rfl
  unfold stem
  rw [hdrop]
  simp [hname]

/-! ## Another extension -/

/-- The path ends with a name of two dots and an extension. -/
def IsDotted (path above name : String) : Prop :=
  path = above ++ name ∧ ∃ extension, name = ".." ++ extension ∧ '.' ∉ extension.toList

section Extension

variable {path above name : String}

theorem stem_of_dotted (hdotted : IsDotted path above name) : stem name.toList = ['.'] := by
  obtain ⟨-, extension, rfl, hdot⟩ := hdotted
  rw [String.toList_append]
  exact stem_append_extension (List.cons_ne_nil '.' []) hdot

/-- Of a name with an extension, the cut leaves the stem, the dot, and as many characters as
followed the dot and the extension. -/
theorem EndsIn.cutExtension_eq (hends : EndsIn path above name) {rest extension : List Char}
    (hpath : path.toList = above.toList ++ name.toList ++ rest)
    (hname : name.toList = stem name.toList ++ '.' :: extension) :
    cutExtension path.toList =
      above.toList ++ (stem name.toList ++ '.' :: extension.take rest.length) ++
        rest.take (rest.length - extension.length) := by
  have hcut : name.toList.length - (stem name.toList).length - 1 = extension.length := by
    have hlength := congrArg List.length hname
    rw [List.length_append, List.length_cons] at hlength
    omega
  have hspelling : path.toList =
      (above.toList ++ stem name.toList ++ ['.']) ++ (extension ++ rest) := by
    rw [hpath]
    conv_lhs => rw [hname]
    simp
  have hlength : path.toList.length - extension.length =
      (above.toList ++ stem name.toList ++ ['.']).length + rest.length := by
    simp only [hspelling, List.length_append]
    omega
  rw [cutExtension, hends.lastName_eq, hcut, hlength, hspelling, List.take_length_add_append,
    List.take_append]
  simp

theorem EndsIn.cutExtension_of_dotted (hends : EndsIn path above name)
    (hdotted : IsDotted path above name) :
    cutExtension path.toList = above.toList ++ ['.', '.'] := by
  have hstem := stem_of_dotted hdotted
  obtain ⟨hpath, extension, hname, -⟩ := hdotted
  have hspelling : path.toList = above.toList ++ name.toList ++ [] := by
    rw [hpath, String.toList_append, List.append_nil]
  have hextension : name.toList = stem name.toList ++ '.' :: extension.toList := by
    rw [hstem, hname, String.toList_append]
    rfl
  rw [hends.cutExtension_eq hspelling hextension, hstem]
  simp

/-- A stem with a dot and more after it is the name of a file, unless it is two dots. -/
theorem isProperName_append_extension {front extension : List Char} (hfront : front ≠ [])
    (hdots : ¬ (front = ['.'] ∧ extension = [])) :
    isProperName (front ++ '.' :: extension) = true := by
  obtain ⟨first, others, rfl⟩ := List.exists_cons_of_ne_nil hfront
  cases others with
  | nil => simpa [isProperName, imp_iff_not_or] using hdots
  | cons second others => simp [isProperName]

/-- Unless two dots are left, the cut leaves a name with the same stem. -/
theorem EndsIn.cutExtension_of_not_dotted (hends : EndsIn path above name)
    (hsound : ¬ IsDotted path above name) :
    ∃ kept, EndsIn (String.ofList (cutExtension path.toList)) above kept ∧
      stem kept.toList = stem name.toList := by
  obtain ⟨rest, hpath, hidle⟩ := hends.spelling
  rcases eq_stem_or_extension name.toList with hname | ⟨extension, hname, hdot⟩
  · -- Without an extension nothing is cut off.
    have hwhole : cutExtension path.toList = path.toList := by
      rw [cutExtension, hends.lastName_eq, ← hname]
      simp
    exact ⟨name, by rwa [hwhole, String.ofList_toList], rfl⟩
  · have hsome : stem name.toList ≠ [] := stem_ne_nil hends.nonempty
    have hslash : '/' ∉ stem name.toList ++ '.' :: extension.take rest.length := by
      have hwhole := hends.slash
      rw [hname, List.mem_append, List.mem_cons] at hwhole
      rw [List.mem_append, List.mem_cons]
      exact fun hmem => hwhole (hmem.imp_right (Or.imp_right List.mem_of_mem_take))
    -- Two dots are left only where nothing follows the name, and then it is dotted.
    have hdots : ¬ (stem name.toList = ['.'] ∧ extension.take rest.length = []) := by
      rintro ⟨hstem, hnone⟩
      rw [hstem] at hname
      rcases List.take_eq_nil_iff.mp hnone with hnone | hnone
      · refine hsound ⟨?_, String.ofList extension, ?_, by simpa using hdot⟩
        · rw [List.length_eq_zero_iff] at hnone
          rw [← String.toList_inj, hpath, hnone, String.toList_append, List.append_nil]
        · rw [← String.toList_inj, hname]
          simp
      · refine hends.proper.2.2 (String.toList_inj.mp ?_)
        rw [hname, hnone]
        rfl
    have hleft : IsIdle (rest.take (rest.length - extension.length)) := hidle.take _
    refine ⟨String.ofList (stem name.toList ++ '.' :: extension.take rest.length),
      ⟨⟨_, ?_, hleft⟩, hends.above, by simpa using hslash, ?_⟩, ?_⟩
    · rw [String.toList_ofList, String.toList_ofList, hends.cutExtension_eq hpath hname]
    · refine isProperName_iff.mp ?_
      rw [String.toList_ofList]
      exact isProperName_append_extension hsome hdots
    · rw [String.toList_ofList]
      exact stem_append_extension hsome fun hmem => hdot (List.mem_of_mem_take hmem)

theorem EndsIn.setExtension_eq (hends : EndsIn path above name) (extension : String) :
    setExtension path.toList extension =
      above ++ String.ofList (stem name.toList) ++ "." ++ extension := by
  have hproper : isProperName name.toList = true := isProperName_iff.mpr hends.proper
  simp only [setExtension, hends.lastName_eq, hends.beforeLastName_eq, if_pos hproper,
    String.ofList_append, String.ofList_toList]

/-- Two dots at the end are kept by trimming, and they are the last name then. -/
theorem lastName_trimPath_dots {front : List Char} (hfront : IsAbove front) :
    lastName (trimPath (front ++ ['.', '.'])) = ['.', '.'] := by
  have hshape : Shape (front ++ ['.', '.']) front ['.', '.'] :=
    ⟨⟨[], by simp, by simp⟩, hfront, by decide, by decide⟩
  rw [hshape.trimPath_eq (by decide)]
  exact (splitLastName hfront hshape.slash).1

/-- Two dots stay as they are. -/
theorem setExtension_dots (habove : IsAbove above.toList) (extension : String) :
    setExtension (above.toList ++ ['.', '.']) extension = above ++ ".." := by
  have hstep : isProperName ['.', '.'] ≠ true := by decide
  simp only [setExtension, lastName_trimPath_dots habove, if_neg hstep]
  rw [String.ofList_append, String.ofList_toList]

theorem EndsIn.withExtension_of_dotted (hends : EndsIn path above name)
    (hdotted : IsDotted path above name) (extension : String) :
    withExtension path extension = above ++ ".." := by
  rw [withExtension, hends.cutExtension_of_dotted hdotted, setExtension_dots hends.above]

theorem EndsIn.withExtension_of_not_dotted (hends : EndsIn path above name)
    (hsound : ¬ IsDotted path above name) (extension : String) :
    withExtension path extension =
      above ++ String.ofList (stem name.toList) ++ "." ++ extension := by
  obtain ⟨kept, hkept, hstem⟩ := hends.cutExtension_of_not_dotted hsound
  have hset := hkept.setExtension_eq extension
  rwa [String.toList_ofList, hstem] at hset

end Extension

/-! ## Names of temporary files -/

/-- The last name of the path of a temporary file. -/
def temporaryName (name : List Char) (process : Nat) : List Char :=
  stem name ++ '.' :: ("tmp." ++ toString process).toList

theorem slash_notMem_extension (process : Nat) : '/' ∉ ("tmp." ++ toString process).toList := by
  rw [String.toList_append, List.mem_append, not_or]
  refine ⟨by decide, fun hmem => ?_⟩
  exact absurd (isDigit_of_mem_toString hmem) (by decide)

theorem slash_notMem_temporaryName {name : List Char} (hslash : '/' ∉ name) (process : Nat) :
    '/' ∉ temporaryName name process := by
  have hstem : '/' ∉ stem name := by
    rcases eq_stem_or_extension name with heq | ⟨extension, heq, -⟩
    · rwa [← heq]
    · rw [heq] at hslash
      exact fun hmem => hslash (List.mem_append_left _ hmem)
  rw [temporaryName, List.mem_append, List.mem_cons, not_or, not_or]
  exact ⟨hstem, by decide, slash_notMem_extension process⟩

/-- The temporary file has another name than the settings. -/
theorem temporaryName_ne (name : List Char) (process : Nat) :
    temporaryName name process ≠ name := by
  intro hsame
  -- It is longer than the stem, and what follows the stem has a second dot.
  rcases eq_stem_or_extension name with heq | ⟨extension, heq, hdot⟩
  · have hlength := congrArg List.length (hsame.trans heq)
    simp [temporaryName] at hlength
  · have hextension := List.append_cancel_left (hsame.trans heq)
    refine hdot ?_
    rw [← (List.cons.inj hextension).2, String.toList_append]
    exact List.mem_append_left _ (by decide)

/-- Each process has a temporary file of its own. -/
theorem temporaryName_injective (name : List Char) :
    Function.Injective (temporaryName name) := by
  intro first second hsame
  have hextension := (List.cons.inj (List.append_cancel_left hsame)).2
  have hdigits : Nat.toDigits 10 first = Nat.toDigits 10 second := by
    simp only [String.toList_append, Nat.toString_eq_ofList_toDigits, String.toList_ofList]
      at hextension
    exact List.append_cancel_left hextension
  calc
    first = Nat.ofDigitChars 10 (Nat.toDigits 10 first) 0 := Nat.ofDigitChars_ten_toDigits.symm
    _ = Nat.ofDigitChars 10 (Nat.toDigits 10 second) 0 := by rw [hdigits]
    _ = second := Nat.ofDigitChars_ten_toDigits

/-- A name after what stands above it adds one name to those above. -/
theorem names_append_name {above name : String} (habove : IsAbove above.toList)
    (hslash : '/' ∉ name.toList) (hname : name.toList ≠ []) :
    Tree.names (above ++ name) = Tree.names above ++ [name] ∧
      isAbsolute (above ++ name).toList = isAbsolute above.toList := by
  rw [names_eq, names_eq, String.toList_append]
  refine ⟨?_, isAbsolute_append hslash _⟩
  rw [components_append habove, components_name hslash hname]
  simp

end FreightPromotion.Files

/-! ## The path of the temporary file -/

namespace FreightPromotion.Store

open FreightPromotion.Files

variable {store : Store}

/-- The last name of the path of the temporary file. -/
def temporaryName (store : Store) (name : String) : String :=
  String.ofList (Files.temporaryName name.toList store.process)

theorem slash_notMem_temporaryName {name : String} (hslash : '/' ∉ name.toList) :
    '/' ∉ (store.temporaryName name).toList := by
  rw [temporaryName, String.toList_ofList]
  exact Files.slash_notMem_temporaryName hslash store.process

/-- It has another name than the settings. -/
theorem temporaryName_ne (store : Store) (name : String) : store.temporaryName name ≠ name := by
  intro hsame
  refine Files.temporaryName_ne name.toList store.process ?_
  rw [← String.toList_ofList (l := Files.temporaryName name.toList store.process)]
  exact congrArg String.toList hsame

/-- The name of a temporary file is longer than the dots. -/
theorem temporaryName_proper (store : Store) (name : String) :
    store.temporaryName name ≠ "." ∧ store.temporaryName name ≠ ".." := by
  have hlength : 5 ≤ (store.temporaryName name).toList.length := by
    simp [temporaryName, Files.temporaryName]
    omega
  constructor
  all_goals
    intro hname
    rw [hname] at hlength
    exact absurd hlength (by decide)

/-- Each process has a temporary file of its own. -/
theorem process_eq_of_temporaryName {other : Store} {name : String}
    (hsame : store.temporaryName name = other.temporaryName name) :
    store.process = other.process := by
  refine Files.temporaryName_injective name.toList ?_
  rw [temporaryName, temporaryName] at hsame
  exact String.ofList_injective hsame

section Path

variable {above name : String}

theorem temporaryPath_of_dotted (hends : EndsIn store.path above name)
    (hdotted : IsDotted store.path above name) : store.temporaryPath = above ++ ".." :=
  hends.withExtension_of_dotted hdotted _

theorem temporaryPath_of_not_dotted (hends : EndsIn store.path above name)
    (hsound : ¬ IsDotted store.path above name) :
    store.temporaryPath = above ++ store.temporaryName name := by
  rw [temporaryPath, hends.withExtension_of_not_dotted hsound, ← String.toList_inj]
  simp [temporaryName, Files.temporaryName]

end Path

/-- A path without names is its own temporary path. -/
theorem temporaryPath_of_nameless (hnames : Tree.names store.path = []) :
    store.temporaryPath = store.path := by
  have htrimmed : trimPath store.path.toList = [] := by
    by_contra hleft
    have hinitial := components_trimPath store.path.toList
    rw [(shape_trimPath hleft).components_eq] at hinitial
    rw [names_eq, List.map_eq_nil_iff] at hnames
    simp [hnames] at hinitial
  have hcut : cutExtension store.path.toList = store.path.toList := by
    rw [cutExtension, htrimmed]
    exact List.take_length
  have hnobody : isProperName (lastName []) ≠ true := by decide
  simp only [temporaryPath, withExtension, hcut, setExtension, htrimmed, if_neg hnobody,
    String.ofList_toList]

/-- The path of the temporary file has another last name than that of the settings. -/
theorem names_temporaryPath {above : List String} {name : String}
    (hnames : Tree.names store.path = above ++ [name]) (hname : name ≠ "." ∧ name ≠ "..") :
    ∃ temporary, (temporary = store.temporaryName name ∨ temporary = "..") ∧
      Tree.names store.temporaryPath = above ++ [temporary] ∧
      isAbsolute store.temporaryPath.toList = isAbsolute store.path.toList := by
  obtain ⟨before, hshape, rfl⟩ := exists_shape_of_names hnames
  have hends := hshape.endsIn hname
  obtain ⟨temporary, hcases, hpath, hslash⟩ : ∃ temporary,
      (temporary = store.temporaryName name ∨ temporary = "..") ∧
        store.temporaryPath = String.ofList before ++ temporary ∧ '/' ∉ temporary.toList := by
    by_cases hdotted : IsDotted store.path (String.ofList before) name
    · exact ⟨_, .inr rfl, temporaryPath_of_dotted hends hdotted, by decide⟩
    · exact ⟨_, .inl rfl, temporaryPath_of_not_dotted hends hdotted,
        slash_notMem_temporaryName hshape.slash⟩
  have hsome : temporary.toList ≠ [] := by
    rcases hcases with rfl | rfl
    · simp [temporaryName, Files.temporaryName]
    · decide
  obtain ⟨hnames, habsolute⟩ := names_append_name hends.above hslash hsome
  refine ⟨temporary, hcases, ?_, ?_⟩
  · rw [hpath, hnames, names_eq, String.toList_ofList]
  · rw [hpath, habsolute, String.toList_ofList, hshape.isAbsolute_eq]

end FreightPromotion.Store
