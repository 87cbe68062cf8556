import FreightPromotion.Proofs.Attempts
import FreightPromotion.Proofs.Replacement

/-!
# Changes of the settings

A command that changes the settings loads them, changes them and saves them.  If it
succeeds, the changed settings are kept at the path from then on; if it fails, it has
at most prepared, and the settings are kept as they were (`KeptAt.update`).  The other
commands change no file.  So what is kept after a run of commands is what those of
them that succeeded make of the settings at the start (`settings_follow_changes`).

Preparing does not go without a trace.  Where no settings have been saved yet, the
directories above them may be missing, and then a path with a name that is too long is
not found and stands for the default settings.  A change that fails may have made
these directories, and from then on the same path is refused
(`failed_change_spoils_path`).
-/

namespace FreightPromotion

open FreightPromotion.Files (IsPlain Tree)
open FreightPromotion.Files.Tree (Unused)
open Relation (ReflTransGen)

/-! ## What is kept at a path -/

/-- The settings can be read from the file at the path, or they are the default and
there is nothing at the path. -/
inductive KeptAt (path : String) (tree : Tree) : Settings → Prop
  | written {settings : Settings} (hwritten : settings.WrittenAt path tree) :
      KeptAt path tree settings
  | unwritten (hunused : Unused path tree) : KeptAt path tree {}

/-- The failure to load from a path that has a name which is too long. -/
def Store.tooLong (path : String) : Failure where
  labels := ["read " ++ path]
  cause := .file .nameTooLong

section Kept

variable {store : Store} {tree next : Tree} {settings : Settings}

theorem keptAt_of_load (store : Store) (hplain : IsPlain store.path) (hformed : tree.WellFormed)
    (hload : store.load tree = .ok settings) : KeptAt store.path tree settings := by
  unfold Store.load at hload
  split at hload
  · rename_i hread
    cases hload
    exact .unwritten (hformed.unused_of_notFound hplain hread)
  · cases hload
  · rename_i content hread
    split at hload
    · rename_i hsettings
      cases hload
      exact .written ⟨content, hread, hsettings⟩
    · cases hload

/-- Settings that are kept are loaded, unless the path has a name that is too long. -/
theorem KeptAt.load (store : Store) (hkept : KeptAt store.path tree settings)
    (hplain : IsPlain store.path) :
    store.load tree = .ok settings ∨
      (∃ name ∈ Tree.names store.path, Tree.longestName < name.utf8ByteSize) ∧
        store.load tree = .error (Store.tooLong store.path) := by
  cases hkept with
  | written hwritten => exact .inl (Store.load_of_written hwritten)
  | unwritten hunused =>
      rcases hunused.read hplain with hread | ⟨hread, hlong⟩
      · exact .inl (Store.load_of_missing hread)
      · refine .inr ⟨hlong, ?_⟩
        unfold Store.load
        rw [hread]
        rfl

/-! ## Preparing keeps them -/

/-- No step before the last one puts a file at the path or on the way to it. -/
theorem Store.Prepares.unused (hstep : store.Prepares tree next) (hplain : IsPlain store.path)
    (hunused : Unused store.path tree) : Unused store.path next := by
  cases hunused with
  | nowhere hpath => exact .nowhere hpath
  | vacant hpath hnonempty hvacant =>
      refine .vacant hpath hnonempty ?_
      obtain ⟨above, name, hnames⟩ : ∃ above name, Tree.names store.path = above ++ [name] :=
        ⟨_, _, (List.dropLast_append_getLast hnonempty).symm⟩
      -- The temporary file is made and written at one place, beside the way.
      have htemporary : ∀ {directory other},
          tree.resolve store.temporaryPath = .ok (.name directory other false) →
          Tree.ChangesAt (directory ++ [other]) tree next → next.Vacant store.path := by
        intro directory other hresolve hchanges
        have hplace := store.temporary_location hplain hnames hresolve
        rw [hplace] at hchanges
        refine hvacant.of_changesAt hchanges ?_ (.inr fun before hbefore => ?_)
        · exact (store.beside_way hnames (store.temporaryName_ne name) List.prefix_rfl).symm
        · exact store.beside_way hnames (store.temporaryName_ne name) hbefore
      cases hstep with
      | makeParent hmake =>
          obtain ⟨location, hplace, hdirectory, hchanges⟩ := hmake.exists_location hplain
          exact hvacant.of_changesAt hchanges hplace (.inl hdirectory)
      | truncate htruncate =>
          obtain ⟨directory, other, hresolve, hchanges⟩ := Tree.changesAt_of_truncate htruncate
          exact htemporary hresolve hchanges
      | append happend =>
          obtain ⟨directory, other, hresolve, hchanges⟩ := Tree.changesAt_of_append happend
          exact htemporary hresolve hchanges

theorem Store.unused_of_prepares (hsteps : ReflTransGen store.Prepares tree next)
    (hplain : IsPlain store.path) (hunused : Unused store.path tree) :
    Unused store.path next := by
  induction hsteps with
  | refl => exact hunused
  | tail _ hstep ih => exact hstep.unused hplain ih

theorem KeptAt.prepare (hkept : KeptAt store.path tree settings) (hplain : IsPlain store.path)
    (hsteps : ReflTransGen store.Prepares tree next) : KeptAt store.path next settings := by
  cases hkept with
  | written hwritten => exact .written (Store.writtenAt_of_prepares hwritten hsteps)
  | unwritten hunused => exact .unwritten (Store.unused_of_prepares hsteps hplain hunused)

/-- After an update the changed settings are kept if it succeeded, and those before if
it failed. -/
theorem KeptAt.update (hkept : KeptAt store.path tree settings) (hplain : IsPlain store.path)
    (change : Settings → Settings) :
    KeptAt store.path (store.update change tree).value.1
      (if (store.update change tree).value.2.isOk then change settings else settings) := by
  rcases KeptAt.load store hkept hplain with hload | ⟨-, hload⟩
  · rw [Store.value_update hload]
    obtain ⟨result, hresult⟩ : ∃ result, (store.save (change settings) tree).value.2 = result :=
      ⟨_, rfl⟩
    rw [hresult]
    cases result with
    | error failure => exact hkept.prepare hplain (Store.prepares_of_save hresult)
    | ok done => exact .written (Store.writtenAt_of_save hresult)
  · unfold Store.update
    rw [hload]
    exact hkept

end Kept

/-! ## Changing and saying so -/

section Change

variable {change : Settings → Settings} {tree : Tree}

theorem Circumstances.change_of_error (circumstances : Circumstances) (confirmation : String)
    (sink : Sink) {failure : Failure}
    (hupdate : (circumstances.store.update change tree).value.2 = .error failure) :
    circumstances.change change confirmation tree sink =
      ⟨(circumstances.store.update change tree).steps,
        ⟨(circumstances.store.update change tree).value.1, sink, .error failure⟩⟩ := by
  simp [Circumstances.change, bind, pure, hupdate]

theorem Circumstances.change_of_ok (circumstances : Circumstances) (confirmation : String)
    (sink : Sink) {saved : Settings}
    (hupdate : (circumstances.store.update change tree).value.2 = .ok saved) :
    circumstances.change change confirmation tree sink =
      ⟨(circumstances.store.update change tree).steps,
        ⟨(circumstances.store.update change tree).value.1, sink.print (confirmation ++ "\n"),
          .ok ()⟩⟩ := by
  simp [Circumstances.change, bind, pure, hupdate]

end Change

/-! ## What turns ask for -/

/-- What the command of a turn makes of the settings if it succeeds. -/
def Turn.change (turn : Turn) (settings : Settings) : Settings :=
  match turn.command with
  | .promote _ | .viewSettings _ => settings
  | .setProject project => { settings with project := some project }
  | .setServer address =>
    { settings with
      apiAddress := trimSlashes address
      insecureSkipTlsVerify := turn.circumstances.insecureSkipTlsVerify }

/-- The project that a turn sets. -/
def Turn.project? (turn : Turn) : Option String :=
  match turn.command with
  | .setProject project => some project
  | _ => none

/-- The address that a turn sets, and the flag that it sets with it. -/
def Turn.server? (turn : Turn) : Option (String × Bool) :=
  match turn.command with
  | .setServer address =>
    some (trimSlashes address, turn.circumstances.insecureSkipTlsVerify)
  | _ => none

/-- The turns that succeeded, as their reports say. -/
def Turn.succeeded (turns : List Turn) (reports : List Report) : List Turn :=
  ((turns.zip reports).filter fun entry => entry.2.result.isOk).map Prod.fst

/-- The settings with the project that was set last, and with the address and the flag
that were set last. -/
def Settings.after (settings : Settings) (turns : List Turn) : Settings where
  apiAddress := ((turns.filterMap Turn.server?).getLast?.map Prod.fst).getD settings.apiAddress
  bearerToken := settings.bearerToken
  project := (turns.filterMap Turn.project?).getLast? <|> settings.project
  insecureSkipTlsVerify :=
    ((turns.filterMap Turn.server?).getLast?.map Prod.snd).getD settings.insecureSkipTlsVerify

theorem Settings.after_cons (settings : Settings) (turn : Turn) (turns : List Turn) :
    settings.after (turn :: turns) = (turn.change settings).after turns := by
  unfold Settings.after Turn.change
  rw [List.filterMap_cons, List.filterMap_cons]
  cases hcommand : turn.command with
  | promote arguments => simp [Turn.server?, Turn.project?, hcommand]
  | viewSettings asJson => simp [Turn.server?, Turn.project?, hcommand]
  | setProject project =>
      simp only [Turn.server?, Turn.project?, hcommand, List.getLast?_cons]
      cases (turns.filterMap Turn.project?).getLast? <;> rfl
  | setServer address =>
      simp only [Turn.server?, Turn.project?, hcommand, List.getLast?_cons]
      cases (turns.filterMap Turn.server?).getLast? <;> rfl

/-! ## Turns -/

section Turns

variable {world : World} {turn : Turn} {turns : List Turn}

/-- Promoting and showing the settings changes no file. -/
theorem World.tree_take (world : World) (server : Http.Server)
    (hcommand : (∃ arguments, turn.command = .promote arguments) ∨
      ∃ asJson, turn.command = .viewSettings asJson) :
    (world.take server turn).1.tree = world.tree := by
  rcases hcommand with ⟨arguments, hcommand⟩ | ⟨asJson, hcommand⟩
  · simp only [World.take, hcommand, Command.run]
    split <;> rfl
  · simp only [World.take, hcommand, Command.run]
    split <;> rfl

/-- A change of the settings is an update, and its result is that of the update. -/
theorem Circumstances.value_change (circumstances : Circumstances) (change : Settings → Settings)
    (confirmation : String) (tree : Tree) (sink : Sink) :
    let completion := (circumstances.change change confirmation tree sink).value
    completion.tree = (circumstances.store.update change tree).value.1 ∧
      completion.result.isOk = (circumstances.store.update change tree).value.2.isOk := by
  dsimp only
  cases hupdate : (circumstances.store.update change tree).value.2 with
  | error failure =>
      rw [circumstances.change_of_error confirmation sink hupdate]
      exact ⟨rfl, rfl⟩
  | ok saved =>
      rw [circumstances.change_of_ok confirmation sink hupdate]
      exact ⟨rfl, rfl⟩

/-- The turn is an update of the settings, and its result is that of the update. -/
def World.Updates (world : World) (server : Http.Server) (turn : Turn) : Prop :=
  let taken := world.take server turn
  let updated := (turn.circumstances.store.update turn.change world.tree).value
  taken.1.tree = updated.1 ∧ taken.2.result.isOk = updated.2.isOk

theorem World.updates_of_setProject (world : World) (server : Http.Server) {project : String}
    (hcommand : turn.command = .setProject project) (hproject : project.isEmpty = false) :
    world.Updates server turn := by
  have hchange : turn.change = fun settings => { settings with project := some project } := by
    funext settings
    rw [Turn.change, hcommand]
  simp only [World.Updates, World.take, hcommand, Command.run, hproject, hchange]
  exact Circumstances.value_change ..

theorem World.updates_of_setServer (world : World) (server : Http.Server) {address : String}
    (hcommand : turn.command = .setServer address) (haddress : address.isEmpty = false) :
    world.Updates server turn := by
  have hchange : turn.change = fun settings =>
      { settings with
        apiAddress := trimSlashes address
        insecureSkipTlsVerify := turn.circumstances.insecureSkipTlsVerify } := by
    funext settings
    rw [Turn.change, hcommand]
  simp only [World.Updates, World.take, hcommand, Command.run, haddress, hchange]
  exact Circumstances.value_change ..

/-- A turn updates the settings, or it changes no file, and nothing in the settings if
it succeeds. -/
theorem World.take_cases (world : World) (server : Http.Server) (turn : Turn) :
    world.Updates server turn ∨
      (world.take server turn).1.tree = world.tree ∧
        ((world.take server turn).2.result.isOk → turn.change = id) := by
  cases hcommand : turn.command with
  | promote arguments =>
      refine .inr ⟨world.tree_take server (.inl ⟨arguments, hcommand⟩), fun _ => ?_⟩
      funext settings
      rw [Turn.change, hcommand, id]
  | viewSettings asJson =>
      refine .inr ⟨world.tree_take server (.inr ⟨asJson, hcommand⟩), fun _ => ?_⟩
      funext settings
      rw [Turn.change, hcommand, id]
  | setProject project =>
      cases hempty : project.isEmpty with
      | false => exact .inl (world.updates_of_setProject server hcommand hempty)
      | true =>
          refine .inr ?_
          simp [World.take, hcommand, Command.run, hempty, Except.isOk, Except.toBool]
  | setServer address =>
      cases hempty : address.isEmpty with
      | false => exact .inl (world.updates_of_setServer server hcommand hempty)
      | true =>
          refine .inr ?_
          simp [World.take, hcommand, Command.run, hempty, Except.isOk, Except.toBool]

theorem KeptAt.take (server : Http.Server) {settings : Settings}
    (hkept : KeptAt turn.circumstances.store.path world.tree settings)
    (hplain : IsPlain turn.circumstances.store.path) :
    KeptAt turn.circumstances.store.path (world.take server turn).1.tree
      (if (world.take server turn).2.result.isOk then turn.change settings else settings) := by
  rcases world.take_cases server turn with ⟨htree, hresult⟩ | ⟨htree, hchange⟩
  · rw [htree, hresult]
    exact hkept.update hplain turn.change
  · rw [htree]
    split_ifs with hok
    · rwa [hchange hok]
    · exact hkept

theorem KeptAt.takeAll (server : Http.Server) {path : String} {settings : Settings}
    (hplain : IsPlain path) (hstore : ∀ turn ∈ turns, turn.circumstances.store.path = path)
    (hkept : KeptAt path world.tree settings) :
    KeptAt path (world.takeAll server turns).1.tree
      (settings.after (Turn.succeeded turns (world.takeAll server turns).2)) := by
  induction turns generalizing world settings with
  | nil => exact hkept
  | cons turn turns ih =>
      obtain rfl := hstore turn List.mem_cons_self
      have hlater := ih (fun other hother => hstore other (List.mem_cons_of_mem _ hother))
        (hkept.take server hplain)
      simp only [World.takeAll, Turn.succeeded, List.zip_cons_cons, List.filter_cons]
      split_ifs with hok
      · rw [List.map_cons, Settings.after_cons]
        rwa [if_pos hok] at hlater
      · rwa [if_neg hok] at hlater

end Turns

/-- Over every run of commands on one path, and after every prefix of it, the settings
that are loaded are those at the start with what the successful changes have set last:
the project, and the address with the flag that was given with it.  The token is
always that of the start.  Only where a name in the path is too long may loading fail
instead.  No promotion and no view changes any file. -/
theorem settings_follow_changes {path : String} (hplain : IsPlain path) (world : World)
    (hformed : world.tree.WellFormed) {process : Nat} {settings : Settings}
    (hload : Store.load ⟨path, process⟩ world.tree = .ok settings) (server : Http.Server)
    {turns : List Turn} (hstore : ∀ turn ∈ turns, turn.circumstances.store.path = path) :
    (∀ before, before <+: turns → ∀ process,
      let reached := world.takeAll server before
      Store.load ⟨path, process⟩ reached.1.tree =
          .ok (settings.after (Turn.succeeded before reached.2)) ∨
        (∃ name ∈ Tree.names path, Tree.longestName < name.utf8ByteSize) ∧
          Store.load ⟨path, process⟩ reached.1.tree = .error (Store.tooLong path)) ∧
    ∀ (reached : World) (turn : Turn),
      ((∃ arguments, turn.command = .promote arguments) ∨
        ∃ asJson, turn.command = .viewSettings asJson) →
      (reached.take server turn).1.tree = reached.tree := by
  refine ⟨fun before hbefore process => ?_, fun reached turn => reached.tree_take server⟩
  have hinitial : KeptAt path world.tree settings :=
    keptAt_of_load ⟨path, _⟩ hplain hformed hload
  have hkept := hinitial.takeAll server hplain fun turn hturn => hstore turn (hbefore.subset hturn)
  exact KeptAt.load ⟨path, process⟩ hkept hplain

/-- A new address leaves the token as it is, whether or not setting it succeeds. -/
theorem token_survives_new_address :
    let kept : Settings := { bearerToken := some "t", project := some "" }
    let tree : Tree := { entries := [(["config.json"], .file (Store.contentOf kept))] }
    let turn : Turn :=
      { circumstances := { store := ⟨"config.json", 7⟩ },
        command := .setServer "http://127.0.0.1/" }
    ∃ settings,
      Store.load ⟨"config.json", 8⟩ (World.takeAll ⟨tree, 0⟩ ⟨80, [], .plain⟩ [turn, turn]).1.tree =
          .ok settings ∧
        settings.bearerToken = some "t" := by
  intro kept tree turn
  have hload : Store.load ⟨"config.json", 7⟩ tree = .ok kept :=
    Store.load_of_written kept.writtenAt_alone
  have hplain : IsPlain "config.json" := by decide
  have hformed : tree.WellFormed := by decide
  have hstore : ∀ other ∈ [turn, turn], other.circumstances.store.path = "config.json" := by
    simp [turn]
  obtain ⟨hprefixes, -⟩ :=
    settings_follow_changes hplain ⟨tree, 0⟩ hformed hload ⟨80, [], .plain⟩ hstore
  rcases hprefixes _ List.prefix_rfl 8 with hreached | ⟨hlong, -⟩
  · exact ⟨_, hreached, rfl⟩
  · exact absurd hlong (by decide)

/-! ## A change that fails may have made directories -/

section Missing

variable {name : String} (hslash : '/' ∉ name.toList) (hlong : Tree.longestName < name.utf8ByteSize)

include hlong in
theorem proper_of_long : name ≠ "." ∧ name ≠ ".." := by
  constructor
  all_goals
    rintro rfl
    exact absurd hlong (by decide)

include hslash hlong in
theorem shape_in_directory :
    Files.Shape ("newdir/" ++ name).toList "newdir/".toList name.toList where
  spelling := ⟨[], by simp, by simp⟩
  above := .inr ⟨"newdir".toList, rfl⟩
  slash := hslash
  nonempty := by
    intro hempty
    obtain rfl : name = "" := String.toList_inj.mp hempty
    exact absurd hlong (by decide)

include hslash hlong in
theorem names_in_directory : Tree.names ("newdir/" ++ name) = ["newdir"] ++ [name] := by
  rw [Files.names_eq, (shape_in_directory hslash hlong).components_eq, List.map_append,
    List.map_singleton, String.ofList_toList]
  rfl

include hslash hlong in
theorem parent_in_directory (hdot : '.' ∉ name.toList) :
    Files.parent? ("newdir/" ++ name) = some "newdir" := by
  have hshape := shape_in_directory hslash hlong
  have hproper : name.toList ≠ ['.'] := by
    rintro hname
    simp [hname] at hdot
  unfold Files.parent?
  rw [hshape.trimPath_eq hproper]
  split
  · contradiction
  · rw [(Files.splitLastName hshape.above hslash).2]
    rfl

include hslash hlong in
/-- In a directory that is missing the name is not found, and in one that is there it is
too long. -/
theorem read_in_directory (hnul : '\x00' ∉ name.toList)
    (hlimit : name.utf8ByteSize + 7 < Tree.pathLimit) (tree : Tree) :
    tree.read ("newdir/" ++ name) =
      match tree.walk (tree.start ("newdir/" ++ name)) ["newdir"] with
      | .error fault => .error fault
      | .ok _ => .error .nameTooLong := by
  have hpath : Tree.Admissible ("newdir/" ++ name) := by
    have hsize : ("newdir/" ++ name).utf8ByteSize = 7 + name.utf8ByteSize := by
      rw [String.utf8ByteSize_append]
      rfl
    refine ⟨?_, ?_, by omega⟩
    · rw [String.toList_append, List.mem_append, not_or]
      exact ⟨by decide, hnul⟩
    · intro hempty
      rw [hempty, String.utf8ByteSize_empty] at hsize
      omega
  have hresolve := Tree.resolve_of_names tree hpath (names_in_directory hslash hlong)
    (proper_of_long hlong)
  unfold Tree.read
  rw [hresolve]
  cases tree.walk (tree.start ("newdir/" ++ name)) ["newdir"] with
  | error fault => rfl
  | ok directory =>
      simp only [hlong, if_true]

include hslash hlong in
/-- The temporary file cannot be made either. -/
theorem truncate_in_directory (hdot : '.' ∉ name.toList) (process : Nat) (tree : Tree) :
    ∃ fault, tree.truncate (Store.mk ("newdir/" ++ name) process).temporaryPath = .error fault := by
  cases htruncate : tree.truncate (Store.mk ("newdir/" ++ name) process).temporaryPath with
  | error fault => exact ⟨fault, rfl⟩
  | ok emptied =>
      obtain ⟨_, other, hresolve, -⟩ := Tree.truncate_eq_ok_iff.mp htruncate
      obtain ⟨-, above, -, -, -, hshort, -⟩ := Tree.resolve_eq_name_iff.mp hresolve
      let store : Store := ⟨"newdir/" ++ name, process⟩
      have hnames : Tree.names store.path = ["newdir"] ++ [name] := names_in_directory hslash hlong
      obtain ⟨rfl, -⟩ := Store.names_of_resolve_temporaryPath hnames (proper_of_long hlong) hresolve
      -- A name without a dot is its own stem, and the temporary name goes on from there.
      have hstem : Files.stem name.toList = name.toList := by
        rcases Files.eq_stem_or_extension name.toList with heq | ⟨extension, heq, -⟩
        · exact heq.symm
        · rw [heq] at hdot
          simp at hdot
      rw [Store.temporaryName, Files.temporaryName, hstem, String.ofList_append,
        String.ofList_toList, String.utf8ByteSize_append] at hshort
      omega

include hslash hlong in
/-- A missing file stands for the default settings.  A change of them fails, but the
directory that it has made is left, and then the path is refused. -/
theorem change_in_directory (hnul : '\x00' ∉ name.toList) (hdot : '.' ∉ name.toList)
    (hlimit : name.utf8ByteSize + 7 < Tree.pathLimit) {store : Store}
    (hstore : store.path = "newdir/" ++ name) (change : Settings → Settings) :
    store.load {} = .ok {} ∧ (store.update change {}).value.2.isOk = false ∧
      store.load (store.update change {}).value.1 = .error (Store.tooLong store.path) := by
  obtain ⟨path, process⟩ := store
  obtain rfl : path = "newdir/" ++ name := hstore
  have hread := read_in_directory hslash hlong hnul hlimit
  set made := Tree.put {} ["newdir"] .directory
  have hstart : Tree.start {} ("newdir/" ++ name) = [] ∧ made.start ("newdir/" ++ name) = [] := by
    simp [Tree.start, made, Tree.put]
  have hload : Store.load ⟨"newdir/" ++ name, process⟩ {} = .ok {} := by
    refine Store.load_of_missing ((hread {}).trans ?_)
    rw [hstart.1]
    rfl
  have hspoilt : Store.load ⟨"newdir/" ++ name, process⟩ made =
      .error (Store.tooLong ("newdir/" ++ name)) := by
    have hread : made.read ("newdir/" ++ name) = .error .nameTooLong := by
      rw [hread made, hstart.2]
      rfl
    unfold Store.load
    rw [hread]
    rfl
  have hparents : Store.makeParents ⟨"newdir/" ++ name, process⟩ {} = (made, .ok ()) := by
    unfold Store.makeParents
    rw [parent_in_directory hslash hlong hdot]
    rfl
  obtain ⟨fault, htruncate⟩ := truncate_in_directory hslash hlong hdot process made
  rw [Store.value_update hload]
  unfold Store.save Store.replace
  rw [hparents]
  unfold Store.writeTemporary
  simp only [htruncate]
  exact ⟨hload, rfl, hspoilt⟩

include hslash hlong in
/-- So does the command that sets a project. -/
theorem take_in_directory (hnul : '\x00' ∉ name.toList) (hdot : '.' ∉ name.toList)
    (hlimit : name.utf8ByteSize + 7 < Tree.pathLimit) (turn : Turn) {project : String}
    (hcommand : turn.command = .setProject project) (hproject : project.isEmpty = false)
    (hstore : turn.circumstances.store.path = "newdir/" ++ name) (server : Http.Server) :
    let taken := World.take ⟨{}, 0⟩ server turn
    turn.circumstances.store.load {} = .ok {} ∧ taken.2.result.isOk = false ∧
      turn.circumstances.store.load taken.1.tree =
        .error (Store.tooLong turn.circumstances.store.path) := by
  obtain ⟨hbefore, hresult, hafter⟩ :=
    change_in_directory hslash hlong hnul hdot hlimit hstore turn.change
  obtain ⟨htree, hok⟩ := World.updates_of_setProject ⟨{}, 0⟩ server hcommand hproject
  refine ⟨hbefore, hok.trans hresult, ?_⟩
  rw [htree]
  exact hafter

end Missing

/-- The settings are there at the start, a change fails, and they are not there any
more. -/
theorem failed_change_spoils_path :
    let path := "newdir/" ++ String.ofList (List.replicate 256 'a')
    let turn : Turn := { circumstances := { store := ⟨path, 1⟩ }, command := .setProject "p" }
    let taken := World.take { tree := {} } ⟨80, [], .plain⟩ turn
    (IsPlain path ∧ Tree.WellFormed {} ∧ Store.load ⟨path, 1⟩ {} = .ok {}) ∧
      taken.2.result.isOk = false ∧
      Store.load ⟨path, 1⟩ taken.1.tree = .error (Store.tooLong path) := by
  intro path turn taken
  have hletters : ∀ character, character ≠ 'a' →
      character ∉ (String.ofList (List.replicate 256 'a')).toList := by
    intro character hother hmem
    rw [String.toList_ofList] at hmem
    exact hother (List.eq_of_mem_replicate hmem)
  have hslash := hletters '/' (by decide)
  have hsize : (String.ofList (List.replicate 256 'a')).utf8ByteSize = 256 := by
    decide +kernel
  have hlong : Tree.longestName < (String.ofList (List.replicate 256 'a')).utf8ByteSize := by
    rw [hsize]
    decide
  have hlimit : (String.ofList (List.replicate 256 'a')).utf8ByteSize + 7 < Tree.pathLimit := by
    rw [hsize]
    decide
  have hplain : IsPlain path := by
    intro name hname
    rw [names_in_directory hslash hlong] at hname
    rcases List.mem_pair.mp hname with rfl | rfl
    · decide
    · exact proper_of_long hlong
  obtain ⟨hbefore, hresult, hafter⟩ := take_in_directory hslash hlong (hletters _ (by decide))
    (hletters _ (by decide)) hlimit turn rfl (by decide) rfl ⟨80, [], .plain⟩
  exact ⟨⟨hplain, by decide, hbefore⟩, hresult, hafter⟩

end FreightPromotion
