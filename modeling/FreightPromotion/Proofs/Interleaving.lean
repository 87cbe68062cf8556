import FreightPromotion.Proofs.Replacement
import Mathlib.Data.List.Nodup

/-!
# Several saves at once

Processes that save settings at the same path take their steps in any order, each may
stop at any of them, and the document is written in pieces of any size.
`Saving.Step` is one step of one of them.

Only a move touches the settings (`Save.Step.settings`), no process touches the
temporary file of another one (`Save.Step.other`), and what the temporary file of a
process lacks is what it has still to write (`Save.Step.own`).  So a file that is
moved into place is complete, and the settings are never torn
(`settings_never_torn`).
-/

namespace FreightPromotion

open FreightPromotion.Files (IsPlain Location Tree)
open FreightPromotion.Files.Tree (ChangesAt Keeps)
open FreightPromotion.Text (Bytes)
open Relation (ReflTransGen)

/-! ## Saves and their steps -/

/-- How far a save has come: to the directories above the settings, to a temporary
file in which some bytes are still missing, or to its end. -/
inductive Stage where
  | preparing
  | writing (left : Bytes)
  | over
deriving DecidableEq

/-- A save of settings by a process. -/
structure Save where
  process : Nat
  settings : Settings
  stage : Stage := .preparing
deriving DecidableEq

/-- The store at a path as the process of the save uses it. -/
def Save.store (save : Save) (path : String) : Store where
  path := path
  process := save.process

/-- One step of a save.  It makes a directory, makes the temporary file empty, appends
a part of what is left, moves the complete file into place, or stops. -/
inductive Save.Step (path : String) : Tree → Save → Tree → Save → Prop
  | makeParent {tree next : Tree} {process : Nat} {settings : Settings}
      (hmake : (Store.mk path process).MakesParent tree next) :
      Step path tree ⟨process, settings, .preparing⟩ next ⟨process, settings, .preparing⟩
  | truncate {tree next : Tree} {process : Nat} {settings : Settings}
      (htruncate : tree.truncate (Store.mk path process).temporaryPath = .ok next) :
      Step path tree ⟨process, settings, .preparing⟩ next
        ⟨process, settings, .writing (Store.contentOf settings)⟩
  | append {tree next : Tree} {process : Nat} {settings : Settings} {part left : Bytes}
      (happend : tree.append (Store.mk path process).temporaryPath part = .ok next) :
      Step path tree ⟨process, settings, .writing (part ++ left)⟩ next
        ⟨process, settings, .writing left⟩
  | rename {tree next : Tree} {process : Nat} {settings : Settings}
      (hrename : tree.rename (Store.mk path process).temporaryPath path = .ok next) :
      Step path tree ⟨process, settings, .writing []⟩ next ⟨process, settings, .over⟩
  | stop {tree : Tree} {process : Nat} {settings : Settings} {stage : Stage} :
      Step path tree ⟨process, settings, stage⟩ tree ⟨process, settings, .over⟩

/-- Saves at one path, and the files that they have left so far. -/
structure Saving where
  tree : Tree
  saves : List Save

/-- One of the saves takes a step. -/
inductive Saving.Step (path : String) : Saving → Saving → Prop
  | mk {tree next : Tree} {before after : List Save} {save saved : Save}
      (hstep : Save.Step path tree save next saved) :
      Step path ⟨tree, before ++ save :: after⟩ ⟨next, before ++ saved :: after⟩

/-! ## What one step does -/

section Step

variable {path : String} {tree next : Tree} {save saved : Save} {content : Bytes}
  {above : List String} {name : String}

theorem Save.Step.same (hstep : Save.Step path tree save next saved) :
    saved.process = save.process ∧ saved.settings = save.settings := by
  cases hstep <;> exact ⟨rfl, rfl⟩

theorem Save.Step.keeps (hstep : Save.Step path tree save next saved) : Keeps tree next := by
  cases hstep with
  | makeParent hmake => exact hmake.keeps
  | truncate htruncate => exact (Store.Prepares.truncate htruncate).keeps
  | append happend => exact (Store.Prepares.append happend).keeps
  | rename hrename => exact Tree.keeps_of_rename hrename
  | stop => exact .refl _

/-- What the temporary file of a save lacks is what is left to write. -/
def Save.Traces (save : Save) (path : String) (tree : Tree) : Prop :=
  ∀ left, save.stage = .writing left → ∃ written,
    tree.read (save.store path).temporaryPath = .ok written ∧
      written ++ left = Store.contentOf save.settings

theorem Save.Step.own (hstep : Save.Step path tree save next saved)
    (htraces : save.Traces path tree) : saved.Traces path next := by
  intro left hleft
  cases hstep with
  | makeParent hmake => cases hleft
  | truncate htruncate =>
      cases hleft
      exact ⟨[], Tree.read_of_truncate htruncate, rfl⟩
  | append happend =>
      cases hleft
      obtain ⟨written, hread, hcontent⟩ := htraces _ rfl
      refine ⟨_, Tree.read_of_append hread happend, ?_⟩
      rwa [List.append_assoc]
  | rename hrename => cases hleft
  | stop => cases hleft

/-- The temporary file of a store is not changed where another process has its own,
or where the settings are. -/
theorem read_temporary_of_changesAt (store : Store) {location : Location}
    (hplain : IsPlain store.path) (hnames : Tree.names store.path = above ++ [name])
    (hchanges : ChangesAt location tree next)
    (hlocation : location = tree.location store.path ∨
      ∃ other : Store, other.process ≠ store.process ∧
        location = tree.start store.path ++ above ++ [other.temporaryName name])
    (hread : tree.read store.temporaryPath = .ok content) :
    next.read store.temporaryPath = .ok content := by
  obtain ⟨directory, temporary, hresolve, -⟩ := Tree.read_eq_ok_iff.mp hread
  refine hchanges.read hresolve ?_ hread
  rw [store.temporary_location hplain hnames hresolve]
  rcases hlocation with rfl | ⟨other, hother, rfl⟩
  · rw [Tree.location, hnames, ← List.append_assoc]
    intro hsame
    exact Store.temporaryName_ne store name
      (List.singleton_injective (List.append_cancel_left hsame))
  · intro hsame
    have hsame := List.singleton_injective (List.append_cancel_left hsame)
    exact hother (Store.process_eq_of_temporaryName hsame).symm

theorem Save.Step.other (hstep : Save.Step path tree save next saved) (hplain : IsPlain path)
    (hnames : Tree.names path = above ++ [name]) {other : Save}
    (hother : other.process ≠ save.process) (htraces : other.Traces path tree) :
    other.Traces path next := by
  intro left hleft
  obtain ⟨written, hread, hcontent⟩ := htraces left hleft
  refine ⟨written, ?_, hcontent⟩
  have htemporary : ∀ {reached directory temporary marked},
      tree.resolve (save.store path).temporaryPath = .ok (.name directory temporary marked) →
      ChangesAt (directory ++ [temporary]) tree reached →
      reached.read (other.store path).temporaryPath = .ok written := by
    intro reached directory temporary marked hresolve hchanges
    have hplace := Store.temporary_location (save.store path) hplain hnames hresolve
    exact read_temporary_of_changesAt (other.store path) hplain hnames hchanges
      (.inr ⟨save.store path, hother.symm, hplace⟩) hread
  cases hstep with
  | makeParent hmake => exact hmake.read hread
  | truncate htruncate =>
      obtain ⟨_, _, hresolve, hchanges⟩ := Tree.changesAt_of_truncate htruncate
      exact htemporary hresolve hchanges
  | append happend =>
      obtain ⟨_, _, hresolve, hchanges⟩ := Tree.changesAt_of_append happend
      exact htemporary hresolve hchanges
  | rename hrename =>
      obtain ⟨_, _, _, _, _, middle, hsource, htarget, hout, hin, _⟩ :=
        Tree.changesAt_of_rename hrename
      have hmiddle := htemporary hsource hout
      refine read_temporary_of_changesAt (other.store path) hplain hnames hin (.inl ?_) hmiddle
      have hstart : middle.start path = tree.start path := hout.keeps.start path
      rw [Tree.location_of_resolve hplain htarget, Tree.location, Tree.location]
      exact congrArg (· ++ Tree.names path) hstart.symm
  | stop => exact hread

/-- A step leaves the settings as they are, or puts those of the save in their place. -/
theorem Save.Step.settings (hstep : Save.Step path tree save next saved) (hplain : IsPlain path)
    (hnames : Tree.names path = above ++ [name]) (htraces : save.Traces path tree) :
    next.entry? (tree.location path) = tree.entry? (tree.location path) ∧
        (∀ content, tree.read path = .ok content → next.read path = .ok content) ∨
      next.read path = .ok (Store.contentOf save.settings) := by
  have htemporary : ∀ {directory temporary},
      tree.resolve (save.store path).temporaryPath = .ok (.name directory temporary false) →
      ChangesAt (directory ++ [temporary]) tree next →
      next.entry? (tree.location path) = tree.entry? (tree.location path) ∧
        ∀ content, tree.read path = .ok content → next.read path = .ok content := by
    intro directory temporary hresolve hchanges
    refine ⟨hchanges.others _ ?_, fun content hread =>
      (save.store path).read_of_changesAt_temporary hresolve hchanges hread⟩
    rw [(save.store path).temporary_location hplain hnames hresolve]
    exact (save.store path).beside_way hnames (Store.temporaryName_ne _ _) List.prefix_rfl
  cases hstep with
  | makeParent hmake =>
      refine .inl ⟨?_, fun content hread => hmake.read hread⟩
      obtain ⟨location, hlocation, -, hchanges⟩ := hmake.exists_location hplain
      exact hchanges.others _ hlocation.symm
  | truncate htruncate =>
      obtain ⟨_, _, hresolve, hchanges⟩ := Tree.changesAt_of_truncate htruncate
      exact .inl (htemporary hresolve hchanges)
  | append happend =>
      obtain ⟨_, _, hresolve, hchanges⟩ := Tree.changesAt_of_append happend
      exact .inl (htemporary hresolve hchanges)
  | rename hrename =>
      obtain ⟨_, _, _, _, _, middle, _, _, _, _, hmoved⟩ := Tree.changesAt_of_rename hrename
      obtain ⟨written, hread, hcontent⟩ := htraces [] rfl
      rw [List.append_nil] at hcontent
      exact .inr (hcontent ▸ hmoved _ hread)
  | stop => exact .inl ⟨rfl, fun content hread => hread⟩

end Step

/-! ## Runs -/

/-- What is true of the files at every moment, given those at the start. -/
structure Saving.Intact (path : String) (initial : Tree) (saving : Saving) : Prop where
  keeps : Keeps initial saving.tree
  settings : saving.tree.entry? (initial.location path) = initial.entry? (initial.location path) ∧
      (∀ content, initial.read path = .ok content → saving.tree.read path = .ok content) ∨
    ∃ settings ∈ saving.saves.map (·.settings),
      saving.tree.read path = .ok (Store.contentOf settings)
  traces : ∀ save ∈ saving.saves, save.Traces path saving.tree

section Run

variable {path : String} {initial : Tree} {saving next : Saving}

theorem Saving.Step.same (hstep : Saving.Step path saving next) :
    next.saves.map (·.process) = saving.saves.map (·.process) ∧
      next.saves.map (·.settings) = saving.saves.map (·.settings) := by
  cases hstep with
  | mk hstep =>
      obtain ⟨hprocess, hsettings⟩ := hstep.same
      simp [hprocess, hsettings]

theorem Saving.Step.intact {above : List String} {name : String}
    (hstep : Saving.Step path saving next) (hplain : IsPlain path)
    (hnames : Tree.names path = above ++ [name]) (hprocesses : (saving.saves.map (·.process)).Nodup)
    (hintact : saving.Intact path initial) : next.Intact path initial := by
  have hkept := hstep.same.2
  cases hstep with
  | @mk tree reached before after save saved hstep =>
      obtain ⟨hkeeps, hsettings, htraces⟩ := hintact
      have hsave : save ∈ before ++ save :: after := by simp
      have hplace : tree.location path = initial.location path := by
        rw [Tree.location, Tree.location, hkeeps.start]
      have hown := hstep.settings hplain hnames (htraces save hsave)
      rw [hplace] at hown
      refine ⟨hkeeps.trans hstep.keeps, ?_, ?_⟩
      · rcases hown with ⟨hsame, hreads⟩ | hmoved
        · rcases hsettings with ⟨hentry, hinitial⟩ | ⟨settings, hmem, hread⟩
          · exact .inl ⟨hsame.trans hentry, fun content hread => hreads _ (hinitial _ hread)⟩
          · exact .inr ⟨settings, hkept ▸ hmem, hreads _ hread⟩
        · exact .inr ⟨save.settings, hkept ▸ List.mem_map_of_mem hsave, hmoved⟩
      · -- The saves before and after the one that takes the step are of other processes.
        rw [List.map_append, List.map_cons, List.nodup_middle, ← List.map_append,
          List.nodup_cons] at hprocesses
        intro other hother
        rcases List.mem_append.mp hother with hbefore | hother
        · have hmem := List.mem_append_left after hbefore
          refine hstep.other hplain hnames (fun hsame => hprocesses.1 ?_)
            (htraces other (by simp [hbefore]))
          exact hsame ▸ List.mem_map_of_mem hmem
        · rcases List.mem_cons.mp hother with rfl | hafter
          · exact hstep.own (htraces save hsave)
          · have hmem := List.mem_append_right before hafter
            refine hstep.other hplain hnames (fun hsame => hprocesses.1 ?_)
              (htraces other (by simp [hafter]))
            exact hsame ▸ List.mem_map_of_mem hmem

theorem Saving.intact_of_reaches {above : List String} {name : String}
    {tree : Tree} {saves : List Save} (hplain : IsPlain path)
    (hnames : Tree.names path = above ++ [name])
    (hfresh : ∀ save ∈ saves, save.stage = .preparing)
    (hprocesses : (saves.map (·.process)).Nodup)
    (hrun : ReflTransGen (Saving.Step path) ⟨tree, saves⟩ saving) :
    saving.Intact path tree ∧ saving.saves.map (·.process) = saves.map (·.process) ∧
      saving.saves.map (·.settings) = saves.map (·.settings) := by
  induction hrun with
  | refl =>
      refine ⟨⟨.refl tree, .inl ⟨rfl, fun _ => id⟩, fun save hsave left hleft => ?_⟩, rfl, rfl⟩
      rw [hfresh save hsave] at hleft
      cases hleft
  | tail _ hstep ih =>
      obtain ⟨hintact, hsame, hsettings⟩ := ih
      obtain ⟨hprocess, hkept⟩ := hstep.same
      refine ⟨hstep.intact hplain hnames ?_ hintact, hprocess.trans hsame, hkept.trans hsettings⟩
      rwa [hsame]

/-- What replaces the content in one go is the steps of one save. -/
theorem Saving.reaches_replacement {tree reached : Tree} {process : Nat} {settings : Settings}
    {result : Result Unit} (before after : List Save)
    (hreplacement :
      (Store.mk path process).Replacement (Store.contentOf settings) tree reached result) :
    ReflTransGen (Saving.Step path) ⟨tree, before ++ ⟨process, settings, .preparing⟩ :: after⟩
      ⟨reached, before ++ ⟨process, settings, .over⟩ :: after⟩ := by
  have hprepare : ∀ {prepared}, ReflTransGen (Store.mk path process).MakesParent tree prepared →
      ReflTransGen (Saving.Step path) ⟨tree, before ++ ⟨process, settings, .preparing⟩ :: after⟩
        ⟨prepared, before ++ ⟨process, settings, .preparing⟩ :: after⟩ := by
    intro prepared hparents
    induction hparents with
    | refl => exact .refl
    | tail _ hmake ih => exact ih.tail (.mk (.makeParent hmake))
  have hwrite : ∀ {emptied written : Tree},
      emptied.append (Store.mk path process).temporaryPath (Store.contentOf settings) =
        .ok written →
      Save.Step path emptied ⟨process, settings, .writing (Store.contentOf settings)⟩ written
        ⟨process, settings, .writing []⟩ := by
    intro emptied written happend
    have hstep : Save.Step path emptied ⟨process, settings, .writing (_ ++ [])⟩ written
      ⟨process, settings, .writing []⟩ := .append happend
    rwa [List.append_nil] at hstep
  cases hreplacement with
  | prepared hparents => exact (hprepare hparents).tail (.mk .stop)
  | emptied hparents htruncate =>
      exact ((hprepare hparents).tail (.mk (.truncate htruncate))).tail (.mk .stop)
  | written hparents htruncate happend =>
      exact (((hprepare hparents).tail (.mk (.truncate htruncate))).tail
        (.mk (hwrite happend))).tail (.mk .stop)
  | moved hparents htruncate happend hrename =>
      exact (((hprepare hparents).tail (.mk (.truncate htruncate))).tail
        (.mk (hwrite happend))).tail (.mk (.rename hrename))

/-- What could not be read at the start cannot be read while its place is untouched. -/
theorem Saving.Intact.read {saving : Saving} (hintact : saving.Intact path initial)
    (hplain : IsPlain path) (hformed : initial.WellFormed)
    (hentry : saving.tree.entry? (initial.location path) = initial.entry? (initial.location path))
    {content : Bytes} (hread : saving.tree.read path = .ok content) :
    initial.read path = .ok content := by
  obtain ⟨hlegible, hfile⟩ := Tree.legible_of_read hplain hread
  have hplace : saving.tree.location path = initial.location path := by
    rw [Tree.location, Tree.location, hintact.keeps.start]
  rw [hplace, hentry] at hfile
  exact (hformed.read_eq_ok_iff hplain).mpr ⟨hlegible, hfile⟩

end Run

/-- Saves of settings at one path, each by a process of its own, in whatever order
their steps are taken and wherever they stop.  At every moment the settings can be
read as at the start, if they could be, or they are the complete document of one of
the saves and load as what it saves.

A save that is not interrupted takes these steps too, whatever the others have done
before and whatever it comes to. -/
theorem settings_never_torn {path : String} (hplain : IsPlain path) :
    (∀ tree before after process settings,
      ReflTransGen (Saving.Step path) ⟨tree, before ++ ⟨process, settings, .preparing⟩ :: after⟩
        ⟨(Store.save ⟨path, process⟩ settings tree).value.1,
          before ++ ⟨process, settings, .over⟩ :: after⟩) ∧
    ∀ tree saves reached, Tree.WellFormed tree → (∀ save ∈ saves, save.stage = .preparing) →
      (saves.map (·.process)).Nodup → ReflTransGen (Saving.Step path) ⟨tree, saves⟩ reached →
      (reached.tree.read path).toOption = (tree.read path).toOption ∨
        ∃ save ∈ saves, reached.tree.read path = .ok (Store.contentOf save.settings) ∧
          ∀ process, Store.load ⟨path, process⟩ reached.tree = .ok save.settings := by
  refine ⟨fun tree before after process settings =>
    Saving.reaches_replacement before after (Store.replacement_save ⟨path, process⟩ settings tree),
    fun tree saves reached hformed hfresh hprocesses hrun => ?_⟩
  rcases List.eq_nil_or_concat (Tree.names path) with hnone | ⟨above, name, hnames⟩
  · -- A path without a name is never that of a file.
    have hunread : ∀ (tree : Tree), (tree.read path).toOption = none := by
      intro tree
      cases hread : tree.read path with
      | error fault => rfl
      | ok content => exact absurd hnone (Tree.legible_of_read hplain hread).1.nonempty
    exact .inl (by rw [hunread, hunread])
  · rw [List.concat_eq_append] at hnames
    obtain ⟨hintact, -, hsettings⟩ :=
      Saving.intact_of_reaches hplain hnames hfresh hprocesses hrun
    rcases hintact.settings with ⟨hentry, hinitial⟩ | ⟨settings, hmem, hread⟩
    · refine .inl ?_
      cases hread : tree.read path with
      | ok content => rw [hinitial content hread]
      | error fault =>
          cases hreached : reached.tree.read path with
          | error later => rfl
          | ok content =>
              have hread' := hintact.read hplain hformed hentry hreached
              rw [hread] at hread'
              cases hread'
    · rw [hsettings, List.mem_map] at hmem
      obtain ⟨save, hsave, rfl⟩ := hmem
      exact .inr ⟨save, hsave, hread, fun process => Store.load_contentOf hread⟩

/-- One process has emptied its temporary file when another one saves. -/
theorem interrupted_save_tears_nothing :
    let own : Settings := { project := some "prod", bearerToken := some "" }
    let other : Settings := { apiAddress := "http://127.0.0.1:8080" }
    ∃ reached,
      ReflTransGen (Saving.Step "config.json")
        ⟨{}, [⟨1, own, .preparing⟩, ⟨2, other, .preparing⟩]⟩
        ⟨reached, [⟨1, own, .over⟩, ⟨2, other, .writing (Store.contentOf other)⟩]⟩ ∧
      ((reached.read "config.json").toOption = none ∨
        ∃ settings ∈ [own, other], ∀ process,
          Store.load ⟨"config.json", process⟩ reached = .ok settings) := by
  intro own other
  obtain ⟨huninterrupted, huntorn⟩ := settings_never_torn (show IsPlain "config.json" by decide)
  have htemporary : Tree.resolve {} (Store.mk "config.json" 2).temporaryPath =
      .ok (.name [] "config.tmp.2" false) :=
    Tree.resolve_bare {} (by decide) (by decide) (by decide) (by decide)
  have htruncate := Tree.truncate_eq_ok_iff.mpr ⟨_, _, htemporary, by decide, rfl⟩
  have hother : Saving.Step "config.json" ⟨{}, [⟨1, own, .preparing⟩] ++ [⟨2, other, .preparing⟩]⟩
      ⟨_, [⟨1, own, .preparing⟩] ++ [⟨2, other, .writing (Store.contentOf other)⟩]⟩ :=
    .mk (.truncate htruncate)
  have hrun := (ReflTransGen.single hother).trans (huninterrupted _ [] _ 1 own)
  refine ⟨_, hrun, ?_⟩
  have hmissing : Tree.read {} "config.json" = .error .notFound := by
    have hresolve : Tree.resolve {} "config.json" = .ok (.name [] "config.json" false) :=
      Tree.resolve_bare {} (by decide) (by decide) (by decide) (by decide)
    exact Tree.read_of_free hresolve rfl
  rcases huntorn _ _ _ (by decide) (by decide) (by decide) hrun with
    hinitial | ⟨save, hsave, -, hload⟩
  · exact .inl (by rw [hinitial, hmissing]; rfl)
  · exact .inr ⟨save.settings, by simpa using List.mem_map_of_mem hsave, hload⟩

end FreightPromotion
