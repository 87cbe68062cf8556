import FreightPromotion.Proofs.StoredServer
import FreightPromotion.Proofs.Violations

/-!
# Options that are given as empty texts

An empty text means that an option was not given, so leaving it out should change nothing.  Every
option but one keeps to that: an absent option and an empty one become the same text
(`PromoteArguments.options_of_omits`), and of the format only what was asked for counts
(`promote_congr`).

The project is the exception.  One that is given, be it empty, stands in front of the project of the
settings, which is meant when none was given.  If the settings have one, the promotion with the
empty project is refused for want of a project, and the one that leaves it out is not
(`empty_option_counts_as_absent`).
-/

namespace FreightPromotion

open FreightPromotion.Files (Tree)

/-! ## Leaving out options -/

/-- The option is kept as it is, or it is empty and is left out. -/
def Omits (given kept : Option String) : Prop :=
  kept = given ∨ given = some "" ∧ kept = none

/-- Some of the options that are empty are left out. -/
structure PromoteArguments.Omits (arguments fewer : PromoteArguments) : Prop where
  project : FreightPromotion.Omits arguments.project fewer.project
  freight : FreightPromotion.Omits arguments.freight fewer.freight
  freightAlias : FreightPromotion.Omits arguments.freightAlias fewer.freightAlias
  stage : FreightPromotion.Omits arguments.stage fewer.stage
  subscribersOf : FreightPromotion.Omits arguments.subscribersOf fewer.subscribersOf
  output : FreightPromotion.Omits arguments.output fewer.output

section Omits

variable {given kept : Option String}

theorem Omits.getD_eq (homits : Omits given kept) : given.getD "" = kept.getD "" := by
  rcases homits with rfl | ⟨rfl, rfl⟩ <;> rfl

theorem Omits.bind_given? (homits : Omits given kept) : given.bind given? = kept.bind given? := by
  rcases homits with rfl | ⟨rfl, rfl⟩ <;> rfl

end Omits

/-! ## What the options of a promotion decide -/

/-- Of the format, a promotion depends on what was asked for only. -/
theorem promote_congr {options : Options} {label? : Option String} (deadline : Deadline)
    (connect : Traced (Result Service)) (sink : Sink)
    (hformat : options.format? = label?.bind given?) :
    promote deadline { options with outputFormat := label? } connect sink =
      promote deadline options connect sink := by
  have hsame : ({ options with outputFormat := label? } : Options).format? = options.format? :=
    hformat.symm
  have hunsupported : ({ options with outputFormat := label? } : Options).unsupportedFormat? =
      options.unsupportedFormat? := by
    rw [Options.unsupportedFormat?, Options.unsupportedFormat?, hsame]
  have hvalidate : ({ options with outputFormat := label? } : Options).validate =
      options.validate := by
    simp only [Options.validate, Options.violations, hunsupported]
    rfl
  have hpresentation : ({ options with outputFormat := label? } : Options).presentation =
      options.presentation := by
    rw [Options.presentation, Options.presentation, hsame]
  simp only [promote, hvalidate, hpresentation]

section Arguments

variable {arguments fewer : PromoteArguments} {settings : Settings}

/-- The options stay the same but for the format, unless an empty project hid that of the
settings. -/
theorem PromoteArguments.options_of_omits (homits : arguments.Omits fewer)
    (hproject : arguments.project = fewer.project ∨ settings.defaultProject? = none) :
    fewer.options settings = { arguments.options settings with outputFormat := fewer.output } := by
  have htext : (fewer.project <|> settings.defaultProject?).getD "" =
      (arguments.project <|> settings.defaultProject?).getD "" := by
    rcases hproject with hsame | hnone
    · rw [hsame]
    · rw [hnone]
      rcases homits.project with hsame | ⟨hempty, habsent⟩
      · rw [hsame]
      · rw [hempty, habsent]
        rfl
  simp only [PromoteArguments.options, htext, homits.freight.getD_eq, homits.freightAlias.getD_eq,
    homits.stage.getD_eq, homits.subscribersOf.getD_eq]

theorem PromoteArguments.promotion_of_omits (circumstances : Circumstances)
    (network : Http.Network) (sink : Sink) (homits : arguments.Omits fewer)
    (hproject : arguments.project = fewer.project ∨ settings.defaultProject? = none) :
    arguments.promotion circumstances network settings sink =
      fewer.promotion circumstances network settings sink := by
  have hformat : (arguments.options settings).format? = fewer.output.bind given? :=
    homits.output.bind_given?
  rw [PromoteArguments.promotion, PromoteArguments.promotion,
    PromoteArguments.options_of_omits homits hproject]
  exact (promote_congr _ _ _ hformat).symm

end Arguments

/-! ## Promotions without a project -/

theorem missingProject_mem_violations_iff {options : Options} :
    Violation.missingProject ∈ options.violations ↔ options.project = "" := by
  simp [Options.mem_violations_iff, Options.breaks_iff]

/-- Options without a project are refused, whatever else they say. -/
theorem validate_of_no_project {options : Options} (hproject : options.project = "") :
    options.validate = .error options.violations :=
  Options.validate_eq_error_iff.mpr
    ⟨rfl, List.ne_nil_of_mem (missingProject_mem_violations_iff.mpr hproject)⟩

/-- A promotion with a project is not refused for want of one. -/
theorem result_of_project {arguments : PromoteArguments} {circumstances : Circumstances}
    {network : Http.Network} {settings : Settings} {sink : Sink} {violations : List Violation}
    (hproject : (arguments.options settings).project ≠ "")
    (hresult : (Report.ofPromotion (arguments.promotion circumstances network settings sink)).result =
      .error { cause := .invalidOptions violations }) :
    Violation.missingProject ∉ violations := by
  cases hvalidate : (arguments.options settings).validate with
  | error broken =>
      rw [promotion_of_violations hvalidate] at hresult
      cases hresult
      rw [(Options.validate_eq_error_iff.mp hvalidate).1, missingProject_mem_violations_iff]
      exact hproject
  | ok request =>
      -- A promotion that is not refused fails for another reason, if it does.
      exfalso
      by_cases haddress : (settings.under circumstances).apiAddress = ""
      · rw [promotion_of_unaddressed hvalidate haddress] at hresult
        cases hresult
      · rw [promotion_of_addressed haddress] at hresult
        exact labels_of_promote hvalidate hresult rfl

/-- The project that is meant when none was given is not empty. -/
theorem Settings.getD_defaultProject?_ne_empty {settings : Settings}
    (hdefault : settings.defaultProject? ≠ none) : settings.defaultProject?.getD "" ≠ "" := by
  obtain ⟨project, hproject⟩ := Option.ne_none_iff_exists'.mp hdefault
  have hgiven := (Option.filter_eq_some_iff.mp hproject).2
  rw [hproject, Option.getD_some]
  simpa using hgiven

/-! ## Two runs -/

/-- A promotion leaves the files as they are. -/
theorem World.take_promote {world : World} (server : Http.Server) {circumstances : Circumstances}
    {settings : Settings} (arguments : PromoteArguments) (sink : Sink)
    (hload : circumstances.store.load world.tree = .ok settings) :
    let run :=
      arguments.promotion circumstances (server.network world.received) settings sink
    world.take server ⟨circumstances, .promote arguments, sink⟩ =
      (⟨world.tree, world.received + (Traced.posts run.steps).length⟩, .ofPromotion run) := by
  simp only [World.take, Command.run, hload, Client.service_of_settings, Traced.steps_bind,
    Traced.steps_pure, Traced.value_bind, Traced.value_pure, List.append_nil]
  rfl

/-- A promotion, and the same one with empty options left out.  They are the same in all that they
report and leave, whatever the settings are, and whatever the server answers, unless an empty
project is left out where the settings have one.

Then the promotion with the empty project is refused, and a missing project is among the reasons,
while the other one does not end like that. -/
theorem empty_option_counts_as_absent (world : World) (server : Http.Server)
    (circumstances : Circumstances) (arguments fewer : PromoteArguments) (sink : Sink)
    (homits : arguments.Omits fewer) :
    let given := world.take server ⟨circumstances, .promote arguments, sink⟩
    let omitted := world.take server ⟨circumstances, .promote fewer, sink⟩
    let hidden := arguments.project = some "" ∧ fewer.project = none ∧
      ∃ settings, circumstances.store.load world.tree = .ok settings ∧
        settings.defaultProject? ≠ none
    (given = omitted ↔ ¬ hidden) ∧ (given.2.result = omitted.2.result ↔ ¬ hidden) ∧
      (hidden → ∃ violations, Violation.missingProject ∈ violations ∧
        given.2 = ⟨[], sink.written, .error { cause := .invalidOptions violations }⟩) := by
  intro given omitted hidden
  cases hload : circumstances.store.load world.tree with
  | error failure =>
      have hsame : given = omitted := by
        simp only [given, omitted, World.take, Command.run, hload]
      have hvisible : ¬ hidden := by
        rintro ⟨-, -, settings, hsettings, -⟩
        rw [hload] at hsettings
        contradiction
      exact ⟨iff_of_true hsame hvisible, iff_of_true (by rw [hsame]) hvisible,
        fun hhidden => absurd hhidden hvisible⟩
  | ok settings =>
      have hgiven : given.2 = _ := World.report_promote world server arguments sink hload
      have homitted : omitted.2 = _ := World.report_promote world server fewer sink hload
      by_cases hhidden : hidden
      · obtain ⟨hempty, habsent, found, hfound, hdefault⟩ := id hhidden
        obtain rfl : settings = found := Except.ok.inj (hload.symm.trans hfound)
        have hnone : (arguments.options settings).project = "" := by
          simp [PromoteArguments.options, hempty]
        have hsome : (fewer.options settings).project ≠ "" := by
          simpa [PromoteArguments.options, habsent] using
            Settings.getD_defaultProject?_ne_empty hdefault
        rw [promotion_of_violations (validate_of_no_project hnone)] at hgiven
        have hmissing := missingProject_mem_violations_iff.mpr hnone
        -- The other one does not report what this one does.
        have hresults : given.2.result ≠ omitted.2.result := by
          intro hsame
          rw [hgiven, homitted] at hsame
          exact result_of_project hsome hsame.symm hmissing
        exact ⟨iff_of_false (fun hsame => hresults (by rw [hsame])) (not_not.mpr hhidden),
          iff_of_false hresults (not_not.mpr hhidden), fun _ => ⟨_, hmissing, hgiven⟩⟩
      · have hproject : arguments.project = fewer.project ∨ settings.defaultProject? = none := by
          rcases homits.project with hsame | ⟨hempty, habsent⟩
          · exact .inl hsame.symm
          · by_contra hother
            exact hhidden ⟨hempty, habsent, settings, hload, fun hnone => hother (.inr hnone)⟩
        have hsame : given = omitted := by
          simp only [given, omitted]
          rw [World.take_promote server arguments sink hload,
            World.take_promote server fewer sink hload,
            PromoteArguments.promotion_of_omits _ _ _ homits hproject]
        exact ⟨iff_of_true hsame hhidden, iff_of_true (by rw [hsame]) hhidden,
          fun hother => absurd hother hhidden⟩

/-- Options that are empty leave the project of the settings in place. -/
theorem empty_options_keep_stored_project :
    let stored : Settings := { apiAddress := "http://127.0.0.1:80", project := some "p" }
    let world : World :=
      { tree := { entries := [(["config.json"], .file (Store.contentOf stored))] } }
    let circumstances : Circumstances := { store := ⟨"config.json", 7⟩ }
    let fewer : PromoteArguments := { freight := some "f", stage := some "s" }
    let arguments : PromoteArguments :=
      { fewer with freightAlias := some "", subscribersOf := some "", output := some "" }
    arguments.Omits fewer ∧
      world.take ⟨80, [], .plain⟩ ⟨circumstances, .promote arguments, .unlimited⟩ =
        world.take ⟨80, [], .plain⟩ ⟨circumstances, .promote fewer, .unlimited⟩ := by
  intro stored world circumstances fewer arguments
  have homits : arguments.Omits fewer :=
    ⟨.inl rfl, .inl rfl, .inr ⟨rfl, rfl⟩, .inl rfl, .inr ⟨rfl, rfl⟩, .inr ⟨rfl, rfl⟩⟩
  obtain ⟨hsame, -⟩ :=
    empty_option_counts_as_absent world ⟨80, [], .plain⟩ circumstances arguments fewer .unlimited
      homits
  refine ⟨homits, hsame.mpr ?_⟩
  rintro ⟨hempty, -⟩
  exact absurd hempty nofun

/-- An empty project is not replaced by that of the settings, as a missing one is. -/
theorem empty_project_hides_stored_project :
    let stored : Settings := { apiAddress := "http://127.0.0.1:80", project := some "p" }
    let world : World :=
      { tree := { entries := [(["config.json"], .file (Store.contentOf stored))] } }
    let circumstances : Circumstances := { store := ⟨"config.json", 7⟩ }
    let fewer : PromoteArguments := { freight := some "f", stage := some "s" }
    let arguments : PromoteArguments := { fewer with project := some "" }
    let given := (world.take ⟨80, [], .plain⟩ ⟨circumstances, .promote arguments, .unlimited⟩).2
    let omitted := (world.take ⟨80, [], .plain⟩ ⟨circumstances, .promote fewer, .unlimited⟩).2
    given.result = .error { cause := .invalidOptions [.missingProject] } ∧
      given.result ≠ omitted.result := by
  intro stored world circumstances fewer arguments given omitted
  have hload : circumstances.store.load world.tree = .ok stored :=
    Store.load_of_written stored.writtenAt_alone
  have hinvalid : (arguments.options stored).validate = .error [.missingProject] := rfl
  have hgiven : given = _ := World.report_promote world ⟨80, [], .plain⟩ arguments .unlimited hload
  have homitted : omitted = _ := World.report_promote world ⟨80, [], .plain⟩ fewer .unlimited hload
  rw [promotion_of_violations hinvalid] at hgiven
  have hresult : given.result = .error { cause := .invalidOptions [.missingProject] } :=
    congrArg Report.result hgiven
  refine ⟨hresult, fun hsame => ?_⟩
  rw [hresult, homitted] at hsame
  exact result_of_project (by decide) hsame.symm List.mem_cons_self

end FreightPromotion
