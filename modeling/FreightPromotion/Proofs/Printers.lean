import FreightPromotion.Proofs.Truncation

/-!
# Printers that are used again

A presentation can show one list of promotions after another.  With sinks that take everything it
does not matter where the lists are divided (`Printer.stream_append`), and all but the printer of
block style are the same afterwards, so that they show an outcome alike however often they have been
used (`Presentation.afterAll_of_stateless`).

The printer of block style counts the objects that it has printed to the end
(`Printer.afterJobs_yaml`), whatever the sinks were and wherever they broke off, and the separator
comes first once there is one (`separators_follow_printed_documents`).  No document begins with a
dash, so a separator cannot be mistaken for a document.
-/

namespace FreightPromotion

open FreightPromotion.Text (Bytes encode)

/-! ## New presentations -/

/-- Nothing has been shown yet: summary lines, or the printer that was built for a format. -/
def Presentation.IsNew (presentation : Presentation) : Prop :=
  presentation = .summary ∨
    ∃ label printer, Printer.ofLabel label = .ok printer ∧ presentation = .printed printer

theorem Presentation.IsNew.exists_fresh {presentation : Presentation} (hnew : presentation.IsNew) :
    ∃ format, presentation = .fresh format := by
  rcases hnew with rfl | ⟨label, printer, hprinter, rfl⟩
  · exact ⟨none, rfl⟩
  · obtain ⟨format, -, rfl⟩ := Printer.ofLabel_eq_ok_iff.mp hprinter
    exact ⟨some format, rfl⟩

/-! ## Lists that are divided -/

theorem Printer.stream_append (printer : Printer) (first second : List Resource) :
    printer.stream (first ++ second) =
      printer.stream first ++ (printer.after first).stream second := by
  induction first generalizing printer with
  | nil => rfl
  | cons resource first ih =>
      simp only [List.cons_append, Printer.stream, Printer.after, ih, List.append_assoc]

/-- What is shown of two lists, one after the other, is what is shown of both in one list. -/
theorem Presentation.show_append (format : Option Format) (first second : List Promotion) :
    let shown := (Presentation.fresh format).show first .unlimited
    let next := shown.1.show second .unlimited
    shown.2.1.written ++ next.2.1.written = rendering format (first ++ second) := by
  cases format with
  | none =>
      simp only [Presentation.fresh, Presentation.show, Sink.unlimited, writeParts_unlimited,
        rendering, List.flatMap_map, List.flatMap_append, List.nil_append]
  | some format =>
      simp only [Presentation.fresh, Presentation.show, Sink.unlimited, Press.printAll_unlimited,
        ← Printer.stream_ofFormat, List.map_append, Printer.stream_append, List.nil_append]

/-! ## Presentations without a state -/

/-- The presentation after it has shown outcomes, each of them in a sink of its own. -/
def Presentation.afterAll : Presentation → List (Outcome × Sink) → Presentation
  | presentation, [] => presentation
  | presentation, (outcome, sink) :: runs =>
    Presentation.afterAll (outcome.present presentation sink).value.1 runs

theorem Press.printer_printAll {press : Press} (hstateless : press.printer.next = press.printer)
    (resources : List Resource) : (press.printAll resources).1.printer = press.printer := by
  induction resources generalizing press with
  | nil => rfl
  | cons resource resources ih =>
      have hprint : (press.print resource).1.printer = press.printer := by
        unfold Press.print
        split
        split
        · exact hstateless
        · rfl
      rw [Press.printAll]
      split
      · rename_i next hnext
        have hnext : next.printer = press.printer := by rw [← hprint, hnext]
        rw [ih (by rw [hnext, hstateless]), hnext]
      · rename_i next failure hnext
        rw [← hprint, hnext]

/-- Showing an outcome changes the printer of block style only. -/
theorem Outcome.presentation_present {format : Option Format} (hformat : format ≠ some .yaml)
    (outcome : Outcome) (sink : Sink) :
    (outcome.present (.fresh format) sink).value.1 = .fresh format := by
  rw [Outcome.value_present]
  rcases format with _ | (_ | _ | _)
  · rfl
  · exact congrArg Presentation.printed (Press.printer_printAll rfl _)
  · contradiction
  · exact congrArg Presentation.printed (Press.printer_printAll rfl _)

theorem Presentation.afterAll_of_stateless {format : Option Format} (hformat : format ≠ some .yaml)
    (runs : List (Outcome × Sink)) : (Presentation.fresh format).afterAll runs = .fresh format := by
  induction runs with
  | nil => rfl
  | cons run runs ih =>
      rw [Presentation.afterAll, Outcome.presentation_present hformat, ih]

/-! ## What a sink takes -/

/-- What a sink takes of the bytes that are written to it. -/
def Sink.taken (sink : Sink) (content : Bytes) : Bytes :=
  match sink.room with
  | none => content
  | some room => content.take room

/-- A sink takes all of the bytes. -/
def Sink.HasRoomFor (sink : Sink) (content : Bytes) : Prop :=
  ∀ room ∈ sink.room, content.length ≤ room

section Taken

variable {sink : Sink} {content first second : Bytes}

theorem Sink.taken_prefix (sink : Sink) (content : Bytes) : sink.taken content <+: content := by
  rcases sink with ⟨written, _ | room⟩
  · exact List.prefix_rfl
  · exact List.take_prefix room content

/-- What is taken begins with all of the first bytes if there is room for them. -/
theorem Sink.prefix_taken_append_iff :
    first <+: sink.taken (first ++ second) ↔ sink.HasRoomFor first := by
  rcases sink with ⟨written, _ | room⟩
  · exact iff_of_true (List.prefix_append first second) nofun
  · have hbegin : first <+: (first ++ second).take room ↔ first.length ≤ room := by
      rw [List.prefix_take_iff]
      exact and_iff_right (List.prefix_append first second)
    simpa [Sink.taken, Sink.HasRoomFor] using hbegin

theorem writeParts_taken (sink : Sink) (parts : List (Part × Bytes)) :
    (writeParts sink parts).1.written = sink.written ++ sink.taken (parts.flatMap Prod.snd) ∧
      ((writeParts sink parts).2 = .ok () ↔ sink.HasRoomFor (parts.flatMap Prod.snd)) := by
  rcases sink with ⟨written, _ | room⟩
  · rw [writeParts_unlimited]
    exact ⟨rfl, iff_of_true rfl nofun⟩
  · obtain ⟨hwritten, hresult⟩ := writeParts_limited written room parts
    refine ⟨hwritten, ?_⟩
    have hcut : cutResult (marked parts)[room]? = .ok () ↔ (marked parts)[room]? = none := by
      cases (marked parts)[room]? <;> simp [cutResult]
    have hlength : (marked parts).length = (parts.flatMap Prod.snd).length := by
      rw [← map_snd_marked, List.length_map]
    rw [hresult, hcut, List.getElem?_eq_none_iff, hlength]
    simp [Sink.HasRoomFor]

end Taken

/-! ## Calls of a printer -/

/-- An object to print, and the sink that it goes into. -/
structure Job where
  resource : Resource
  sink : Sink

/-- Prints the object. -/
def Job.run (job : Job) (printer : Printer) : Press × Result Unit :=
  Press.print ⟨printer, job.sink⟩ job.resource

/-- The printer after a sequence of calls, whether they succeeded or not. -/
def Printer.afterJobs : Printer → List Job → Printer
  | printer, [] => printer
  | printer, job :: jobs => Printer.afterJobs (job.run printer).1.printer jobs

/-- How the calls ended. -/
def Printer.results : Printer → List Job → List (Result Unit)
  | _, [] => []
  | printer, job :: jobs =>
    (job.run printer).2 :: Printer.results (job.run printer).1.printer jobs

/-- A call takes the printer to the next one if the object was printed to the end, and it leaves
in the sink what that takes. -/
theorem Job.run_spec (job : Job) (printer : Printer) :
    let content := (printer.parts job.resource).flatMap Prod.snd
    (job.run printer).1.sink.written = job.sink.written ++ job.sink.taken content ∧
      ((job.run printer).2 = .ok () ↔ job.sink.HasRoomFor content) ∧
      (job.run printer).1.printer =
        if (job.run printer).2.isOk then printer.next else printer := by
  intro content
  obtain ⟨hwritten, hresult⟩ := writeParts_taken job.sink (printer.parts job.resource)
  unfold Job.run Press.print
  rcases hwrite : writeParts job.sink (printer.parts job.resource) with ⟨left, ⟨failure⟩ | ⟨⟩⟩ <;>
    rw [hwrite] at hwritten hresult
  · exact ⟨hwritten, hresult, rfl⟩
  · exact ⟨hwritten, hresult, rfl⟩

/-- The printer of block style counts the calls that succeeded. -/
theorem Printer.afterJobs_yaml (printed : Nat) (jobs : List Job) :
    (Printer.yaml printed).afterJobs jobs =
      .yaml (printed + ((Printer.yaml printed).results jobs).countP Except.isOk) := by
  induction jobs generalizing printed with
  | nil => rfl
  | cons job jobs ih =>
      obtain ⟨-, -, hprinter⟩ := job.run_spec (.yaml printed)
      rw [Printer.afterJobs, Printer.results, hprinter, List.countP_cons]
      split
      · rw [Printer.next, ih]
        congr 1
        omega
      · rw [ih]
        congr 1

theorem countP_isOk_eq_zero_iff {results : List (Result Unit)} :
    results.countP Except.isOk = 0 ↔ .ok () ∉ results := by
  rw [List.countP_eq_zero]
  constructor
  · exact fun hnone hok => hnone _ hok rfl
  · rintro hnone (failure | ⟨⟩) hresult
    · exact nofun
    · exact absurd hresult hnone

/-- A document in block style begins with its first key. -/
theorem document_apiVersion (value : Json.Value) (members : List Json.Member) :
    Yaml.document (.object (("apiVersion", value) :: members)) =
      "apiVersion:" ++ String.ofList
        (Yaml.writeNode 0 (.of "apiVersion") value ++ Yaml.writeMoreMembers 0 members) := by
  have hkey : Yaml.writeKey 0 "apiVersion" = "apiVersion:".toList := by decide
  rw [Yaml.document, if_neg (by simp), Yaml.writeMoreMembers, hkey, Yaml.indentation,
    List.replicate_zero, List.nil_append, List.append_assoc, String.ofList_append,
    String.ofList_toList]

/-- A separator does not begin a document, however little of the document there is. -/
theorem not_separatorLine_prefix_document {resource : Resource} {content : Bytes}
    (hcontent : content <+: encode (Yaml.document resource.document)) :
    ¬ separatorLine <+: content := by
  intro hseparator
  have hbegins := hseparator.trans hcontent
  rw [Resource.document, List.cons_append, List.cons_append, document_apiVersion,
    Text.encode_append] at hbegins
  have hlength : separatorLine.length ≤ (encode "apiVersion:").length := by decide
  exact absurd (List.prefix_of_prefix_length_le hbegins (List.prefix_append _ _) hlength)
    (by decide)

section Content

variable {before : List Job} (resource : Resource)

/-- After a call that succeeded, the separator comes first. -/
theorem content_of_printed (hprinted : .ok () ∈ (Printer.yaml 0).results before) :
    (((Printer.yaml 0).afterJobs before).parts resource).flatMap Prod.snd =
      separatorLine ++ encode (Yaml.document resource.document) := by
  have hcount : ((Printer.yaml 0).results before).countP Except.isOk ≠ 0 :=
    fun hzero => countP_isOk_eq_zero_iff.mp hzero hprinted
  rw [Printer.afterJobs_yaml, Nat.zero_add, Printer.parts, if_neg hcount]
  simp [separatorLine]

/-- Calls that broke off leave nothing to separate the document from. -/
theorem content_of_unprinted (hprinted : .ok () ∉ (Printer.yaml 0).results before) :
    (((Printer.yaml 0).afterJobs before).parts resource).flatMap Prod.snd =
      encode (Yaml.document resource.document) := by
  rw [Printer.afterJobs_yaml, Nat.zero_add, Printer.parts,
    if_pos (countP_isOk_eq_zero_iff.mpr hprinted)]
  simp

end Content

/-! ## Printers over runs -/

/-- What a new presentation shows from one run to the next.

* Two outcomes that are shown one after the other, in sinks that take everything, make up what is
  shown of one outcome with the promotions of both.
* Without the printer of block style, an outcome is shown alike, whatever has been shown before.
* The printer of block style begins with a separator exactly if one of the calls before succeeded,
  wherever the others broke off, and if the sink takes a separator. -/
theorem separators_follow_printed_documents {presentation : Presentation}
    (hnew : presentation.IsNew) :
    ∃ format, presentation = .fresh format ∧
      (∀ first second both : Outcome, both.promotions = first.promotions ++ second.promotions →
        let shown := (first.present presentation .unlimited).value
        let next := (second.present shown.1 .unlimited).value
        let whole := (both.present presentation .unlimited).value
        shown.2.1.written ++ next.2.1.written = whole.2.1.written ∧
          whole.2.1.written = rendering format both.promotions) ∧
      (format ≠ some .yaml → ∀ runs (outcome : Outcome) sink,
        outcome.present (presentation.afterAll runs) sink = outcome.present presentation sink) ∧
      (format = some .yaml → ∀ printer, presentation = .printed printer →
        ∀ (before : List Job) (job : Job),
          let printed := .ok () ∈ printer.results before
          let document := encode (Yaml.document job.resource.document)
          ∃ added,
            (job.run (printer.afterJobs before)).1.sink.written = job.sink.written ++ added ∧
              (printed → added = job.sink.taken (separatorLine ++ document)) ∧
              (¬ printed → added = job.sink.taken document) ∧
              (separatorLine <+: added ↔ printed ∧ job.sink.HasRoomFor separatorLine)) := by
  obtain ⟨format, rfl⟩ := hnew.exists_fresh
  refine ⟨format, rfl, ?_, ?_, ?_⟩
  · intro first second both hboth shown next whole
    have hwhole : whole.2.1.written = rendering format both.promotions := by
      simp only [whole, Outcome.value_present, Sink.unlimited, Presentation.show_fresh,
        List.nil_append]
    refine ⟨?_, hwhole⟩
    rw [hwhole, hboth, ← Presentation.show_append]
    simp only [shown, next, Outcome.value_present]
  · intro hformat runs outcome sink
    rw [Presentation.afterAll_of_stateless hformat]
  · rintro rfl printer hprinter before job
    cases hprinter
    intro printed document
    obtain ⟨hwritten, -, -⟩ := job.run_spec ((Printer.yaml 0).afterJobs before)
    refine ⟨_, hwritten, ?_⟩
    by_cases hprinted : printed
    · rw [content_of_printed job.resource hprinted, Sink.prefix_taken_append_iff]
      exact ⟨fun _ => rfl, fun hnone => absurd hprinted hnone, (and_iff_right hprinted).symm⟩
    · rw [content_of_unprinted job.resource hprinted]
      have hunseparated := not_separatorLine_prefix_document (job.sink.taken_prefix document)
      exact ⟨fun hsome => absurd hsome hprinted, fun _ => rfl,
        iff_of_false hunseparated fun hsome => hprinted hsome.1⟩

/-- The call after one that broke off begins with no separator, and the call after one that
succeeded does, although others broke off around it. -/
theorem separator_waits_for_success :
    let presentation : Presentation := .printed (.yaml 0)
    let cut : Job := ⟨(Promotion.named "p").resource, .limited 7⟩
    let full : Job := ⟨(Promotion.named "q").resource, .unlimited⟩
    presentation.IsNew ∧
      ¬ separatorLine <+: (full.run ((Printer.yaml 0).afterJobs [cut])).1.sink.written ∧
      separatorLine <+:
        (full.run ((Printer.yaml 0).afterJobs [cut, full, cut])).1.sink.written := by
  intro presentation cut full
  have hnew : presentation.IsNew := .inr ⟨"yaml", .yaml 0, rfl, rfl⟩
  obtain ⟨format, hformat, -, -, hseparated⟩ := separators_follow_printed_documents hnew
  have hyaml : format = some .yaml := by
    rcases format with _ | (_ | _ | _)
    · exact absurd hformat (by decide)
    · exact absurd hformat (by decide)
    · rfl
    · exact absurd hformat (by decide)
  have hcalls := hseparated hyaml (.yaml 0) rfl
  have hcut : .ok () ∉ (Printer.yaml 0).results [cut] := by
    rw [← countP_isOk_eq_zero_iff]
    decide +kernel
  have hfull : .ok () ∈ (Printer.yaml 0).results [cut, full, cut] := by
    refine Classical.not_not.mp fun hnone => ?_
    exact absurd (countP_isOk_eq_zero_iff.mpr hnone) (by decide +kernel)
  refine ⟨hnew, ?_, ?_⟩
  · obtain ⟨added, hwritten, -, -, hbegins⟩ := hcalls [cut] full
    rw [hwritten]
    exact fun hseparator => hcut (hbegins.mp hseparator).1
  · obtain ⟨added, hwritten, -, -, hbegins⟩ := hcalls [cut, full, cut] full
    rw [hwritten]
    exact hbegins.mpr ⟨hfull, nofun⟩

end FreightPromotion
