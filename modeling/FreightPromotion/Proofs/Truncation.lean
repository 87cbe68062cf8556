import FreightPromotion.Outcome
import FreightPromotion.Proofs.Rendering

/-!
# Output that breaks off

A sink that takes only so many bytes holds the beginning of what an unlimited one would hold, and
the failure names the statement whose byte was the first one that did not fit.  To say which
statement that is, every byte of the rendering is marked with the part that it belongs to
(`markedRendering`).

All presentations come down to writing parts one after the other
(`Presentation.show_eq_writeParts`), and a part that is written takes its share of the room and
leaves the rest to the parts after it (`writeParts_limited`).  So the four forms of output need not
be told apart for the cut itself, and nothing depends on how the bytes of a part are handed to the
sink.
-/

namespace FreightPromotion

open FreightPromotion.Text (Bytes encode)

/-! ## Bytes and their parts -/

/-- The bytes of one part, each marked with it. -/
def mark (part : Part) (content : Bytes) : List (Part × UInt8) :=
  content.map fun byte => (part, byte)

@[simp]
theorem length_mark (part : Part) (content : Bytes) : (mark part content).length = content.length :=
  List.length_map _

@[simp]
theorem map_snd_mark (part : Part) (content : Bytes) :
    (mark part content).map Prod.snd = content := by
  simp [mark, Function.comp_def]

/-- The bytes of parts, each marked with its part. -/
def marked (parts : List (Part × Bytes)) : List (Part × UInt8) :=
  parts.flatMap fun entry => mark entry.1 entry.2

theorem map_snd_marked (parts : List (Part × Bytes)) :
    (marked parts).map Prod.snd = parts.flatMap Prod.snd := by
  simp [marked, List.map_flatMap]

/-- How writing ends that breaks off at a byte, if it does. -/
def cutResult : Option (Part × UInt8) → Result Unit
  | none => .ok ()
  | some (part, _) => .error part.failure

section Limited

variable {written content : Bytes} {room : Nat} {part : Part} {parts : List (Part × Bytes)}

/-- A part that fits takes its share of the room. -/
theorem writeParts_of_fits (hfits : content.length ≤ room) :
    writeParts ⟨written, some room⟩ ((part, content) :: parts) =
      writeParts ⟨written ++ content, some (room - content.length)⟩ parts := by
  simp [writeParts, Sink.write, hfits, List.take_of_length_le hfits]

/-- A part that does not fit is cut, and nothing is written after it. -/
theorem writeParts_of_cut (hcut : room < content.length) :
    writeParts ⟨written, some room⟩ ((part, content) :: parts) =
      (⟨written ++ content.take room, some 0⟩, .error part.failure) := by
  simp [writeParts, Sink.write, Nat.not_le_of_lt hcut, Nat.sub_eq_zero_of_le (Nat.le_of_lt hcut)]

end Limited

/-- A sink with some room takes the beginning, and the failure is that of the part whose byte does
not fit. -/
theorem writeParts_limited (written : Bytes) (room : Nat) (parts : List (Part × Bytes)) :
    (writeParts ⟨written, some room⟩ parts).1.written =
        written ++ (parts.flatMap Prod.snd).take room ∧
      (writeParts ⟨written, some room⟩ parts).2 = cutResult (marked parts)[room]? := by
  induction parts generalizing written room with
  | nil => simp [writeParts, marked, cutResult]
  | cons entry parts ih =>
      obtain ⟨part, content⟩ := entry
      have hmarked : marked ((part, content) :: parts) = mark part content ++ marked parts := rfl
      rcases Nat.lt_or_ge room content.length with hcut | hfits
      · have hinside : room < (mark part content).length := by rwa [length_mark]
        rw [writeParts_of_cut hcut, hmarked, List.getElem?_append_left hinside, List.flatMap_cons,
          List.take_append_of_le_length (Nat.le_of_lt hcut)]
        refine ⟨rfl, ?_⟩
        simp [mark, cutResult, hcut]
      · -- The rest of the room is left to the parts after this one.
        have hbeyond : (mark part content).length ≤ room := by rwa [length_mark]
        obtain ⟨hwritten, hresult⟩ := ih (written ++ content) (room - content.length)
        rw [writeParts_of_fits hfits, hwritten, hresult, hmarked,
          List.getElem?_append_right hbeyond, length_mark, List.flatMap_cons, List.take_append,
          List.take_of_length_le hfits, List.append_assoc]
        exact ⟨rfl, rfl⟩

/-- Parts that are written after others are written if those were. -/
theorem writeParts_append (sink : Sink) (parts later : List (Part × Bytes)) :
    writeParts sink (parts ++ later) =
      match writeParts sink parts with
      | (sink, .ok ()) => writeParts sink later
      | (sink, .error failure) => (sink, .error failure) := by
  induction parts generalizing sink with
  | nil => rfl
  | cons entry parts ih =>
      obtain ⟨part, content⟩ := entry
      simp only [List.cons_append, writeParts]
      split
      · exact ih _
      · rfl

/-- Whatever the sink is, the failure is that of a part. -/
theorem exists_part_of_writeParts {sink : Sink} {parts : List (Part × Bytes)} {failure : Failure}
    (hwrite : (writeParts sink parts).2 = .error failure) :
    ∃ part : Part, failure = part.failure := by
  induction parts generalizing sink with
  | nil => cases hwrite
  | cons entry parts ih =>
      obtain ⟨part, content⟩ := entry
      rw [writeParts] at hwrite
      dsimp only at hwrite
      split at hwrite
      · exact ih hwrite
      · exact ⟨part, (Except.error.inj hwrite).symm⟩

/-! ## Presentations as parts -/

/-- The parts in which a printer writes resources one after the other. -/
def Printer.allParts : Printer → List Resource → List (Part × Bytes)
  | _, [] => []
  | printer, resource :: resources => printer.parts resource ++ printer.next.allParts resources

/-- Printing resources is writing their parts. -/
theorem Press.printAll_eq_writeParts (printer : Printer) (sink : Sink) (resources : List Resource) :
    ((Press.printAll ⟨printer, sink⟩ resources).1.sink,
        (Press.printAll ⟨printer, sink⟩ resources).2) =
      writeParts sink (printer.allParts resources) := by
  induction resources generalizing printer sink with
  | nil => rfl
  | cons resource resources ih =>
      rw [Printer.allParts, writeParts_append, Press.printAll, Press.print]
      rcases hwrite : writeParts sink (printer.parts resource) with ⟨left, ⟨failure⟩ | ⟨⟩⟩
      · rfl
      · exact ih printer.next left

/-- The parts in which promotions are shown, in a format or in summary lines. -/
def shownParts : Option Format → List Promotion → List (Part × Bytes)
  | none, promotions => promotions.map fun promotion => (.summary, encode promotion.summary)
  | some format, promotions =>
    (Printer.ofFormat format).allParts (promotions.map Promotion.resource)

theorem Presentation.show_eq_writeParts (format : Option Format) (promotions : List Promotion)
    (sink : Sink) :
    ((Presentation.fresh format).show promotions sink).2 =
      writeParts sink (shownParts format promotions) := by
  cases format with
  | none => rfl
  | some format => exact Press.printAll_eq_writeParts (.ofFormat format) sink _

/-! ## Parts along the rendering -/

/-- An outcome is shown as its promotions are, and the failure of the call comes first. -/
theorem Outcome.value_present (outcome : Outcome) (presentation : Presentation) (sink : Sink) :
    let shown := presentation.show outcome.promotions sink
    (outcome.present presentation sink).value =
      (shown.1, shown.2.1,
        match outcome.failure with
        | some failure => .error failure
        | none => shown.2.2) := by
  intro shown
  unfold Outcome.present
  cases outcome.failure <;> cases hresult : shown.2.2 <;> simp [shown, hresult]

end FreightPromotion
