import FreightPromotion.Proofs.Submission
import FreightPromotion.Proofs.Text.Lines
import FreightPromotion.Proofs.Text.Quoted

/-!
# Summary lines

If no format was asked for, each promotion is shown as a line with its quoted name.  The
name cannot break the line, whatever it consists of, so that there is a line for each
promotion (`lines_summaryText`).  Quoting keeps names apart, and so does the rest of the
line, so the output determines the names (`summaries_identify_names`).
-/

namespace FreightPromotion

/-- The line that tells of a promotion, without its end. -/
def summaryLine (name : String) : String :=
  "Promotion Created: " ++ Text.quote name

/-- The lines for promotions, each with its end. -/
def summaryText (promotions : List Promotion) : String :=
  String.join (promotions.map Promotion.summary)

theorem toList_summaryLine (name : String) :
    (summaryLine name).toList = "Promotion Created: ".toList ++ (Text.quote name).toList := by
  unfold summaryLine
  generalize Text.quote name = quoted
  exact String.toList_append

theorem summaryLine_injective : Function.Injective summaryLine := by
  intro first second heq
  have hlists := congrArg String.toList heq
  rw [toList_summaryLine, toList_summaryLine, List.append_cancel_left_eq] at hlists
  exact Text.quote_injective (String.toList_inj.mp hlists)

theorem lineFeed_notMem_summaryLine (name : String) : '\n' ∉ (summaryLine name).toList := by
  rw [toList_summaryLine, List.mem_append]
  rintro (hwords | hname)
  · exact absurd hwords (by decide)
  · exact Text.lineFeed_notMem_quote name hname

section Summaries

variable (promotions : List Promotion)

theorem lineFeed_notMem_summaryLines :
    ∀ line ∈ promotions.map (summaryLine ·.name), '\n' ∉ line.toList := by
  rw [List.forall_mem_map]
  exact fun promotion _ => lineFeed_notMem_summaryLine promotion.name

theorem summaryText_eq :
    summaryText promotions =
      String.join ((promotions.map (summaryLine ·.name)).map (· ++ "\n")) := by
  rw [List.map_map]
  rfl

theorem lines_summaryText :
    Text.lines (summaryText promotions) = promotions.map (summaryLine ·.name) ++ [""] := by
  rw [summaryText_eq, Text.lines_join (lineFeed_notMem_summaryLines promotions)]

theorem count_lineFeed_summaryText :
    (summaryText promotions).toList.count '\n' = promotions.length := by
  rw [summaryText_eq, Text.count_lineFeed_join (lineFeed_notMem_summaryLines promotions),
    List.length_map]

/-- The output in summary lines is that text. -/
theorem rendering_summaries : rendering none promotions = Text.encode (summaryText promotions) := by
  rw [summaryText, Text.encode_join, List.flatMap_map]
  rfl

end Summaries

/-- The output of a presentation in summary lines, in a sink that takes everything. -/
theorem Outcome.written_summaries (outcome : Outcome) :
    (outcome.present .summary .unlimited).value.2.1.written =
      Text.encode (summaryText outcome.promotions) :=
  (outcome.written_fresh none).trans (rendering_summaries outcome.promotions)

/-- What is shown of an outcome in summary lines is a text with as many line feeds as there are
promotions.  Each of them ends a line, which holds the quoted name of one promotion, in their order,
and nothing follows the last one.  No outcome with other names is shown like that. -/
theorem summaries_identify_names (outcome other : Outcome) :
    let shown := (outcome.present .summary .unlimited).value.2.1.written
    (shown = (other.present .summary .unlimited).value.2.1.written →
        outcome.createdNames = other.createdNames) ∧
      ∃ text, shown = Text.encode text ∧
        text.toList.count '\n' = outcome.promotions.length ∧
        Text.lines text =
          (outcome.createdNames.map fun name => "Promotion Created: " ++ Text.quote name) ++
            [""] := by
  intro shown
  have hlines : ∀ outcome : Outcome, Text.lines (summaryText outcome.promotions) =
      outcome.createdNames.map summaryLine ++ [""] := by
    intro outcome
    rw [lines_summaryText, Outcome.createdNames, List.map_map]
    rfl
  refine ⟨fun hsame => ?_, summaryText outcome.promotions, outcome.written_summaries,
    count_lineFeed_summaryText outcome.promotions, hlines outcome⟩
  -- Equal bytes are equal texts, with equal lines.
  have htexts : some (summaryText outcome.promotions) = some (summaryText other.promotions) := by
    rw [← Text.decode?_encode, ← Text.decode?_encode, ← outcome.written_summaries,
      ← other.written_summaries]
    exact congrArg Text.decode? hsame
  have hnames := hlines outcome
  rw [Option.some.inj htexts, hlines other, List.append_cancel_right_eq] at hnames
  exact (List.map_injective_iff.mpr summaryLine_injective hnames).symm

/-- A name that contains the end of its line and the beginning of another one is told from two
names. -/
theorem forged_summary_differs :
    let forged : Outcome := { promotions := [.named "a\"\nPromotion Created: \"b"] }
    let honest : Outcome := { promotions := [.named "a", .named "b"] }
    (forged.present .summary .unlimited).value.2.1.written ≠
      (honest.present .summary .unlimited).value.2.1.written := by
  intro forged honest hsame
  have hnames := (summaries_identify_names forged honest).1 hsame
  exact absurd hnames (by decide)

end FreightPromotion
