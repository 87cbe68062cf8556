import FreightPromotion.Proofs.Submission
import FreightPromotion.Proofs.Text.Lines

/-!
# Lines of names

The printer of names writes a line for each promotion, which ends in its name as it is
(`nameLine_resource`).  What is printed is therefore read back line by line as long as no name
breaks its line.

One that does is the exception: its line feeds end lines of their own, there are more lines than
promotions, and none of the names that are read off them is that name
(`name_lines_follow_unbroken_names`).  Such a name can even pass for two promotions
(`broken_name_forges_line`).
-/

namespace FreightPromotion

/-- What stands before the name on the line of a promotion. -/
def nameHeader : String := "promotion.kargo.akuity.io/"

/-- The line of a name, without its end. -/
def namedLine (name : String) : String := nameHeader ++ name

/-- The lines of names, each with its end. -/
def nameText (names : List String) : String :=
  String.join ((names.map namedLine).map (· ++ "\n"))

/-- The names that are read off the lines of a text: of each line, what stands after the header. -/
def namesByLine (text : String) : List String :=
  (Text.lines text).dropLast.map fun line => String.ofList (line.toList.drop nameHeader.length)

/-! ## What is printed -/

theorem nameLine_resource (promotion : Promotion) :
    promotion.resource.nameLine = namedLine promotion.name ++ "\n" := by
  have hheader : String.ofList (promotion.resource.kind.toList.map Char.toLower) ++ "." ++
      promotion.resource.group ++ "/" = nameHeader := by
    cbv
  rw [Resource.nameLine, hheader]
  rfl

theorem rendering_names (promotions : List Promotion) :
    rendering (some .name) promotions =
      Text.encode (nameText (promotions.map Promotion.name)) := by
  rw [nameText, Text.encode_join, List.map_map, List.map_map, List.flatMap_map, rendering]
  simp only [nameLine_resource, Function.comp_apply]

/-- The output of the printer of names, in a sink that takes everything. -/
theorem Outcome.written_names (outcome : Outcome) :
    (outcome.present (.printed .name) .unlimited).value.2.1.written =
      Text.encode (nameText outcome.createdNames) :=
  (outcome.written_fresh (some .name)).trans (rendering_names outcome.promotions)

/-! ## Names that break their lines -/

section Names

variable {names : List String} {name : String}

theorem lineFeed_mem_namedLine : '\n' ∈ (namedLine name).toList ↔ '\n' ∈ name.toList := by
  have hheader : '\n' ∉ nameHeader.toList := by decide
  rw [namedLine, String.toList_append, List.mem_append, or_iff_right hheader]

theorem lineFeed_notMem_namedLines :
    (∀ line ∈ names.map namedLine, '\n' ∉ line.toList) ↔ ∀ name ∈ names, '\n' ∉ name.toList := by
  simp only [List.forall_mem_map, lineFeed_mem_namedLine]

/-- The lines of the output are those of the names with the header exactly if no name breaks its
line. -/
theorem lines_nameText_iff :
    Text.lines (nameText names) = names.map namedLine ++ [""] ↔
      ∀ name ∈ names, '\n' ∉ name.toList := by
  constructor
  · intro hlines name hname
    have hline : namedLine name ∈ Text.lines (nameText names) := by
      rw [hlines]
      exact List.mem_append_left _ (List.mem_map_of_mem hname)
    rw [← lineFeed_mem_namedLine]
    exact Text.lineFeed_notMem_of_mem_lines hline
  · exact fun hunbroken => Text.lines_join (lineFeed_notMem_namedLines.mpr hunbroken)

/-- There is a line for each name and one more for each line feed in a name. -/
theorem count_lineFeed_nameText_eq_length_iff :
    (nameText names).toList.count '\n' = names.length ↔ ∀ name ∈ names, '\n' ∉ name.toList := by
  rw [nameText, Text.count_lineFeed_ended, List.length_map, Nat.add_eq_left,
    Text.count_lineFeed_join_eq_zero_iff, lineFeed_notMem_namedLines]

/-- The names are read off the lines of the output exactly if none of them breaks its line. -/
theorem namesByLine_nameText_iff :
    namesByLine (nameText names) = names ↔ ∀ name ∈ names, '\n' ∉ name.toList := by
  constructor
  · intro hread name hname hlineFeed
    rw [← hread] at hname
    -- What is read is a part of a line.
    obtain ⟨line, hline, rfl⟩ := List.mem_map.mp hname
    rw [String.toList_ofList] at hlineFeed
    exact Text.lineFeed_notMem_of_mem_lines (List.mem_of_mem_dropLast hline)
      (List.mem_of_mem_drop hlineFeed)
  · intro hunbroken
    rw [namesByLine, lines_nameText_iff.mpr hunbroken, List.dropLast_concat, List.map_map]
    refine (List.map_congr_left fun name _ => ?_).trans (List.map_id names)
    rw [Function.comp_apply, namedLine, String.toList_append,
      List.drop_left' String.length_toList, String.ofList_toList, id]

end Names

/-- What the printer of names leaves of an outcome, whatever the names of the promotions are.  It is
a text that consists of a line for each name, which holds the header and then the name.

Exactly if no name contains a line feed, these are the lines of the text, it has as many of them as
there are promotions, and reading it line by line gives the names back. -/
theorem name_lines_follow_unbroken_names (outcome : Outcome) :
    let shown := (outcome.present (.printed .name) .unlimited).value.2.1.written
    let unbroken := ∀ name ∈ outcome.createdNames, '\n' ∉ name.toList
    ∃ text, shown = Text.encode text ∧
      text = String.join
        (outcome.createdNames.map fun name => "promotion.kargo.akuity.io/" ++ name ++ "\n") ∧
      (Text.lines text =
          (outcome.createdNames.map fun name => "promotion.kargo.akuity.io/" ++ name) ++ [""] ↔
        unbroken) ∧
      (text.toList.count '\n' = outcome.promotions.length ↔ unbroken) ∧
      (namesByLine text = outcome.createdNames ↔ unbroken) := by
  intro shown unbroken
  have hlength : outcome.createdNames.length = outcome.promotions.length := List.length_map _
  refine ⟨nameText outcome.createdNames, outcome.written_names, ?_, lines_nameText_iff, ?_,
    namesByLine_nameText_iff⟩
  · rw [nameText, List.map_map]
    rfl
  · rw [← hlength]
    exact count_lineFeed_nameText_eq_length_iff

/-- A name that contains the end of its line and the beginning of another one is printed as two
names are. -/
theorem broken_name_forges_line :
    let forged : Outcome := { promotions := [.named "a\npromotion.kargo.akuity.io/b"] }
    let honest : Outcome := { promotions := [.named "a", .named "b"] }
    let shown (outcome : Outcome) := (outcome.present (.printed .name) .unlimited).value.2.1.written
    shown forged = shown honest ∧
      ∃ text, shown forged = Text.encode text ∧
        Text.lines text = ["promotion.kargo.akuity.io/a", "promotion.kargo.akuity.io/b", ""] ∧
        text.toList.count '\n' ≠ forged.promotions.length ∧
        namesByLine text ≠ forged.createdNames := by
  intro forged honest shown
  have hforged : shown forged = Text.encode (nameText forged.createdNames) := forged.written_names
  have hhonest : shown honest = Text.encode (nameText honest.createdNames) := honest.written_names
  have htexts : nameText forged.createdNames = nameText honest.createdNames := by decide
  refine ⟨by rw [hforged, hhonest, htexts], nameText forged.createdNames, hforged, ?_, ?_, ?_⟩
  · decide
  · decide
  · decide

end FreightPromotion
