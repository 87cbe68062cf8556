import FreightPromotion.Proofs.Members
import FreightPromotion.Proofs.Rendering
import FreightPromotion.Proofs.Yaml.Lines

/-!
# The frames of documents in block style

A reader that finds the documents in the output of block style again looks for lines of
three dashes.  No document has such a line, since none of its lines begins with two
dashes (`Yaml.run_writeNode`), and so all of them are the printer's (`cut_framed`).

The printer expects that each document has ended its line.  In the format's own view it
has.  But the break that ends a line may be another one than the line feed, if the
document ends with a text of several lines; to a reader that knows only line feeds the
separator then stands on the last line of that text (`documents_framed`).
-/

namespace FreightPromotion

open FreightPromotion.Yaml (Position run isBreak)

/-! ## Lines -/

/-- What counts as the end of a line: the line feed, and maybe other breaks. -/
structure EndsLines (ends : Char → Bool) : Prop where
  lineFeed : ends '\n' = true
  isBreak : ∀ character, ends character = true → Yaml.isBreak character = true

/-- The lines of a text, each with the character that ends it. -/
def linesOf (ends : Char → Bool) : List Char → List (List Char)
  | [] => []
  | character :: text =>
    if ends character then [character] :: linesOf ends text
    else
      match linesOf ends text with
      | [] => [[character]]
      | line :: lines => (character :: line) :: lines

/-- The text has ended its last line. -/
def isEnded (ends : Char → Bool) (text : List Char) : Bool :=
  text.getLast?.any ends

/-- The three dashes of a separator. -/
def dashes : List Char := ['-', '-', '-']

/-- The line consists of three dashes. -/
def isSeparator (ends : Char → Bool) (line : List Char) : Bool :=
  line = dashes || (isEnded ends line && line.dropLast = dashes)

/-- The number of lines that consist of three dashes. -/
def separators (ends : Char → Bool) (text : List Char) : Nat :=
  (linesOf ends text).countP (isSeparator ends)

/-- The pieces of a text between the lines of three dashes. -/
def cut (ends : Char → Bool) (text : List Char) : List (List Char) :=
  ((linesOf ends text).splitOnP (isSeparator ends)).map List.flatten

section Lines

variable {ends : Char → Bool} {text first second line : List Char}

theorem flatten_linesOf (ends : Char → Bool) (text : List Char) :
    (linesOf ends text).flatten = text := by
  induction text with
  | nil => rfl
  | cons character text ih =>
      rw [linesOf]
      split_ifs with hends
      · simp [ih]
      · split
        · rename_i hnone
          rw [hnone] at ih
          simp [← ih]
        · rename_i line lines hsome
          rw [hsome] at ih
          simp [← ih]

/-- A text that has ended its last line is cut off from what follows. -/
theorem linesOf_append (hended : isEnded ends first = true) (second : List Char) :
    linesOf ends (first ++ second) = linesOf ends first ++ linesOf ends second := by
  induction first with
  | nil => simp [isEnded] at hended
  | cons character first ih =>
      rcases eq_or_ne first [] with rfl | hmore
      · have hends : ends character = true := by simpa [isEnded] using hended
        simp [linesOf, hends]
      · have hlater : isEnded ends first = true := by
          rwa [isEnded, List.getLast?_cons_of_ne_nil hmore] at hended
        rw [List.cons_append, linesOf, linesOf, ih hlater]
        split_ifs
        · rfl
        · cases hlines : linesOf ends first with
          | nil =>
              have hflatten := flatten_linesOf ends first
              rw [hlines] at hflatten
              exact absurd hflatten.symm hmore
          | cons line lines => rfl

/-- A text that has not ended its last line shares it with what follows. -/
theorem linesOf_append_line (hfirst : first ≠ []) (hunended : isEnded ends first = false)
    (hline : linesOf ends line = [line]) :
    ∃ lines last, last ≠ [] ∧ linesOf ends first = lines ++ [last] ∧
      linesOf ends (first ++ line) = lines ++ [last ++ line] := by
  induction first with
  | nil => contradiction
  | cons character first ih =>
      rcases eq_or_ne first [] with rfl | hmore
      · have hends : ends character = false := by simpa [isEnded] using hunended
        exact ⟨[], [character], by simp, by simp [linesOf, hends], by simp [linesOf, hends, hline]⟩
      · have hlater : isEnded ends first = false := by
          rwa [isEnded, List.getLast?_cons_of_ne_nil hmore] at hunended
        obtain ⟨lines, last, hlast, hlines, happended⟩ := ih hmore hlater
        rw [List.cons_append, linesOf, linesOf, hlines, happended]
        split_ifs
        · exact ⟨[character] :: lines, last, hlast, rfl, rfl⟩
        · cases lines with
          | nil => exact ⟨[], character :: last, by simp, rfl, rfl⟩
          | cons next lines => exact ⟨(character :: next) :: lines, last, hlast, rfl, rfl⟩

end Lines

/-! ## Texts without separators -/

/-- What a line must not go on with, from a position in it. -/
def Yaml.Position.Forbids : Position → List Char → Prop
  | .start, line => ['-', '-'] <+: line
  | .dash, line => ['-'] <+: line
  | .within, _ => False

section Runs

variable {ends : Char → Bool} {text line : List Char} {position next final : Position}
  {character : Char}

/-- A line goes on with two dashes only if there is one now and one after it. -/
theorem forbids_cons (hnext : position.next character = some next)
    (hforbids : position.Forbids (character :: line)) : next.Forbids line ∧ line ≠ [] := by
  cases position with
  | start =>
      obtain ⟨rfl, hline⟩ := List.cons_prefix_cons.mp hforbids
      obtain rfl : Position.dash = next := Option.some.inj hnext
      refine ⟨hline, ?_⟩
      rintro rfl
      simp at hline
  | dash =>
      obtain ⟨rfl, -⟩ := List.cons_prefix_cons.mp hforbids
      cases hnext
  | within => exact hforbids.elim

/-- No line of a text that can be run begins with two dashes. -/
theorem linesOf_of_run (hends : EndsLines ends) (hrun : run position text = some final) :
    (∀ line ∈ (linesOf ends text).head?, ¬ position.Forbids line) ∧
      ∀ line ∈ (linesOf ends text).tail, ¬ Position.start.Forbids line := by
  induction text generalizing position with
  | nil => simp [linesOf]
  | cons character text ih =>
      rw [Yaml.run_cons] at hrun
      obtain ⟨next, hnext, hrun⟩ := Option.bind_eq_some_iff.mp hrun
      obtain ⟨hhead, htail⟩ := ih hrun
      rw [linesOf]
      split_ifs with hcharacter
      · -- The next line begins here, and it is the first one of the rest.
        obtain rfl : Position.start = next := by
          rw [Yaml.Position.next_of_isBreak (hends.isBreak _ hcharacter)] at hnext
          exact Option.some.inj hnext
        refine ⟨?_, fun line hline => ?_⟩
        · rintro _ ⟨⟩ hforbids
          exact (forbids_cons hnext hforbids).2 rfl
        · rw [List.tail_cons] at hline
          cases hlines : linesOf ends text with
          | nil => simp [hlines] at hline
          | cons first lines =>
              rw [hlines] at hline hhead htail
              rcases List.mem_cons.mp hline with rfl | hmem
              · exact hhead _ rfl
              · exact htail _ hmem
      · cases hlines : linesOf ends text with
        | nil =>
            refine ⟨?_, by simp⟩
            rintro _ ⟨⟩ hforbids
            exact (forbids_cons hnext hforbids).2 rfl
        | cons first lines =>
            rw [hlines] at hhead htail
            refine ⟨?_, htail⟩
            rintro _ ⟨⟩ hforbids
            exact hhead _ rfl (forbids_cons hnext hforbids).1

theorem eq_or_dropLast_eq_of_isSeparator (hseparator : isSeparator ends line = true) :
    line = dashes ∨ line.dropLast = dashes := by
  rw [isSeparator, Bool.or_eq_true, Bool.and_eq_true, decide_eq_true_iff, decide_eq_true_iff]
    at hseparator
  exact hseparator.imp_right And.right

theorem prefix_of_isSeparator (hseparator : isSeparator ends line = true) :
    Position.start.Forbids line := by
  have hdashes : ['-', '-'] <+: dashes := ⟨['-'], rfl⟩
  rcases eq_or_dropLast_eq_of_isSeparator hseparator with rfl | hline
  · exact hdashes
  · exact hdashes.trans (hline ▸ List.dropLast_prefix line)

theorem length_of_isSeparator (hseparator : isSeparator ends line = true) : line.length ≤ 4 := by
  rcases eq_or_dropLast_eq_of_isSeparator hseparator with rfl | hline
  · decide
  · have hlength := congrArg List.length hline
    rw [List.length_dropLast, show dashes.length = 3 from rfl] at hlength
    omega

/-- A text that can be run from the beginning of a line has no separator. -/
theorem isSeparator_of_run (hends : EndsLines ends) (hrun : run .start text = some final) :
    ∀ line ∈ linesOf ends text, isSeparator ends line = false := by
  intro line hline
  obtain ⟨hhead, htail⟩ := linesOf_of_run hends hrun
  rw [← Bool.not_eq_true]
  intro hseparator
  have hforbids := prefix_of_isSeparator hseparator
  cases hlines : linesOf ends text with
  | nil => simp [hlines] at hline
  | cons first lines =>
      rw [hlines] at hline hhead htail
      rcases List.mem_cons.mp hline with rfl | hmem
      · exact hhead _ rfl hforbids
      · exact htail _ hmem hforbids

theorem separators_of_run (hends : EndsLines ends) (hrun : run .start text = some final) :
    separators ends text = 0 := by
  rw [separators, List.countP_eq_zero]
  intro line hline
  simp [isSeparator_of_run hends hrun line hline]

end Runs

/-! ## Framed documents -/

/-- The line between documents. -/
def separator : List Char := dashes ++ ['\n']

/-- A document that begins a line and keeps all dashes to itself. -/
structure IsFrameable (document : List Char) : Prop where
  nonempty : document ≠ []
  run : Yaml.run .start document = some .start

section Framed

variable {ends : Char → Bool} {document : List Char} {documents : List (List Char)}

theorem linesOf_separator (hends : EndsLines ends) : linesOf ends separator = [separator] := by
  have hdash : ends '-' = false := by
    rw [← Bool.not_eq_true]
    exact fun hdash => absurd (hends.isBreak '-' hdash) (by decide)
  simp [separator, dashes, linesOf, hdash, hends.lineFeed]

theorem isSeparator_separator (hends : EndsLines ends) : isSeparator ends separator = true := by
  simp [isSeparator, separator, isEnded, hends.lineFeed]

theorem separators_append {first : List Char} (hended : isEnded ends first = true)
    (second : List Char) :
    separators ends (first ++ second) = separators ends first + separators ends second := by
  rw [separators, linesOf_append hended, List.countP_append]
  rfl

/-- The separator after a document is a line of its own if the document has ended its
last line. -/
theorem separators_document (hends : EndsLines ends) (hdocument : IsFrameable document) :
    separators ends (document ++ separator) = if isEnded ends document then 1 else 0 := by
  have hnone := isSeparator_of_run hends hdocument.run
  split_ifs with hended
  · rw [separators_append hended, separators_of_run hends hdocument.run, separators,
      linesOf_separator hends, List.countP_singleton, if_pos (isSeparator_separator hends)]
  · obtain ⟨lines, last, hlast, hlines, happended⟩ :=
      linesOf_append_line hdocument.nonempty (by simpa using hended) (linesOf_separator hends)
    rw [separators, happended, List.countP_eq_zero]
    intro line hline
    rcases List.mem_append.mp hline with hbefore | hshared
    · simp [hnone line (by simp [hlines, hbefore])]
    · -- The line that they share is too long for a separator.
      obtain rfl := List.mem_singleton.mp hshared
      intro hseparator
      have hlength := length_of_isSeparator hseparator
      have hpositive := List.length_pos_of_ne_nil hlast
      rw [List.length_append, show separator.length = 4 from rfl] at hlength
      omega

theorem intercalate_cons_of_ne_nil (hdocuments : documents ≠ []) :
    separator.intercalate (document :: documents) =
      document ++ separator ++ separator.intercalate documents := by
  cases documents with
  | nil => contradiction
  | cons next documents => rw [List.intercalate_cons_cons, List.append_assoc]

theorem isEnded_append_separator (hends : EndsLines ends) :
    isEnded ends (document ++ separator) = true := by
  simp [isEnded, separator, dashes, hends.lineFeed]

/-- The separators between documents are those after documents that have ended their last
line. -/
theorem separators_intercalate (hends : EndsLines ends)
    (hdocuments : ∀ document ∈ documents, IsFrameable document) :
    separators ends (separator.intercalate documents) =
      documents.dropLast.countP (isEnded ends) := by
  induction documents with
  | nil => rfl
  | cons document documents ih =>
      have hdocument := hdocuments document List.mem_cons_self
      rcases eq_or_ne documents [] with rfl | hmore
      · rw [List.intercalate_singleton]
        exact separators_of_run hends hdocument.run
      · have hlater := ih fun other hother => hdocuments other (List.mem_cons_of_mem _ hother)
        rw [intercalate_cons_of_ne_nil hmore, separators_append (isEnded_append_separator hends),
          separators_document hends hdocument, hlater, List.dropLast_cons_of_ne_nil hmore,
          List.countP_cons, Nat.add_comm]

theorem cut_intercalate (hends : EndsLines ends) (hnonempty : documents ≠ [])
    (hdocuments : ∀ document ∈ documents, IsFrameable document)
    (hended : ∀ document ∈ documents.dropLast, isEnded ends document = true) :
    cut ends (separator.intercalate documents) = documents := by
  induction documents with
  | nil => contradiction
  | cons document documents ih =>
      have hnone := isSeparator_of_run hends (hdocuments document List.mem_cons_self).run
      rcases eq_or_ne documents [] with rfl | hmore
      · rw [List.intercalate_singleton, cut, List.splitOnP_eq_singleton hnone, List.map_singleton,
          flatten_linesOf]
      · rw [List.dropLast_cons_of_ne_nil hmore] at hended
        have hlater := ih hmore (fun other hother => hdocuments other (List.mem_cons_of_mem _ hother))
          fun other hother => hended other (List.mem_cons_of_mem _ hother)
        rw [intercalate_cons_of_ne_nil hmore, cut,
          linesOf_append (isEnded_append_separator hends),
          linesOf_append (hended document List.mem_cons_self), linesOf_separator hends,
          List.append_assoc, List.singleton_append,
          List.splitOnP_append_cons_of_forall_mem hnone _ (isSeparator_separator hends),
          List.map_cons, flatten_linesOf]
        exact congrArg (document :: ·) hlater

theorem length_cut (ends : Char → Bool) (text : List Char) :
    (cut ends text).length = separators ends text + 1 := by
  rw [cut, separators, List.length_map]
  induction linesOf ends text with
  | nil => rfl
  | cons line lines ih =>
      rw [List.splitOnP_cons_eq_if_modifyHead, List.countP_cons]
      split_ifs <;> simp [ih]

/-- Cutting gives the documents back if those before the last one have ended their lines,
and only then. -/
theorem cut_intercalate_iff (hends : EndsLines ends) (hnonempty : documents ≠ [])
    (hdocuments : ∀ document ∈ documents, IsFrameable document) :
    cut ends (separator.intercalate documents) = documents ↔
      ∀ document ∈ documents.dropLast, isEnded ends document = true := by
  refine ⟨fun hcut => List.countP_eq_length.mp ?_, cut_intercalate hends hnonempty hdocuments⟩
  have hlength := length_cut ends (separator.intercalate documents)
  rw [hcut, separators_intercalate hends hdocuments] at hlength
  rw [List.length_dropLast]
  omega

end Framed

/-! ## Promotions -/

/-- The characters of a promotion's document in block style. -/
def Promotion.blockText (promotion : Promotion) : List Char :=
  (Yaml.document promotion.resource.document).toList

/-- The characters of the output for promotions. -/
def framedText (promotions : List Promotion) : List Char :=
  separator.intercalate (promotions.map Promotion.blockText)

section Promotions

variable {promotion : Promotion} {promotions : List Promotion} {member : Json.Member}

/-- The keys of a resource stand at the beginning of lines. -/
theorem run_key_resource (resource : Resource) {members : List Json.Member}
    (hdocument : resource.document = .object members) (hmember : member ∈ members) :
    run .start (Yaml.writeKey 0 member.1) = some .within := by
  have hkeys : ∀ key ∈ ["apiVersion", "kind", "metadata", "spec", "status"],
      run .start (Yaml.writeKey 0 key) = some .within := by
    decide
  exact hkeys member.1 ((resource.keys_document hdocument).subset (List.mem_map_of_mem hmember))

theorem blockText_eq {members : List Json.Member}
    (hdocument : promotion.resource.document = .object members) :
    promotion.blockText = Yaml.writeMoreMembers 0 members := by
  have hnonempty : members ≠ [] := by
    cases hdocument
    simp
  rw [Promotion.blockText, hdocument, Yaml.document, if_neg (by simpa using hnonempty),
    String.toList_ofList]

/-- How a document ends its last line. -/
theorem getLast?_blockText (promotion : Promotion) :
    promotion.blockText.getLast? =
      some (Yaml.scalarBreak (Yaml.lastScalar promotion.resource.document)) := by
  rw [blockText_eq rfl, Yaml.getLast?_writeMoreMembers]
  rfl

theorem isEnded_blockText (promotion : Promotion) (ends : Char → Bool) :
    isEnded ends promotion.blockText =
      ends (Yaml.scalarBreak (Yaml.lastScalar promotion.resource.document)) := by
  rw [isEnded, getLast?_blockText]
  rfl

theorem isFrameable_blockText (promotion : Promotion) : IsFrameable promotion.blockText where
  nonempty := by
    intro hempty
    have hlast := getLast?_blockText promotion
    simp [hempty] at hlast
  run := by
    rw [blockText_eq rfl]
    exact Yaml.run_members_unindented fun member => run_key_resource promotion.resource rfl

theorem isFrameable_of_mem (promotions : List Promotion) :
    ∀ document ∈ promotions.map Promotion.blockText, IsFrameable document := by
  intro document hdocument
  obtain ⟨promotion, -, rfl⟩ := List.mem_map.mp hdocument
  exact isFrameable_blockText promotion

theorem encode_framedText (promotions : List Promotion) :
    Text.encode (String.ofList (framedText promotions)) = rendering (some .yaml) promotions := by
  have hblock : ∀ promotion : Promotion,
      Text.encode (String.ofList promotion.blockText) = promotion.blockDocument := by
    intro promotion
    rw [Promotion.blockText, String.ofList_toList]
    rfl
  have hmore : ∀ (promotion : Promotion) (promotions : List Promotion),
      Text.encode (String.ofList (framedText (promotion :: promotions))) =
        promotion.blockDocument ++
          promotions.flatMap fun promotion => separatorLine ++ promotion.blockDocument := by
    intro promotion promotions
    induction promotions generalizing promotion with
    | nil =>
        rw [framedText, List.map_singleton, List.intercalate_singleton, hblock]
        simp
    | cons next promotions ih =>
        rw [framedText, List.map_cons, intercalate_cons_of_ne_nil (by simp), ← framedText,
          String.ofList_append, String.ofList_append, Text.encode_append, Text.encode_append, hblock,
          ih, List.flatMap_cons, List.append_assoc, List.append_assoc]
        rfl
  cases promotions with
  | nil => rfl
  | cons promotion promotions => exact hmore promotion promotions

/-- A new printer of block style leaves the framed documents. -/
theorem show_framedText (promotions : List Promotion) :
    ((Presentation.fresh (some .yaml)).show promotions Sink.unlimited).2 =
      ({ written := Text.encode (String.ofList (framedText promotions)) }, .ok ()) := by
  rw [encode_framedText]
  exact Presentation.show_fresh (some .yaml) promotions []

end Promotions

theorem endsLines_isBreak : EndsLines isBreak where
  lineFeed := rfl
  isBreak _ := id

theorem endsLines_lineFeed : EndsLines (· = '\n') where
  lineFeed := rfl
  isBreak character hends := by
    obtain rfl : character = '\n' := by simpa using hends
    rfl

/-- The output for a list of promotions in block style, as readers of lines see it.  To one
that takes every break of the format for the end of a line, there is one separator between
any two documents, and the pieces between them are the documents.  To one that takes fewer
breaks for it, a separator is a line if the document before it has ended its last line, and
the pieces are the documents exactly if all but the last one have.  A document never has a
separator of its own.  It ends with the break that ends its last scalar, which is a line
feed unless that scalar is a text that is written as a block and ends in another break. -/
theorem documents_framed (promotions : List Promotion) (hpromotions : promotions ≠ []) :
    let documents := promotions.map Promotion.blockText
    ∃ output : List Char,
      ((Presentation.fresh (some .yaml)).show promotions Sink.unlimited).2 =
          ({ written := Text.encode (String.ofList output) }, .ok ()) ∧
        (separators isBreak output = promotions.length - 1 ∧
          cut isBreak output = documents) ∧
        (∀ ends, EndsLines ends →
          separators ends output = documents.dropLast.countP (isEnded ends) ∧
          (cut ends output = documents ↔
            ∀ document ∈ documents.dropLast, isEnded ends document = true) ∧
          ∀ document ∈ documents, separators ends document = 0) ∧
        ∀ promotion ∈ promotions, ∀ ends, isEnded ends promotion.blockText =
          ends (Yaml.scalarBreak (Yaml.lastScalar promotion.resource.document)) := by
  intro documents
  have hframeable := isFrameable_of_mem promotions
  have hnonempty : documents ≠ [] := by simpa [documents] using hpromotions
  have hended : ∀ document ∈ documents.dropLast, isEnded isBreak document = true := by
    intro document hdocument
    obtain ⟨promotion, -, rfl⟩ := List.mem_map.mp (List.dropLast_subset _ hdocument)
    rw [isEnded_blockText]
    exact Yaml.isBreak_scalarBreak _
  refine ⟨framedText promotions, ?_, ⟨?_, ?_⟩, fun ends hends => ⟨?_, ?_, ?_⟩, ?_⟩
  · exact show_framedText promotions
  · rw [framedText, separators_intercalate endsLines_isBreak hframeable,
      List.countP_eq_length.mpr hended, List.length_dropLast, List.length_map]
  · exact cut_intercalate endsLines_isBreak hnonempty hframeable hended
  · exact separators_intercalate hends hframeable
  · exact cut_intercalate_iff hends hnonempty hframeable
  · exact fun document hdocument => separators_of_run hends (hframeable document hdocument).run
  · exact fun promotion _ ends => isEnded_blockText promotion ends

/-- Dashes in a name and in a text of several lines separate nothing. -/
theorem dashes_of_text_stay_framed :
    let first : Promotion := { metadata := { name := "---" }, spec := .text "a\n---\nb" }
    let promotions := [first, .named "c"]
    ∃ output : List Char,
      ((Presentation.fresh (some .yaml)).show promotions Sink.unlimited).2 =
          ({ written := Text.encode (String.ofList output) }, .ok ()) ∧
        separators (· = '\n') output = 1 ∧
        cut (· = '\n') output = promotions.map Promotion.blockText := by
  intro first promotions
  obtain ⟨output, houtput, -, hreaders, hends⟩ := documents_framed promotions (by simp [promotions])
  obtain ⟨hseparators, hcut, -⟩ := hreaders _ endsLines_lineFeed
  have hended : isEnded (· = '\n') first.blockText = true :=
    (hends first List.mem_cons_self _).trans (by decide)
  refine ⟨output, houtput, ?_, hcut.mpr ?_⟩
  · rw [hseparators]
    simp [promotions, hended]
  · simpa [promotions] using hended

/-- A text that ends in a line separator ends the document with it.  To a reader of line feeds
the separator is no line then, and the documents are one. -/
theorem line_separator_hides_document :
    let first : Promotion := { metadata := { name := "a" }, spec := .text "b\n\u2028" }
    let promotions := [first, .named "c"]
    ∃ output : List Char,
      ((Presentation.fresh (some .yaml)).show promotions Sink.unlimited).2 =
          ({ written := Text.encode (String.ofList output) }, .ok ()) ∧
        separators (· = '\n') output = 0 ∧
        cut (· = '\n') output ≠ promotions.map Promotion.blockText := by
  intro first promotions
  have hunended : isEnded (· = '\n') first.blockText = false :=
    (isEnded_blockText first _).trans (by decide)
  have hframeable := isFrameable_of_mem promotions
  refine ⟨framedText promotions, show_framedText promotions, ?_, fun hcut => ?_⟩
  · rw [framedText, separators_intercalate endsLines_lineFeed hframeable]
    simp [promotions, hunended]
  · have hended := (cut_intercalate_iff endsLines_lineFeed (by simp [promotions]) hframeable).mp hcut
    simp [promotions, hunended] at hended

end FreightPromotion
