import FreightPromotion.Yaml.Block
import Mathlib.Data.List.Basic

/-!
# Where lines begin in block style

A document is read from left to right by a machine that knows where in a line it is
(`Position`).  It stops at a second dash at the beginning of a line, so a text that it
reads to its end has no line that begins with two dashes.

A node begins with a space or a break, and it ends with a break (`run_writeNode`).  So
after the dash of an item comes a space, and what else stands at the beginning of a line
is a space, a mark or a key.  Only the breaks within a text need care: what follows them
is indented, and by at least two spaces (`run_writeText`).
-/

namespace FreightPromotion.Yaml

open FreightPromotion.Json (Value Number)

/-! ## Texts without breaks -/

/-- There is no break in the text. -/
def Unbroken (text : List Char) : Prop :=
  ∀ character ∈ text, isBreak character = false

instance (text : List Char) : Decidable (Unbroken text) :=
  List.decidableBAll _ text

@[simp]
theorem unbroken_nil : Unbroken [] := by
  simp [Unbroken]

@[simp]
theorem unbroken_cons {character : Char} {text : List Char} :
    Unbroken (character :: text) ↔ isBreak character = false ∧ Unbroken text := by
  simp [Unbroken]

@[simp]
theorem unbroken_append {first second : List Char} :
    Unbroken (first ++ second) ↔ Unbroken first ∧ Unbroken second := by
  simp [Unbroken, or_imp, forall_and]

theorem Unbroken.sublist {text part : List Char} (htext : Unbroken text) (hpart : part ⊆ text) :
    Unbroken part :=
  fun character hmem => htext character (hpart hmem)

theorem unbroken_replicate (count : Nat) {character : Char} (hcharacter : isBreak character = false) :
    Unbroken (List.replicate count character) := by
  intro other hmem
  rwa [List.eq_of_mem_replicate hmem]

theorem isBreak_of_isDigit {character : Char} (hdigit : character.isDigit) :
    isBreak character = false := by
  have hother : ∀ other : Char, other.isDigit = false → character ≠ other := by
    rintro other hfalse rfl
    rw [hdigit] at hfalse
    cases hfalse
  simp [isBreak, hother '\n' (by decide), hother '\r' (by decide), hother '\u0085' (by decide),
    hother '\u2028' (by decide), hother '\u2029' (by decide)]

theorem unbroken_toDigits (number : Nat) : Unbroken (Nat.toDigits 10 number) :=
  fun _ hmem => isBreak_of_isDigit (Nat.isDigit_of_mem_toDigits (by decide) (by decide) hmem)

/-! ## Numbers -/

theorem unbroken_search (interval : Decimal.Interval) (leading : Int) (fuel count : Nat) :
    Unbroken (interval.search leading fuel count).digits := by
  induction fuel generalizing count with
  | zero => exact unbroken_nil
  | succ fuel ih =>
      rw [Decimal.Interval.search]
      split
      · rename_i point _
        refine (unbroken_toDigits point).sublist fun character hmem => ?_
        exact List.mem_reverse.mp ((List.dropWhile_suffix _).subset (List.mem_reverse.mp hmem))
      · exact ih (count + 1)

section Scientific

variable {number : Decimal.Scientific} (hdigits : Unbroken number.digits)

include hdigits

theorem unbroken_plain : Unbroken number.plain := by
  have hzeros := fun count => unbroken_replicate count (show isBreak '0' = false by decide)
  have htake := fun count => hdigits.sublist (List.take_subset count _)
  have hdrop := fun count => hdigits.sublist (List.drop_subset count _)
  unfold Decimal.Scientific.plain
  split
  · simp [hzeros, hdigits, isBreak]
  · dsimp only
    split
    · simp [hzeros, hdigits, isBreak]
    · simp [htake, hdrop, isBreak]

theorem unbroken_exponential (signed : Bool) : Unbroken (number.exponential signed) := by
  have hsign : ∀ exponent : Int,
      Unbroken (if exponent < 0 then ['-'] else if signed then ['+'] else []) := by
    intro exponent
    split_ifs <;> simp [isBreak]
  have hdrop := hdigits.sublist (List.drop_subset 1 _)
  have htake := hdigits.sublist (List.take_subset 1 _)
  have hexponent := unbroken_toDigits
  unfold Decimal.Scientific.exponential
  simp only [unbroken_append]
  refine ⟨⟨⟨⟨htake, ?_⟩, by simp [isBreak]⟩, hsign _⟩, hexponent _⟩
  split
  · exact unbroken_nil
  · simpa [isBreak] using hdrop

theorem unbroken_magnitude (layout : Decimal.Layout) : Unbroken (layout.magnitude number) := by
  unfold Decimal.Layout.magnitude
  dsimp only
  split_ifs
  · exact unbroken_plain hdigits
  · exact unbroken_exponential hdigits _

end Scientific

theorem unbroken_number (layout : Decimal.Layout) (number : Number) :
    Unbroken (number.text layout).toList := by
  cases number with
  | integer value =>
      cases value with
      | ofNat count =>
          show Unbroken (toString count).toList
          rw [Nat.toString_eq_ofList_toDigits, String.toList_ofList]
          exact unbroken_toDigits count
      | negSucc count =>
          have hspelling : (toString (Int.negSucc count)).toList =
              '-' :: Nat.toDigits 10 (count + 1) := by
            show ("-" ++ toString (count + 1)).toList = _
            simp
          show Unbroken (toString (Int.negSucc count)).toList
          rw [hspelling, unbroken_cons]
          exact ⟨by decide, unbroken_toDigits _⟩
  | fraction value =>
      simp only [Number.text, Decimal.Layout.text, String.toList_ofList]
      have hshortest : ∀ bits, Unbroken (Decimal.shortest bits).digits :=
        fun bits => unbroken_search _ _ _ _
      split_ifs <;> simp [unbroken_magnitude (hshortest _), isBreak]

/-! ## Positions -/

/-- Where in a line the next character stands. -/
inductive Position where
  | start
  | dash
  | within
deriving DecidableEq

/-- The position after a character.  A second dash at the beginning of a line has none. -/
def Position.next (position : Position) (character : Char) : Option Position :=
  if isBreak character then some .start
  else
    match position with
    | .start => if character = '-' then some .dash else some .within
    | .dash => if character = '-' then none else some .within
    | .within => some .within

/-- The position after a text. -/
def run (position : Position) (text : List Char) : Option Position :=
  text.foldlM Position.next position

section Run

variable {position middle final : Position} {first second text : List Char} {character : Char}

@[simp]
theorem run_nil : run position [] = some position :=
  rfl

@[simp]
theorem run_cons :
    run position (character :: text) = (position.next character).bind (run · text) :=
  List.foldlM_cons

theorem run_append : run position (first ++ second) = (run position first).bind (run · second) :=
  List.foldlM_append

/-- The parts of a text are run one after the other. -/
theorem run_trans (hfirst : run position first = some middle)
    (hsecond : run middle second = some final) : run position (first ++ second) = some final := by
  rw [run_append, hfirst]
  exact hsecond

@[simp]
theorem Position.next_within (hcharacter : isBreak character = false) :
    Position.within.next character = some .within := by
  simp [Position.next, hcharacter]

theorem Position.next_of_isBreak (hcharacter : isBreak character = true) :
    position.next character = some .start :=
  if_pos hcharacter

/-- Within a line a text without breaks leads nowhere else. -/
theorem run_of_unbroken (htext : Unbroken text) : run .within text = some .within := by
  induction text with
  | nil => rfl
  | cons character text ih =>
      rw [unbroken_cons] at htext
      rw [run_cons, Position.next_within htext.1]
      exact ih htext.2

/-- A space leads into the line. -/
@[simp]
theorem run_space : run position (' ' :: text) = run .within text := by
  cases position <;> rfl

@[simp]
theorem run_lineFeed : run position ('\n' :: text) = run .start text := by
  cases position <;> rfl

theorem run_indentation {indent : Nat} (hindent : 0 < indent) :
    run position (indentation indent ++ text) = run .within text := by
  cases indent with
  | zero => contradiction
  | succ indent =>
      have hspaces : run .within (indentation indent) = some .within :=
        run_of_unbroken (unbroken_replicate indent (by decide))
      rw [indentation, List.replicate_succ, List.cons_append, run_space, run_append,
        ← indentation, hspaces]
      rfl

/-- The end of a line leads to the beginning of the next one. -/
theorem run_endLine (hrun : run position text = some final) :
    run position (endLine text) = some .start := by
  unfold endLine
  split_ifs with hbreak
  · obtain ⟨last, hlast, hlastBreak⟩ := (Option.any_eq_true ..).mp hbreak
    obtain ⟨before, rfl⟩ := List.getLast?_eq_some_iff.mp hlast
    rw [run_append] at hrun ⊢
    cases hbefore : run position before with
    | none => simp [hbefore] at hrun
    | some reached => simp [Position.next_of_isBreak hlastBreak]
  · rw [run_append, hrun]
    exact run_lineFeed

end Run

/-! ## Texts -/

/-- The position at which a line stands that may just have begun. -/
def Position.of (fresh : Bool) : Position :=
  if fresh then .start else .within

/-- What follows a break is indented, so no character of the text begins a line. -/
theorem run_writeLines {indent : Nat} (hindent : 0 < indent) {form : Char → List Char}
    (hform : ∀ character, isBreak character = false → Unbroken (form character))
    (fresh : Bool) (text : List Char) :
    run (.of fresh) (writeLines indent form fresh text).1 =
      some (.of (writeLines indent form fresh text).2) := by
  induction text generalizing fresh with
  | nil => rfl
  | cons character text ih =>
      rw [writeLines]
      split_ifs with hbreak hfresh
      · simp only [run_cons, Position.next_of_isBreak hbreak]
        exact ih true
      · have hcharacter := run_of_unbroken (hform character (by simpa using hbreak))
        simp only [List.append_assoc]
        rw [run_indentation hindent]
        exact run_trans hcharacter (ih false)
      · have hcharacter := run_of_unbroken (hform character (by simpa using hbreak))
        have hwithin : Position.of fresh = .within := if_neg hfresh
        simp only [List.nil_append]
        rw [hwithin]
        exact run_trans hcharacter (ih false)

theorem unbroken_singleForm {character : Char} (hcharacter : isBreak character = false) :
    Unbroken (singleForm character) := by
  unfold singleForm
  split_ifs
  · simp [isBreak]
  · simpa using hcharacter

theorem run_writeSingle {indent : Nat} (hindent : 0 < indent) (text : List Char) :
    run .within (writeSingle indent text) = some .within := by
  have hlines := run_writeLines hindent (fun _ => unbroken_singleForm) false text
  unfold writeSingle
  dsimp only
  rw [List.append_assoc, List.cons_append, run_cons, Position.next_within (by decide)]
  refine run_trans hlines ?_
  cases (writeLines indent singleForm false text).2 with
  | false => rfl
  | true => exact run_indentation hindent

theorem isBreak_upperHexDigit {value : Nat} (hvalue : value < 16) :
    isBreak (Text.upperHexDigit value) = false := by
  decide +revert

theorem unbroken_hexDigits (width value : Nat) : Unbroken (hexDigits width value) := by
  induction width generalizing value with
  | zero => exact unbroken_nil
  | succ width ih =>
      rw [hexDigits, unbroken_append, unbroken_cons]
      exact ⟨ih _, isBreak_upperHexDigit (Nat.mod_lt _ (by decide)), unbroken_nil⟩

/-- Every break has an escape. -/
theorem unbroken_doubleForm (character : Char) : Unbroken (doubleForm character) := by
  have hhex : ∀ mark width value, isBreak mark = false →
      Unbroken ('\\' :: mark :: hexDigits width value) := by
    intro mark width value hmark
    rw [unbroken_cons, unbroken_cons]
    exact ⟨by decide, hmark, unbroken_hexDigits width value⟩
  unfold doubleForm
  split
  case h_15 _ _ _ _ _ hlineFeed _ _ hreturn _ _ _ hnext hline hparagraph =>
    dsimp only
    split_ifs
    · rw [unbroken_cons]
      refine ⟨?_, unbroken_nil⟩
      simpa [isBreak] using ⟨⟨⟨⟨hlineFeed, hreturn⟩, hnext⟩, hline⟩, hparagraph⟩
    · exact hhex _ _ _ (by decide)
    · exact hhex _ _ _ (by decide)
    · exact hhex _ _ _ (by decide)
  all_goals decide

theorem unbroken_writeDouble (text : List Char) : Unbroken (writeDouble text) := by
  rw [writeDouble, List.cons_append, unbroken_cons, unbroken_append]
  refine ⟨by decide, fun character hmem => ?_, by decide⟩
  obtain ⟨source, -, hmem⟩ := List.mem_flatMap.mp hmem
  exact unbroken_doubleForm source character hmem

theorem unbroken_chomping (text : List Char) : Unbroken (chomping text) := by
  unfold chomping
  split
  all_goals try split_ifs
  all_goals decide

/-- A literal block ends where the last line of its text does. -/
theorem run_writeLiteral {indent : Nat} (hindent : 0 < indent) (text : List Char) :
    ∃ final, run .within (writeLiteral indent text) = some final := by
  have hself : ∀ character, isBreak character = false → Unbroken [character] :=
    fun character hcharacter => by simpa using hcharacter
  refine ⟨_, run_trans (?_ : run _ _ = some .start) (run_writeLines hindent hself true text)⟩
  refine run_trans (run_of_unbroken ?_) run_lineFeed
  rw [List.cons_append, unbroken_cons, unbroken_append]
  refine ⟨by decide, ?_, unbroken_chomping text⟩
  -- The indentation is told if the text starts with a blank.
  split
  · split_ifs <;> decide
  · exact unbroken_nil

theorem allowsPlain_of_style {text : List Char} (hstyle : Style.of text = .plain) :
    allowsPlain text = true := by
  unfold Style.of at hstyle
  split_ifs at hstyle with hbreak hliteral hforeign
  exact (Bool.and_eq_true_iff.mp hforeign).2

theorem unbroken_of_plain {text : List Char} (hstyle : Style.of text = .plain) : Unbroken text := by
  have hallows := allowsPlain_of_style hstyle
  unfold allowsPlain at hallows
  simp only [Bool.and_eq_true, Bool.not_eq_true', List.any_eq_false] at hallows
  exact fun character hmem => by simpa using hallows.1.1.2 character hmem

/-- Only a literal block can end at the beginning of a line. -/
theorem run_writeText_within {indent : Nat} (hindent : 0 < indent) {text : List Char}
    (hstyle : Style.of text ≠ .literal) : run .within (writeText indent text) = some .within := by
  unfold writeText
  split
  · rename_i hplain
    exact run_of_unbroken (unbroken_of_plain hplain)
  · exact run_writeSingle hindent text
  · exact run_of_unbroken (unbroken_writeDouble text)
  · contradiction

theorem run_writeText {indent : Nat} (hindent : 0 < indent) (text : List Char) :
    ∃ final, run .within (writeText indent text) = some final := by
  by_cases hstyle : Style.of text = .literal
  · rw [writeText, hstyle]
    exact run_writeLiteral hindent text
  · exact ⟨.within, run_writeText_within hindent hstyle⟩

/-! ## Nodes -/

theorem run_writeScalar (indent : Nat) (value : Value) :
    ∃ final, run .within (writeScalar indent value) = some final := by
  cases value with
  | bool value =>
      cases value with
      | true => exact ⟨.within, rfl⟩
      | false => exact ⟨.within, rfl⟩
  | number value => exact ⟨.within, run_of_unbroken (unbroken_number layout value)⟩
  | text value => exact run_writeText (Nat.succ_pos _) _
  | null | array items | object members => exact ⟨.within, rfl⟩

theorem style_ne_literal_of_simple {key : String} (hsimple : isSimpleKey key = true) :
    Style.of key.toList ≠ .literal := by
  intro hstyle
  have hlineFeed : '\n' ∈ key.toList := by
    by_contra hmissing
    unfold Style.of at hstyle
    rw [if_neg hmissing] at hstyle
    split_ifs at hstyle
  unfold isSimpleKey at hsimple
  simp only [Bool.and_eq_true, Bool.not_eq_true', List.any_eq_false] at hsimple
  exact absurd (hsimple.1 _ hlineFeed) (by decide)

/-- A simple key stays on its line, and the colon of an explicit one is indented. -/
theorem run_writeKey {indent : Nat} (hindent : 0 < indent) (key : String) :
    run .within (writeKey indent key) = some .within := by
  unfold writeKey
  split_ifs with hsimple
  · exact run_trans (run_writeText_within (Nat.succ_pos _) (style_ne_literal_of_simple hsimple)) rfl
  · obtain ⟨final, hkey⟩ := run_writeText (Nat.succ_pos (indent + 1)) key.toList
    have hline : run .within ('?' :: ' ' :: endLine (writeText (indent + 2) key.toList)) =
        some .start := run_endLine hkey
    rw [List.append_assoc]
    refine run_trans hline ?_
    rw [run_indentation hindent]
    rfl

/-- The dash of an item is followed by a node. -/
theorem run_item {node : List Char} (hnode : ∀ position, run position node = some .start)
    (indent : Nat) : run .start (indentation indent ++ '-' :: node) = some .start := by
  cases indent with
  | zero => exact hnode .dash
  | succ indent =>
      rw [run_indentation (Nat.succ_pos indent)]
      exact hnode .within

mutual

/-- A node begins with a space or a break, and ends its line. -/
theorem run_writeNode (position : Position) (indent : Nat) (place : Place) (value : Value) :
    run position (writeNode indent place value) = some .start := by
  have hscalar : ∀ scalar : Value,
      run position (' ' :: endLine (writeScalar indent scalar)) = some .start := by
    intro scalar
    obtain ⟨final, hrun⟩ := run_writeScalar indent scalar
    rw [run_space]
    exact run_endLine hrun
  match value with
  | .null => exact hscalar .null
  | .bool value => exact hscalar (.bool value)
  | .number value => exact hscalar (.number value)
  | .text value => exact hscalar (.text value)
  | .array [] => exact hscalar (.array [])
  | .object [] => exact hscalar (.object [])
  | .array (item :: items) =>
      have hitem := fun position indent => run_writeNode position indent .mark item
      have hmore := fun indent => run_writeMoreItems indent items
      rw [writeNode]
      split_ifs with hplace
      · refine run_trans (?_ : run _ _ = some .start) (hmore indent)
        rw [List.cons_append, run_lineFeed]
        exact run_item (hitem · indent) indent
      · refine run_trans (?_ : run _ _ = some .start) (hmore (indent + 2))
        rw [run_space]
        exact hitem .within (indent + 2)
  | .object ((key, value) :: members) =>
      have hvalue := run_writeNode .within (indent + 2) (.of key) value
      have hmore := run_writeMoreMembers (Nat.succ_pos (indent + 1)) members
      have hopen : run position (if place = .key then '\n' :: indentation (indent + 2) else [' ']) =
          some .within := by
        split_ifs with hplace
        · rw [run_lineFeed, ← List.append_nil (indentation _), run_indentation (Nat.succ_pos _)]
          rfl
        · rw [run_space]
          rfl
      rw [writeNode]
      exact run_trans (run_trans (run_trans hopen (run_writeKey (Nat.succ_pos _) key)) hvalue) hmore

theorem run_writeMoreItems (indent : Nat) (items : List Value) :
    run .start (writeMoreItems indent items) = some .start := by
  match items with
  | [] => rfl
  | item :: items =>
      have hitem := fun position => run_writeNode position indent .mark item
      have hmore := run_writeMoreItems indent items
      rw [writeMoreItems]
      exact run_trans (run_item hitem indent) hmore

theorem run_writeMoreMembers {indent : Nat} (hindent : 0 < indent)
    (members : List (String × Value)) :
    run .start (writeMoreMembers indent members) = some .start := by
  match members with
  | [] => rfl
  | (key, value) :: members =>
      have hvalue := run_writeNode .within indent (.of key) value
      have hmore := run_writeMoreMembers hindent members
      rw [writeMoreMembers, List.append_assoc, List.append_assoc, run_indentation hindent]
      exact run_trans (run_writeKey hindent key) (run_trans hvalue hmore)

end

/-- Members at the beginning of lines, if their keys are words that can stand there. -/
theorem run_members_unindented {members : List (String × Value)}
    (hkeys : ∀ member ∈ members, run .start (writeKey 0 member.1) = some .within) :
    run .start (writeMoreMembers 0 members) = some .start := by
  induction members with
  | nil => rfl
  | cons member members ih =>
      obtain ⟨key, value⟩ := member
      have hkey := hkeys (key, value) List.mem_cons_self
      have hvalue := run_writeNode .within 0 (.of key) value
      have hmore := ih fun other hother => hkeys other (List.mem_cons_of_mem _ hother)
      rw [writeMoreMembers, indentation, List.replicate_zero, List.nil_append, List.append_assoc]
      exact run_trans hkey (run_trans hvalue hmore)

/-! ## How a node ends -/

/-- The break that ends the line of a text.  A block that ends in a break has ended its
line with that. -/
def textBreak (text : List Char) : Char :=
  if Style.of text = .literal then (text.getLast?.filter isBreak).getD '\n' else '\n'

/-- The break that ends the line of a node without items or members. -/
def scalarBreak : Value → Char
  | .text text => textBreak text.toList
  | _ => '\n'

theorem isBreak_scalarBreak (value : Value) : isBreak (scalarBreak value) = true := by
  have htext : ∀ text, isBreak (textBreak text) = true := by
    intro text
    unfold textBreak
    split_ifs
    · cases hlast : text.getLast?.filter isBreak with
      | none => rfl
      | some last => exact (Option.filter_eq_some_iff.mp hlast).2
    · rfl
  cases value with
  | text value => exact htext _
  | null | bool value | number value | array items | object members => rfl

mutual

/-- The node without items or members that a value ends with. -/
def lastScalar : Value → Value
  | .array (item :: items) => (lastScalarOfItems items).getD (lastScalar item)
  | .object ((_, value) :: members) => (lastScalarOfMembers members).getD (lastScalar value)
  | value => value

def lastScalarOfItems : List Value → Option Value
  | [] => none
  | item :: items => some ((lastScalarOfItems items).getD (lastScalar item))

def lastScalarOfMembers : List (String × Value) → Option Value
  | [] => none
  | (_, value) :: members => some ((lastScalarOfMembers members).getD (lastScalar value))

end

theorem getLast?_endLine (text : List Char) :
    (endLine text).getLast? = some ((text.getLast?.filter isBreak).getD '\n') := by
  unfold endLine
  cases hlast : text.getLast? with
  | none => simp
  | some last => cases hbreak : isBreak last <;> simp [hlast, hbreak, Option.filter]

/-- What ends within a line does not end in a break. -/
theorem filter_isBreak_of_run {text : List Char} (hrun : run .within text = some .within) :
    text.getLast?.filter isBreak = none := by
  rcases List.eq_nil_or_concat text with rfl | ⟨before, last, rfl⟩
  · rfl
  · rw [List.concat_eq_append] at hrun ⊢
    rw [List.getLast?_concat]
    cases hbreak : isBreak last with
    | false => simp [hbreak]
    | true =>
        rw [run_append] at hrun
        cases hbefore : run .within before <;> simp [hbefore, Position.next_of_isBreak hbreak] at hrun

theorem getLast?_writeLines (indent : Nat) (fresh : Bool) {text : List Char} (htext : text ≠ []) :
    (writeLines indent (fun character => [character]) fresh text).1.getLast? = text.getLast? := by
  induction text generalizing fresh with
  | nil => contradiction
  | cons character text ih =>
      rcases eq_or_ne text [] with rfl | hmore
      · rw [writeLines]
        split_ifs <;> simp [writeLines]
      · obtain ⟨last, hlast⟩ := Option.isSome_iff_exists.mp (List.getLast?_isSome.mpr hmore)
        have hlater := fun fresh => (ih fresh hmore).trans hlast
        rw [List.getLast?_cons_of_ne_nil hmore, hlast, writeLines]
        split_ifs <;> simp [hlater, List.getLast?_append, List.getLast?_cons]

theorem getLast?_writeText (indent : Nat) (text : List Char) :
    (endLine (writeText (indent + 1) text)).getLast? = some (textBreak text) := by
  rw [getLast?_endLine, textBreak]
  by_cases hstyle : Style.of text = .literal
  · have hnonempty : text ≠ [] := by
      rintro rfl
      exact absurd hstyle (by decide)
    have hlast := getLast?_writeLines (indent + 1) true hnonempty
    obtain ⟨last, hsome⟩ := Option.isSome_iff_exists.mp (List.getLast?_isSome.mpr hnonempty)
    rw [if_pos hstyle, writeText, hstyle]
    simp only [writeLiteral, List.getLast?_append, hlast, hsome, Option.some_or]
  · have hrun := run_writeText_within (Nat.succ_pos indent) hstyle
    rw [if_neg hstyle, filter_isBreak_of_run hrun]
    rfl

theorem getLast?_writeScalar (indent : Nat) (value : Value) :
    (endLine (writeScalar indent value)).getLast? = some (scalarBreak value) := by
  have hwithin : ∀ text : List Char, run .within text = some .within →
      (endLine text).getLast? = some '\n' := by
    intro text hrun
    rw [getLast?_endLine, filter_isBreak_of_run hrun]
    rfl
  cases value with
  | text value => exact getLast?_writeText _ _
  | number value => exact hwithin _ (run_of_unbroken (unbroken_number layout value))
  | bool value => cases value <;> exact hwithin _ rfl
  | null | array items | object members => exact hwithin _ rfl

mutual

/-- A node ends as the last node in it does. -/
theorem getLast?_writeNode (indent : Nat) (place : Place) (value : Value) :
    (writeNode indent place value).getLast? = some (scalarBreak (lastScalar value)) := by
  have hscalar : ∀ scalar : Value,
      (' ' :: endLine (writeScalar indent scalar)).getLast? = some (scalarBreak scalar) := by
    intro scalar
    rw [List.getLast?_cons, getLast?_writeScalar]
    rfl
  match value with
  | .null => exact hscalar .null
  | .bool value => exact hscalar (.bool value)
  | .number value => exact hscalar (.number value)
  | .text value => exact hscalar (.text value)
  | .array [] => exact hscalar (.array [])
  | .object [] => exact hscalar (.object [])
  | .array (item :: items) =>
      have hitem := fun indent => getLast?_writeNode indent .mark item
      have hmore := fun indent => getLast?_writeMoreItems indent items
      rw [writeNode, lastScalar]
      split_ifs with hplace
      all_goals
        rw [List.getLast?_append, hmore]
        cases lastScalarOfItems items <;> simp [List.getLast?_append, List.getLast?_cons, hitem]
  | .object ((key, value) :: members) =>
      have hvalue := getLast?_writeNode (indent + 2) (.of key) value
      have hmore := getLast?_writeMoreMembers (indent + 2) members
      rw [writeNode, lastScalar, List.getLast?_append, hmore]
      cases lastScalarOfMembers members <;> simp [List.getLast?_append, hvalue]

theorem getLast?_writeMoreItems (indent : Nat) (items : List Value) :
    (writeMoreItems indent items).getLast? = (lastScalarOfItems items).map scalarBreak := by
  match items with
  | [] => rfl
  | item :: items =>
      have hitem := getLast?_writeNode indent .mark item
      have hmore := getLast?_writeMoreItems indent items
      rw [writeMoreItems, lastScalarOfItems, List.getLast?_append, hmore]
      cases lastScalarOfItems items <;> simp [List.getLast?_append, List.getLast?_cons, hitem]

theorem getLast?_writeMoreMembers (indent : Nat) (members : List (String × Value)) :
    (writeMoreMembers indent members).getLast? =
      (lastScalarOfMembers members).map scalarBreak := by
  match members with
  | [] => rfl
  | (key, value) :: members =>
      have hvalue := getLast?_writeNode indent (.of key) value
      have hmore := getLast?_writeMoreMembers indent members
      rw [writeMoreMembers, lastScalarOfMembers, List.getLast?_append, hmore]
      cases lastScalarOfMembers members <;> simp [List.getLast?_append, hvalue]

end

end FreightPromotion.Yaml
