import FreightPromotion.Proofs.Json.Escapes
import FreightPromotion.Proofs.Json.Numbers
import FreightPromotion.Proofs.Json.Parts

/-!
# Arrangements of printed values

A document is printed without a blank or with a line for each part.  Both arrangements write the
same words, and the same brackets, commas and colons around them.  They differ in the blanks before
a part and after a colon, and so in the bytes that come after a value.  `Arrangement` holds what is
proved of both (`Arrangement.indented`, `Arrangement.compact`), and whatever reads a printed value
relies on nothing else.

Between the brackets the items and members that were printed are found again
(`Arrangement.items`, `Arrangement.members`), each ending where something closes it.  So a list or
an object is read from its text by reading each of its parts, whatever the parts are read as
(`Arrangement.readElements_printed`, `Arrangement.readMembers_printed`).
-/

namespace FreightPromotion.Json

open FreightPromotion.Text (Bytes encode)

/-! ## Spellings -/

/-- The value is printed as a word. -/
def Value.IsWord : Value → Prop
  | .array items => items = []
  | .object members => members = []
  | _ => True

/-- How values are printed at a depth, what stands before a part at a depth and after a colon, and
what may come after a value. -/
structure Spelling where
  text : Nat → Value → String
  line : Nat → String
  gap : String
  Closes : Bytes → Prop

namespace Spelling

variable (spelling : Spelling) (depth : Nat)

/-- The items of a list after the first. -/
def moreItems : List Value → String
  | [] => ""
  | item :: items =>
    "," ++ spelling.line depth ++ spelling.text depth item ++ moreItems items

/-- A member with its key. -/
def member (key : String) (value : Value) : String :=
  spelling.line depth ++ textWord key ++ ":" ++ spelling.gap ++ spelling.text depth value

/-- The members of an object after the first. -/
def moreMembers : List Member → String
  | [] => ""
  | (key, value) :: members => "," ++ spelling.member depth key value ++ moreMembers members

/-- The value ends where what closes it begins. -/
def Ends (value : Value) : Prop :=
  ∀ ⦃rest⦄, spelling.Closes rest → Passes (encode (spelling.text depth value) ++ rest) rest

/-- After blanks or none, the value was printed here. -/
def DueAt (value : Value) (input : Bytes) : Prop :=
  ∃ beyond, spelling.Closes beyond ∧
    skipBlanks input = skipBlanks (encode (spelling.text depth value) ++ beyond)

/-- Each member has its key, and its value was printed where it is due. -/
def DueAs (members : List Member) (given : List (String × Bytes)) : Prop :=
  Matches (spelling.DueAt depth) members given

end Spelling

/-- A spelling in which brackets enclose the parts of a value, with nothing but blanks added to
them, and in which a value is closed by what comes after it there. -/
structure Arrangement extends Spelling where
  text_word : ∀ (depth : Nat) {value : Value}, value.IsWord → text depth value = word value
  text_array : ∀ (depth : Nat) (item : Value) (items : List Value),
    text depth (.array (item :: items)) =
      "[" ++ line (depth + 1) ++ text (depth + 1) item ++
        toSpelling.moreItems (depth + 1) items ++ line depth ++ "]"
  text_object : ∀ (depth : Nat) (key : String) (value : Value) (members : List Member),
    text depth (.object ((key, value) :: members)) =
      "\x7b" ++ toSpelling.member (depth + 1) key value ++
        toSpelling.moreMembers (depth + 1) members ++ line depth ++ "\x7d"
  blank_line : ∀ depth, ∀ byte ∈ encode (line depth), isBlank byte
  blank_gap : ∀ byte ∈ encode gap, isBlank byte
  closes_nil : Closes []
  closes_comma : ∀ rest, Closes (encode "," ++ rest)
  closes_bracket : ∀ depth rest, Closes (encode (line depth) ++ (encode "]" ++ rest))
  closes_brace : ∀ depth rest, Closes (encode (line depth) ++ (encode "\x7d" ++ rest))
  endsNumber : ∀ ⦃rest⦄, Closes rest → EndsNumber rest

/-! ## Lines -/

section Indented

variable {depth : Nat} {rest : Bytes}

/-- The end of the input, or a byte that comes after a value on a line of its own. -/
def Delimited (rest : Bytes) : Prop :=
  ∀ byte ∈ rest.head?, byte = ','.toUInt8 ∨ byte = '\n'.toUInt8

theorem delimited_nil : Delimited [] := by
  simp [Delimited]

theorem Delimited.endsNumber (hrest : Delimited rest) : EndsNumber rest := by
  intro byte hbyte
  rcases hrest byte hbyte with rfl | rfl <;> decide

theorem isBlank_of_mem_lineFeed : ∀ byte ∈ encode "\n", isBlank byte := by
  have hline : encode "\n" = ['\n'.toUInt8] := by decide
  rw [hline, List.forall_mem_singleton]
  decide

theorem isBlank_of_mem_freshLine : ∀ byte ∈ encode (freshLine depth), isBlank byte := by
  intro byte hbyte
  rw [freshLine, Text.encode_append, List.mem_append] at hbyte
  rcases hbyte with hline | hspace
  · exact isBlank_of_mem_lineFeed byte hline
  · rw [encode_ofList, bytesOf_eq_map (by simp), List.map_replicate, List.mem_replicate] at hspace
    rw [hspace.2]
    decide

theorem delimited_lineFeed (rest : Bytes) : Delimited (encode "\n" ++ rest) := by
  have hline : encode "\n" = ['\n'.toUInt8] := by decide
  simp [Delimited, hline]

theorem delimited_freshLine : Delimited (encode (freshLine depth) ++ rest) := by
  rw [freshLine, Text.encode_append, List.append_assoc]
  exact delimited_lineFeed _

/-- A line for each item and member. -/
def Spelling.indented : Spelling where
  text depth value := value.indented depth
  line := freshLine
  gap := " "
  Closes := Delimited

theorem indentedMoreItems_eq (depth : Nat) (items : List Value) :
    indentedMoreItems depth items = Spelling.indented.moreItems depth items := by
  induction items with
  | nil => simp only [indentedMoreItems, Spelling.moreItems]
  | cons item items ih =>
      rw [indentedMoreItems, Spelling.moreItems, ih]
      rfl

theorem indentedMoreMembers_eq (depth : Nat) (members : List Member) :
    indentedMoreMembers depth members = Spelling.indented.moreMembers depth members := by
  have hcolon : ": " = ":" ++ " " := by decide
  induction members with
  | nil => simp only [indentedMoreMembers, Spelling.moreMembers]
  | cons member members ih =>
      simp only [indentedMoreMembers, Spelling.moreMembers, Spelling.member, ih, hcolon,
        String.append_assoc]
      rfl

/-- The arrangement with a line for each item and member. -/
def Arrangement.indented : Arrangement where
  toSpelling := .indented
  text_word depth value hword := by
    cases value with
    | array items =>
        obtain rfl : items = [] := hword
        simp only [Spelling.indented, Value.indented]
    | object members =>
        obtain rfl : members = [] := hword
        simp only [Spelling.indented, Value.indented]
    | _ => simp only [Spelling.indented, Value.indented]
  text_array depth item items := by
    rw [← indentedMoreItems_eq]
    simp only [Spelling.indented, Value.indented]
  text_object depth key value members := by
    have hcolon : ": " = ":" ++ " " := by decide
    rw [← indentedMoreMembers_eq]
    simp only [Spelling.indented, Spelling.member, Value.indented, hcolon, String.append_assoc]
  blank_line depth := isBlank_of_mem_freshLine
  blank_gap := by
    have hspace : encode " " = [' '.toUInt8] := by decide
    show ∀ byte ∈ encode " ", isBlank byte
    rw [hspace, List.forall_mem_singleton]
    decide
  closes_nil := delimited_nil
  closes_comma rest := by
    have hcomma : encode "," = [','.toUInt8] := by decide
    simp [Spelling.indented, Delimited, hcomma]
  closes_bracket depth rest := delimited_freshLine
  closes_brace depth rest := delimited_freshLine
  endsNumber rest hrest := hrest.endsNumber

end Indented

/-! ## No blanks -/

section Compact

variable {rest : Bytes}

/-- The end of the input, or a byte that comes after a value in a compact document. -/
def Closed (rest : Bytes) : Prop :=
  ∀ byte ∈ rest.head?, byte = ','.toUInt8 ∨ byte = ']'.toUInt8 ∨ byte = '\x7d'.toUInt8

theorem Closed.endsNumber (hrest : Closed rest) : EndsNumber rest := by
  intro byte hbyte
  rcases hrest byte hbyte with rfl | rfl | rfl <;> decide

/-- No blank between the parts. -/
def Spelling.compact : Spelling where
  text _ := Value.compact
  line _ := ""
  gap := ""
  Closes := Closed

theorem compactMoreItems_eq (depth : Nat) (items : List Value) :
    compactMoreItems items = Spelling.compact.moreItems depth items := by
  induction items with
  | nil => simp only [compactMoreItems, Spelling.moreItems]
  | cons item items ih => simp [compactMoreItems, Spelling.moreItems, Spelling.compact, ih]

theorem compactMoreMembers_eq (depth : Nat) (members : List Member) :
    compactMoreMembers members = Spelling.compact.moreMembers depth members := by
  induction members with
  | nil => simp only [compactMoreMembers, Spelling.moreMembers]
  | cons member members ih =>
      simp [compactMoreMembers, Spelling.moreMembers, Spelling.member, Spelling.compact, ih,
        String.append_assoc]

/-- The arrangement without a blank. -/
def Arrangement.compact : Arrangement where
  toSpelling := .compact
  text_word depth value hword := by
    cases value with
    | array items =>
        obtain rfl : items = [] := hword
        rfl
    | object members =>
        obtain rfl : members = [] := hword
        rfl
    | _ => simp only [Spelling.compact, Value.compact]
  text_array depth item items := by
    rw [← compactMoreItems_eq]
    simp [Spelling.compact, Value.compact, compactItems, String.append_assoc]
  text_object depth key value members := by
    rw [← compactMoreMembers_eq]
    simp [Spelling.compact, Spelling.member, Value.compact, compactMembers, String.append_assoc]
  blank_line depth := by simp [Spelling.compact]
  blank_gap := by simp [Spelling.compact]
  closes_nil := by simp [Spelling.compact, Closed]
  closes_comma rest := by
    have hcomma : encode "," = [','.toUInt8] := by decide
    simp [Spelling.compact, Closed, hcomma]
  closes_bracket depth rest := by
    have hbracket : encode "]" = [']'.toUInt8] := by decide
    simp [Spelling.compact, Closed, hbracket]
  closes_brace depth rest := by
    have hbrace : encode "\x7d" = ['\x7d'.toUInt8] := by decide
    simp [Spelling.compact, Closed, hbrace]
  endsNumber rest hrest := hrest.endsNumber

end Compact

/-! ## The parts of a printed value -/

namespace Arrangement

variable (arrangement : Arrangement) {depth : Nat} {rest : Bytes}

@[simp]
theorem skipBlanks_line (depth : Nat) (rest : Bytes) :
    skipBlanks (encode (arrangement.line depth) ++ rest) = skipBlanks rest :=
  skipBlanks_append (arrangement.blank_line depth)

@[simp]
theorem skipBlanks_gap (rest : Bytes) :
    skipBlanks (encode arrangement.gap ++ rest) = skipBlanks rest :=
  skipBlanks_append arrangement.blank_gap

/-! ### Items -/

/-- What comes after an item closes it. -/
theorem closes_moreItems (depth : Nat) (items : List Value) (outer : Nat) (rest : Bytes) :
    arrangement.Closes
      (encode (arrangement.moreItems depth items ++ arrangement.line outer ++ "]") ++ rest) := by
  cases items with
  | nil => simpa [Spelling.moreItems] using arrangement.closes_bracket outer rest
  | cons item items =>
      simp only [Spelling.moreItems, Text.encode_append, List.append_assoc]
      exact arrangement.closes_comma _

/-- An item with what stands before it. -/
theorem item_printed {item : Value} (hitem : arrangement.Ends depth item)
    (hrest : arrangement.Closes rest) :
    let part := encode (arrangement.line depth) ++ (encode (arrangement.text depth item) ++ rest)
    Passes part rest ∧ arrangement.DueAt depth item (skipBlanks part) := by
  intro part
  have hpart : skipBlanks part = skipBlanks (encode (arrangement.text depth item) ++ rest) :=
    arrangement.skipBlanks_line depth _
  refine ⟨?_, rest, hrest, (skipBlanks_skipBlanks part).trans hpart⟩
  rw [← passes_skipBlanks, hpart, passes_skipBlanks]
  exact hitem hrest

/-- The items after the first are found again. -/
theorem moreItems_printed {items : List Value} (outer : Nat) (rest : Bytes)
    (hends : ∀ item ∈ items, arrangement.Ends depth item) :
    ∃ given, MoreItems
        (encode (arrangement.moreItems depth items ++ arrangement.line outer ++ "]") ++ rest)
        given rest ∧
      List.Forall₂ (arrangement.DueAt depth) items given := by
  induction items with
  | nil =>
      have hbracket : encode "]" = [']'.toUInt8] := by decide
      have hblank : isBlank ']'.toUInt8 = false := by decide
      refine ⟨[], .nil ?_, .nil⟩
      simp [Spelling.moreItems, hbracket, skipBlanks_of_not_blank hblank]
  | cons item items ih =>
      have hcomma : encode "," = [','.toUInt8] := by decide
      have hblank : isBlank ','.toUInt8 = false := by decide
      obtain ⟨hitem, hlater⟩ := List.forall_mem_cons.mp hends
      obtain ⟨given, hmore, hgiven⟩ := ih hlater
      -- The item ends at what is printed for the items after it.
      obtain ⟨hpasses, hdue⟩ :=
        arrangement.item_printed hitem (arrangement.closes_moreItems depth items outer rest)
      refine ⟨_, .cons ?_ hpasses hmore, .cons hdue hgiven⟩
      simp [Spelling.moreItems, hcomma, skipBlanks_of_not_blank hblank]

/-- The items of a printed list are found again. -/
theorem items {items : List Value} (rest : Bytes)
    (hends : ∀ item ∈ items, arrangement.Ends (depth + 1) item) :
    ∃ given inner,
      encode (arrangement.text depth (.array items)) ++ rest = '['.toUInt8 :: inner ∧
      Items inner given rest ∧ List.Forall₂ (arrangement.DueAt (depth + 1)) items given := by
  cases items with
  | nil =>
      have hword : encode (word (.array [])) = ['['.toUInt8, ']'.toUInt8] := by decide
      have hblank : isBlank ']'.toUInt8 = false := by decide
      refine ⟨[], ']'.toUInt8 :: rest, ?_, .nil (skipBlanks_of_not_blank hblank), .nil⟩
      have hnone : (Value.array []).IsWord := rfl
      rw [arrangement.text_word depth hnone, hword]
      rfl
  | cons item items =>
      have hopen : encode "[" = ['['.toUInt8] := by decide
      obtain ⟨hitem, hlater⟩ := List.forall_mem_cons.mp hends
      obtain ⟨given, hmore, hgiven⟩ := arrangement.moreItems_printed depth rest hlater
      obtain ⟨hpasses, hdue⟩ :=
        arrangement.item_printed hitem (arrangement.closes_moreItems (depth + 1) items depth rest)
      refine ⟨_, _, ?_, .cons hpasses hmore, .cons hdue hgiven⟩
      simp [arrangement.text_array, hopen]

/-! ### Members -/

/-- What comes after a member closes its value. -/
theorem closes_moreMembers (depth : Nat) (members : List Member) (outer : Nat) (rest : Bytes) :
    arrangement.Closes
      (encode (arrangement.moreMembers depth members ++ arrangement.line outer ++ "\x7d") ++
        rest) := by
  cases members with
  | nil => simpa [Spelling.moreMembers] using arrangement.closes_brace outer rest
  | cons member members =>
      simp only [Spelling.moreMembers, Text.encode_append, List.append_assoc]
      exact arrangement.closes_comma _

/-- A member with its key, and its value where it was printed. -/
theorem member_printed (key : String) {value : Value} (hvalue : arrangement.Ends depth value)
    (hrest : arrangement.Closes rest) :
    let found := encode arrangement.gap ++ (encode (arrangement.text depth value) ++ rest)
    MemberAt (encode (arrangement.member depth key value) ++ rest) key found rest ∧
      arrangement.DueAt depth value found := by
  intro found
  have hquoteBlank : isBlank '\"'.toUInt8 = false := by decide
  have hcolonBlank : isBlank ':'.toUInt8 = false := by decide
  have hcolon : encode ":" = [':'.toUInt8] := by decide
  have hfound : skipBlanks found = skipBlanks (encode (arrangement.text depth value) ++ rest) :=
    arrangement.skipBlanks_gap _
  obtain ⟨quoted, hquoted, hread⟩ := readQuoted_textWord key (':'.toUInt8 :: found)
  have hpart : skipBlanks (encode (arrangement.member depth key value) ++ rest) =
      '\"'.toUInt8 :: quoted := by
    have hspelling : encode (arrangement.member depth key value) ++ rest =
        encode (arrangement.line depth) ++ (encode (textWord key) ++ ':'.toUInt8 :: found) := by
      simp [Spelling.member, hcolon, found]
    rw [hspelling, arrangement.skipBlanks_line, hquoted, skipBlanks_of_not_blank hquoteBlank]
  refine ⟨.mk hpart hread ?_ ?_, rest, hrest, hfound⟩
  · simp [readColon, skipBlanks_of_not_blank hcolonBlank]
  · rw [← passes_skipBlanks, hfound, passes_skipBlanks]
    exact hvalue hrest

/-- The members after the first are found again. -/
theorem moreMembers_printed {members : List Member} (outer : Nat) (rest : Bytes)
    (hends : ∀ member ∈ members, arrangement.Ends depth member.2) :
    ∃ given, MoreMembers
        (encode (arrangement.moreMembers depth members ++ arrangement.line outer ++ "\x7d") ++
          rest) given rest ∧
      arrangement.DueAs depth members given := by
  induction members with
  | nil =>
      have hbrace : encode "\x7d" = ['\x7d'.toUInt8] := by decide
      have hblank : isBlank '\x7d'.toUInt8 = false := by decide
      refine ⟨[], .nil ?_, .nil⟩
      simp [Spelling.moreMembers, hbrace, skipBlanks_of_not_blank hblank]
  | cons member members ih =>
      obtain ⟨key, value⟩ := member
      have hcomma : encode "," = [','.toUInt8] := by decide
      have hblank : isBlank ','.toUInt8 = false := by decide
      obtain ⟨hvalue, hlater⟩ := List.forall_mem_cons.mp hends
      obtain ⟨given, hmore, hgiven⟩ := ih hlater
      -- The value ends at what is printed for the members after it.
      obtain ⟨hmember, hdue⟩ := arrangement.member_printed key hvalue
        (arrangement.closes_moreMembers depth members outer rest)
      refine ⟨_, .cons ?_ hmember hmore, .cons ⟨rfl, hdue⟩ hgiven⟩
      simp [Spelling.moreMembers, hcomma, skipBlanks_of_not_blank hblank]

/-- The members of a printed object are found again. -/
theorem members {members : List Member} (rest : Bytes)
    (hends : ∀ member ∈ members, arrangement.Ends (depth + 1) member.2) :
    ∃ given inner,
      encode (arrangement.text depth (.object members)) ++ rest = '\x7b'.toUInt8 :: inner ∧
      Members inner given rest ∧ arrangement.DueAs (depth + 1) members given := by
  cases members with
  | nil =>
      have hword : encode (word (.object [])) = ['\x7b'.toUInt8, '\x7d'.toUInt8] := by decide
      have hblank : isBlank '\x7d'.toUInt8 = false := by decide
      refine ⟨[], '\x7d'.toUInt8 :: rest, ?_, .nil (skipBlanks_of_not_blank hblank), .nil⟩
      have hnone : (Value.object []).IsWord := rfl
      rw [arrangement.text_word depth hnone, hword]
      rfl
  | cons member members =>
      obtain ⟨key, value⟩ := member
      have hopen : encode "\x7b" = ['\x7b'.toUInt8] := by decide
      obtain ⟨hvalue, hlater⟩ := List.forall_mem_cons.mp hends
      obtain ⟨given, hmore, hgiven⟩ := arrangement.moreMembers_printed depth rest hlater
      obtain ⟨hmember, hdue⟩ := arrangement.member_printed key hvalue
        (arrangement.closes_moreMembers (depth + 1) members depth rest)
      refine ⟨_, _, ?_, .cons hmember hmore, .cons ⟨rfl, hdue⟩ hgiven⟩
      simp [arrangement.text_object, hopen]

end Arrangement

/-! ## Reading what was printed -/

section Reads

variable {α : Type} {arrangement : Arrangement} {read : Bytes → Except Fault (α × Bytes)}
  {depth : Nat} {printed : Value} {found : α} {input rest : Bytes}

/-- Finds the value that was printed, wherever it is closed. -/
def Arrangement.Reads (arrangement : Arrangement) (read : Bytes → Except Fault (α × Bytes))
    (depth : Nat) (printed : Value) (found : α) : Prop :=
  ∀ ⦃rest⦄, arrangement.Closes rest →
    read (encode (arrangement.text depth printed) ++ rest) = .ok (found, rest)

theorem Arrangement.Reads.of_dueAt (hreads : arrangement.Reads read depth printed found)
    (hregular : Regular read) (hdue : arrangement.DueAt depth printed input) :
    ∃ after, read input = .ok (found, after) := by
  obtain ⟨beyond, hbeyond, hinput⟩ := hdue
  refine ⟨beyond, ?_⟩
  rw [← hregular.blanks, hinput, hregular.blanks, hreads hbeyond]

/-- A document that a reader finds is what reading it gives. -/
theorem Arrangement.Reads.read_eq {reader : Reader α}
    (hreads : arrangement.Reads (reader deepest) 0 printed found) :
    Json.read reader (encode (arrangement.text 0 printed)) = .ok found := by
  have hread := hreads arrangement.closes_nil
  rw [List.append_nil] at hread
  exact read_eq_ok_iff.mpr ⟨[], hread, rfl⟩

theorem Arrangement.Reads.ends (hreads : arrangement.Reads read depth printed found)
    (hregular : Regular read) : arrangement.Ends depth printed :=
  fun _ hrest => hregular.agrees (hreads hrest)

/-- A printed list is read item by item. -/
theorem Arrangement.readElements_printed {items : List Value} {values : List α} (rest : Bytes)
    (hregular : Regular read)
    (hreads : List.Forall₂ (arrangement.Reads read (depth + 1)) items values) :
    ∃ inner, encode (arrangement.text depth (.array items)) ++ rest = '['.toUInt8 :: inner ∧
      readElements read inner = .ok (values, rest) := by
  have hends := forall_of_forall₂ hreads fun _ _ hitem => hitem.ends hregular
  obtain ⟨given, inner, hspelling, hitems, hdue⟩ := arrangement.items rest hends
  have hfinds : Finds read given values :=
    forall₂_combine hdue hreads fun _ _ _ hdue hitem => hitem.of_dueAt hregular hdue
  exact ⟨inner, hspelling, (readElements_eq_ok_iff hregular.agrees).mpr ⟨given, hitems, hfinds⟩⟩

/-- Each member has the key of an entry, whose value the reader finds. -/
def Arrangement.ReadsEntries (arrangement : Arrangement)
    (read : Bytes → Except Fault (α × Bytes)) (depth : Nat) (members : List Member)
    (entries : List (String × α)) : Prop :=
  Matches (arrangement.Reads read depth) members entries

section Entries

variable {members : List Member} {entries : List (String × α)}

/-- A printed object is read member by member. -/
theorem Arrangement.readMembers_printed (rest : Bytes) (hregular : Regular read)
    (hentries : arrangement.ReadsEntries read (depth + 1) members entries) :
    ∃ inner, encode (arrangement.text depth (.object members)) ++ rest = '\x7b'.toUInt8 :: inner ∧
      readMembers (readEntry read) [] inner = .ok (entered entries, rest) := by
  have hends := forall_of_forall₂ hentries fun _ _ hentry => hentry.2.ends hregular
  obtain ⟨given, inner, hspelling, hmembers, hdue⟩ := arrangement.members rest hends
  have hfound : Matches (fun input value => ∃ left, read input = .ok (value, left)) given entries :=
    Matches.combine hdue hentries fun _ _ _ hdue hentry => hentry.of_dueAt hregular hdue
  exact ⟨inner, hspelling, (readMembers_eq_ok_iff (takes_readEntry hregular.agrees)).mpr
    ⟨given, hmembers, foldlM_enter_eq_some_iff.mpr ⟨entries, hfound, rfl⟩⟩⟩

end Entries

end Reads

end FreightPromotion.Json
