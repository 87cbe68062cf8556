import FreightPromotion.Text.Alphanumeric
import FreightPromotion.Text.Utf8

/-!
# The parts of a directive

A directive is a word; or it has a source, a span and a field between brackets,
and a threshold after an equals sign, each of which may be absent:

    source[span{field}]=threshold

The layout of a directive says where its parts are.  It is that of the directive
without the white space around it.  The parts are cut from the directive as it
is, by the same numbers of bytes: white space before it moves them to the left,
and white space after it belongs to the last.
-/

namespace FreightPromotion.Directive

/-- A part of a text: the bytes from `start` up to `stop`, or up to the end. -/
structure Extent where
  start : Nat
  stop? : Option Nat := none
deriving DecidableEq, Repr

/-- Cuts a part out of a text, if it does not cut a character in two. -/
def Extent.cut? (extent : Extent) (text : String) : Option String :=
  let bytes := Text.encode text
  let before := (extent.stop?.map bytes.take).getD bytes
  Text.decode? (before.drop extent.start)

/-- Where the parts of a directive are. -/
inductive Layout where
  /-- The directive is a word, which names a threshold or a source. -/
  | word
  /-- The directive has a bracket or an equals sign.  The threshold starts after
  the equals sign and goes on to the end. -/
  | parts (source? span? field? threshold? : Option Extent)
deriving DecidableEq, Repr

namespace Layout

/-- Whether a directive can begin with a character. -/
def canStart (character : Char) : Bool :=
  character ∈ ['-', ':', '_', '['] || Text.isAlphanumeric character

/-- The number of bytes of some characters. -/
def width : List Char → Nat
  | [] => 0
  | character :: rest => character.utf8Size + width rest

/-- The threshold after the brackets, or after none, which end at byte `place`. -/
def threshold? (place : Nat) : List Char → Option (Option Extent)
  | [] => some none
  | '=' :: _ => some (some ⟨place + 1, none⟩)
  | _ => none

/-- The layout of a directive with brackets; the first byte between them is at
`place`, and the source stands before them.  A field needs a name. -/
def bracketed? (source? : Option Extent) (place : Nat) (characters : List Char) :
    Option Layout :=
  let span := characters.takeWhile fun character => character ≠ ']' && character ≠ '{'
  let spanStop := place + width span
  let spanExtent : Extent := ⟨place, some spanStop⟩
  match characters.drop span.length with
  | ']' :: rest =>
    (threshold? (spanStop + 1) rest).map fun threshold? =>
      .parts source? (some spanExtent) none threshold?
  | '{' :: rest =>
    let field := rest.takeWhile (· ≠ '}')
    let fieldStop := spanStop + 1 + width field
    match rest.drop field.length with
    | '}' :: ']' :: rest =>
      if field.isEmpty then none
      else
        (threshold? (fieldStop + 2) rest).map fun threshold? =>
          .parts source? (if span.isEmpty then none else some spanExtent)
            (some ⟨spanStop + 1, some fieldStop⟩) threshold?
    | _ => none
  | _ => none

/-- The layout of the characters of a directive without the white space around
it, if they have one. -/
def ofChars? (characters : List Char) : Option Layout :=
  if !characters.head?.any canStart then none
  else
    let source := characters.takeWhile fun character => character ≠ '=' && character ≠ '['
    let place := width source
    let extent : Extent := ⟨0, some place⟩
    match characters.drop source.length with
    | '[' :: rest => bracketed? (if source.isEmpty then none else some extent) (place + 1) rest
    | '=' :: _ => some (.parts (some extent) none none (some ⟨place + 1, none⟩))
    | _ => some .word

end Layout

end FreightPromotion.Directive
