import FreightPromotion.Decimal.Layout

/-!
# Documents

A document is a tree of values.  The members of an object keep an order: a
record that the program writes lists its fields in the order of their
declaration, and an object that it has read lists them by key.  A reader of
either finds the same members, so the order is a matter of presentation, but it
is visible in what is printed.
-/

namespace FreightPromotion.Json

/-- A number is an integer or a binary fraction, and stays what it was written
as: `1` and `1.0` are different values. -/
inductive Number where
  | integer (value : Int)
  | fraction (value : Float)
deriving DecidableEq

/-- A document. -/
inductive Value where
  | null
  | bool (value : Bool)
  | number (value : Number)
  | text (value : String)
  | array (items : List Value)
  | object (members : List (String × Value))

/-- A named value of an object. -/
abbrev Member := String × Value

/-- Enters a value under `key` in a list ordered by key.  A value that was there
before is replaced.  Keys compare by code points, which is also the order of
their UTF-8 forms. -/
def enter {α : Type} (key : String) (value : α) : List (String × α) → List (String × α)
  | [] => [(key, value)]
  | (other, present) :: rest =>
    if key < other then (key, value) :: (other, present) :: rest
    else if key = other then (key, value) :: rest
    else (other, present) :: enter key value rest

/-- Fractions are written out when the exponent of the first digit is between
`-5` and `15`; otherwise the exponent is written with its sign. -/
def layout : Decimal.Layout := ⟨-5, 15, true⟩

/-- The text of a number, with fractions in the given layout. -/
def Number.text (layout : Decimal.Layout) : Number → String
  | .integer value => toString value
  | .fraction value => layout.text value

end FreightPromotion.Json
