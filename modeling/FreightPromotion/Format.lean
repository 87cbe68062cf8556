/-!
# Output formats

Promotions are printed as one line each or, on demand, in a format that is asked
for by its name.
-/

namespace FreightPromotion

/-- The names of the formats, in the order in which they are listed. -/
def supportedFormats : List String := ["json", "yaml", "name"]

/-- Whether there is a format with the given name.  Names are compared exactly. -/
def isSupportedFormat (label : String) : Bool := supportedFormats.contains label

end FreightPromotion
