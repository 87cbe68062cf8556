import FreightPromotion.Json.Printer
import FreightPromotion.Json.Reader

/-!
# Promotions

A promotion records that a piece of freight is to move into a stage.  The server
creates it, and the program shows what it was given: of the metadata it knows
the fields below, and `spec` and `status` are documents of the server's own,
which pass through as they are.
-/

namespace FreightPromotion

open FreightPromotion.Json (Value Reader)

/-- What identifies a resource.  Labels and annotations are ordered by key. -/
structure Metadata where
  name : String := ""
  namespaceName : String := ""
  creationTimestamp : Option String := none
  labels : List (String × String) := []
  annotations : List (String × String) := []
deriving DecidableEq

/-- A promotion as the server returns it.  A null `spec` is an absent one, while
a status is absent or present, and may then be null. -/
structure Promotion where
  metadata : Metadata := {}
  spec : Value := .null
  status : Option Value := none

/-- A promotion of which only the name is known. -/
def Promotion.named (name : String) : Promotion :=
  { metadata := { name := name } }

/-- The name of a promotion. -/
def Promotion.name (promotion : Promotion) : String :=
  promotion.metadata.name

/-! ## Reading -/

/-- The fields of the metadata, in the order of their declaration. -/
def Metadata.fields : List (Json.Field Metadata) :=
  [.of "name" Json.readText fun metadata value => { metadata with name := value },
    .of "namespace" Json.readText fun metadata value => { metadata with namespaceName := value },
    .of "creationTimestamp" (Json.readOptional Json.readText) fun metadata value =>
      { metadata with creationTimestamp := value },
    .of "labels" Json.readTextMap fun metadata value => { metadata with labels := value },
    .of "annotations" Json.readTextMap fun metadata value =>
      { metadata with annotations := value }]

/-- Reads metadata. -/
def Metadata.read : Reader Metadata :=
  Json.readRecord "ObjectMeta" Metadata.fields {}

/-- The fields of a promotion, in the order of their declaration. -/
def Promotion.fields : List (Json.Field Promotion) :=
  [.of "metadata" Metadata.read fun promotion value => { promotion with metadata := value },
    .of "spec" Json.readValue fun promotion value => { promotion with spec := value },
    .of "status" (Json.readOptional Json.readValue) fun promotion value =>
      { promotion with status := value }]

/-- Reads a promotion. -/
def Promotion.read : Reader Promotion :=
  Json.readRecord "Promotion" Promotion.fields {}

/-! ## Documents -/

/-- A member that is left out when its text is empty. -/
def textMember (key text : String) : List Json.Member :=
  if text.isEmpty then [] else [(key, .text text)]

/-- A member that is left out when its map is empty. -/
def mapMember (key : String) (entries : List (String × String)) : List Json.Member :=
  if entries.isEmpty then []
  else [(key, .object (entries.map fun (name, text) => (name, .text text)))]

/-- A member that is left out when its value is absent. -/
def optionalMember (key : String) (value : Option Value) : List Json.Member :=
  match value with
  | some value => [(key, value)]
  | none => []

/-- A member that is left out when its value is null. -/
def freeMember (key : String) : Value → List Json.Member
  | .null => []
  | value => [(key, value)]

/-- The document of the metadata.  The name is always there. -/
def Metadata.document (metadata : Metadata) : Value :=
  .object <|
    ("name", .text metadata.name) ::
      (textMember "namespace" metadata.namespaceName ++
        optionalMember "creationTimestamp" (metadata.creationTimestamp.map .text) ++
        mapMember "labels" metadata.labels ++
        mapMember "annotations" metadata.annotations)

/-- The document of a promotion. -/
def Promotion.document (promotion : Promotion) : Value :=
  .object <|
    ("metadata", promotion.metadata.document) ::
      (freeMember "spec" promotion.spec ++ optionalMember "status" promotion.status)

/-! ## Resources -/

/-- The shape in which objects are presented: with the version of the interface
they belong to and the kind they are of. -/
structure Resource where
  apiVersion : String
  kind : String
  metadata : Metadata
  spec : Value
  status : Option Value

/-- The version of the interface that promotions belong to. -/
def Promotion.apiVersion : String := "kargo.akuity.io/v1alpha1"

/-- The kind of a promotion. -/
def Promotion.kind : String := "Promotion"

/-- A promotion as it is presented. -/
def Promotion.resource (promotion : Promotion) : Resource where
  apiVersion := Promotion.apiVersion
  kind := Promotion.kind
  metadata := promotion.metadata
  spec := promotion.spec
  status := promotion.status

/-- The document of a resource. -/
def Resource.document (resource : Resource) : Value :=
  .object <|
    [("apiVersion", .text resource.apiVersion), ("kind", .text resource.kind),
      ("metadata", resource.metadata.document)] ++
      freeMember "spec" resource.spec ++ optionalMember "status" resource.status

end FreightPromotion
