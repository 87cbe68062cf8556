import FreightPromotion.Promotion

/-!
# Settings

The settings that every command shares are kept between commands: where the
server is, the token that the user has been given, and the project that is meant
when none is named.
-/

namespace FreightPromotion

open FreightPromotion.Json (Value Reader)

/-- The settings.  An empty address is an absent one.  A token or project may be
absent or present, and may then be empty. -/
structure Settings where
  apiAddress : String := ""
  bearerToken : Option String := none
  project : Option String := none
  insecureSkipTlsVerify : Bool := false
deriving DecidableEq, Repr

namespace Settings

/-- The project that is meant when none is named.  An empty one is none. -/
def defaultProject? (settings : Settings) : Option String :=
  settings.project.filter (!·.isEmpty)

/-- The fields, in the order of their declaration. -/
def fields : List (Json.Field Settings) :=
  [.of "apiAddress" Json.readText fun settings value => { settings with apiAddress := value },
    .of "bearerToken" (Json.readOptional Json.readText) fun settings value =>
      { settings with bearerToken := value },
    .of "project" (Json.readOptional Json.readText) fun settings value =>
      { settings with project := value },
    .of "insecureSkipTlsVerify" Json.readFlag fun settings value =>
      { settings with insecureSkipTlsVerify := value }]

/-- Reads settings. -/
def read : Reader Settings :=
  Json.readRecord "CliConfig" fields {}

/-- The document of the settings.  What is absent, and a flag that is not set,
is left out. -/
def document (settings : Settings) : Value :=
  .object <|
    textMember "apiAddress" settings.apiAddress ++
      optionalMember "bearerToken" (settings.bearerToken.map .text) ++
      optionalMember "project" (settings.project.map .text) ++
      (if settings.insecureSkipTlsVerify then [("insecureSkipTlsVerify", .bool true)] else [])

end Settings

end FreightPromotion
