import FreightPromotion.Files.Path

/-!
# The environment

The program looks at four variables of its environment.  Two of them say where
the user keeps settings, and the other two stand in for options.
-/

namespace FreightPromotion

/-- The variables that are set, with their values. -/
structure Environment where
  /-- The home directory of the user. -/
  home : Option String := none
  /-- The directory for settings. -/
  configHome : Option String := none
  /-- The path of the settings. -/
  configPath : Option String := none
  /-- The events to show. -/
  logFilter : Option String := none
deriving DecidableEq, Repr

namespace Environment

/-- The directory for settings.  It is a directory at home unless the
environment names one by a path from the root. -/
def configDirectory? (environment : Environment) : Option String :=
  environment.configHome.filter (·.startsWith "/") <|>
    (environment.home.filter (!·.isEmpty)).map (Files.joinPath · ".config")

/-- Where the settings are kept if no path is given. -/
def defaultPath? (environment : Environment) : Option String :=
  environment.configDirectory?.map fun directory =>
    Files.joinPath (Files.joinPath directory "kargo") "config.json"

end Environment

end FreightPromotion
