import StrategyMend.Config.Json
import StrategyMend.Error
import StrategyMend.Toml.Reader

/-!
# Configurations as TOML

A configuration file is a TOML document with the same sections and values as a configuration in JSON.
What it configures is checked.
-/

set_option autoImplicit false

namespace StrategyMend.Config

/-- Passes on a configuration with which the program can work. -/
def checked (config : Config) : Except ConfigError Config :=
  match config.validate with
  | .ok () => .ok config
  | .error invalid => .error (.invalidValue invalid)

/-- Reads a configuration file. -/
def ofToml (text : String) : Except ConfigError Config :=
  match Toml.read? text with
  | none => .error (.malformed "this is no TOML document")
  | some document =>
    match ofJson? document with
    | none => .error (.malformed "a value has the wrong type")
    | some config => checked config

end StrategyMend.Config
