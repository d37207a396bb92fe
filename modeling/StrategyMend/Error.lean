import StrategyMend.Config.Basic

/-!
# Errors

What can go wrong around the work on scripts: a configuration that cannot be used, a parser that
cannot work at all, files that cannot be read or written, and a run that does not succeed. Every
error has a code that never changes and a message. A source that does not parse is no error but an
issue.
-/

set_option autoImplicit false

namespace StrategyMend

/-- A configuration that cannot be used. -/
inductive ConfigError where
  | unreadable (path reason : String)
  /-- A text that is no configuration, with what is wrong about it. -/
  | malformed (reason : String)
  | invalid (field reason : String)

namespace ConfigError

/-- The error of a value that the program cannot work with. -/
def invalidValue (value : Config.InvalidValue) : ConfigError :=
  .invalid value.field value.complaint.message

/-- The code of an error. -/
def code : ConfigError → String
  | .invalid _ _ => "CONFIG_INVALID_VALUE"
  | _ => "CONFIG_ERROR"

/-- The message of an error. -/
def message : ConfigError → String
  | .unreadable path reason => "cannot read config " ++ path ++ ": " ++ reason
  | .malformed reason => "invalid config TOML: " ++ reason
  | .invalid field reason => "invalid value for " ++ field ++ ": " ++ reason

end ConfigError

/-- A parser that cannot work at all. -/
inductive ParserError where
  | grammar (language reason : String)
  | noTree (name : String)

namespace ParserError

/-- The code of an error. -/
def code : ParserError → String
  | .grammar _ _ => "GRAMMAR_LOAD_FAILED"
  | .noTree _ => "PARSER_FAILED"

/-- The message of an error. -/
def message : ParserError → String
  | .grammar language reason => "failed to load grammar for " ++ language ++ ": " ++ reason
  | .noTree name => "parser produced no tree for " ++ name

end ParserError

/-- An error that ends the work of the pipeline. -/
inductive PipelineError where
  | inputUnreadable (path reason : String)
  | outputUnwritable (path reason : String)
  | config (error : ConfigError)
  | parser (error : ParserError)

namespace PipelineError

/-- The code of an error. -/
def code : PipelineError → String
  | .inputUnreadable _ _ => "INPUT_UNREADABLE"
  | .outputUnwritable _ _ => "OUTPUT_WRITE_FAILED"
  | .config error => error.code
  | .parser error => error.code

/-- The message of an error. -/
def message : PipelineError → String
  | .inputUnreadable path reason => "cannot read " ++ path ++ ": " ++ reason
  | .outputUnwritable path reason => "cannot write " ++ path ++ ": " ++ reason
  | .config error => "config error: " ++ error.message
  | .parser error => "parse error: " ++ error.message

end PipelineError

/-- A run that does not succeed. -/
inductive RunError where
  /-- The run took longer than so many milliseconds. -/
  | timeout (limitMs : Nat)
  /-- The strategy failed. -/
  | exception (reason : String)
  /-- The run could not be started. -/
  | spawn (reason : String)
  deriving DecidableEq

namespace RunError

/-- The code of an error. -/
def code : RunError → String
  | .timeout _ => "RUNTIME_TIMEOUT"
  | .exception _ => "RUNTIME_EXCEPTION"
  | .spawn _ => "RUNNER_SPAWN_FAILED"

/-- The message of an error. -/
def message : RunError → String
  | .timeout limit => "execution exceeded " ++ toString limit ++ "ms wall-clock limit"
  | .exception reason => "candidate raised: " ++ reason
  | .spawn reason => "failed to start runner: " ++ reason

end RunError

end StrategyMend
