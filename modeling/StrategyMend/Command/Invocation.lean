import StrategyMend.Files.Path
import StrategyMend.Number.Reader

/-!
# Invocations

The arguments of the program name an action, the paths it works on, and options. Options may stand
anywhere after the action's name, those for every action also before it. An option that takes a value
takes the next argument or what follows an equals sign, and every option is given at most once. After
two hyphens all arguments are paths.
-/

set_option autoImplicit false

namespace StrategyMend.Command

open Files Number

/-- Options of the whole pipeline. -/
structure PipelineOptions where
  threshold : Option Binary64
  noApply : Bool
  execute : Bool
  recover : Bool
  parallel : Bool
  /-- Where the report is written. -/
  report : Option Path
  writeFixed : Bool

/-- What the program is to do. -/
inductive Action where
  /-- Report issues. -/
  | validate (json : Bool)
  /-- Repair and list the fixes. -/
  | fix (threshold : Option Binary64) (write : Bool)
  /-- Put the scripts through every stage. -/
  | pipeline (options : PipelineOptions)

/-- What the arguments ask for. -/
structure Invocation where
  /-- The file that configures the program. -/
  config : Option Path
  paths : List Path
  action : Action

/-- Why there is nothing to do. -/
inductive Refusal where
  /-- The arguments make no sense. -/
  | misuse
  /-- The arguments ask for help. -/
  | help
  /-- The arguments ask which version of the program this is. -/
  | version

/-! ## Options -/

/-- An option: its name, and whether it takes a value. -/
structure OptionKind where
  name : String
  takesValue : Bool

/-- The options for every action. -/
def commonOptions : List OptionKind :=
  [⟨"config", true⟩, ⟨"log-filter", true⟩, ⟨"help", false⟩]

/-- The options of an action. -/
def optionsOf (action : String) : Option (List OptionKind) :=
  match action with
  | "validate" => some [⟨"json", false⟩]
  | "fix" => some [⟨"threshold", true⟩, ⟨"write", false⟩]
  | "pipeline" =>
    some
      [⟨"threshold", true⟩, ⟨"no-apply", false⟩, ⟨"execute", false⟩, ⟨"recover", false⟩,
        ⟨"parallel", false⟩, ⟨"report", true⟩, ⟨"write-fixed", false⟩]
  | _ => none

/-- The options and other arguments that were given, each in reverse. An option without a value has
the empty text. -/
structure Given where
  options : List (String × String)
  words : List String

namespace Given

/-- Nothing is given. -/
def none : Given := ⟨[], []⟩

/-- Adds an option unless it is there already. -/
def addOption (given : Given) (name value : String) : Except Refusal Given :=
  if given.options.any fun option => option.1 = name then .error .misuse
  else if name = "help" then .error .help
  else if name = "version" then .error .version
  else .ok { given with options := (name, value) :: given.options }

/-- The value of an option. -/
def value? (given : Given) (name : String) : Option String :=
  (given.options.find? fun option => option.1 = name).map Prod.snd

/-- Whether an option is given. -/
def has (given : Given) (name : String) : Bool := (given.value? name).isSome

end Given

/-- The name of an option and the value after an equals sign, if an argument is an option. -/
def option? (argument : String) : Option (String × Option String) :=
  match argument.toList with
  | '-' :: '-' :: rest =>
    let name := rest.takeWhile (· ≠ '=')
    let value := (rest.dropWhile (· ≠ '=')).drop 1
    some (String.ofList name,
      if name.length < rest.length then some (String.ofList value) else Option.none)
  | _ => Option.none

/-- Whether an argument looks like an option. -/
def looksLikeOption (argument : String) : Bool :=
  match argument.toList with
  | '-' :: _ :: _ => true
  | _ => false

/-- Reads arguments. With `stops` the first word ends the reading, and it and the arguments after it
are given back. -/
def collect (kinds : List OptionKind) (stops : Bool) (given : Given) :
    List String → Except Refusal (Given × List String)
  | [] => .ok (given, [])
  | argument :: rest =>
    if argument = "--" then
      if stops then .error .misuse else .ok ({ given with words := rest.reverse ++ given.words }, [])
    else
      match option? argument with
      | some (name, attached) =>
        match kinds.find? fun kind => kind.name = name with
        | none => .error .misuse
        | some kind =>
          if kind.takesValue then
            match attached with
            | some value =>
              (given.addOption name value).bind fun more => collect kinds stops more rest
            | none =>
              match rest with
              | [] => .error .misuse
              | value :: others =>
                if looksLikeOption value then .error .misuse
                else
                  (given.addOption name value).bind fun more => collect kinds stops more others
          else if attached.isSome then .error .misuse
          else (given.addOption name "").bind fun more => collect kinds stops more rest
      | none =>
        if argument = "-h" then .error .help
        else if stops && argument = "-V" then .error .version
        else if looksLikeOption argument then .error .misuse
        else if stops then .ok (given, argument :: rest)
        else collect kinds stops { given with words := argument :: given.words } rest

/-- A path, which is not empty. -/
def path? (text : String) : Except Refusal Path := if text = "" then .error .misuse else .ok text

/-- The value of an option that names a path. -/
def pathOption (given : Given) (name : String) : Except Refusal (Option Path) :=
  match given.value? name with
  | none => .ok none
  | some text => (path? text).map some

/-- The value of an option that is a number. -/
def numberOption (given : Given) (name : String) : Except Refusal (Option Binary64) :=
  match given.value? name with
  | none => .ok none
  | some text =>
    match Binary64.read? text with
    | some x => .ok (some x)
    | none => .error .misuse

/-- The action with the given name and options. -/
def actionOf (name : String) (given : Given) : Except Refusal Action :=
  match name with
  | "validate" => .ok (.validate (given.has "json"))
  | "fix" => do return .fix (← numberOption given "threshold") (given.has "write")
  | "pipeline" => do
    return .pipeline
      { threshold := ← numberOption given "threshold"
        noApply := given.has "no-apply"
        execute := given.has "execute"
        recover := given.has "recover"
        parallel := given.has "parallel"
        report := ← pathOption given "report"
        writeFixed := given.has "write-fixed" }
  | _ => .error .misuse

/-- The name and version of the program. -/
def versionLine : String := "stratguard 0.1.0"

/-- What the arguments of the program ask for. -/
def Invocation.ofArguments (arguments : List String) : Except Refusal Invocation := do
  let (before, rest) ← collect (commonOptions ++ [⟨"version", false⟩]) true .none arguments
  match rest with
  | [] => .error .misuse
  | name :: others =>
    if name = "help" then .error .help
    else
      match optionsOf name with
      | none => .error .misuse
      | some kinds =>
        let (given, _) ← collect (kinds ++ commonOptions) false .none others
        let action ← actionOf name given
        let outerConfig ← pathOption before "config"
        let innerConfig ← pathOption given "config"
        let paths ← given.words.reverse.mapM path?
        if paths.isEmpty then .error .misuse
        else return { config := innerConfig.or outerConfig, paths, action }

end StrategyMend.Command
