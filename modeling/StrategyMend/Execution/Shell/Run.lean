import StrategyMend.Execution.Process
import StrategyMend.Execution.Shell.Command

/-!
# Runs of the shell

The shell runs its commands over a state: the input that is left, what has been written, the time that
has passed and the status of the last command. It knows a few programs by itself: those that pass texts
on, wait, and end the shell. There are no files. A launcher offers the shell and its programs as
processes.
-/

set_option autoImplicit false

namespace StrategyMend.Execution.Shell

open Text

/-- Where a stream goes. -/
inductive Sink where
  | output
  | errors
  | nowhere
  deriving DecidableEq

/-- Where the two streams go. -/
structure Sinks where
  output : Sink
  errors : Sink

/-- The state of a shell. -/
structure State where
  input : List Char
  output : List Char
  errors : List Char
  elapsedMs : Nat
  status : Nat
  /-- The values of variables, the latest first. -/
  bindings : List (String × String)
  /-- How the shell has ended, if it has. -/
  ended : Option ExitStatus

/-- The parameters of a shell; the first is its name. -/
abbrev Parameters := List String

/-- The number of the shell's process. -/
def processId : String := "1"

/-- Where redirections let the streams go. -/
def Sinks.redirect (sinks : Sinks) : Redirect → Sinks
  | .toStream .output .errors => { sinks with output := sinks.errors }
  | .toStream .errors .output => { sinks with errors := sinks.output }
  | .toStream _ _ => sinks
  | .discard .output => { sinks with output := .nowhere }
  | .discard .errors => { sinks with errors := .nowhere }
  | .noInput => sinks

namespace State

/-- Writes a text to where a sink leads. -/
def write (sink : Sink) (text : List Char) (state : State) : State :=
  match sink with
  | .output => { state with output := state.output ++ text }
  | .errors => { state with errors := state.errors ++ text }
  | .nowhere => state

/-- Sets the status of the last command. -/
def withStatus (status : Nat) (state : State) : State := { state with status }

/-- The value of a variable, which is empty unless it was set. -/
def value (state : State) (name : String) : String :=
  ((state.bindings.find? fun entry => entry.1 = name).map Prod.snd).getD ""

/-- Sets a variable. -/
def assign (name value : String) (state : State) : State :=
  { state with bindings := (name, value) :: state.bindings }

/-- Writes a line about what went wrong. -/
def complain (sinks : Sinks) (message : String) (status : Nat) (state : State) : State :=
  (state.write sinks.errors (message.toList ++ ['\n'])).withStatus status

end State

/-! ## Words -/

/-- Whether a character separates words. -/
def isSeparator (c : Char) : Bool := c = ' ' || c = '\t' || c = '\n'

/-- The words of a text. -/
def fields (text : List Char) : List (List Char) :=
  text.foldr
    (fun c words =>
      if isSeparator c then if words.head? = some [] then words else [] :: words
      else
        match words with
        | [] => [[c]]
        | first :: rest => (c :: first) :: rest)
    [] |>.filter (· ≠ [])

/-- The text that a piece of a word stands for. -/
def Part.text (parameters : Parameters) (state : State) : Part → List Char
  | .char c => [c]
  | .processId => Shell.processId.toList
  | .lastStatus => (toString state.status).toList
  | .parameter n => (parameters[n]?.getD "").toList
  | .allParameters => (" ".intercalate (parameters.drop 1)).toList
  | .variable name _ => (state.value name).toList
  | .lengthOf name => (toString (state.value name).length).toList

/-- The text of a word with its parameters and variables replaced. -/
def wordText (parameters : Parameters) (state : State) (word : Word) : String :=
  String.ofList (word.flatMap (Part.text parameters state))

/-- The texts of a word. All parameters together become words of their own, and so does what an
unquoted variable holds. -/
def expand (parameters : Parameters) (state : State) (word : Word) : List String :=
  match word with
  | [.allParameters] => parameters.drop 1
  | [.variable name false] => (fields (state.value name).toList).map String.ofList
  | _ => [wordText parameters state word]

/-! ## Programs -/

/-- A text with its backslash sequences replaced, and whether it is complete; a sequence may cut the
rest off. -/
def unescape : List Char → List Char × Bool
  | [] => ([], true)
  | '\\' :: 'c' :: _ => ([], false)
  | '\\' :: 'n' :: rest => let (text, complete) := unescape rest; ('\n' :: text, complete)
  | '\\' :: 't' :: rest => let (text, complete) := unescape rest; ('\t' :: text, complete)
  | '\\' :: 'r' :: rest => let (text, complete) := unescape rest; ('\r' :: text, complete)
  | '\\' :: '\\' :: rest => let (text, complete) := unescape rest; ('\\' :: text, complete)
  | c :: rest => let (text, complete) := unescape rest; (c :: text, complete)

/-- What `echo` writes. -/
def echoed (arguments : List String) : List Char :=
  let (newline, words) :=
    match arguments with
    | "-n" :: rest => (false, rest)
    | _ => (true, arguments)
  let (text, complete) := unescape (" ".intercalate words).toList
  if newline && complete then text ++ ['\n'] else text

/-- What `printf` writes for a format whose places take texts. -/
def formatted : List Char → List String → List Char
  | [], _ => []
  | '%' :: '%' :: rest, words => '%' :: formatted rest words
  | '%' :: 's' :: rest, words => (words.headD "").toList ++ formatted rest (words.drop 1)
  | '%' :: 'd' :: rest, words => (words.headD "0").toList ++ formatted rest (words.drop 1)
  | c :: rest, words => c :: formatted rest words

/-- A number of seconds with an optional fraction and unit, in milliseconds. -/
def milliseconds? (text : String) : Option Nat :=
  let digits (cs : List Char) : Option Nat :=
    if cs.all Char.isDigit then some (cs.foldl (fun n c => 10 * n + (c.toNat - '0'.toNat)) 0)
    else none
  let (number, factor) :=
    match text.toList.reverse with
    | 's' :: rest => (rest.reverse, 1)
    | 'm' :: rest => (rest.reverse, 60)
    | 'h' :: rest => (rest.reverse, 3600)
    | 'd' :: rest => (rest.reverse, 86400)
    | all => (all.reverse, 1)
  let whole := number.takeWhile (· ≠ '.')
  let fraction := (number.dropWhile (· ≠ '.')).drop 1
  if number.isEmpty then none
  else do
    let seconds ← digits whole
    let thousandths ← digits ((fraction ++ ['0', '0', '0']).take 3)
    return (1000 * seconds + thousandths) * factor

/-- The number of a signal by its number or name. -/
def signal? (text : String) : Option Nat :=
  match text.toNat? with
  | some n => some n
  | none =>
    (ExitStatus.signalNames.find? fun entry =>
      entry.2 = text || entry.2 = "SIG" ++ text).map Prod.fst

/-- The signal and the process that the arguments of `kill` name. -/
def killArguments : List String → Option (Nat × String)
  | ["-s", name, target] => (signal? name).map fun n => (n, target)
  | [option, target] =>
    match option.toList with
    | '-' :: name => (signal? (String.ofList name)).map fun n => (n, target)
    | _ => none
  | [target] => some (15, target)
  | _ => none

/-- The first or last lines of a text. -/
def someLines (last : Bool) (count : Nat) (text : List Char) : List Char :=
  let lines := splitLines (String.ofList text)
  let chosen := if last then lines.drop (lines.length - count) else lines.take count
  (joinLines chosen true).toList

/-- The number of lines that the arguments of `head` and `tail` ask for. -/
def lineCount? : List String → Option Nat
  | [] => some 10
  | ["-n", count] => count.toNat?
  | [option] =>
    match option.toList with
    | '-' :: 'n' :: count => (String.ofList count).toNat?
    | '-' :: count => (String.ofList count).toNat?
    | _ => none
  | _ => none

/-- The texts for so many variables: one word for each, and what is left for the last. -/
def shares : (count : Nat) → List Char → List (List Char)
  | 0, _ => []
  | 1, text => [((text.dropWhile isSeparator).reverse.dropWhile isSeparator).reverse]
  | count + 1, text =>
    let text := text.dropWhile isSeparator
    text.takeWhile (!isSeparator ·) :: shares count (text.dropWhile (!isSeparator ·))

/-- A text without its backslashes; one after another one stays. -/
def withoutBackslashes : List Char → List Char
  | '\\' :: c :: rest => c :: withoutBackslashes rest
  | ['\\'] => []
  | c :: rest => c :: withoutBackslashes rest
  | [] => []

/-- Reads a line of the input into variables. The status says whether there was a whole line. -/
def readLine (arguments : List String) (state : State) : State :=
  let isRaw := arguments.contains "-r"
  let names := arguments.filter (· ≠ "-r")
  let line := state.input.takeWhile (· ≠ '\n')
  let text := if isRaw then line else withoutBackslashes line
  let after := { state with input := state.input.drop (line.length + 1) }
  ((names.zip (shares names.length text)).foldl
    (fun state entry => state.assign entry.1 (String.ofList entry.2)) after).withStatus
    (if line.length < state.input.length then 0 else 1)

/-- Whether a condition on texts and numbers holds; none if it makes no sense. -/
def condition? : List String → Option Bool
  | [] => some false
  | [text] => some (text ≠ "")
  | ["-n", text] => some (text ≠ "")
  | ["-z", text] => some (text = "")
  | [a, "=", b] => some (a = b)
  | [a, "!=", b] => some (a ≠ b)
  | [a, relation, b] =>
    match a.toInt?, b.toInt? with
    | some a, some b =>
      match relation with
      | "-eq" => some (a = b)
      | "-ne" => some (a ≠ b)
      | "-lt" => some (a < b)
      | "-le" => some (a ≤ b)
      | "-gt" => some (a > b)
      | "-ge" => some (a ≥ b)
      | _ => none
    | _, _ => none
  | "!" :: rest => (condition? rest).map not
  | _ => none

/-- The status of a condition. -/
def conditionStatus (arguments : List String) : Nat :=
  match condition? arguments with
  | some true => 0
  | some false => 1
  | none => 2

/-- What `wc` counts in a text. -/
def counted (option : String) (text : List Char) : Option Nat :=
  match option with
  | "-c" => some (String.ofList text).utf8ByteSize
  | "-m" => some text.length
  | "-l" => some (text.filter (· = '\n')).length
  | "-w" => some (fields text).length
  | _ => none

/-- Runs a program other than the shell; none if there is no such program. -/
def runProgram (sinks : Sinks) (name : String) (arguments : List String) (state : State) :
    Option State :=
  let base :=
    if "/bin/".toList.isPrefixOf name.toList then String.ofList (name.toList.drop 5)
    else if "/usr/bin/".toList.isPrefixOf name.toList then String.ofList (name.toList.drop 9)
    else name
  let lines (last : Bool) : State :=
    match lineCount? arguments with
    | some count =>
      (({ state with input := [] }.write sinks.output (someLines last count state.input))).withStatus 0
    | none => state.complain sinks (base ++ ": invalid option") 1
  match base with
  | "cat" =>
    if arguments = ["/dev/null"] then some (state.withStatus 0)
    else if arguments.all (· = "-") then
      some (({ state with input := [] }.write sinks.output state.input).withStatus 0)
    else
      some (state.complain sinks ("cat: " ++ arguments.headD "" ++ ": No such file or directory") 1)
  | "echo" => some ((state.write sinks.output (echoed arguments)).withStatus 0)
  | "printf" =>
    match arguments with
    | [] => some (state.complain sinks "sh: 1: printf: usage: printf format [arg ...]" 2)
    | format :: words =>
      some ((state.write sinks.output (formatted (unescape format.toList).1 words)).withStatus 0)
  | "sleep" =>
    match arguments.mapM milliseconds? with
    | some (first :: others) =>
      some ({ state with elapsedMs := state.elapsedMs + (first :: others).foldl (· + ·) 0 }.withStatus 0)
    | some [] => some (state.complain sinks "sleep: missing operand" 1)
    | none =>
      some (state.complain sinks
        ("sleep: invalid time interval '" ++ arguments.headD "" ++ "'") 1)
  | "true" => some (state.withStatus 0)
  | "false" => some (state.withStatus 1)
  | "test" => some (state.withStatus (conditionStatus arguments))
  | "[" =>
    if arguments.getLast? = some "]" then
      some (state.withStatus (conditionStatus arguments.dropLast))
    else some (state.complain sinks "sh: 1: [: missing ]" 2)
  | "wc" =>
    match counted (arguments.headD "") state.input with
    | some n =>
      some (({ state with input := [] }.write sinks.output ((toString n).toList ++ ['\n'])).withStatus 0)
    | none => some (state.complain sinks "wc: invalid option" 1)
  | "head" => some (lines false)
  | "tail" => some (lines true)
  | _ => none

/-- Whether a program is the shell. -/
def isShell (name : String) : Bool := name = "sh" || name = "/bin/sh" || name = "/usr/bin/sh"

/-! ## Running commands -/

/-- Ends the shell with a status. -/
def State.exit (status : Nat) (state : State) : State :=
  { state with status := status % 256, ended := some (.code (status % 256)) }

/-- Runs a simple command whose words are replaced. `startShell` runs the shell as a program. -/
def runWords (startShell : Sinks → List String → State → State) (parameters : Parameters)
    (sinks : Sinks) (words : List String) (state : State) : State :=
  let name := parameters.headD "sh"
  let start (program : String) (arguments : List String) (missing : String) : State :=
    if isShell program then startShell sinks (program :: arguments) state
    else
      match runProgram sinks program arguments state with
      | some after => after
      | none => state.complain sinks (name ++ ": 1: " ++ missing ++ program ++ ": not found") 127
  match words with
  | [] => state.withStatus 0
  | ":" :: _ => state.withStatus 0
  | "ulimit" :: _ => state.withStatus 0
  | "read" :: arguments => readLine arguments state
  | "exit" :: arguments =>
    match arguments with
    | [] => state.exit state.status
    | count :: _ =>
      match count.toNat? with
      | some n => state.exit n
      | none => (state.complain sinks (name ++ ": 1: exit: Illegal number: " ++ count) 2).exit 2
  | "kill" :: arguments =>
    match killArguments arguments with
    | some (number, target) =>
      if target = processId then
        if (ExitStatus.signalName? number).isSome then
          { state with ended := some (.signal number) }
        else state.withStatus 0
      else state.complain sinks (name ++ ": 1: kill: No such process") 1
    | none => state.complain sinks (name ++ ": 1: kill: Illegal option") 2
  | "exec" :: program :: arguments =>
    let after := start program arguments "exec: "
    match after.ended with
    | some _ => after
    | none => after.exit after.status
  | program :: arguments => start program arguments ""

/-- Runs a command unless the shell has ended. -/
def runCommand (startShell : Sinks → List String → State → State) (parameters : Parameters) :
    Command → Sinks → State → State
  | .simple words redirects, sinks, state =>
    if state.ended.isSome then state
    else
      let settings := words.takeWhile fun word => (assignment? word).isSome
      let run (state : State) : State :=
        if settings.length = words.length then
          (settings.filterMap assignment?).foldl
            (fun state setting =>
              state.assign setting.1 (wordText parameters state setting.2)) (state.withStatus 0)
        else
          runWords startShell parameters (redirects.foldl Sinks.redirect sinks)
            ((words.drop settings.length).flatMap (expand parameters state)) state
      if redirects.contains .noInput then
        { run { state with input := [] } with input := state.input }
      else run state
  | .group ownShell body redirects, sinks, state =>
    if state.ended.isSome then state
    else
      let after :=
        runCommand startShell parameters body (redirects.foldl Sinks.redirect sinks) state
      match ownShell, after.ended with
      | true, some (.code status) =>
        { after with status, ended := none, bindings := state.bindings }
      | true, _ => { after with bindings := state.bindings }
      | false, _ => after
  | .inTurn first second, sinks, state =>
    runCommand startShell parameters second sinks
      (runCommand startShell parameters first sinks state)
  | .andThen first second, sinks, state =>
    let after := runCommand startShell parameters first sinks state
    if after.status = 0 then runCommand startShell parameters second sinks after else after
  | .orElse first second, sinks, state =>
    let after := runCommand startShell parameters first sinks state
    if after.status = 0 then after else runCommand startShell parameters second sinks after
  | .piped first second, sinks, state =>
    if state.ended.isSome then state
    else
      let before :=
        runCommand startShell parameters first ⟨.output, sinks.errors⟩ { state with output := [] }
      let after :=
        runCommand startShell parameters second sinks
          { before with input := before.output, output := state.output, ended := none }
      match after.ended with
      | some (.code status) => { after with status, ended := none, bindings := state.bindings }
      | _ => { after with bindings := state.bindings }
  | .negated body, sinks, state =>
    let after := runCommand startShell parameters body sinks state
    if after.ended.isSome then after else after.withStatus (if after.status = 0 then 1 else 0)

/-- Runs the shell with its arguments as a program, at most `depth` shells inside each other. Without
a text among them it runs the text that is its input. The state is that of the shell that starts it. -/
def runShell : (depth : Nat) → Sinks → List String → State → State
  | 0, _, _, state => state.withStatus 1
  | depth + 1, sinks, words, state =>
    let run (parameters : Parameters) (text : String) (state : State) : State :=
      match read text with
      | .error fault => state.complain sinks (parameters.headD "sh" ++ ": 1: " ++ fault.message) 2
      | .ok command =>
        let after :=
          runCommand (runShell depth) parameters command sinks { state with status := 0, bindings := [] }
        match after.ended with
        | some (.code status) => { after with status, ended := none, bindings := state.bindings }
        | _ => { after with bindings := state.bindings }
    match words with
    | program :: "-c" :: text :: parameters =>
      run (if parameters.isEmpty then [program] else parameters) text state
    | program :: _ => run [program] (String.ofList state.input) { state with input := [] }
    | [] => state.withStatus 0

/-- The number of shells that may run inside each other. -/
def maxDepth : Nat := 16

/-- The launcher of the shell and its programs. -/
def launch : Launcher := fun program arguments input =>
  let state : State := ⟨input.toList, [], [], 0, 0, [], none⟩
  let sinks : Sinks := ⟨.output, .errors⟩
  let after? : Option State :=
    if isShell program then some (runShell maxDepth sinks (program :: arguments) state)
    else runProgram sinks program arguments state
  match after? with
  | none => .error "No such file or directory (os error 2)"
  | some after =>
    .ok
      { status := after.ended.getD (.code after.status)
        output := String.ofList after.output
        errors := String.ofList after.errors
        elapsedMs := after.elapsedMs }

end StrategyMend.Execution.Shell
