import Almanac.Command.Options
import Almanac.Command.Request
import Almanac.Date.Text

/-!
Reading a command line. Before the name of a command stand options of the program, after it those of
the command, which has colour, verbosity and help among its own. What the line leaves open is
settled by the environment and then by a default.
-/

namespace Almanac.Command

/-- What a line is read in. -/
structure Environment where
  template : Option String
  data : Option String
  today : Date
  [screen : Screen]

/-- A path is not empty. -/
def isPath (text : String) : Bool := text ≠ ""

/-- A year in 32 bits, with or without a sign. -/
def readYear? (text : String) : Option Int := do
  let year ← match text.toList with
    | '+' :: digits => (Decimal.read? digits).map Int.ofNat
    | '-' :: digits => (Decimal.read? digits).map fun n => -(n : Int)
    | digits => (Decimal.read? digits).map Int.ofNat
  if -2147483648 ≤ year ∧ year ≤ 2147483647 then some year else none

def readDate? (text : String) : Option Date := Date.read? text.toList

def commonOptions : List OptionSpec :=
  [⟨.colour, none, .value fun word => (Colour.ofWord? word).isSome⟩,
    ⟨.verbose, some 'v', .switch⟩, ⟨.help, some 'h', .question⟩]

def programOptions : List OptionSpec :=
  ⟨.version, some 'V', .question⟩ :: commonOptions

def jsonOption : OptionSpec := ⟨.json, none, .switch⟩

def dataOption : OptionSpec := ⟨.data, none, .value isPath⟩

def renderOptions : List OptionSpec :=
  [⟨.template, some 't', .value fun _ => true⟩,
    ⟨.date, some 'd', .value fun word => (readDate? word).isSome⟩]

def Verb.options : Verb → List OptionSpec
  | render => renderOptions ++ dataOption :: jsonOption :: commonOptions
  | easter => jsonOption :: commonOptions
  | check => ⟨.strict, none, .switch⟩ :: jsonOption :: commonOptions
  | save => dataOption :: commonOptions

def fitOperand (fits : Bool) (operand : String) : Except UsageError Unit :=
  if fits then .ok () else .error (.invalidOperand operand)

/-- Whether a command takes an operand after those before it. -/
def Verb.takes (verb : Verb) (before : List String) (operand : String) : Except UsageError Unit :=
  match verb, before with
  | easter, [] => fitOperand (readYear? operand).isSome operand
  | save, [] | check, _ => fitOperand (isPath operand) operand
  | _, _ => .error (.unexpectedOperand operand)

def defaultTemplate : String :=
  "Dnes je \x7blongdate\x7d\x7bnameday:, meniny má [value]\x7d." ++
    "\x7bholiday: [value].\x7d\x7bworldday: [value].\x7d"

/-- The path of the data. One from the environment is looked at only when the line gives none. -/
def settleData (env : Environment) (own : Given) : Except UsageError (Option String) :=
  match own.value? .data, env.data with
  | some path, _ => .ok (some path)
  | none, none => .ok none
  | none, some path => if isPath path then .ok (some path) else .error (.invalidValue .data path)

/-- Makes a request of what is given to a command. -/
def Verb.settle (env : Environment) (own : Given) : Verb → Except UsageError Request
  | render => do
    let data ← settleData env own
    let template := (own.value? .template <|> env.template).getD defaultTemplate
    let date := ((own.value? .date).bind readDate?).getD env.today
    .ok (.render template date data (own.has .json))
  | easter =>
    .ok (.easter ((own.operands.head?.bind readYear?).getD env.today.year) (own.has .json))
  | check =>
    if own.operands = [] then .error .missingOperand
    else .ok (.check own.operands (own.has .strict) (own.has .json))
  | save =>
    match own.operands with
    | [] => .error .missingOperand
    | path :: _ => (settleData env own).map (.save path)

/-- The settings of the command go before those of the program. -/
def settings (program own : Given) : Settings where
  colour := ((own.value? .colour <|> program.value? .colour).bind Colour.ofWord?).getD .auto
  verbose := own.has .verbose || program.has .verbose

def Verb.readRest (env : Environment) (program : Given) (words : List String) (verb : Verb) :
    Except UsageError Invocation := do
  let (items, _) := readWords verb.options false none words
  match ← collect verb.takes .nothing items with
  | .question _ => .ok .help
  | .given own => (verb.settle env own).map (.run (settings program own))

/-- The word that asks for help in the place of a command. -/
def helpWord : String := "help"

/-- Help is given on the program or on one command. -/
def readHelp : List String → Except UsageError Invocation
  | [] => .ok .help
  | [word] =>
    if (Verb.ofWord? word).isSome ∨ word = helpWord then .ok .help
    else .error (.unknownCommand word)
  | _ :: word :: _ => .error (.unknownCommand word)

def readCommand (env : Environment) (program : Given) : List String → Except UsageError Invocation
  | [] => .error .missingCommand
  | word :: words =>
    match Verb.ofWord? word with
    | some verb => verb.readRest env program words
    | none => if word = helpWord then readHelp words else .error (.unknownCommand word)

/-- Reads a command line, which does not hold the name of the program. -/
def readLine (env : Environment) (words : List String) : Except UsageError Invocation := do
  let (items, left) := readWords programOptions true none words
  match ← collect (fun _ operand => .error (.unexpectedOperand operand)) .nothing items with
  | .question .version => .ok .version
  | .question _ => .ok .help
  | .given program => readCommand env program left

end Almanac.Command
