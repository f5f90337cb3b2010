/-!
Options and operands on a command line. An option is given by `--name` or by a hyphen and a letter;
letters can share one hyphen, and a value follows in the next word, after an equals sign, or right
after the letter. Two hyphens alone end the options.
-/

namespace Almanac.Command

/-- How an option is answered. -/
inductive OptionKind
  | switch
  /-- Takes a value, which must be among the accepted ones. -/
  | value (accepts : String → Bool)
  /-- Is answered at once, whatever else the line holds after it. -/
  | question

/-- What an option is for. -/
inductive OptionName
  | colour | verbose | help | version | template | date | data | json | strict
deriving DecidableEq, Repr

/-- The name that follows two hyphens. -/
def OptionName.word : OptionName → String
  | colour => "color"
  | verbose => "verbose"
  | help => "help"
  | version => "version"
  | template => "template"
  | date => "date"
  | data => "data"
  | json => "json"
  | strict => "strict"

/-- How an option is written and answered. -/
structure OptionSpec where
  name : OptionName
  letter : Option Char
  kind : OptionKind

inductive UsageError
  | unknownOption (text : String)
  | missingValue (name : OptionName)
  | unexpectedValue (name : OptionName)
  | invalidValue (name : OptionName) (value : String)
  | repeated (name : OptionName)
  | invalidOperand (text : String)
  | unexpectedOperand (text : String)
  | missingOperand
  | missingCommand
  | unknownCommand (text : String)
deriving DecidableEq, Repr

def UsageError.message : UsageError → String
  | unknownOption text => "unexpected option '" ++ text ++ "'"
  | missingValue name => "a value is required for '--" ++ name.word ++ "'"
  | unexpectedValue name => "no value is taken by '--" ++ name.word ++ "'"
  | invalidValue name value => "invalid value '" ++ value ++ "' for '--" ++ name.word ++ "'"
  | repeated name => "'--" ++ name.word ++ "' cannot be used multiple times"
  | invalidOperand text => "invalid argument '" ++ text ++ "'"
  | unexpectedOperand text => "unexpected argument '" ++ text ++ "'"
  | missingOperand => "an argument is missing"
  | missingCommand => "a command is missing"
  | unknownCommand text => "unrecognized command '" ++ text ++ "'"

/-- A piece of a command line that has been told apart. -/
inductive Item
  | option (spec : OptionSpec)
  | value (spec : OptionSpec) (value : String)
  | operand (text : String)
  | bad (error : UsageError)

namespace OptionSpec

def takesValue (spec : OptionSpec) : Bool :=
  match spec.kind with
  | .value _ => true
  | _ => false

def accepts (spec : OptionSpec) (value : String) : Bool :=
  match spec.kind with
  | .value accepts => accepts value
  | _ => false

end OptionSpec

variable (options : List OptionSpec)

/-- Words that begin with a hyphen are options, a lone hyphen excepted. -/
def isOptionWord : List Char → Bool
  | '-' :: _ :: _ => true
  | _ => false

/-- An option by its long name, and the option whose value has to follow. -/
def readLong (body : List Char) : List Item × Option OptionSpec :=
  let name := String.ofList (body.takeWhile (· ≠ '='))
  match options.find? (·.name.word = name), body.dropWhile (· ≠ '=') with
  | none, _ => ([.bad (.unknownOption name)], none)
  | some spec, [] => if spec.takesValue then ([], some spec) else ([.option spec], none)
  | some spec, _ :: value =>
    if spec.takesValue then ([.value spec (String.ofList value)], none)
    else ([.bad (.unexpectedValue spec.name)], none)

/-- Options by their letters, and the option whose value has to follow. -/
def readShort : List Char → List Item × Option OptionSpec
  | [] => ([], none)
  | c :: cs =>
    match options.find? (·.letter = some c) with
    | none => ([.bad (.unknownOption (String.singleton c))], none)
    | some spec =>
      if spec.takesValue then
        match cs with
        | [] => ([], some spec)
        | '=' :: value => ([.value spec (String.ofList value)], none)
        | value => ([.value spec (String.ofList value)], none)
      else
        let (items, awaiting) := readShort cs
        (.option spec :: items, awaiting)

/-- Tells a line apart, of which `awaiting` is the option before. Where `stop` is set, the first
operand ends the items and is given with the words after it. -/
def readWords (stop : Bool) : (awaiting : Option OptionSpec) → List String →
    List Item × List String
  | none, [] => ([], [])
  | some spec, [] => ([.bad (.missingValue spec.name)], [])
  | some spec, word :: words =>
    if isOptionWord word.toList then ([.bad (.missingValue spec.name)], [])
    else
      let (items, left) := readWords stop none words
      (.value spec word :: items, left)
  | none, word :: words =>
    match word.toList with
    | ['-', '-'] => (words.map .operand, [])
    | '-' :: '-' :: body =>
      let (first, awaiting) := readLong options body
      let (items, left) := readWords stop awaiting words
      (first ++ items, left)
    | '-' :: c :: cs =>
      let (first, awaiting) := readShort options (c :: cs)
      let (items, left) := readWords stop awaiting words
      (first ++ items, left)
    | _ =>
      if stop then ([], word :: words)
      else
        let (items, left) := readWords stop none words
        (.operand word :: items, left)

/-- What is given on a line, in order. -/
structure Given where
  switches : List OptionName
  values : List (OptionName × String)
  operands : List String

namespace Given

def nothing : Given := ⟨[], [], []⟩

def has (g : Given) (name : OptionName) : Bool := name ∈ g.switches

def value? (g : Given) (name : OptionName) : Option String := g.values.lookup name

end Given

/-- What a line comes to: a question to be answered or what is given. -/
inductive Collected
  | question (name : OptionName)
  | given (g : Given)

/-- Goes through the items in order; `accepts` is asked about each operand after those before it.
The first item that is wrong or is a question decides. -/
def collect (accepts : List String → String → Except UsageError Unit) :
    Given → List Item → Except UsageError Collected
  | g, [] => .ok (.given g)
  | _, .bad e :: _ => .error e
  | g, .option spec :: items =>
    match spec.kind with
    | .question => .ok (.question spec.name)
    | _ =>
      if g.has spec.name then .error (.repeated spec.name)
      else collect accepts { g with switches := g.switches ++ [spec.name] } items
  | g, .value spec value :: items =>
    if (g.value? spec.name).isSome then .error (.repeated spec.name)
    else if !spec.accepts value then .error (.invalidValue spec.name value)
    else collect accepts { g with values := g.values ++ [(spec.name, value)] } items
  | g, .operand text :: items =>
    match accepts g.operands text with
    | .error e => .error e
    | .ok () => collect accepts { g with operands := g.operands ++ [text] } items

end Almanac.Command
