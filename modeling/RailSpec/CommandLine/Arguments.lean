import RailSpec.Number.Literal
import RailSpec.Text.Lines
import RailSpec.Text.Quoted

/-!
Command-line arguments. Long options may be cut short as long as they stay unique, short ones may
share a dash, a value may follow an option in the same argument, for a long one behind an equals
sign, and two dashes end the options. The schema files are the first run of arguments that are
neither options nor their values.
-/

namespace RailSpec.CommandLine

inductive Flag where
  | help
  | version
  | projectRoot
  | output
  | config
  | namespaceName
  | timeLimit
  | dryRun
  | force
  | verbose
  | quiet
  deriving DecidableEq, Repr

/-- The spellings of an option. -/
def Flag.spellings : Flag → List String
  | .help => ["-h", "--help"]
  | .version => ["--version"]
  | .projectRoot => ["-p", "--project-root"]
  | .output => ["-o", "--output"]
  | .config => ["-c", "--config"]
  | .namespaceName => ["-n", "--namespace"]
  | .timeLimit => ["--fallback-timeout"]
  | .dryRun => ["-d", "--dry-run"]
  | .force => ["-f", "--force"]
  | .verbose => ["-v", "--verbose"]
  | .quiet => ["-q", "--quiet"]

def Flag.all : List Flag :=
  [.help, .version, .projectRoot, .output, .config, .namespaceName, .timeLimit, .dryRun, .force,
    .verbose, .quiet]

def Flag.takesValue : Flag → Bool
  | .projectRoot | .output | .config | .namespaceName | .timeLimit => true
  | _ => false

/-- All spellings with their options, in order. -/
def spellings : List (List Char × Flag) :=
  Flag.all.flatMap fun flag => flag.spellings.map fun text => (text.toList, flag)

def flag? (spelling : List Char) : Option Flag :=
  spellings.lookup spelling

/-- What an option is given: a value, or two dashes, which stand for nothing. -/
inductive Given (α : Type) where
  | value (given : α)
  | nothing
  deriving DecidableEq, Repr

/-- The text behind an option, given in the same argument. -/
def Given.ofText (text : String) : Given String :=
  if text = "--" then .nothing else .value text

def Given.value? {α : Type} : Given α → Option α
  | .value given => some given
  | .nothing => none

/-- What a run is asked to do. -/
structure Arguments where
  schemas : List String := []
  projectRoot : Given String := .value "."
  output : Given String := .value "./typespec"
  config : Option String := none
  namespaceName : Option (Given String) := none
  timeLimit : Option (Given Float) := none
  dryRun : Bool := false
  force : Bool := false
  verbose : Nat := 0
  quiet : Bool := false

/-- Why arguments are not accepted. -/
inductive Refusal where
  | noValue (flag : Flag)
  | needlessValue (flag : Flag) (value : String)
  | notNumber (flag : Flag) (value : String)
  | ambiguous (given : String) (candidates : List String)
  | noSchemas
  | unrecognized (arguments : List String)
  deriving DecidableEq, Repr

/-- A message about an option. -/
def Flag.message (flag : Flag) (text : String) : String :=
  "argument " ++ Text.joined "/" flag.spellings ++ ": " ++ text

def Refusal.message : Refusal → String
  | .noValue flag => flag.message "expected one argument"
  | .needlessValue flag value => flag.message ("ignored explicit argument " ++ Text.shown value)
  | .notNumber flag value => flag.message ("invalid float value: " ++ Text.shown value)
  | .ambiguous given candidates =>
    "ambiguous option: " ++ given ++ " could match " ++ Text.joined ", " candidates
  | .noSchemas => "the following arguments are required: SCHEMA"
  | .unrecognized arguments => "unrecognized arguments: " ++ Text.joined " " arguments

/-- An option as it is given: which one, and the value in the same argument. -/
structure GivenOption where
  flag : Flag
  short : Bool
  value : Option (List Char) := none

/-- What an argument is. -/
inductive Kind where
  | operand
  | separator
  | option (given : GivenOption)
  | unknownOption

structure Argument where
  text : String
  kind : Kind

def isShort (spelling : List Char) : Bool :=
  spelling.length = 2

/-- The parts of a text in front of its first equals sign and behind it. -/
def splitEquals (text : List Char) : List Char × Option (List Char) :=
  let front := text.takeWhile (· ≠ '=')
  match text.drop front.length with
  | _ :: behind => (front, some behind)
  | [] => (front, none)

/-- Whether a text reads as a negative number, and so is no option. -/
def isNegativeNumber (text : List Char) : Bool :=
  match text with
  | '-' :: rest =>
    let rest := if rest.getLast? = some '\n' then rest.dropLast else rest
    let isDigit := fun c => (Text.digitValue? c).isSome
    let whole := rest.takeWhile isDigit
    match rest.drop whole.length with
    | [] => !whole.isEmpty
    | '.' :: places => !places.isEmpty && places.all isDigit
    | _ => false
  | _ => false

/-- The long options that a text with two dashes may stand for. -/
def candidates (front : List Char) : List (List Char × Flag) :=
  spellings.filter fun spelling => front.isPrefixOf spelling.1

/-- What an argument in front of two dashes is. -/
def kindOf (text : String) : Except Refusal Kind :=
  let characters := text.toList
  let (front, behind) := splitEquals characters
  let otherwise :=
    if isNegativeNumber characters || characters.contains ' ' then Kind.operand else .unknownOption
  match characters with
  | '-' :: second :: rest =>
    let inFront := behind.bind fun value => (flag? front).map fun flag => (flag, value)
    match flag? characters, inFront with
    | some flag, _ => .ok (.option ⟨flag, isShort characters, none⟩)
    | none, some (flag, value) => .ok (.option ⟨flag, isShort front, some value⟩)
    | none, none =>
      if second = '-' then
        match candidates front with
        | [] => .ok otherwise
        | [(_, flag)] => .ok (.option ⟨flag, false, behind⟩)
        | several =>
          .error (.ambiguous text (several.map fun candidate => String.ofList candidate.1))
      else
        match flag? ['-', second] with
        | some flag => .ok (.option ⟨flag, true, some rest⟩)
        | none => .ok otherwise
  | _ => .ok .operand

/-- Arguments with what they are; behind two dashes there are no options. -/
def classify : List String → Except Refusal (List Argument)
  | [] => .ok []
  | text :: rest =>
    if text = "--" then
      .ok (⟨text, .separator⟩ :: rest.map fun text => ⟨text, .operand⟩)
    else do
      let kind ← kindOf text
      let others ← classify rest
      return ⟨text, kind⟩ :: others

/-- An option with what it is given. -/
abbrev Setting := Flag × Given String

/-- An option that is given nothing it needs. -/
def Flag.alone (flag : Flag) : Setting :=
  (flag, .nothing)

/-- The options of one argument: those that are complete, and one that may still need the next
argument. -/
structure Cluster where
  complete : List Setting := []
  last : Option Flag := none

def Cluster.before (flag : Flag) (cluster : Cluster) : Cluster :=
  { cluster with complete := flag.alone :: cluster.complete }

/-- Takes apart an option with something behind it in the same argument: its value, or further short
options. -/
def clusterOf (flag : Flag) (short : Bool) (behind : List Char) : Except Refusal Cluster :=
  if flag.takesValue then .ok { complete := [(flag, .ofText (String.ofList behind))] }
  else
    match behind with
    | [] => .error (.needlessValue flag "")
    | c :: rest =>
      match if short then flag? ['-', c] else none, rest with
      | none, _ => .error (.needlessValue flag (String.ofList (c :: rest)))
      | some next, [] => .ok { complete := [flag.alone], last := some next }
      | some next, d :: rest => (clusterOf next true (d :: rest)).map (.before flag)
termination_by behind.length

/-- The options that an argument gives. -/
def GivenOption.cluster (given : GivenOption) : Except Refusal Cluster :=
  match given.value with
  | none => .ok { last := some given.flag }
  | some value => clusterOf given.flag given.short value

/-- What reading arguments may end with besides arguments to run with. -/
inductive Stop where
  | refused (refusal : Refusal)
  | help
  | version
  deriving DecidableEq, Repr

/-- An option that takes the next argument, and the options in front of it that are applied with
it. -/
structure Pending where
  complete : List Setting
  flag : Flag

/-- Arguments read so far: whether the run of schema files has begun and still goes on, what was not
recognized, and the option that waits for its value. -/
structure Reading where
  arguments : Arguments := { }
  begun : Bool := false
  goesOn : Bool := false
  unrecognized : List String := []
  pending : Option Pending := none

/-- The number that an option is given. -/
def givenNumber (flag : Flag) : Given String → Except Stop (Given Float)
  | .nothing => .ok .nothing
  | .value text =>
    match Number.readFloat text with
    | some number => .ok (.value number)
    | none => .error (.refused (.notNumber flag text))

/-- Applies an option with what it is given. -/
def Reading.apply (reading : Reading) (flag : Flag) (given : Given String) : Except Stop Reading :=
  let arguments := reading.arguments
  let set := fun arguments => Except.ok { reading with arguments }
  match flag with
  | .help => .error .help
  | .version => .error .version
  | .projectRoot => set { arguments with projectRoot := given }
  | .output => set { arguments with output := given }
  | .config => set { arguments with config := given.value? }
  | .namespaceName => set { arguments with namespaceName := some given }
  | .timeLimit => (givenNumber flag given).bind fun number =>
    set { arguments with timeLimit := some number }
  | .dryRun => set { arguments with dryRun := true }
  | .force => set { arguments with force := true }
  | .verbose => set { arguments with verbose := arguments.verbose + 1 }
  | .quiet => set { arguments with quiet := true }

def Reading.applyAll (reading : Reading) : List Setting → Except Stop Reading
  | [] => .ok reading
  | (flag, given) :: rest =>
    match reading.apply flag given with
    | .ok reading => reading.applyAll rest
    | .error stop => .error stop

def Reading.reject (reading : Reading) (text : String) : Reading :=
  { reading with unrecognized := reading.unrecognized ++ [text] }

/-- Takes an argument that is no option. -/
def Reading.operand (reading : Reading) (text : String) : Reading :=
  if reading.begun && !reading.goesOn then reading.reject text
  else
    { reading with
      arguments.schemas := reading.arguments.schemas ++ [text]
      begun := true
      goesOn := true }

def Argument.isOperand (argument : Argument) : Bool :=
  match argument.kind with
  | .operand => true
  | _ => false

/-- Takes an argument with options. -/
def Reading.option (reading : Reading) (given : GivenOption) : Except Stop Reading :=
  match given.cluster with
  | .error refusal => .error (.refused refusal)
  | .ok cluster =>
    let reading := { reading with goesOn := false }
    match cluster.last with
    | none => reading.applyAll cluster.complete
    | some flag =>
      if flag.takesValue then .ok { reading with pending := some ⟨cluster.complete, flag⟩ }
      else reading.applyAll (cluster.complete ++ [flag.alone])

/-- Takes the argument that an option waits for. -/
def Reading.value (reading : Reading) (pending : Pending) (argument : Argument) :
    Except Stop Reading :=
  if argument.isOperand then
    { reading with pending := none }.applyAll
      (pending.complete ++ [(pending.flag, Given.value argument.text)])
  else .error (.refused (.noValue pending.flag))

/-- Takes the next argument; `followed` says whether there are operands behind it. -/
def Reading.take (reading : Reading) (followed : Bool) (argument : Argument) :
    Except Stop Reading :=
  match reading.pending with
  | some pending => reading.value pending argument
  | none =>
    match argument.kind with
    | .operand => .ok (reading.operand argument.text)
    | .separator =>
      .ok (if reading.goesOn || (!reading.begun && followed) then reading
        else reading.reject argument.text)
    | .unknownOption => .ok ({ reading with goesOn := false }.reject argument.text)
    | .option given => reading.option given

/-- Reads arguments one after the other. -/
def readArguments (reading : Reading) : List Argument → Except Stop Reading
  | [] =>
    match reading.pending with
    | some pending => .error (.refused (.noValue pending.flag))
    | none => .ok reading
  | argument :: rest =>
    match reading.take (rest.any Argument.isOperand) argument with
    | .ok reading => readArguments reading rest
    | .error stop => .error stop

/-- The arguments of a run: there has to be a schema file, and nothing may be left over. -/
def parse (texts : List String) : Except Stop Arguments :=
  match classify texts with
  | .error refusal => .error (.refused refusal)
  | .ok arguments =>
    match readArguments { } arguments with
    | .error stop => .error stop
    | .ok reading =>
      if !reading.begun then .error (.refused .noSchemas)
      else if !reading.unrecognized.isEmpty then
        .error (.refused (.unrecognized reading.unrecognized))
      else .ok reading.arguments

end RailSpec.CommandLine
