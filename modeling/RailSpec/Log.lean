import RailSpec.Text.Lines

/-! Log lines: what a run tells on the side, each line from one of its parts. -/

namespace RailSpec.Log

inductive Level where
  | info
  | warning
  | error
  deriving DecidableEq, Repr

def Level.name : Level → String
  | .info => "INFO"
  | .warning => "WARNING"
  | .error => "ERROR"

def Level.rank : Level → Nat
  | .info => 1
  | .warning => 2
  | .error => 3

/-- The part of the program that a line comes from. -/
inductive Origin where
  | commandLine
  | generator
  | exporter
  deriving DecidableEq, Repr

def Origin.name : Origin → String
  | .commandLine => "tspgen"
  | .generator => "tspgen.generator"
  | .exporter => "tspgen.exporters"

structure Line where
  level : Level
  origin : Origin
  message : String
  deriving DecidableEq, Repr

/-- A line as it is written, after the time of day. -/
def Line.text (time : String) (line : Line) : String :=
  let level := line.level.name
  Text.joined " │ " [time, level ++ Text.padding 8 level, line.origin.name, line.message] ++ "\n"

/-- How much is told. -/
inductive Verbosity where
  | quiet
  | normal
  | talkative
  deriving DecidableEq, Repr

/-- The least level that is told. -/
def Verbosity.least : Verbosity → Level
  | .quiet => .error
  | .normal => .warning
  | .talkative => .info

/-- The text of all lines that a verbosity lets through. -/
def text (time : String) (verbosity : Verbosity) (lines : List Line) : String :=
  let told := lines.filter fun line => verbosity.least.rank ≤ line.level.rank
  String.join (told.map (Line.text time))

end RailSpec.Log
