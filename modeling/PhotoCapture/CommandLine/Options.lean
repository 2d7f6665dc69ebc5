import PhotoCapture.Binary.Basic
import PhotoCapture.CommandLine.Switch
import PhotoCapture.Decimal.Reading

namespace PhotoCapture.CommandLine

structure Options where
  config : Option String := none
  filter : String := ""
  flash : String := "auto"
  facing : String := "back"
  timer : Int64 := 0
  zoom : Double := 1
  request : Option String := none
  output : Option String := none
  unsynchronized : Bool := false
deriving DecidableEq

inductive Command where
  | capture
  | matrix
deriving DecidableEq

def readInt64? (text : String) : Option Int64 :=
  let (negative, written) := match text.toList with
    | '-' :: cs => (true, cs)
    | '+' :: cs => (false, cs)
    | cs => (false, cs)
  if written.isEmpty ∨ ¬written.all Char.isDigit then none
  else
    let n : Int := if negative then -(Numeral.value written : Int) else Numeral.value written
    if Int64.minValue.toInt ≤ n ∧ n ≤ Int64.maxValue.toInt then some (.ofInt n) else none

namespace Options

def text (set : String → Options → Options) : Effect Options := .value fun s => some (set s)

/-- A switch with a path as its value, which is not empty. -/
def path (set : String → Options → Options) : Effect Options :=
  .value fun s => if s = "" then none else some (set s)

def helpSwitch : Switch Options := ⟨"help", some 'h', .stop .help⟩

def configSwitch : Switch Options :=
  ⟨"config", none, path fun s options => { options with config := some s }⟩

def filterSwitch : Switch Options :=
  ⟨"filter", some 'f', text fun s options => { options with filter := s }⟩

def general : List (Switch Options) :=
  [configSwitch, helpSwitch, ⟨"version", some 'V', .stop .version⟩]

def switches : Command → List (Switch Options)
  | .matrix => [configSwitch, helpSwitch, filterSwitch]
  | .capture =>
    [configSwitch, helpSwitch, filterSwitch,
      ⟨"flash", none, text fun s options => { options with flash := s }⟩,
      ⟨"facing", none, text fun s options => { options with facing := s }⟩,
      ⟨"timer", some 't', .value fun s =>
        (readInt64? s).map fun n options => { options with timer := n }⟩,
      ⟨"zoom", some 'z', .value fun s =>
        (Binary.ofText? s.toList).map fun x options => { options with zoom := x }⟩,
      ⟨"request", none, text fun s options => { options with request := some s }⟩,
      ⟨"output", some 'o', path fun s options => { options with output := some s }⟩,
      ⟨"unsynchronized", none, .flag fun options => { options with unsynchronized := true }⟩]

end Options

structure Invocation where
  command : Command
  options : Options
deriving DecidableEq

namespace Invocation

def command? : String → Option Command
  | "capture" => some .capture
  | "matrix" => some .matrix
  | _ => none

/-- The words that stand for a command; one of them asks for help. -/
def words : List String := ["capture", "matrix", "help"]

/-- What asking for help on words comes to. -/
def helpOn : List String → Stop
  | [] => .help
  | [word] => if word ∈ words then .help else .misuse
  | _ => .misuse

def ofArguments (args : List String) : Except Stop Invocation :=
  match Switch.read Options.general words [] {} args with
  | .error reason => .error reason
  | .ok (_, []) => .error .misuse
  | .ok (options, word :: rest) =>
    match command? word with
    | none => .error (helpOn rest)
    | some command =>
      match Switch.read (Options.switches command) [] [] options rest with
      | .error reason => .error reason
      | .ok (options, _) => .ok ⟨command, options⟩

end Invocation

end PhotoCapture.CommandLine
