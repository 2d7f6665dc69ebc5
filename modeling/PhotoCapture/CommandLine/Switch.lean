namespace PhotoCapture.CommandLine

inductive Stop where
  | misuse
  | help
  | version
deriving DecidableEq

inductive Effect (α : Type) where
  | flag (set : α → α)
  /-- The switch takes a value, and not every value may do. -/
  | value (set : String → Option (α → α))
  | stop (reason : Stop)

structure Switch (α : Type) where
  long : String
  short : Option Char := none
  effect : Effect α

namespace Switch

variable {α : Type}

/-- The name and the attached value of an argument that is a switch with a long name. -/
def splitLong (cs : List Char) : List Char × Option (List Char) :=
  match cs.dropWhile (· ≠ '=') with
  | [] => (cs, none)
  | _ :: value => (cs.takeWhile (· ≠ '='), some value)

/-- The value attached to a short name; an equals sign between them does not belong to it. -/
def attachedShort : List Char → Option (List Char)
  | [] => none
  | '=' :: value => some value
  | value => some value

/-- The switch that an argument names, and the value attached to it; nothing if the argument is
not a switch. -/
def named? (switches : List (Switch α)) (arg : List Char) :
    Option (Option (Switch α) × Option (List Char)) :=
  match arg with
  | '-' :: '-' :: cs =>
    let (name, attached) := splitLong cs
    some (switches.find? (fun s => s.long.toList = name), attached)
  | '-' :: c :: cs => some (switches.find? (fun s => s.short = some c), attachedShort cs)
  | _ => none

/-- Whether an argument may be a value that stands alone. -/
def standsAlone (arg : String) : Bool :=
  match arg.toList with
  | '-' :: _ :: _ => false
  | _ => true

def takeValue (set : String → Option (α → α)) (value : String) (options : α) : Except Stop α :=
  match set value with
  | some change => .ok (change options)
  | none => .error .misuse

/-- The options that arguments set, and the arguments from the name of a further command on. The
switches that were given before are listed by their long names, and none may be given twice. -/
def read (switches : List (Switch α)) (commands : List String) :
    List String → α → List String → Except Stop (α × List String)
  | _, options, [] => .ok (options, [])
  | given, options, arg :: args =>
    if arg ∈ commands then .ok (options, arg :: args)
    else if arg = "--" then if args = [] then .ok (options, []) else .error .misuse
    else
      match named? switches arg.toList with
      | none => .error .misuse
      | some (none, _) => .error .misuse
      | some (some switch, attached) =>
        if switch.long ∈ given then .error .misuse
        else
          match switch.effect, attached with
          | .stop reason, none => .error reason
          | .flag set, none => read switches commands (switch.long :: given) (set options) args
          | .stop reason, some _ =>
            if arg.toList.take 2 = ['-', '-'] then .error .misuse else .error reason
          | .flag _, some _ => .error .misuse
          | .value set, some value =>
            match takeValue set (String.ofList value) options with
            | .error reason => .error reason
            | .ok options => read switches commands (switch.long :: given) options args
          | .value set, none =>
            match args with
            | [] => .error .misuse
            | value :: args =>
              if standsAlone value then
                match takeValue set value options with
                | .error reason => .error reason
                | .ok options => read switches commands (switch.long :: given) options args
              else .error .misuse

end Switch

end PhotoCapture.CommandLine
