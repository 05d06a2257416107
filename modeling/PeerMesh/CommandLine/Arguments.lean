import PeerMesh.Text.Integer
import PeerMesh.Text.Terminal
import PeerMesh.Version

/-! The arguments of the program: options that take a value, which follows as the next argument or
stands behind the option itself, and two flags. -/

namespace PeerMesh.CommandLine

inductive Setting where
  | config
  | name
  | definition
  | mapping
  | port
  | bootstrap
  deriving DecidableEq, Repr

namespace Setting

def all : List Setting := [.config, .name, .definition, .mapping, .port, .bootstrap]

def long : Setting → String
  | .config => "config"
  | .name => "name"
  | .definition => "definition"
  | .mapping => "mapping"
  | .port => "port"
  | .bootstrap => "bootstrap"

def short : Setting → Char
  | .config => 'c'
  | .name => 'n'
  | .definition => 'd'
  | .mapping => 'm'
  | .port => 'p'
  | .bootstrap => 'b'

def display (s : Setting) : String := s!"--{s.long} <{s.long.toUpper}>"

end Setting

structure Arguments where
  config : Option String
  name : Option String
  definition : Option String
  mapping : Option String
  port : Option Nat
  bootstrap : List String
  deriving DecidableEq, Repr

def Arguments.none : Arguments := ⟨.none, .none, .none, .none, .none, []⟩

/-- What the program is asked to do. -/
inductive Invocation where
  | run (arguments : Arguments)
  | help
  | version
  deriving DecidableEq, Repr

inductive ArgumentFault where
  | unexpected (argument : String)
  | unexpectedValue (flag value : String)
  | missingValue (setting : Setting)
  | repeated (setting : Setting)
  | badValue (setting : Setting) (value reason : String)
  deriving DecidableEq, Repr

/-- The message about a fault. What was typed is shown without what would steer a terminal. -/
def ArgumentFault.message : ArgumentFault → String
  | .unexpected argument => s!"error: unexpected argument '{Text.Terminal.plain argument}' found"
  | .unexpectedValue flag value =>
    let typed := Text.Terminal.plain value
    s!"error: unexpected value '{typed}' for '{flag}' found; no more were expected"
  | .missingValue setting =>
    s!"error: a value is required for '{setting.display}' but none was supplied"
  | .repeated setting => s!"error: the argument '{setting.display}' cannot be used multiple times"
  | .badValue setting value reason =>
    s!"error: invalid value '{Text.Terminal.plain value}' for '{setting.display}': {reason}"

def wordOf? (cs : List Char) : Option Int :=
  Text.integer? (-9223372036854775808) 9223372036854775807 cs

/-- What is wrong with a text that writes no integer of sixty-four bits. A number that has become
too great is told before a character that is no digit behind it. -/
def integerFault (text : String) : String :=
  let (sign, digits) := match text.toList with
    | '-' :: rest => (['-'], rest)
    | '+' :: rest => (['+'], rest)
    | all => ([], all)
  let leading := digits.takeWhile Char.isDigit
  if text.isEmpty then "cannot parse integer from empty string"
  else if leading.isEmpty || (wordOf? (sign ++ leading)).isSome then
    "invalid digit found in string"
  else if sign = ['-'] then "number too small to fit in target type"
  else "number too large to fit in target type"

def readPort (text : String) : Except String Nat :=
  match wordOf? text.toList with
  | some value =>
    if 0 ≤ value && value ≤ 65535 then .ok value.toNat
    else .error s!"{value} is not in 0..=65535"
  | none => .error (integerFault text)

example : integerFault "99999999999999999999x" = "number too large to fit in target type" ∧
    integerFault "9223372036854775807x" = "invalid digit found in string" ∧
    integerFault "-9223372036854775809" = "number too small to fit in target type" := by
  decide +kernel

namespace Arguments

/-- Only the addresses to dial may be given more than once. -/
def once (setting : Setting) (old : Option String) (value : String)
    (store : Option String → Arguments) : Except ArgumentFault Arguments :=
  match old with
  | some _ => .error (.repeated setting)
  | .none => .ok (store (some value))

def set (a : Arguments) (value : String) : Setting → Except ArgumentFault Arguments
  | .config => once .config a.config value ({ a with config := · })
  | .name => once .name a.name value ({ a with name := · })
  | .definition => once .definition a.definition value ({ a with definition := · })
  | .mapping => once .mapping a.mapping value ({ a with mapping := · })
  | .port =>
    if a.port.isSome then .error (.repeated .port)
    else match readPort value with
      | .ok port => .ok { a with port := some port }
      | .error reason => .error (.badValue .port value reason)
  | .bootstrap => .ok { a with bootstrap := a.bootstrap ++ [value] }

end Arguments

/-- What an argument that starts with a dash says. -/
inductive Word where
  | set (setting : Setting) (value : String)
  /-- The value is the next argument. -/
  | open (setting : Setting)
  | flag (invocation : Invocation)
  | fault (fault : ArgumentFault)

/-- An option by its long name, with what stands behind an equals sign. -/
def longWord (name : String) (value : Option String) : Word :=
  match Setting.all.find? fun setting => setting.long = name, value with
  | some setting, some value => .set setting value
  | some setting, none => .open setting
  | none, some value =>
    if name = "help" || name = "version" then .fault (.unexpectedValue s!"--{name}" value)
    else .fault (.unexpected s!"--{name}")
  | none, none =>
    if name = "help" then .flag .help
    else if name = "version" then .flag .version
    else .fault (.unexpected s!"--{name}")

def shortWord (letter : Char) (behind : List Char) : Word :=
  match Setting.all.find? fun setting => setting.short = letter, behind with
  | some setting, [] => .open setting
  | some setting, '=' :: value => .set setting (String.ofList value)
  | some setting, value => .set setting (String.ofList value)
  | none, _ =>
    if letter = 'h' then .flag .help
    else if letter = 'V' then .flag .version
    else .fault (.unexpected s!"-{letter}")

/-- Reads an argument that starts with a dash, other than one or two dashes alone. -/
def word? (argument : String) : Option Word :=
  match argument.toList with
  | '-' :: '-' :: rest =>
    let name := rest.takeWhile (· ≠ '=')
    let value := match rest.drop name.length with
      | _ :: value => some (String.ofList value)
      | [] => none
    some (longWord (String.ofList name) value)
  | '-' :: letter :: behind => some (shortWord letter behind)
  | _ => none

inductive Pending where
  | nothing
  /-- Its value is the next argument. -/
  | open (setting : Setting)
  | given (setting : Setting) (value : String)

/-- Takes in the option that is pending, which must have its value. -/
def Pending.settle (a : Arguments) : Pending → Except ArgumentFault Arguments
  | .nothing => .ok a
  | .open setting => .error (.missingValue setting)
  | .given setting value => a.set value setting

/-- Reads the arguments that follow. A value that is an argument of its own is looked at when the
next option or flag comes, or at the end, so that an argument that cannot stand there is told first.
-/
def readArguments : Pending → Arguments → List String → Except ArgumentFault Invocation
  | pending, a, [] => (pending.settle a).map .run
  | pending, a, argument :: rest =>
    if argument = "--" then
      match rest with
      | extra :: _ => .error (.unexpected extra)
      | [] => (pending.settle a).map .run
    else match word? argument with
      | some (.fault fault) => .error fault
      | some (.flag invocation) => (pending.settle a).map fun _ => invocation
      | some (.open setting) =>
        match pending.settle a with
        | .ok a => readArguments (.open setting) a rest
        | .error fault => .error fault
      | some (.set setting value) =>
        match (pending.settle a).bind fun a => a.set value setting with
        | .ok a => readArguments .nothing a rest
        | .error fault => .error fault
      | none =>
        match pending with
        | .open setting => readArguments (.given setting argument) a rest
        | _ => .error (.unexpected argument)

def invocation (arguments : List String) : Except ArgumentFault Invocation :=
  readArguments .nothing .none arguments

def helpLines : List String :=
  ["agentmesh agent (TCP presence)", "", "Usage: agentmesh [OPTIONS]", "", "Options:",
    "  -c, --config <CONFIG>          Optional path to config file (TOML)",
    "  -n, --name <NAME>              Agent name (overrides [agent] name)",
    "  -d, --definition <DEFINITION>  Definition JSON to load at startup",
    "  -m, --mapping <MAPPING>        Mapping JSON to load at startup",
    "  -p, --port <PORT>              Presence port (overrides [network] presence_port)",
    "  -b, --bootstrap <BOOTSTRAP>    Extra presence peers to dial (host:port), repeatable",
    "  -h, --help                     Print help",
    "  -V, --version                  Print version"]

def versionLine : String := s!"agentmesh {Version.application}"

example : (invocation ["-nA", "--port=080", "-b", "x:1", "-b=y:2"]).toOption =
    some (.run ⟨.none, some "A", .none, .none, some 80, ["x:1", "y:2"]⟩) := by decide +kernel

example : (invocation ["-p", "70000"]).toOption = none ∧
    (invocation ["-n", "--help"]).toOption = none := by decide +kernel

end PeerMesh.CommandLine
