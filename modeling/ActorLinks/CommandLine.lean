/-! # Command lines

A command line names one command with its path and options. The configuration file may be named
before the command and behind it, where it counts; any option may be given once in one place.
-/
namespace ActorLinks

inductive Command where
  | generate (path : String) (out : Option String)
  | inspect (path : String)
  deriving DecidableEq, Repr

/-- What help can be asked for. -/
inductive Topic where
  | program
  | generate
  | inspect
  | help
  deriving DecidableEq, Repr

inductive CommandLine where
  | run (command : Command) (config : Option String)
  | help (topic : Topic)
  | version
  | misuse
  deriving DecidableEq, Repr

namespace CommandLine

inductive Flag where
  | config
  | out
  | help
  | version
  deriving DecidableEq

namespace Flag

def name : Flag → String
  | config => "config"
  | out => "out"
  | help => "help"
  | version => "version"

def letter : Flag → Char
  | config => 'c'
  | out => 'o'
  | help => 'h'
  | version => 'V'

def takesValue : Flag → Bool
  | config | out => true
  | help | version => false

end Flag

/-- The flags that a command knows; only the program itself is given without a path. -/
def flagsOf : Topic → List Flag
  | .program => [.config, .help, .version]
  | .generate => [.config, .out, .help]
  | .inspect => [.config, .help]
  | .help => []

inductive Argument where
  | word
  | flag (f : Flag) (attached : Option String)
  | unknown

def startsFlag : List Char → Bool
  | '-' :: _ :: _ => true
  | _ => false

/-- A value is attached to a long flag by an equals sign, and to a short one with or without. -/
def Argument.ofText (flags : List Flag) (arg : String) : Argument :=
  match arg.toList with
  | '-' :: '-' :: cs =>
    let attached := match cs.dropWhile (· ≠ '=') with
      | _ :: value => some (String.ofList value)
      | [] => none
    match flags.find? fun f => f.name.toList == cs.takeWhile (· ≠ '=') with
    | some f => .flag f attached
    | none => .unknown
  | '-' :: c :: cs =>
    let attached := match cs with
      | [] => none
      | '=' :: value => some (String.ofList value)
      | value => some (String.ofList value)
    match flags.find? fun f => f.letter == c with
    | some f => .flag f (if f.takesValue then attached else none)
    | none => .unknown
  | _ => .word

/-- What was given to a command so far. A value that is written apart from its flag waits there
until the next argument is taken up. -/
structure Given where
  path : Option String := none
  out : Option String := none
  config : Option String := none
  waiting : Option (Flag × String) := none

/-- A value is not empty and is given once. -/
def fill (slot : Option String) (value : String) : Except CommandLine (Option String) :=
  if slot.isSome || value.isEmpty then .error .misuse else .ok (some value)

namespace Given

def addPath (g : Given) (value : String) : Except CommandLine Given :=
  (fill g.path value).map fun p => { g with path := p }

def set (g : Given) (f : Flag) (value : String) : Except CommandLine Given :=
  match f with
  | .config => (fill g.config value).map fun c => { g with config := c }
  | .out => (fill g.out value).map fun o => { g with out := o }
  | .help | .version => .error .misuse

/-- Takes the waiting value in. -/
def settle (g : Given) : Except CommandLine Given :=
  match g.waiting with
  | some (f, value) => { g with waiting := none }.set f value
  | none => .ok g

end Given

/-- Reads the arguments of a command from the left; the program's end at the first word. What is
left over begins with that word, which does not disturb a waiting value. -/
def scan (topic : Topic) (g : Given) : List String → Except CommandLine (Given × List String)
  | [] => .ok (g, [])
  | arg :: rest =>
    if arg = "--" then
      if topic = .program then .error .misuse
      else do return (← rest.foldlM Given.addPath (← g.settle), [])
    else match Argument.ofText (flagsOf topic) arg with
      | .unknown => .error .misuse
      | .word =>
        if topic = .program then .ok (g, arg :: rest)
        else do scan topic (← (← g.settle).addPath arg) rest
      | .flag .help none => g.settle.bind fun _ => .error (.help topic)
      | .flag .version none => g.settle.bind fun _ => .error .version
      | .flag f (some value) => do scan topic (← (← g.settle).set f value) rest
      | .flag f none =>
        match rest with
        | [] => .error .misuse
        | value :: rest =>
          if startsFlag value.toList then .error .misuse
          else do scan topic { (← g.settle) with waiting := some (f, value) } rest

def helpOn : List String → CommandLine
  | [] => .help .program
  | ["generate"] => .help .generate
  | ["inspect"] => .help .inspect
  | ["help"] => .help .help
  | _ => .misuse

/-- Reads the path and the options of a command; a value that still waits before the command's
word is taken in last. -/
def parseRun (topic : Topic) (program : Given) (args : List String) :
    Except CommandLine (Given × String × Option String) := do
  let (g, _) ← scan topic {} args
  let g ← g.settle
  match g.path with
  | some path => return (g, path, g.config <|> (← program.settle).config)
  | none => throw .misuse

def parseCommand (program : Given) : List String → Except CommandLine CommandLine
  | "generate" :: rest => do
    let (g, path, config) ← parseRun .generate program rest
    return .run (.generate path g.out) config
  | "inspect" :: rest => do
    let (_, path, config) ← parseRun .inspect program rest
    return .run (.inspect path) config
  | "help" :: rest => return helpOn rest
  | _ => throw .misuse

/-- Help and misuse end the reading where they are met. -/
def parse (args : List String) : CommandLine :=
  let result := do
    let (program, rest) ← scan .program {} args
    parseCommand program rest
  match result with
  | .ok c => c
  | .error c => c

end CommandLine

def configHelp : String :=
  "Configuration file path (default: ./linkgen.toml)"

def pathHelp : String :=
  "Path to a .toml/.json manifest or a directory containing them"

/-- The lines that are printed as help. -/
def Topic.lines : Topic → List String
  | .program =>
    ["A tool for generating link declarations from actor manifests",
      "",
      "Usage: linkgen [OPTIONS] <COMMAND>",
      "",
      "Commands:",
      "  generate  Generate sources from a manifest or a directory of manifests",
      "  inspect   Visit a manifest and print its node trees",
      "  help      Print this message or the help of the given subcommand(s)",
      "",
      "Options:",
      "  -c, --config <CONFIG>  " ++ configHelp,
      "  -h, --help             Print help",
      "  -V, --version          Print version"]
  | .generate =>
    ["Generate sources from a manifest or a directory of manifests",
      "",
      "Usage: linkgen generate [OPTIONS] <PATH>",
      "",
      "Arguments:",
      "  <PATH>  " ++ pathHelp,
      "",
      "Options:",
      "  -c, --config <CONFIG>  " ++ configHelp,
      "  -o, --out <OUT>        Directory to write generated files to (default: print to stdout)",
      "  -h, --help             Print help"]
  | .inspect =>
    ["Visit a manifest and print its node trees",
      "",
      "Usage: linkgen inspect [OPTIONS] <PATH>",
      "",
      "Arguments:",
      "  <PATH>  " ++ pathHelp,
      "",
      "Options:",
      "  -c, --config <CONFIG>  " ++ configHelp,
      "  -h, --help             Print help"]
  | .help =>
    ["Print this message or the help of the given subcommand(s)",
      "",
      "Usage: linkgen help [COMMAND]...",
      "",
      "Arguments:",
      "  [COMMAND]...  Print help for the subcommand(s)"]

end ActorLinks
