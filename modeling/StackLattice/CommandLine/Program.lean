import StackLattice.CommandLine.Parser
import StackLattice.Configuration.Layers
import StackLattice.Instance.Discovery
import StackLattice.Logging.Filter
import StackLattice.Run.Listing
import StackLattice.Run.Schedule

/-!
The program as a function of what it finds: the directories, the variables, the terminal and the arguments.
What goes wrong with an instance is part of the output; only what keeps the program from starting changes the
exit code.
-/

namespace StackLattice.CommandLine

/-- What the program finds. -/
structure Surroundings where
  workspace : Workspace
  /-- Variables with their values. -/
  environment : List (String × String) := []
  /-- Whether the output goes to a terminal. -/
  terminal : Bool := false

namespace Surroundings

/-- The value of a variable; the last one of a name counts. -/
def lookup (s : Surroundings) (name : String) : Option String := s.environment.reverse.lookup name

/-- Whether output is coloured where the configuration does not forbid it. Variables may ask for colours, or
    else refuse them. -/
def takesColors (s : Surroundings) : Bool :=
  if (s.lookup "CLICOLOR_FORCE").any (· ≠ "0") then true
  else if (s.lookup "NO_COLOR").isSome then false
  else s.terminal && !(s.lookup "CLICOLOR").any (· == "0")

end Surroundings

/-- How the program ends, and what it has written till then. -/
structure Ending where
  code : Nat
  output : String := ""
  /-- What is written for errors. -/
  complaint : Option String := none
deriving DecidableEq, Repr

inductive StartError
  | usage (e : UsageError)
  | configuration (e : ConfigurationError)
  | logging (e : Logging.Unfit)
deriving DecidableEq, Repr

/-- How the program ends when it does not start. -/
def StartError.ending : StartError → Ending
  | usage e =>
    if e.isAnswer then { code := e.exitCode, output := e.message ++ "\n" }
    else { code := e.exitCode, complaint := some ("error: " ++ e.message) }
  | configuration e => { code := 1, complaint := some ("Error: " ++ e.message) }
  | logging e =>
    { code := 1, complaint := some ("Error: failed to initialize logging: " ++ e.message) }

structure Session where
  invocation : Invocation
  configuration : Configuration
  directives : List Logging.Directive

def start (s : Surroundings) (arguments : List String) : Except StartError Session := do
  let invocation ← (read arguments).mapError .usage
  let configuration ←
    (Configuration.load s.workspace s.environment invocation.globals).mapError .configuration
  let directives ← (Logging.directives (configuration.logging s.lookup).level).mapError .logging
  return { invocation, configuration, directives }

namespace Session

/-- Instances are evaluated, and it always comes to an end to print a document. -/
def schedule : Schedule := ⟨fun i => .ofExcept i.document, fun _ _ => true⟩

def shown (listing : Listing) (i : Instance) : String :=
  let e := schedule.ending i
  (e.handled.map fun d => listing.text i.displayPath d).getD "" ++
    (e.diagnostic.map fun d => d.written listing.colored).getD ""

/-- The output for all instances, in their order. -/
def output (s : Session) (surroundings : Surroundings) : String :=
  let discovery : Discovery :=
    { workspace := surroundings.workspace, package := s.configuration.package }
  let printing := s.invocation.printing
  let listing : Listing :=
    { path := printing.path?
      headersOnly := printing.onlyErrors
      colored := s.configuration.color && surroundings.takesColors }
  let (exclusion, rejections) := Exclusion.ofText s.configuration.exclude
  let instances := (discovery.instances printing.arguments).filter fun i => !exclusion.excludes i.displayPath
  String.join (rejections.map (·.written listing.colored)) ++ String.join (instances.map (shown listing))

end Session

def run (s : Surroundings) (arguments : List String) : Ending :=
  match start s arguments with
  | .error e => e.ending
  | .ok session => { code := 0, output := session.output s }

end StackLattice.CommandLine
