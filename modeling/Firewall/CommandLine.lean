import Firewall.Controller
import Firewall.Hint
import Firewall.Kernel
import Firewall.Nft.Document

namespace Firewall

inductive Command where
  /-- Writes a default configuration file. -/
  | init (force : Bool)
  /-- Shows the batch of the whole policy. -/
  | plan
  | apply
  | cleanup
  | update (which : AddressSet) (remove add : List String)
  | ban (specs : List String) (seconds : Option Nat)
  | unban (specs : List String)
  | listSet (which : AddressSet)
  | listRules (chain : String)
  deriving DecidableEq, Repr

/-- A command with the configuration file and the outside interface of the host. -/
structure Request where
  configPath : String
  interface : String
  address : String
  command : Command
  deriving DecidableEq, Repr

/-- Arguments: words, and options with the arguments behind them up to the next option. -/
structure Arguments where
  words : List String
  options : List (String × List String)
  deriving DecidableEq, Repr

namespace Arguments

def ofList : List String → Arguments
  | [] => ⟨[], []⟩
  | a :: as =>
    let rest := ofList as
    if a.startsWith "--" then ⟨[], (a, rest.words) :: rest.options⟩
    else ⟨a :: rest.words, rest.options⟩

def values? (a : Arguments) (option : String) : Option (List String) :=
  (a.options.find? fun o => o.1 = option).map (·.2)

/-- What stands behind an option that may be repeated. -/
def allValues (a : Arguments) (option : String) : List String :=
  a.options.flatMap fun o => if o.1 = option then o.2 else []

/-- The one value of an option, or a default for an option that is not there. -/
def valueD? (a : Arguments) (option default : String) : Option String :=
  match a.values? option with
  | none => some default
  | some [v] => some v
  | some _ => none

end Arguments

namespace Request

def defaultConfigPath : String := "/etc/firewall/config.json"

def timeout? (a : Arguments) : Option (Option Nat) :=
  match a.values? "--timeout" with
  | none => some none
  | some [v] => (Text.number? 0xFFFFFFFFFFFFFFFF v.toList).map some
  | some _ => none

def update (which : AddressSet) (a : Arguments) : Command :=
  .update which (a.allValues "--remove") (a.allValues "--add")

def command? (a : Arguments) : Option Command :=
  match a.words with
  | ["init"] => some (.init (a.values? "--force").isSome)
  | ["plan"] => some .plan
  | ["apply"] => some .apply
  | ["cleanup"] => some .cleanup
  | ["trust"] => some (update .trusted a)
  | ["manager"] => some (update .manager a)
  | ["forward"] => some (update .forward a)
  | "ban" :: spec :: specs => (timeout? a).map (.ban (spec :: specs))
  | "unban" :: spec :: specs => some (.unban (spec :: specs))
  | ["list", "set", name] => (AddressSet.ofName? name).map .listSet
  | ["list", "rules"] => some (.listRules "input")
  | ["list", "rules", chain] => some (.listRules chain)
  | _ => none

def ofArguments? (args : List String) : Option Request := do
  let a := Arguments.ofList args
  return {
    configPath := ← a.valueD? "--config" defaultConfigPath
    interface := ← a.valueD? "--interface" "eth0"
    address := ← a.valueD? "--address" ""
    command := ← command? a }

end Request

/-- A rule of a listing: its handle, right-aligned in six places, and its id. -/
def ruleLine (r : RuleData) : String :=
  let handle := ((r.handle.map decimalText).getD "-").toList
  String.ofList (List.replicate (6 - handle.length) ' ' ++ handle) ++ "  " ++ r.id.getD ""

namespace Command

/-- Executes a command and returns the lines to print. -/
def execute (c : Command) : Action (Controller Kernel) (List String) := do
  match c with
  | .init _ => return []
  | .plan => return []
  | .apply =>
    Controller.apply
    let s ← .state
    return ["✓ Baseline policy applied (" ++ s.outsideAddress.text ++ " on " ++
      s.outsideInterface ++ ")"]
  | .cleanup =>
    Controller.cleanup
    return ["✓ Cleanup ruleset installed"]
  | .update which remove add =>
    Controller.updateSet which remove add
    return []
  | .ban specs seconds =>
    Controller.ban specs (seconds.map Duration.ofSeconds)
    return ["✓ Banned " ++ decimalText specs.length ++ " entries"]
  | .unban specs =>
    Controller.unban specs
    return ["✓ Unbanned " ++ decimalText specs.length ++ " entries"]
  | .listSet which => Controller.members which
  | .listRules chain => return (← Controller.rules chain).map ruleLine

/-- Executes a command behind an application of the policy, unless it is one itself. -/
def executeApplied (c : Command) : Action (Controller Kernel) (List String) := do
  if c ≠ .apply then Controller.apply
  execute c

/-- Tries a command on an empty kernel; the lines to print, and the document of the last batch. -/
def tryOut (c : Command) (config : Config) (host : Discovery.Host) :
    Except Error (List String × Json) :=
  match Controller.start config Kernel.empty host with
  | .error e => .error e
  | .ok controller =>
    match c.executeApplied controller with
    | (.error e, _) => .error e
    | (.ok lines, controller) =>
      (Nft.document controller.sink.lastBatch).map fun document => (lines, document)

end Command

/-- What a user is told about a failure: a hint if a command wrote something to its error output. -/
def Error.report (e : Error) : List String :=
  match e.stderr? with
  | none => ["Error: " ++ e.message]
  | some stderr =>
    let hint := Hint.ofMessage stderr
    let code := match e.exitCode? with
      | some code => ["  nft exited with status " ++ String.ofList (Json.integerText code)]
      | none => []
    ("Error: " ++ hint.message) :: code ++ hint.suggestions.map ("  hint: " ++ ·)

end Firewall
