import Firewall.CommandLine
import Firewall.Config.File

namespace Firewall

def failWith (lines : List String) : IO UInt32 := do
  for line in lines do
    IO.eprintln line
  return 1

def writeConfig (path : String) (force : Bool) : IO UInt32 := do
  let existing ←
    try
      pure (some (← IO.FS.readFile path))
    catch _ =>
      pure none
  match Config.init path existing force with
  | .error e => failWith e.report
  | .ok (_, text) =>
    IO.FS.writeFile path text
    IO.println ("✓ Default config written to " ++ path)
    return 0

/-- Tries a command with the configuration of a file. -/
def tryCommand (r : Request) : IO UInt32 := do
  match Config.load (← IO.FS.readFile r.configPath), Address.parse? r.address.toList with
  | .error e, _ => failWith e.report
  | .ok _, none => failWith ["Error: '" ++ r.address ++ "' is not an address"]
  | .ok config, some address =>
    match r.command.tryOut config (.ofOutside r.interface address) with
    | .error e => failWith e.report
    | .ok (lines, document) =>
      for line in lines do
        IO.println line
      IO.println document.prettyText
      IO.eprintln ("checksum " ++ Nft.checksum document)
      return 0

end Firewall

def main (args : List String) : IO UInt32 := do
  match Firewall.Request.ofArguments? args with
  | none => Firewall.failWith ["Error: unknown arguments"]
  | some r =>
    match r.command with
    | .init force => Firewall.writeConfig r.configPath force
    | _ => Firewall.tryCommand r
