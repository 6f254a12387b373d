import Firewall.Json.Tree
import Firewall.Nft.Document
import Firewall.Nft.Listing
import Firewall.Sink

namespace Firewall.Nft

structure Invocation where
  args : List String
  stdin : Option String
  deriving DecidableEq, Repr

/-- Whether a process can be given the arguments: none of them holds a null character. -/
def Invocation.passable (i : Invocation) : Bool :=
  i.args.all fun a => !a.toList.contains '\x00'

/-- What a run leads to: the command could not be started, or it ended with output and a code. -/
inductive Reply where
  | missing
  | exited (stdout stderr : String) (code : Int)
  deriving DecidableEq, Repr

/-- The command, whose answer depends on the invocation only, and its runs so far, the latest first. -/
structure Session where
  reply : Invocation → Reply
  runs : List Invocation

/-- An entry of a script: the arguments it is for, a part of the input it asks for, and the reply. -/
structure Script.Entry where
  args : String
  inputPart : Option String
  stdout : String
  stderr : String
  code : Int
  deriving DecidableEq, Repr

/-- Whether an entry is for an invocation; one without input has an empty one. -/
def Script.Entry.matches (e : Script.Entry) (i : Invocation) : Bool :=
  e.args == " ".intercalate i.args &&
    match e.inputPart with
    | none => true
    | some part => Text.contains part.toList (i.stdin.getD "").toList

/-- Whether an invocation reads a document from its input. -/
def Invocation.readsInput (i : Invocation) : Bool :=
  Text.contains ['-', 'f', ' ', '-'] (" ".intercalate i.args).toList

/-- A command that follows a script; without an entry documents are accepted and listings fail. Of an
exit code the lowest byte arrives. -/
def Script.reply (script : List Script.Entry) (i : Invocation) : Reply :=
  match script.find? fun e => e.matches i with
  | some e => .exited e.stdout e.stderr (e.code % 256)
  | none =>
    if i.readsInput then .exited "" "" 0
    else .exited "" "Error: No such file or directory\n" 1

namespace Session

def start (reply : Invocation → Reply) : Session := ⟨reply, []⟩

/-- Runs the command and returns its output. The reason of a failure is the first line of its error
output. Arguments that no process can be given are refused before the command is looked for. -/
def run (args : List String) (stdin : Option String) : Action Session String := fun s =>
  let i : Invocation := ⟨args, stdin⟩
  if !i.passable then (.error .nftNullArgument, s)
  else match s.reply i with
    | .missing => (.error .nftMissing, s)
    | .exited stdout stderr code =>
      let s := { s with runs := i :: s.runs }
      if code = 0 then (.ok stdout, s)
      else
        let text := Text.trim stderr.toList
        let reason := match Text.lines text with
          | line :: _ => String.ofList line
          | [] => "nft failed"
        (.error (.nftFailed reason (String.ofList text) (some code)), s)

def list (args : List String) : Action Session Json := do
  let stdout ← run ("--json" :: "list" :: args) none
  match Json.ofText? stdout with
  | some j => return j
  | none => .fail .serialization

def elements (set : MatchSet) : Action Session (List Element) := do
  let j ← list ["set", set.table.family.nftName, set.table.name, set.name]
  .ofExcept (listedElements set j)

def rules (t : Table) (chain : String) : Action Session (List RuleData) := do
  return listedRules (← list ["chain", t.family.nftName, t.name, chain])

def hasSet (t : Table) (name : String) : Session → Bool × Session := fun s =>
  match list ["set", t.family.nftName, t.name, name] s with
  | (.ok _, s) => (true, s)
  | (.error _, s) => (false, s)

end Session

/-- What is known of the sets' elements at a point of a batch. -/
structure Known where
  sets : List ((Table × String) × List Element)
  /-- The ruleset was flushed earlier in the batch. -/
  flushed : Bool
  deriving DecidableEq, Repr

namespace Known

def empty : Known := ⟨[], false⟩

def find? (k : Known) (set : MatchSet) : Option (List Element) :=
  (k.sets.find? fun s => s.1 = (set.table, set.name)).map (·.2)

def put (k : Known) (set : MatchSet) (es : List Element) : Known :=
  { k with sets := ((set.table, set.name), es) ::
      k.sets.filter fun s => s.1 != (set.table, set.name) }

end Known

/-- Adds those elements whose keys are not known yet. -/
def noteAdded (known : List Element) : List Element → List Element
  | [] => known
  | e :: es => noteAdded (if known.any fun m => m.sameKey e then known else known ++ [e]) es

/-- Splits off the deletions whose keys are known; each takes one known element away. -/
def presentDeletes (known : List Element) : List Element → List Element × List Element
  | [] => ([], known)
  | e :: es =>
    if known.any fun m => m.sameKey e then
      match presentDeletes (known.eraseP fun m => m.sameKey e) es with
      | (present, known) => (e :: present, known)
    else presentDeletes known es

section Prune

variable {m : Type → Type} [Monad m] (list : MatchSet → m (List Element))

/-- The elements of a set at a point of the batch: what is known, and else what is listed, unless the
ruleset was flushed or the set is anonymous. -/
def membersOf (k : Known) (set : MatchSet) : m (List Element) :=
  match k.find? set with
  | some es => pure es
  | none => if k.flushed ∨ set.flags.anonymous then pure [] else list set

/-- Leaves out deletions of elements that their set does not hold when the kernel reaches them: the
kernel would refuse the whole batch. -/
def prune (k : Known) : Batch → m Batch
  | [] => pure []
  | .flushRuleset :: ds => do
    return .flushRuleset :: (← prune ⟨[], true⟩ ds)
  | .addSet set es :: ds => do
    let members ← membersOf list k set
    return .addSet set es :: (← prune (k.put set (noteAdded members es)) ds)
  | .addElements set es :: ds => do
    let members ← membersOf list k set
    return .addElements set es :: (← prune (k.put set (noteAdded members es)) ds)
  | .deleteElements set es :: ds => do
    let members ← membersOf list k set
    let (present, left) := presentDeletes members es
    let rest ← prune (k.put set left) ds
    return if present.isEmpty then rest else .deleteElements set present :: rest
  | d :: ds => do
    return d :: (← prune k ds)

end Prune

namespace Session

/-- The elements of a set, none if it cannot be listed. -/
def elementsOrNone (set : MatchSet) : StateM Session (List Element) := fun s =>
  match elements set s with
  | (.ok es, s) => (es, s)
  | (.error _, s) => ([], s)

/-- Sends a batch without the deletions that have nothing to delete; an empty batch is not sent. -/
def commit (batch : Batch) : Action Session Unit := do
  let batch ← .ofState (prune elementsOrNone .empty batch)
  if batch.isEmpty then pure ()
  else
    let j ← .ofExcept (document batch)
    let _ ← run ["--json", "-f", "-"] (some j.text)
    return ()

instance : Sink Session where
  commit := commit
  rules := rules
  elements := elements
  hasSet := hasSet

end Session
end Firewall.Nft
