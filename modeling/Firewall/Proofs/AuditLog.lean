import Firewall.Audit.Log
import Firewall.Proofs.CutText
import Firewall.Proofs.JsonRecord
import Firewall.Proofs.Text
import Mathlib.Data.List.DropRight

namespace Firewall

namespace Text

/-- The last line of a text is complete. -/
def EndsLine (cs : List Char) : Prop := ∀ some : cs ≠ [], cs.getLast some = '\n'

theorem lines_cons {w : List Char} (noFeed : '\n' ∉ w) (rest : List Char) :
    lines (w ++ '\n' :: rest) = dropReturn w :: lines rest := by
  rw [lines, pieces_append (beq_of_not_mem noFeed) (by decide), lines]
  cases cut : pieces (· == '\n') rest with
  | nil => exact absurd cut (pieces_ne_nil _ _)
  | cons v vs => rfl

/-- Behind complete lines, the lines of a text are what they are alone. -/
theorem lines_append {whole : List Char} (ends : EndsLine whole) (rest : List Char) :
    lines (whole ++ rest) = lines whole ++ lines rest := by
  induction length : whole.length using Nat.strongRecOn generalizing whole with
  | ind n ih =>
    subst length
    cases cut : splitOnce '\n' whole with
    | none =>
      have empty : whole = [] := by
        by_contra some
        have last := List.getLast_mem some
        rw [ends some] at last
        exact splitOnce_none.mp cut last
      rw [empty]
      rfl
    | some x =>
      obtain ⟨w, behind⟩ := x
      obtain ⟨rfl, noFeed⟩ := splitOnce_some.mp cut
      have later : EndsLine behind := fun some => by
        rw [← ends (by simp), List.getLast_append_of_ne_nil _ (by simp), List.getLast_cons some]
      rw [List.append_assoc, List.cons_append, lines_cons noFeed, lines_cons noFeed,
        ih behind.length (by simp; omega) later rfl, List.cons_append]

end Text

namespace Audit

/-- The events of the complete lines of a log, the latest first. -/
def settled (log : String) : List Event :=
  (Text.lines (log.toList.rdropWhile (· != '\n'))).reverse.filterMap Event.ofLine?

/-- What stands behind the last line feed of a log: nothing, or a line that was cut off. -/
def remnant (log : String) : List Char := log.toList.rtakeWhile (· != '\n')

theorem remnant_noFeed (log : String) : '\n' ∉ remnant log := fun member => by
  have other := List.mem_rtakeWhile_imp member
  simp at other

/-- The event is read as it is written. -/
def Event.ReadsBack (e : Event) : Prop := ofLine? e.toJson.compact = some e

namespace Event

variable {e : Event}

theorem compact_opens (e : Event) : Json.Opens e.toJson.compact := ⟨_, rfl⟩

theorem ofLine?_blank (readsBack : e.ReadsBack) {blanks : List Char}
    (blank : ∀ c ∈ blanks, Json.isSpace c = true) : ofLine? (blanks ++ e.toJson.compact) = some e := by
  rw [ofLine?, Json.Tree.parse?_blank blank]
  exact readsBack

/-- No event is read from a line that was cut off and continued by an event. -/
theorem ofLine?_cut (readsBack : e.ReadsBack) {cut : List Char} (other : ¬∀ c ∈ cut, Json.isSpace c = true) :
    ofLine? (cut ++ e.toJson.compact) = none := by
  obtain ⟨t, alone, -⟩ := Option.bind_eq_some_iff.mp readsBack
  rw [ofLine?, Json.Tree.parse?_behind (compact_opens e) alone other]
  rfl

theorem line_noFeed (e : Event) {cut : List Char} (noFeed : '\n' ∉ cut) : '\n' ∉ cut ++ e.toJson.compact :=
  List.not_mem_append noFeed (Json.compact_noFeed _)

/-- No carriage return belongs to the end of an event's line. -/
theorem dropReturn_line (e : Event) (cut : List Char) :
    Text.dropReturn (cut ++ e.toJson.compact) = cut ++ e.toJson.compact := by
  obtain ⟨cs, ends⟩ := Json.compact_object_ends [
    ("id", .string e.id.text), ("timestamp", .string e.timestamp.text), ("event_type", .string e.operation.name),
    ("success", .bool e.success), ("details", e.details), ("error", .option .string e.error)]
  rw [toJson, ends, Text.dropReturn, ← List.append_assoc, List.getLast?_concat, if_neg (by decide)]

end Event

/-- What is appended for events. -/
theorem foldl_append (log : String) (es : List Event) :
    (es.foldl append log).toList = log.toList ++ es.flatMap fun e => e.toJson.compact ++ ['\n'] := by
  induction es generalizing log with
  | nil => simp
  | cons e es ih =>
    rw [List.foldl_cons, ih, append, Json.text]
    simp

/-- The lines of appended events. -/
theorem lines_events (es : List Event) :
    Text.lines (es.flatMap fun e => e.toJson.compact ++ ['\n']) = es.map fun e => e.toJson.compact := by
  induction es with
  | nil => rfl
  | cons e es ih =>
    have single := e.dropReturn_line []
    rw [List.nil_append] at single
    rw [List.flatMap_cons, List.append_assoc, List.singleton_append,
      Text.lines_cons (Json.compact_noFeed _), single, ih, List.map_cons]

/-- The lines of a log to which events were appended: the first of them continues what was cut off. -/
theorem lines_logged (log : String) (e : Event) (es : List Event) :
    Text.lines ((e :: es).foldl append log).toList =
      Text.lines (log.toList.rdropWhile (· != '\n')) ++
        (remnant log ++ e.toJson.compact) :: es.map fun e => e.toJson.compact := by
  have ends : Text.EndsLine (log.toList.rdropWhile (· != '\n')) := fun some => by
    have last := List.rdropWhile_last_not _ _ some
    simpa using last
  have whole : log.toList = log.toList.rdropWhile (· != '\n') ++ remnant log :=
    List.rdropWhile_append_rtakeWhile.symm
  rw [foldl_append, List.flatMap_cons, List.append_assoc, List.singleton_append]
  nth_rewrite 1 [whole]
  rw [List.append_assoc, Text.lines_append ends, ← List.append_assoc (remnant log),
    Text.lines_cons (e.line_noFeed (remnant_noFeed log)), e.dropReturn_line, lines_events]

/-- Events that are appended to a log are read back, the latest first and in front of all older ones. Only if a line
of the log was cut off and holds more than blanks, the first of them is not, as it continues this line, and neither
is what the line held; all further ones are. -/
theorem logged_events_read (log : String) (e : Event) (es : List Event) (readBack : ∀ f ∈ e :: es, f.ReadsBack)
    (count : Nat) :
    ((∀ c ∈ remnant log, Json.isSpace c = true) →
      recent count ((e :: es).foldl append log) = ((e :: es).reverse ++ settled log).take count) ∧
    ((¬∀ c ∈ remnant log, Json.isSpace c = true) →
      recent count ((e :: es).foldl append log) = (es.reverse ++ settled log).take count) := by
  obtain ⟨first, others⟩ := List.forall_mem_cons.mp readBack
  have later : ((es.map fun e => e.toJson.compact).reverse).filterMap Event.ofLine? = es.reverse := by
    have read : ∀ f ∈ es.reverse, (Event.ofLine? ∘ fun f => f.toJson.compact) f = some f := fun f member =>
      others f (List.mem_reverse.mp member)
    rw [← List.map_reverse, List.filterMap_map, List.filterMap_congr read, List.filterMap_some]
  have read : recent count ((e :: es).foldl append log) =
      (es.reverse ++ (Event.ofLine? (remnant log ++ e.toJson.compact)).toList ++ settled log).take count := by
    rw [recent, lines_logged, List.reverse_append, List.reverse_cons, List.filterMap_append, List.filterMap_append,
      later, settled]
    have one : [remnant log ++ e.toJson.compact].filterMap Event.ofLine? =
        (Event.ofLine? (remnant log ++ e.toJson.compact)).toList := by
      cases parsed : Event.ofLine? (remnant log ++ e.toJson.compact) <;> simp [parsed]
    rw [one]
  rw [read]
  constructor
  · intro blank
    rw [Event.ofLine?_blank first blank, List.reverse_cons]
    rfl
  · intro other
    rw [Event.ofLine?_cut first other]
    simp

namespace Event

open Json.Tree

/-- The fields that are read for an event. -/
def fields (e : Event) : List (String × Json.Tree) := [
  ("id", .string e.id.text),
  ("timestamp", .string e.timestamp.text),
  ("event_type", .string e.operation.name),
  ("success", .bool e.success),
  ("details", ofJson e.details),
  ("error", ofJson (.option .string e.error))]

/-- An event is read as it is written if its parts are. -/
theorem readsBack_of {e : Event} (id : Uuid.parse? e.id.text.toList = some e.id)
    (timestamp : Timestamp.parse? e.timestamp.text.toList = some e.timestamp)
    (numbers : e.details.NumbersReadBack)
    (details : (ofJson e.details).value? maxDetailsDepth = some e.details) : e.ReadsBack := by
  have error : (Json.option Json.string e.error).NumbersReadBack := by
    cases e.error <;> trivial
  have readBack : e.toJson.NumbersReadBack := ⟨trivial, trivial, trivial, trivial, numbers, error, trivial⟩
  have operation : choice? Operation.named (.string (some e.operation.name)) = some e.operation := by
    cases e.operation <;> rfl
  have reason : (ofJson (Json.option Json.string e.error)).option? string? = some e.error := by
    cases e.error <;> rfl
  have holds : Holds fieldNames e.fields (e.fields.map fun m => (some m.1, m.2)) := ⟨e.fields, rfl, .refl _⟩
  obtain ⟨f, read, has⟩ := fields?_all holds (by simp [fields]) false
  rw [ReadsBack, ofLine?, parse?_compact readBack, Option.bind_some, ofTree?,
    show (ofJson e.toJson).record? fieldNames = some f from read, Option.bind_eq_bind, Option.bind_some,
    Fields.get?_some (has "id" (.string e.id.text) (by simp [fields])) string? rfl,
    Fields.get?_some (has "timestamp" (.string e.timestamp.text) (by simp [fields])) string? rfl,
    Fields.get?_some (has "event_type" _ (by simp [fields])) (choice? Operation.named) operation,
    Fields.get?_some (has "success" (.bool e.success) (by simp [fields])) bool? rfl,
    Fields.get?_some (has "details" _ (by simp [fields])) (value? maxDetailsDepth) details,
    Fields.getOption?, Fields.getD?, has "error" (ofJson (.option .string e.error)) (by simp [fields])]
  dsimp only [Option.bind_eq_bind, Option.bind_some]
  rw [id, timestamp, reason]
  rfl

end Event

def seven : Uuid := ⟨7#128⟩

theorem seven_parse? : Uuid.parse? seven.text.toList = some seven := by
  have digit : Text.hex 7 = ['7'] := by
    rw [Text.hex]
    rfl
  have written : seven.text.toList = "00000000-0000-0000-0000-000000000007".toList := by
    rw [Uuid.text, String.toList_ofList]
    show Uuid.group Uuid.groups (Text.padded 32 (Text.hex 7)) = _
    rw [digit]
    decide
  rw [written]
  decide

def leapDay : Timestamp := ⟨⟨2024, 2, 29⟩, 1, 0, 0⟩

theorem leapDay_parse? : Timestamp.parse? leapDay.text.toList = some leapDay := by
  have small : ∀ n < 10, Text.decimal n = [Text.digitChar n] := fun n below => by rw [Text.decimal, if_pos below]
  have year : Text.decimal 2024 = ['2', '0', '2', '4'] := by
    rw [Text.decimal, Text.decimal, Text.decimal, Text.decimal]
    rfl
  have day : Text.decimal 29 = ['2', '9'] := by
    rw [Text.decimal, Text.decimal]
    rfl
  have written : leapDay.text.toList = "2024-02-29T00:01:00Z".toList := by
    rw [Timestamp.text, String.toList_ofList]
    show Text.padded 4 (Text.decimal 2024) ++ '-' :: Text.padded 2 (Text.decimal 2) ++
      '-' :: Text.padded 2 (Text.decimal 29) ++ 'T' :: Text.padded 2 (Text.decimal 0) ++
      ':' :: Text.padded 2 (Text.decimal 1) ++ ':' :: Text.padded 2 (Text.decimal 0) ++ [] ++ ['Z'] = _
    rw [year, day, small 0 (by decide), small 1 (by decide), small 2 (by decide)]
    decide
  rw [written]
  decide

def banned (error : Option String) : Event :=
  ⟨seven, leapDay, .ban, error.isNone, .object [("count", .nat 2)], error⟩

theorem banned_readsBack (error : Option String) : (banned error).ReadsBack :=
  Event.readsBack_of seven_parse? leapDay_parse? ⟨Json.Number.readsBack_int (by decide) (by decide), trivial⟩ rfl

def cutLog : String := "\x7b\"id\":\"cut"

theorem logged_events_read_cut : (banned none).ReadsBack ∧ (banned (some "nft\nfailed")).ReadsBack ∧
    recent 1 ([banned none].foldl append "garbage\n") = [banned none] ∧
    recent 1 ([banned none].foldl append cutLog) = [] ∧
    recent 2 ([banned none, banned (some "nft\nfailed")].foldl append cutLog) = [banned (some "nft\nfailed")] := by
  have first := banned_readsBack none
  have second := banned_readsBack (some "nft\nfailed")
  obtain ⟨kept, -⟩ := logged_events_read "garbage\n" (banned none) [] (by simpa using first) 1
  obtain ⟨-, one⟩ := logged_events_read cutLog (banned none) [] (by simpa using first) 1
  obtain ⟨-, two⟩ := logged_events_read cutLog (banned none) [banned (some "nft\nfailed")]
    (by simpa using ⟨first, second⟩) 2
  have complete : remnant "garbage\n" = [] := by decide
  have cut : ¬∀ c ∈ remnant cutLog, Json.isSpace c = true := fun blank =>
    absurd (blank '\x7b' (by decide)) (by decide)
  have older : settled cutLog = [] := by decide
  refine ⟨first, second, kept (by simp [complete]), ?_, ?_⟩
  · rw [one cut, older]
    rfl
  · rw [two cut, older]
    rfl

end Audit
end Firewall
