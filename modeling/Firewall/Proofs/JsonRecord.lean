import Firewall.Json.Decode
import Mathlib.Data.List.Nodup

namespace Firewall.Json.Tree

/-- The members of an object are those of the given fields, in any order, and others that have no known name. -/
def Holds (known : List String) (fields : List (String × Tree)) (ms : List (Option String × Tree)) : Prop :=
  ∃ vs : List (String × Tree), ms = vs.map (fun m => (some m.1, m.2)) ∧
    (vs.filter fun m => known.contains m.1).Perm fields

theorem names?_map (vs : List (String × Tree)) : names? (vs.map fun m => (some m.1, m.2)) = some vs := by
  induction vs with
  | nil => rfl
  | cons v vs ih =>
    rw [List.map_cons, names?, ih]
    rfl

/-- In a record that has a field at most once, the field's value is the one it is listed with. -/
theorem Fields.find?_iff {f : Fields} (once : (f.values.map (·.1)).Nodup) {name : String} {t : Tree} :
    f.find? name = some t ↔ (name, t) ∈ f.values := by
  constructor
  · intro found
    obtain ⟨⟨k, u⟩, first, rfl⟩ := Option.map_eq_some_iff.mp found
    have same := List.find?_some first
    rw [← of_decide_eq_true same]
    exact List.mem_of_find?_eq_some first
  · intro member
    obtain ⟨⟨k, u⟩, found⟩ := Option.isSome_iff_exists.mp
      (List.find?_isSome (p := fun v => decide (v.1 = name)).mpr ⟨(name, t), member, by simp⟩)
    have same := List.find?_some found
    have here := List.inj_on_of_nodup_map once (List.mem_of_find?_eq_some found) member (of_decide_eq_true same)
    rw [find?, found, here]
    rfl

/-- A record has the chosen ones of some fields, each with its value. -/
def Fields.Chooses (f : Fields) (chosen : String → Bool) (fields : List (String × Tree)) : Prop :=
  ∀ name t, (name, t) ∈ fields → f.find? name = if chosen name then some t else none

/-- An object that holds the chosen fields of a record is read as a record with these. -/
theorem fields?_chosen {known : List String} {chosen : String → Bool} {fields : List (String × Tree)}
    {ms : List (Option String × Tree)} (holds : Holds known (fields.filter fun v => chosen v.1) ms)
    (once : (fields.map (·.1)).Nodup) (short : Bool) :
    ∃ f, (Tree.object ms).fields? known short = some f ∧ f.Chooses chosen fields := by
  obtain ⟨vs, rfl, perm⟩ := holds
  have kept : ((fields.filter fun v => chosen v.1).map (·.1)).Nodup := once.sublist (List.filter_sublist.map _)
  have single : ((vs.filter fun m => known.contains m.1).map (·.1)).Nodup := (perm.map _).nodup_iff.mpr kept
  refine ⟨⟨vs.filter fun m => known.contains m.1⟩, ?_, fun name t member => ?_⟩
  · rw [fields?, names?_map]
    exact if_pos single
  · by_cases taken : chosen name = true
    · rw [if_pos taken, Fields.find?_iff single]
      exact perm.mem_iff.mpr (List.mem_filter.mpr ⟨member, taken⟩)
    · rw [if_neg taken, Option.eq_none_iff_forall_ne_some]
      intro u found
      have held := perm.mem_iff.mp ((Fields.find?_iff single).mp found)
      exact taken (List.mem_filter.mp held).2

theorem Fields.Chooses.getD? {f : Fields} {chosen : String → Bool} {fields : List (String × Tree)} {α : Type}
    (chooses : f.Chooses chosen fields) {name : String} (t : Tree) (read : Tree → Option α) {a : α}
    (reads : read t = some a) (member : (name, t) ∈ fields) (default : α) :
    f.getD? name read default = some (if chosen name then a else default) := by
  rw [Fields.getD?, chooses name t member]
  cases chosen name
  · rfl
  · exact reads

/-- An object that holds all fields of a record is read as a record with these. -/
theorem fields?_all {known : List String} {fields : List (String × Tree)} {ms : List (Option String × Tree)}
    (holds : Holds known fields ms) (once : (fields.map (·.1)).Nodup) (short : Bool) :
    ∃ f, (Tree.object ms).fields? known short = some f ∧ ∀ name t, (name, t) ∈ fields → f.find? name = some t := by
  let chosen : String → Bool := fun _ => true
  have chose : Holds known (fields.filter fun v => chosen v.1) ms := by
    rw [List.filter_true]
    exact holds
  obtain ⟨f, read, chooses⟩ := fields?_chosen chose once short
  exact ⟨f, read, fun name t member => chooses name t member⟩

theorem Fields.get?_some {f : Fields} {name : String} {t : Tree} {α : Type} (found : f.find? name = some t)
    (read : Tree → Option α) {a : α} (reads : read t = some a) : f.get? name read = some a := by
  rw [get?, found]
  exact reads

end Firewall.Json.Tree
