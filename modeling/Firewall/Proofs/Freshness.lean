import Firewall.Proofs.Tracking
import Mathlib.Data.Nat.Count

namespace Firewall

theorem anonymousName_inj {m n : Nat} (same : anonymousName m = anonymousName n) : m = n := by
  have numerals : Text.decimal m = Text.decimal n := by
    simpa [anonymousName, decimalText] using congrArg String.toList same
  have read := Text.decimal_numerals.digits?_numeral m
  rw [numerals, Text.decimal_numerals.digits?_numeral] at read
  exact (Option.some.inj read).symm

namespace Pending

variable {p : Pending Kernel}

/-- The search goes on while names are known, and ends with one that is not unless it has run out of tries. -/
theorem freshNumber_spec (table : Table) (tries n : Nat) (p : Pending Kernel) :
    n ≤ (freshNumber table tries n p).1 ∧
    (∀ m, n ≤ m → m < (freshNumber table tries n p).1 → (knows table (anonymousName m) p).1 = true) ∧
    ((freshNumber table tries n p).1 = n + tries ∨
      (knows table (anonymousName (freshNumber table tries n p).1) p).1 = false) := by
  induction tries generalizing n with
  | zero => exact ⟨Nat.le_refl n, fun m le lt => absurd lt (Nat.not_lt.mpr le), .inl rfl⟩
  | succ tries ih =>
    have same := knows_kernel table (anonymousName n) p
    rw [freshNumber]
    split
    · rename_i q known
      rw [known] at same
      cases same
      obtain ⟨le, skipped, ends⟩ := ih (n + 1)
      refine ⟨Nat.le_of_succ_le le, fun m above below => ?_, ends.imp_left fun last => last.trans (by omega)⟩
      rcases Nat.eq_or_lt_of_le above with rfl | later
      · rw [known]
      · exact skipped m later below
    · rename_i q unknown
      rw [unknown] at same
      cases same
      exact ⟨Nat.le_refl n, fun m le lt => absurd lt (Nat.not_lt.mpr le), .inr (by rw [unknown])⟩

theorem le_nameNumber (table : Table) (p : Pending Kernel) : p.transaction.nextSetId ≤ p.nameNumber table :=
  (freshNumber_spec table _ p.transaction.nextSetId _).1

theorem numberBehind_gt (set : MatchSet) (p : Pending Kernel) : p.transaction.nextSetId < p.numberBehind set := by
  unfold numberBehind
  split
  · exact Nat.lt_of_succ_le (Nat.le_max_left _ _)
  · exact Nat.lt_succ_self _

theorem nameNumber_lt {set : MatchSet} (nameless : set.flags.anonymous = true ∧ set.name = "") (p : Pending Kernel) :
    p.nameNumber set.table < p.numberBehind set := by
  rw [numberBehind, if_pos nameless]
  exact Nat.lt_of_succ_le (Nat.le_max_right _ _)

/-- The name of a formed set is its own, or a generated one with a number that is used up for it. -/
theorem formed_name (set : MatchSet) (p : Pending Kernel) : (p.formed set).name = set.name ∨
    ∃ n, (p.formed set).name = anonymousName n ∧ n < p.numberBehind set := by
  by_cases nameless : set.flags.anonymous = true ∧ set.name = ""
  · exact .inr ⟨p.nameNumber set.table, if_pos nameless, nameNumber_lt nameless p⟩
  · exact .inl (if_neg nameless)

theorem addSet_number (set : MatchSet) (elements : List Element) (p : Pending Kernel) :
    (addSet set elements p).2.transaction.nextSetId = p.numberBehind set := by
  rcases addSet_cases set elements p with ⟨e, -, refused⟩ | ⟨-, declared⟩
  · rw [refused]
    rfl
  · rw [declared]
    rfl

/-- How many numbers below `n` have names among the given ones. -/
def takenBelow (names : List String) (n : Nat) : Nat := Nat.count (fun m => anonymousName m ∈ names) n

section Taken

variable (names : List String) {m n : Nat}

theorem takenBelow_le (n : Nat) : takenBelow names n ≤ names.length := by
  rw [takenBelow, Nat.count_eq_card_filter_range]
  refine le_trans (Finset.card_le_card_of_injOn anonymousName ?_ fun a _ b _ => anonymousName_inj)
    (List.toFinset_card_le names)
  intro m member
  simpa using (Finset.mem_filter.mp member).2

theorem takenBelow_succ (n : Nat) : takenBelow names n ≤ takenBelow names (n + 1) :=
  Nat.count_monotone _ (Nat.le_succ n)

/-- Numbers that are all taken are counted. -/
theorem takenBelow_through (le : m ≤ n) (taken : ∀ i, m ≤ i → i < n → anonymousName i ∈ names) :
    takenBelow names n = takenBelow names m + (n - m) := by
  obtain ⟨gap, rfl⟩ := Nat.exists_eq_add_of_le le
  have all : Nat.count (fun i => anonymousName (m + i) ∈ names) gap = gap :=
    Nat.count_iff_forall.mpr fun i below => taken _ (Nat.le_add_right _ _) (Nat.add_lt_add_left below m)
  rw [takenBelow, Nat.count_add, all, Nat.add_sub_cancel_left]
  rfl

end Taken

/-- A failure that the kernel is asked for concerns no set. -/
theorem Tracks.failing (tracks : p.Tracks) (reason : String) :
    Tracks ⟨p.transaction, p.sink.failing reason⟩ where
  ordered := tracks.ordered
  exact r h table name := by
    rw [← tracks.exact r h, knows_eq, knows_eq]
    rfl
  safe := tracks.safe

/-- What a transaction that was asked for so many sets can run into: names in use are among some names from
outside, or have numbers that were given; and numbers were skipped for the names from outside only. -/
structure Accounted (names : List String) (asked : Nat) (p : Pending Kernel) : Prop where
  tracks : p.Tracks
  installed : ∀ table n, (p.sink.ruleset.set? table (anonymousName n)).isSome = true →
    anonymousName n ∈ names ∨ n < p.transaction.nextSetId
  declared : ∀ table n, (table, anonymousName n) ∈ p.transaction.declared →
    anonymousName n ∈ names ∨ n < p.transaction.nextSetId
  next : p.transaction.nextSetId ≤ 1 + asked + takenBelow names p.transaction.nextSetId

namespace Accounted

variable {names : List String} {asked : Nat}

theorem known (accounted : Accounted names asked p) {table : Table} {n : Nat}
    (known : (knows table (anonymousName n) p).1 = true) :
    anonymousName n ∈ names ∨ n < p.transaction.nextSetId := by
  rw [knows_eq, Bool.or_eq_true, Bool.and_eq_true, List.contains_iff_mem] at known
  rcases known with declared | ⟨-, installed⟩
  · exact accounted.declared table n declared
  · exact accounted.installed table n installed

variable (accounted : Accounted names asked p) (room : 1 + asked + names.length < setNumberBound)
include accounted room

/-- The name that a transaction chooses is not in use, and the search for it ends before the numbers do. -/
theorem nameNumber_fresh (table : Table) :
    p.nameNumber table ≤ 1 + asked + takenBelow names (p.nameNumber table) ∧
    (knows table (anonymousName (p.nameNumber table)) p).1 = false := by
  have numbered : ∀ n, (knows table (anonymousName n)
      ⟨p.transaction.numbered (p.transaction.nextSetId + 1), p.sink⟩).1 = (knows table (anonymousName n) p).1 := by
    intro n
    rw [knows_eq, knows_eq]
    rfl
  have le := le_nameNumber table p
  obtain ⟨-, skipped, ends⟩ := freshNumber_spec table (setNumberBound - p.transaction.nextSetId)
    p.transaction.nextSetId ⟨p.transaction.numbered (p.transaction.nextSetId + 1), p.sink⟩
  change ∀ m, _ → m < p.nameNumber table → _ at skipped
  change p.nameNumber table = _ ∨ (knows table (anonymousName (p.nameNumber table)) _).1 = false at ends
  -- A skipped number is not below the set's own, so its name is in use from outside.
  have taken := takenBelow_through names le fun m above below =>
    (accounted.known ((numbered m).symm.trans (skipped m above below))).resolve_right (Nat.not_lt.mpr above)
  have next := accounted.next
  have few := takenBelow_le names (p.nameNumber table)
  have reached : p.nameNumber table ≤ 1 + asked + takenBelow names (p.nameNumber table) := by omega
  refine ⟨reached, ?_⟩
  rcases ends with exhausted | unknown
  · omega
  · rwa [numbered] at unknown

/-- Numbers that are used up for a set are one for the set and those of taken names. -/
theorem numberBehind_le (set : MatchSet) :
    p.numberBehind set ≤ 1 + (asked + 1) + takenBelow names (p.numberBehind set) := by
  unfold numberBehind
  split
  · have above := le_nameNumber set.table p
    obtain ⟨reached, -⟩ := accounted.nameNumber_fresh room set.table
    have further := takenBelow_succ names (p.nameNumber set.table)
    rw [Nat.max_eq_right (Nat.add_le_add_right above 1)]
    omega
  · have next := accounted.next
    have further := takenBelow_succ names p.transaction.nextSetId
    omega

omit room

/-- Numbers may be used up, whether their names are in use or not. -/
theorem numbered {n asked' : Nat} (on : p.transaction.nextSetId ≤ n)
    (next : n ≤ 1 + asked' + takenBelow names n) :
    Accounted names asked' ⟨p.transaction.numbered n, p.sink⟩ where
  tracks := accounted.tracks.numbered n
  installed table m there := (accounted.installed table m there).imp_right (Nat.lt_of_lt_of_le · on)
  declared table m there := (accounted.declared table m there).imp_right (Nat.lt_of_lt_of_le · on)
  next := next

/-- A declaration whose sets are known may be collected, and one of a set if its name is accounted for. -/
theorem record {d : Declaration} (known : ∀ key ∈ d.needs, (p.knows key.1 key.2).1 = true)
    (named : ∀ set elements n, d = .addSet set elements → set.name = anonymousName n →
      anonymousName n ∈ names ∨ n < p.transaction.nextSetId) :
    Accounted names asked ⟨p.transaction.record d, p.sink⟩ := by
  have number : (p.transaction.record d).nextSetId = p.transaction.nextSetId := by
    cases d <;> rfl
  refine ⟨accounted.tracks.record known, ?_, ?_, ?_⟩
  · intro table n there
    rw [number]
    exact accounted.installed table n there
  · intro table n there
    rw [number]
    cases d with
    | flushRuleset => exact absurd there List.not_mem_nil
    | addSet set elements =>
      rcases List.mem_cons.mp there with here | before
      · exact named set elements n rfl (Prod.mk.inj here).2.symm
      · exact accounted.declared table n before
    | _ => exact accounted.declared table n there
  · rw [number]
    exact accounted.next

/-- Behind a flush, the names in use are some that were known, or that were there and have stayed. -/
theorem flush : Accounted names asked (Pending.flush p).2 := by
  have tracks := accounted.tracks.flush
  unfold Pending.flush at tracks ⊢
  split
  · exact accounted
  · rename_i some
    rw [if_neg some] at tracks
    refine ⟨tracks, fun table n there => ?_, fun table n there => absurd there List.not_mem_nil, accounted.next⟩
    rcases Kernel.commit_ruleset p.sink p.transaction.batch with same | applied
    · refine accounted.installed table n ?_
      rw [← same]
      exact there
    · exact accounted.known ((accounted.tracks.exact _ applied table _).trans there)

theorem failing (reason : String) : Accounted names asked ⟨p.transaction, p.sink.failing reason⟩ where
  tracks := accounted.tracks.failing reason
  installed := accounted.installed
  declared := accounted.declared
  next := accounted.next

/-- A set that is asked for leaves everything accounted for, if its own name is. -/
theorem addSet (room : 1 + asked + names.length < setNumberBound) {set : MatchSet} (own : set.name ∈ names)
    (elements : List Element) : Accounted names (asked + 1) (Pending.addSet set elements p).2 := by
  have numbered := accounted.numbered (Nat.le_of_lt (numberBehind_gt set p)) (accounted.numberBehind_le room set)
  rcases addSet_cases set elements p with ⟨e, -, refused⟩ | ⟨-, declared⟩
  · rw [refused]
    exact numbered
  · rw [declared]
    refine numbered.record (fun key hk => absurd hk List.not_mem_nil) fun s es n same name => ?_
    cases same
    rcases formed_name set p with brought | ⟨m, generated, below⟩
    · rw [← name, brought]
      exact .inl own
    · cases anonymousName_inj (generated.symm.trans name)
      exact .inr below

end Accounted

/-- An anonymous set without a name gets one, and is then declared if its elements fit. -/
theorem addSet_nameless {set : MatchSet} (anonymous : set.flags.anonymous = true) (unnamed : set.name = "")
    (elements : List Element) (p : Pending Kernel) :
    let s := { set with id := p.transaction.nextSetId, name := anonymousName (p.nameNumber set.table) }
    (addSet set elements p).1 = (s.checkElements elements).map fun _ => s := by
  intro s
  have formed : p.formed set = s := by rw [Pending.formed, if_pos ⟨anonymous, unnamed⟩]
  have named : s.name ≠ "" := anonymousName_ne _
  rw [addSet_eq, formed]
  dsimp only
  rw [if_neg named]
  cases s.checkElements elements <;> rfl

/-- An action that does not use up numbers. -/
def KeepsNumber {α : Type} (a : Action (Pending Kernel) α) : Prop := ∀ n, a.Keeps (·.transaction.nextSetId = n)

namespace KeepsNumber

variable {α β : Type}

theorem result {a : Action (Pending Kernel) α} (f : α → β) (ha : KeepsNumber a) :
    KeepsNumber (a >>= fun x => pure (f x)) := fun n => (ha n).bind fun x => .pure (f x)

theorem collect {f : Transaction → Transaction} (same : ∀ t, (f t).nextSetId = t.nextSetId) :
    KeepsNumber (collect f) := fun _ _ h => (same _).trans h

theorem requireSet (table : Table) (name : String) : KeepsNumber (requireSet table name) := by
  intro n p h
  rw [requireSet_eq]
  exact h

theorem changeElements {make : MatchSet → List Element → Declaration} (set : MatchSet) (elements : List Element) :
    KeepsNumber (changeElements make set elements) := fun n =>
  .ite (.pure ()) (.bind (.ofExcept _) fun _ => .bind (requireSet _ _ n) fun _ => collect (fun _ => rfl) n)

theorem placeRule {make : Rule → Declaration} (chain : Chain) (data : RuleData) :
    KeepsNumber (placeRule make chain data) := by
  intro n
  have required : (requireSets chain.table data.program.sets).Keeps fun p : Pending Kernel =>
      p.transaction.nextSetId = n := by
    intro p h
    rw [requireSets_eq]
    exact h
  exact .bind (.ofExcept _) fun _ => .bind required fun _ => collect (fun _ => rfl) n

theorem flush : KeepsNumber flush := by
  intro n p h
  unfold Pending.flush
  split
  · exact h
  · exact h

end KeepsNumber

end Pending

namespace TransactionRequest

open Pending

variable {p : Pending Kernel}

/-- Only requests for sets use up numbers. -/
theorem run_number {req : TransactionRequest} (other : ∀ set elements, req ≠ addSet set elements) :
    KeepsNumber req.run := by
  cases req with
  | flushRuleset => exact .result _ (.collect fun _ => rfl)
  | addTable table => exact .result _ (.collect fun _ => rfl)
  | addChain chain => exact .result _ (.collect fun _ => rfl)
  | addSet set elements => exact absurd rfl (other set elements)
  | addElements set elements => exact .result _ (.changeElements set elements)
  | deleteElements set elements => exact .result _ (.changeElements set elements)
  | addRule chain data => exact .result _ (.placeRule chain data)
  | insertRule chain data before => exact .result _ (.placeRule chain data)
  | deleteRule chain handle => exact .result _ (.collect fun _ => rfl)
  | flush => exact .result _ .flush

/-- Only requests for sets have something to tell. -/
theorem run_none {req : TransactionRequest} (other : ∀ set elements, req ≠ addSet set elements)
    {set? : Option MatchSet} (h : (req.run p).1 = .ok set?) : set? = none := by
  have ended : ∀ {a : Action (Pending Kernel) Unit},
      ((a >>= fun _ => pure none : Action (Pending Kernel) (Option MatchSet)) p).1 = .ok set? → set? = none := by
    intro a h
    obtain ⟨_, _, _, last⟩ := Action.bind_ok (Prod.ext h rfl)
    cases last
    rfl
  cases req with
  | addSet set elements => exact absurd rfl (other set elements)
  | _ => exact ended h

theorem asks_plain {req : TransactionRequest} {d : Declaration} (other : ∀ set elements, req ≠ addSet set elements)
    (asked : req.Asks d) (set : MatchSet) (elements : List Element) : d ≠ .addSet set elements := by
  rintro rfl
  cases req with
  | addSet set elements => exact other set elements rfl
  | flush => exact asked
  | _ => exact Declaration.noConfusion asked

/-- What else a transaction is asked for leaves everything accounted for. -/
theorem run_accounted {names : List String} {asked : Nat} (accounted : Accounted names asked p)
    {req : TransactionRequest} (other : ∀ set elements, req ≠ addSet set elements) :
    Accounted names asked (req.run p).2 := by
  by_cases handsOver : req = flush
  · subst handsOver
    rw [run_flush]
    exact accounted.flush
  · have number : (req.run p).2.transaction.nextSetId = p.transaction.nextSetId := run_number other _ p rfl
    have effect := run_effect (p := p) handsOver
    cases ran : req.run p with
    | mk result p' =>
      rw [ran] at number effect
      cases effect with
      | nothing result n =>
        exact accounted.numbered (Nat.le_of_eq number.symm) (by rw [show n = _ from number]; exact accounted.next)
      | unknown asked first => exact accounted
      | @collected d asked a n known fits =>
        have same : n = p.transaction.nextSetId := by
          rw [← number]
          cases d <;> rfl
        subst same
        exact accounted.record known fun set elements n own => absurd own (asks_plain other asked set elements)

end TransactionRequest

/-- What can happen while a transaction is open. -/
inductive TransactionEvent where
  | request (req : TransactionRequest)
  /-- The kernel is made to fail the next commit. -/
  | failNext (reason : String)
  deriving DecidableEq, Repr

namespace TransactionEvent

open Pending

def run : TransactionEvent → Pending Kernel → Pending Kernel
  | .request req, p => (req.run p).2
  | .failNext reason, p => ⟨p.transaction, p.sink.failing reason⟩

def runAll (events : List TransactionEvent) (p : Pending Kernel) : Pending Kernel :=
  events.foldl (fun p e => e.run p) p

def requested? : TransactionEvent → Option MatchSet
  | .request (.addSet set _) => some set
  | _ => none

def nameNumber? (e : TransactionEvent) (p : Pending Kernel) : Option Nat :=
  (e.requested?.filter fun set => set.flags.anonymous ∧ set.name = "").map fun set => p.nameNumber set.table

def returnedId? : TransactionEvent → Pending Kernel → Option Nat
  | .request req, p => (req.run p).1.toOption.join.map (·.id)
  | .failNext _, _ => none

/-- What is seen of the events of a run. -/
def along {α : Type} (see : TransactionEvent → Pending Kernel → Option α) :
    List TransactionEvent → Pending Kernel → List α
  | [], _ => []
  | e :: es, p => (see e p).toList ++ along see es (e.run p)

variable {p : Pending Kernel} {e : TransactionEvent}

theorem requested?_cases (e : TransactionEvent) : (∃ set elements, e = .request (.addSet set elements)) ∨
    e.requested? = none ∧ ((∃ req, e = .request req ∧ ∀ set elements, req ≠ .addSet set elements) ∨
      ∃ reason, e = .failNext reason) := by
  cases e with
  | failNext reason => exact .inr ⟨rfl, .inr ⟨reason, rfl⟩⟩
  | request req =>
    cases req with
    | addSet set elements => exact .inl ⟨set, elements, rfl⟩
    | _ => exact .inr ⟨rfl, .inl ⟨_, rfl, fun _ _ => nofun⟩⟩

/-- Numbers are counted on. -/
theorem run_number_le (e : TransactionEvent) (p : Pending Kernel) :
    p.transaction.nextSetId ≤ (e.run p).transaction.nextSetId := by
  rcases requested?_cases e with ⟨set, elements, rfl⟩ | ⟨-, ⟨req, rfl, other⟩ | ⟨reason, rfl⟩⟩
  · rw [run, TransactionRequest.run_addSet, addSet_number]
    exact Nat.le_of_lt (numberBehind_gt set p)
  · exact Nat.le_of_eq (TransactionRequest.run_number other _ p rfl).symm
  · exact Nat.le_refl _

/-- What is seen are numbers that the event uses up. -/
def Spends (see : TransactionEvent → Pending Kernel → Option Nat) : Prop := ∀ e p n, see e p = some n →
  p.transaction.nextSetId ≤ n ∧ n < (e.run p).transaction.nextSetId

/-- Numbers that are used up do not come back. -/
theorem along_increasing {see : TransactionEvent → Pending Kernel → Option Nat} (spends : Spends see)
    (events : List TransactionEvent) (p : Pending Kernel) :
    (along see events p).Pairwise (· < ·) ∧
    p.transaction.nextSetId ≤ (runAll events p).transaction.nextSetId ∧
    ∀ n ∈ along see events p, p.transaction.nextSetId ≤ n ∧ n < (runAll events p).transaction.nextSetId := by
  induction events generalizing p with
  | nil => exact ⟨List.Pairwise.nil, Nat.le_refl _, fun n hn => absurd hn List.not_mem_nil⟩
  | cons e events ih =>
    obtain ⟨increasing, last, within⟩ := ih (e.run p)
    have first := run_number_le e p
    have here : ∀ n ∈ (see e p).toList,
        p.transaction.nextSetId ≤ n ∧ n < (e.run p).transaction.nextSetId := by
      intro n hn
      exact spends e p n (Option.mem_toList.mp hn)
    refine ⟨List.pairwise_append.mpr ⟨?_, increasing, fun m hm n hn => ?_⟩, Nat.le_trans first last, fun n hn => ?_⟩
    · cases see e p with
      | none => exact List.Pairwise.nil
      | some n => exact List.pairwise_singleton _ n
    · exact Nat.lt_of_lt_of_le (here m hm).2 (within n hn).1
    · rcases List.mem_append.mp hn with now | later
      · exact ⟨(here n now).1, Nat.lt_of_lt_of_le (here n now).2 last⟩
      · exact ⟨Nat.le_trans first (within n later).1, (within n later).2⟩

theorem nameNumber?_spends : Spends nameNumber? := by
  intro e p n seen
  obtain ⟨set, asked, rfl⟩ := Option.map_eq_some_iff.mp seen
  obtain ⟨asked, nameless⟩ := Option.filter_eq_some_iff.mp asked
  rcases requested?_cases e with ⟨set', elements, rfl⟩ | ⟨none, -⟩
  · cases asked
    rw [run, TransactionRequest.run_addSet, addSet_number]
    exact ⟨le_nameNumber set.table p, nameNumber_lt (of_decide_eq_true nameless) p⟩
  · rw [none] at asked
    cases asked

theorem returnedId?_spends : Spends returnedId? := by
  intro e p n seen
  rcases requested?_cases e with ⟨set, elements, rfl⟩ | ⟨-, ⟨req, rfl, other⟩ | ⟨reason, rfl⟩⟩
  · have next : n = p.transaction.nextSetId := by
      rw [returnedId?, TransactionRequest.run_addSet] at seen
      rcases addSet_cases set elements p with ⟨e, -, refused⟩ | ⟨-, declared⟩
      · rw [refused] at seen
        cases seen
      · rw [declared] at seen
        exact (Option.some.inj seen).symm
    rw [run, TransactionRequest.run_addSet, addSet_number, next]
    exact ⟨Nat.le_refl _, numberBehind_gt set p⟩
  · rw [returnedId?] at seen
    cases told : (req.run p).1 with
    | error e =>
      rw [told] at seen
      cases seen
    | ok set? =>
      rw [told, TransactionRequest.run_none other told] at seen
      cases seen
  · cases seen

/-- An event leaves everything accounted for, if the own name of a set that it asks for is. -/
theorem run_accounted {names : List String} {asked : Nat} (accounted : Accounted names asked p)
    (room : 1 + asked + names.length < setNumberBound) (own : ∀ set, e.requested? = some set → set.name ∈ names) :
    Accounted names (asked + e.requested?.toList.length) (e.run p) := by
  rcases requested?_cases e with ⟨set, elements, rfl⟩ | ⟨none, ⟨req, rfl, other⟩ | ⟨reason, rfl⟩⟩
  · rw [run, TransactionRequest.run_addSet]
    exact accounted.addSet room (own set rfl) elements
  · rw [none]
    exact TransactionRequest.run_accounted accounted other
  · exact accounted.failing reason

def requests (events : List TransactionEvent) : List MatchSet := events.flatMap fun e => e.requested?.toList

theorem runAll_accounted {names : List String} {asked : Nat} {events : List TransactionEvent}
    (accounted : Accounted names asked p) (room : 1 + asked + (requests events).length + names.length < setNumberBound)
    (own : ∀ set ∈ requests events, set.name ∈ names) :
    Accounted names (asked + (requests events).length) (runAll events p) := by
  induction events generalizing p asked with
  | nil => exact accounted
  | cons e events ih =>
    have sum : (requests (e :: events)).length = e.requested?.toList.length + (requests events).length := by
      rw [requests, List.flatMap_cons, List.length_append]
      rfl
    have here : ∀ set, e.requested? = some set → set.name ∈ names := by
      intro set asked
      refine own set ?_
      rw [requests, List.flatMap_cons, asked]
      exact List.mem_cons_self
    have first := run_accounted accounted (by omega) here
    have rest := ih first (by omega) fun set later => own set (List.mem_append_right _ later)
    rw [sum, ← Nat.add_assoc]
    exact rest

theorem begin_accounted {k : Kernel} (ordered : k.ruleset.Ordered) {names : List String}
    (installed : ∀ s ∈ k.ruleset.tables.flatMap (·.sets), s.set.name ∈ names) :
    Accounted names 0 (.begin k) where
  tracks := tracks_nothing ordered 1
  installed table n there := by
    obtain ⟨s, found⟩ := Option.isSome_iff_exists.mp there
    obtain ⟨i, hi, -, hs⟩ := Ruleset.set?_mem found
    have named : s.set.name = anonymousName n := by
      obtain ⟨i, -, found⟩ := Option.bind_eq_some_iff.mp found
      simpa using List.find?_some found
    rw [← named]
    exact .inl (installed s (List.mem_flatMap.mpr ⟨i, hi, hs⟩))
  declared := fun _ _ there => absurd there List.not_mem_nil
  next := Nat.le_add_right 1 _

/-- Whatever sets are installed, and whatever a transaction is asked for and whether that and its flushes fail or
not, while there are fewer than half as many sets, counted with those asked for, as numbers: an anonymous set
without a name gets one that is not in use, neither in the transaction nor in what the kernel will have when the
pending declarations have been applied; no name is generated twice; and every id is greater than those before.
No number reaches the bound. -/
theorem sets_fresh {k : Kernel} (ordered : k.ruleset.Ordered) (events : List TransactionEvent)
    (few : (k.ruleset.tables.flatMap (·.sets)).length + (requests events).length < 2 ^ 31) :
    (∀ front back set elements, events = front ++ .request (.addSet set elements) :: back →
      set.flags.anonymous = true → set.name = "" →
      let p := runAll front (.begin k)
      let n := p.nameNumber set.table
      let s := { set with id := p.transaction.nextSetId, name := anonymousName n }
      n + 1 < setNumberBound ∧
      (Pending.addSet set elements p).1 = (s.checkElements elements).map (fun _ => s) ∧
      (knows set.table (anonymousName n) p).1 = false ∧
      ∀ r, p.sink.ruleset.applyAll 0 p.transaction.batch = .ok r →
        r.set? set.table (anonymousName n) = none) ∧
    ((along nameNumber? events (.begin k)).map anonymousName).Nodup ∧
    (along returnedId? events (.begin k)).Pairwise (· < ·) ∧
    (runAll events (.begin k)).transaction.nextSetId < setNumberBound ∧
    ∀ id ∈ along returnedId? events (.begin k), id < setNumberBound := by
  let names := (k.ruleset.tables.flatMap (·.sets)).map (·.set.name) ++ (requests events).map (·.name)
  have length : names.length = (k.ruleset.tables.flatMap (·.sets)).length + (requests events).length := by
    simp [names]
  have bound : setNumberBound = 2 * 2 ^ 31 := rfl
  have start : Accounted names 0 (.begin k) := begin_accounted ordered fun s hs =>
    List.mem_append_left _ (List.mem_map_of_mem hs)
  have own : ∀ set ∈ requests events, set.name ∈ names := fun set hs =>
    List.mem_append_right _ (List.mem_map_of_mem hs)
  obtain ⟨numbers, -, -⟩ := along_increasing nameNumber?_spends events (.begin k)
  obtain ⟨ids, -, within⟩ := along_increasing returnedId?_spends events (.begin k)
  have last : (runAll events (.begin k)).transaction.nextSetId < setNumberBound := by
    have accounted := runAll_accounted start (by omega) own
    have next := accounted.next
    have few := takenBelow_le names (runAll events (.begin k)).transaction.nextSetId
    omega
  refine ⟨?_, ?_, ids, last, fun id member => Nat.lt_trans (within id member).2 last⟩
  · intro front back set elements split anonymous unnamed
    have parts : requests events = requests front ++ set :: requests back := by
      rw [split, requests, List.flatMap_append, List.flatMap_cons]
      rfl
    have count : (requests events).length = (requests front).length + (requests back).length + 1 := by
      rw [parts, List.length_append, List.length_cons]
      omega
    have earlier : ∀ s ∈ requests front, s.name ∈ names := fun s hs => own s (parts ▸ List.mem_append_left _ hs)
    have accounted := runAll_accounted start (by omega) earlier
    obtain ⟨reached, fresh⟩ := accounted.nameNumber_fresh (by omega) set.table
    have few := takenBelow_le names ((runAll front (.begin k)).nameNumber set.table)
    dsimp only
    refine ⟨by omega, ?_, fresh, fun r applied => ?_⟩
    · exact addSet_nameless anonymous unnamed elements _
    · rw [accounted.tracks.exact r applied] at fresh
      exact Option.not_isSome_iff_eq_none.mp (by simp [fresh])
  · exact (numbers.imp Nat.ne_of_lt).map anonymousName fun m n apart same => apart (anonymousName_inj same)

/-- A kernel with a set that has a generated name. -/
def leftover : Kernel :=
  (Kernel.empty.commit [.addTable ⟨.ipv4, "filter"⟩, .addSet (.ofKeyType ⟨.ipv4, "filter"⟩ "__set2" .inetService) []]).2

def addPort (p : UInt16) : TransactionEvent :=
  .request (.addSet (.anonymous ⟨.ipv4, "filter"⟩ .inetService) [.single (portBytes p)])

/-- A transaction over it, of which the second flush fails and the third removes everything. -/
def portByPort : List TransactionEvent :=
  [addPort 80, .request .flush, addPort 443, .failNext "busy", .request .flush, .request .flushRuleset,
    .request (.addTable ⟨.ipv4, "filter"⟩), addPort 25, addPort 22, .request .flush]

theorem sets_fresh_leftover :
    leftover.ruleset.Ordered ∧
    along nameNumber? portByPort (.begin leftover) = [1, 3, 4, 5] ∧
    along returnedId? portByPort (.begin leftover) = [1, 2, 4, 5] ∧
    [anonymousName 1, anonymousName 3, anonymousName 4, anonymousName 5].Nodup ∧
    (runAll portByPort (.begin leftover)).transaction.nextSetId < setNumberBound ∧
    (knows ⟨.ipv4, "filter"⟩ (anonymousName 3) (runAll [addPort 80, .request .flush] (.begin leftover))).1 = false := by
  have ordered : leftover.ruleset.Ordered := (Kernel.Leads.commit .refl _).consistent.1
  have numbers : along nameNumber? portByPort (.begin leftover) = [1, 3, 4, 5] := by decide +kernel
  have ids : along returnedId? portByPort (.begin leftover) = [1, 2, 4, 5] := by decide +kernel
  obtain ⟨each, names, -, last, -⟩ := sets_fresh ordered portByPort (by decide +kernel)
  obtain ⟨-, -, fresh, -⟩ := each [addPort 80, .request .flush] _ (.anonymous ⟨.ipv4, "filter"⟩ .inetService)
    [.single (portBytes 443)] rfl rfl rfl
  have third : nameNumber ⟨.ipv4, "filter"⟩ (runAll [addPort 80, .request .flush] (.begin leftover)) = 3 := by
    decide +kernel
  rw [numbers] at names
  refine ⟨ordered, numbers, ids, names, last, ?_⟩
  rw [← third]
  exact fresh

end TransactionEvent

end Firewall
