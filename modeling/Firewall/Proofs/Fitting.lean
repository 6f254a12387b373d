import Firewall.Proofs.Requests

namespace Firewall

namespace MatchSet

variable {set used : MatchSet} {e : Element}

/-- The set takes keys of the same width, and allows ranges and timeouts where the other one does. -/
structure Covers (set used : MatchSet) : Prop where
  width : used.keyType.length = set.keyType.length
  interval : used.flags.interval = true → set.flags.interval = true
  timeout : used.flags.timeout = true → set.flags.timeout = true

theorem Covers.checkElement (covers : set.Covers used) (checked : used.checkElement e = .ok ()) :
    set.checkElement e = .ok () := by
  obtain ⟨width, range, expires⟩ := checkElement_ok.mp checked
  rw [covers.width] at width
  have off : ∀ {b b' : Bool}, (b = true → b' = true) → (!b') = true → (!b) = true := by decide
  refine checkElement_ok.mpr ⟨width, ?_, ?_⟩
  · exact fun ⟨given, plain⟩ => range ⟨given, off covers.interval plain⟩
  · exact fun ⟨given, plain⟩ => expires ⟨given, off covers.timeout plain⟩

/-- What a set allows more than another one shows in an element. -/
theorem exists_misfit (allows : ¬ set.Covers used) :
    ∃ e, used.checkElement e = .ok () ∧ set.checkElement e ≠ .ok () := by
  -- A key of the other width, a range and a key that expires, in the order of the checks.
  let key : List UInt8 := List.replicate used.keyType.length 0
  have wide : key.length = used.keyType.length := List.length_replicate
  have single : used.checkElement (.single key) = .ok () := single_checked wide
  by_cases width : used.keyType.length = set.keyType.length
  · by_cases range : used.flags.interval = true ∧ set.flags.interval = false
    · refine ⟨⟨key, some key, none⟩, ?_, ?_⟩
      · simp [MatchSet.checkElement, wide, range.1]
      · simp [MatchSet.checkElement, wide, width, range.2]
    · by_cases expires : used.flags.timeout = true ∧ set.flags.timeout = false
      · refine ⟨(Element.single key).withTimeout (.ofSeconds 1), ?_, ?_⟩
        · simp [MatchSet.checkElement, Element.withTimeout, Element.single, wide, expires.1]
        · simp [MatchSet.checkElement, Element.withTimeout, Element.single, wide, width, expires.2]
      · refine absurd ⟨width, fun on => ?_, fun on => ?_⟩ allows
        · simpa [on] using range
        · simpa [on] using expires
  · refine ⟨.single key, single, ?_⟩
    simp [MatchSet.checkElement, Element.single, wide, width]

end MatchSet

/-- A declaration that adds an element to the set that it names by that value. -/
def Declaration.Supplies (d : Declaration) (used : MatchSet) (e : Element) : Prop :=
  ∃ elements, d.additions? = some (used, elements) ∧ e ∈ elements

namespace Ruleset

variable {r r' : Ruleset} {log batch : Batch} {d : Declaration} {index : Nat}

/-- Every element of an installed set was added by one of the declarations, under the name of the set. -/
def Sourced (log : Batch) (r : Ruleset) : Prop :=
  ∀ t name s, r.set? t name = some s → ∀ e ∈ s.elements,
    ∃ d ∈ log, ∃ used, d.Supplies used e ∧ used.table = t ∧ used.name = name

theorem Sourced.mono {log' : Batch} (sourced : r.Sourced log) (sub : ∀ d ∈ log, d ∈ log') :
    r.Sourced log' := by
  intro t name s found e he
  obtain ⟨d, logged, source⟩ := sourced t name s found e he
  exact ⟨d, sub d logged, source⟩

theorem apply_sourced (ordered : r.Ordered) (sourced : r.Sourced log) (logged : d ∈ log)
    (h : r.apply d = .ok r') : r'.Sourced log := by
  intro t name s found e he
  rw [(apply_step ordered h).set?] at found
  cases d with
  | flushRuleset => cases found
  | addTable | addChain | addRule | insertRule | deleteRule => exact sourced t name s found e he
  | addSet set elements =>
    rw [Declaration.onSet] at found
    split at found
    · rename_i here
      have new : e ∈ elements → ∃ d ∈ log, ∃ used, d.Supplies used e ∧ used.table = t ∧ used.name = name :=
        fun member => ⟨_, logged, set, ⟨elements, rfl, member⟩, here.1.symm, here.2.symm⟩
      cases found
      cases before : r.set? t name with
      | none =>
        rw [before] at he
        rcases mem_addElements he with none | member
        · cases none
        · exact new member
      | some s =>
        rw [before] at he
        rcases mem_addElements he with old | member
        · exact sourced t name s before e old
        · exact new member
    · exact sourced t name s found e he
  | addElements set elements =>
    rw [Declaration.onSet] at found
    split at found
    · rename_i here
      obtain ⟨before, there, rfl⟩ := Option.map_eq_some_iff.mp found
      rcases mem_addElements he with old | member
      · exact sourced t name before there e old
      · exact ⟨_, logged, set, ⟨elements, rfl, member⟩, here.1.symm, here.2.symm⟩
    · exact sourced t name s found e he
  | deleteElements set elements =>
    rw [Declaration.onSet] at found
    split at found
    · obtain ⟨before, there, rfl⟩ := Option.map_eq_some_iff.mp found
      exact sourced t name before there e (mem_removeElements he)
    · exact sourced t name s found e he

theorem applyAll_sourced (ordered : r.Ordered) (sourced : r.Sourced log) (logged : ∀ d ∈ batch, d ∈ log)
    (h : r.applyAll index batch = .ok r') : r'.Ordered ∧ r'.Sourced log :=
  applyAll_keeps (I := fun r => r.Ordered ∧ r.Sourced log)
    (fun member ⟨ordered, sourced⟩ h =>
      ⟨(apply_step ordered h).ordered, apply_sourced ordered sourced (logged _ member) h⟩)
    ⟨ordered, sourced⟩ h

end Ruleset

/-- A kernel fails a commit on request only once it has been asked to. -/
theorem Kernel.commit_sound {k : Kernel} (sound : k.failNext = none) (batch : Batch) :
    (k.commit batch).2.failNext = none := by
  unfold commit
  rw [sound]
  dsimp only
  split
  · rfl
  · exact sound

namespace TransactionRequest

variable {log : Batch} {p : Pending Kernel}

/-- What a request adds to the pending declarations. -/
def collected (req : TransactionRequest) (p : Pending Kernel) : Batch :=
  (req.run p).2.transaction.batch.drop p.transaction.batch.length

/-- A transaction over a kernel that was empty at first, with all declarations that this and the earlier
transactions have collected. -/
inductive History : Batch → Pending Kernel → Prop where
  | start : History [] (.begin .empty)
  | step {log : Batch} {p : Pending Kernel} (before : History log p) (req : TransactionRequest) :
    History (log ++ req.collected p) (req.run p).2
  | next {log : Batch} {p : Pending Kernel} (before : History log p) : History log (.begin p.sink)

/-- What a history tells about its declarations: they contain the pending ones, each adds elements that fit,
and the installed elements come from them. -/
structure Accounts (log : Batch) (p : Pending Kernel) : Prop where
  pending : ∀ d ∈ p.transaction.batch, d ∈ log
  fits : ∀ d ∈ log, ∀ used elements, d.additions? = some (used, elements) →
    used.checkElements elements = .ok ()
  ordered : p.sink.ruleset.Ordered
  sourced : p.sink.ruleset.Sourced log
  /-- The kernel has not been asked to fail. -/
  sound : p.sink.failNext = none

theorem collected_eq {req : TransactionRequest} {batch : Batch}
    (h : (req.run p).2.transaction.batch = p.transaction.batch ++ batch) : req.collected p = batch := by
  rw [collected, h, List.drop_left]

theorem collected_flush (p : Pending Kernel) : flush.collected p = [] := by
  rw [collected, run_flush]
  unfold Pending.flush
  split
  · exact List.drop_length
  · exact List.drop_nil

theorem Accounts.flush (accounts : Accounts log p) : Accounts log (TransactionRequest.flush.run p).2 := by
  rw [run_flush]
  unfold Pending.flush
  split
  · exact accounts
  · have installed : (p.sink.commit p.transaction.batch).2.ruleset.Ordered ∧
        (p.sink.commit p.transaction.batch).2.ruleset.Sourced log := by
      rcases Kernel.commit_ruleset p.sink p.transaction.batch with same | applied
      · rw [same]
        exact ⟨accounts.ordered, accounts.sourced⟩
      · exact Ruleset.applyAll_sourced accounts.ordered accounts.sourced accounts.pending applied
    exact ⟨fun d hd => absurd hd List.not_mem_nil, accounts.fits, installed.1, installed.2,
      Kernel.commit_sound accounts.sound _⟩

theorem Accounts.collects {req : TransactionRequest} (accounts : Accounts log p) (collects : req ≠ .flush) :
    Accounts (log ++ req.collected p) (req.run p).2 := by
  have unchanged : ∀ {n : Nat}, (req.run p).2 = ⟨p.transaction.numbered n, p.sink⟩ →
      Accounts (log ++ req.collected p) (req.run p).2 := by
    intro n same
    have none : req.collected p = [] := collected_eq (by rw [same, List.append_nil]; rfl)
    rw [none, List.append_nil, same]
    exact ⟨accounts.pending, accounts.fits, accounts.ordered, accounts.sourced, accounts.sound⟩
  have effect := run_effect (p := p) collects
  cases run : req.run p with
  | mk result p' =>
    rw [run] at effect
    have ends : (req.run p).2 = p' := congrArg Prod.snd run
    rw [← ends]
    cases effect with
    | nothing result n => exact unchanged ends
    | unknown => exact unchanged (n := p.transaction.nextSetId) ends
    | @collected d _ a n known fits =>
      have one : req.collected p = [d] := collected_eq (by rw [ends, Transaction.record_batch]; rfl)
      rw [one, ends]
      refine ⟨?_, ?_, accounts.ordered, accounts.sourced.mono fun d hd => List.mem_append_left _ hd,
        accounts.sound⟩
      · intro d' hd
        rw [Transaction.record_batch] at hd
        rcases List.mem_append.mp hd with old | new
        · exact List.mem_append_left _ (accounts.pending d' old)
        · exact List.mem_append_right _ new
      · intro d' hd
        rcases List.mem_append.mp hd with old | new
        · exact accounts.fits d' old
        · cases List.mem_singleton.mp new
          exact fits

theorem History.accounts (history : History log p) : Accounts log p := by
  induction history with
  | start =>
    refine ⟨fun d hd => absurd hd List.not_mem_nil, fun d hd => absurd hd List.not_mem_nil,
      Ruleset.ordered_empty, ?_, rfl⟩
    rintro t name s ⟨⟩
  | @step log p before req ih =>
    by_cases handsOver : req = .flush
    · subst handsOver
      rw [collected_flush, List.append_nil]
      exact ih.flush
    · exact ih.collects handsOver
  | next before ih =>
    exact ⟨fun d hd => absurd hd List.not_mem_nil, ih.fits, ih.ordered, ih.sourced, ih.sound⟩

end TransactionRequest

section Readd

variable {r : Ruleset} {set : MatchSet} {e : Element} {s : InstalledSet}

/-- An element that is removed and added again is there as it was added. -/
theorem mem_readd (current : List Element) (e : Element) :
    e ∈ addElements (removeElements current [e]) [e] := by
  have fresh : e.bounds ∉ (removeElements current [e]).map Element.bounds := by
    rw [removeElements_bounds]
    simp
  rw [addElements_cons, if_neg fresh]
  exact List.mem_append_right _ List.mem_cons_self

theorem Ruleset.changeElements_there {f : List Element → List Element}
    (there : (r.set? set.table set.name).isSome) :
    ∃ r', (r.changeTable set.table fun t => t.changeElements set.name f) = .ok r' := by
  cases h : r.changeTable set.table fun t => t.changeElements set.name f with
  | ok r' => exact ⟨r', rfl⟩
  | error cause =>
    exfalso
    rcases changeTable_error.mp h with ⟨absent, -⟩ | ⟨i, found, fails⟩
    · simp [set?, absent] at there
    · simp [set?, found, (InstalledTable.changeElements_error.mp fails).1] at there

/-- An installed set takes any element, whether it fits or not. -/
theorem Ruleset.readd (ordered : r.Ordered) (found : r.set? set.table set.name = some s) (e : Element) :
    ∃ r', r.applyAll 0 [.deleteElements set [e], .addElements set [e]] = .ok r' ∧
      r'.set? set.table set.name =
        some { s with elements := Firewall.addElements (removeElements s.elements [e]) [e] } := by
  obtain ⟨r₁, first⟩ := changeElements_there (f := fun es => removeElements es [e])
    (Option.isSome_iff_exists.mpr ⟨s, found⟩)
  have first : r.apply (.deleteElements set [e]) = .ok r₁ := first
  have step := apply_step ordered first
  have middle : r₁.set? set.table set.name = some { s with elements := removeElements s.elements [e] } := by
    rw [step.set?, found]
    exact if_pos ⟨rfl, rfl⟩
  obtain ⟨r₂, second⟩ := changeElements_there (f := fun es => Firewall.addElements es [e])
    (Option.isSome_iff_exists.mpr ⟨_, middle⟩)
  have second : r₁.apply (.addElements set [e]) = .ok r₂ := second
  refine ⟨r₂, ?_, ?_⟩
  · rw [applyAll, first]
    dsimp only
    rw [applyAll, second]
    rfl
  · rw [(apply_step step.ordered second).set?, middle]
    exact if_pos ⟨rfl, rfl⟩

end Readd

namespace TransactionRequest

open Pending

def readd (used : MatchSet) (e : Element) : List TransactionRequest :=
  [.deleteElements used [e], .addElements used [e], .flush]

/-- An element goes into an installed set if it fits the value that the requests name the set by. -/
theorem runAll_readd {k : Kernel} (ordered : k.ruleset.Ordered) (sound : k.failNext = none) {used : MatchSet}
    {s : InstalledSet} (found : k.ruleset.set? used.table used.name = some s) {e : Element}
    (fits : used.checkElement e = .ok ()) :
    ∃ s', (runAll (readd used e) (.begin k)).sink.ruleset.set? used.table used.name = some s' ∧
      s'.set = s.set ∧ e ∈ s'.elements := by
  have checked : used.checkElements [e] = .ok () :=
    MatchSet.checkElements_ok.mpr (List.forall_mem_singleton.mpr fits)
  have collects : ∀ (make : MatchSet → List Element → Declaration) (t : Transaction),
      t.reset = false →
        Pending.changeElements make used [e] ⟨t, k⟩ = (.ok (), ⟨t.push (make used [e]), k⟩) := by
    intro make t kept
    have known : (knows used.table used.name ⟨t, k⟩).1 = true := by
      rw [knows_eq, found, kept]
      exact Bool.or_true _
    rw [changeElements_eq, checked, known]
    rfl
  have first : (TransactionRequest.deleteElements used [e]).run (.begin k) =
      (.ok none, ⟨.push .empty (.deleteElements used [e]), k⟩) :=
    Action.bind_eq (collects .deleteElements .empty rfl)
  have second : (TransactionRequest.addElements used [e]).run ⟨.push .empty (.deleteElements used [e]), k⟩ =
      (.ok none, ⟨.push (.push .empty (.deleteElements used [e])) (.addElements used [e]), k⟩) :=
    Action.bind_eq (collects .addElements _ rfl)
  obtain ⟨r, applied, there⟩ := k.ruleset.readd ordered found e
  have handed : (runAll (readd used e) (.begin k)).sink =
      (k.commit [.deleteElements used [e], .addElements used [e]]).2 := by
    rw [readd, runAll, first, runAll, second, runAll, run_flush]
    rfl
  have installed : (runAll (readd used e) (.begin k)).sink.ruleset = r := by
    rw [handed, Kernel.commit, sound]
    dsimp only
    rw [applied]
  rw [installed]
  exact ⟨_, there, rfl, mem_readd s.elements e⟩

variable {log : Batch} {p : Pending Kernel}

/-- The elements of an installed set have each been added through some value that names the set, and fit that
value. So they fit the set itself if it allows what all those values allow; and whatever value names the set
and allows more than it does, requests through that value leave the set with an element that does not fit. -/
theorem elements_fit (history : History log p) :
    ∀ i ∈ p.sink.ruleset.tables, ∀ s ∈ i.sets,
      (∀ e ∈ s.elements, ∃ d ∈ log, ∃ used, d.Supplies used e ∧
        used.table = i.table ∧ used.name = s.set.name ∧ used.checkElement e = .ok ()) ∧
      ((∀ d ∈ log, ∀ used elements, d.additions? = some (used, elements) →
          used.table = i.table → used.name = s.set.name → s.set.Covers used) →
        s.set.checkElements s.elements = .ok ()) ∧
      ∀ used : MatchSet, used.table = i.table → used.name = s.set.name → ¬ s.set.Covers used →
        ∃ requests s', (runAll requests (.begin p.sink)).sink.ruleset.set? i.table s.set.name = some s' ∧
          s'.set = s.set ∧ s'.set.checkElements s'.elements ≠ .ok () := by
  intro i hi s hs
  have accounts := history.accounts
  have found := accounts.ordered.set?_of_mem hi hs
  have supplied : ∀ e ∈ s.elements, ∃ d ∈ log, ∃ used, d.Supplies used e ∧
      used.table = i.table ∧ used.name = s.set.name ∧ used.checkElement e = .ok () := by
    intro e he
    obtain ⟨d, logged, used, supplies, table, name⟩ := accounts.sourced _ _ s found e he
    obtain ⟨elements, additions, member⟩ := supplies
    have fits := MatchSet.checkElements_ok.mp (accounts.fits d logged used elements additions) e member
    exact ⟨d, logged, used, ⟨elements, additions, member⟩, table, name, fits⟩
  refine ⟨supplied, fun covered => MatchSet.checkElements_ok.mpr fun e he => ?_, ?_⟩
  · obtain ⟨d, logged, used, ⟨elements, additions, _⟩, table, name, fits⟩ := supplied e he
    exact (covered d logged used elements additions table name).checkElement fits
  · intro used table name allows
    obtain ⟨e, fits, misfits⟩ := MatchSet.exists_misfit allows
    rw [← table, ← name] at found
    obtain ⟨s', there, same, member⟩ := runAll_readd accounts.ordered accounts.sound found fits
    rw [← table, ← name]
    refine ⟨readd used e, s', there, same, fun all => misfits ?_⟩
    rw [← same]
    exact MatchSet.checkElements_ok.mp all e member

def singlePorts : MatchSet := .ofKeyType ⟨.ipv4, "filter"⟩ "open_ports" .inetService

/-- Requests that declare the set of single ports and add an element through another value of its name. -/
def throughOther (used : MatchSet) (e : Element) : List TransactionRequest :=
  [.addTable ⟨.ipv4, "filter"⟩, .addSet singlePorts [.single (portBytes 22)], .addElements used [e], .flush]

theorem elements_fit_singlePorts :
    let p := runAll (throughOther singlePorts (.single (portBytes 443))) (.begin .empty)
    let q := runAll (throughOther singlePorts.interval (.range (portBytes 1000) (portBytes 2000)))
      (.begin .empty)
    (∃ s, p.sink.ruleset.set? ⟨.ipv4, "filter"⟩ "open_ports" = some s ∧ s.elements.length = 2 ∧
      s.set.checkElements s.elements = .ok () ∧
      ∃ requests s', (runAll requests (.begin p.sink)).sink.ruleset.set? ⟨.ipv4, "filter"⟩ "open_ports" =
        some s' ∧ s'.set = s.set ∧ s'.set.checkElements s'.elements ≠ .ok ()) ∧
    ∃ s, q.sink.ruleset.set? ⟨.ipv4, "filter"⟩ "open_ports" = some s ∧ s.set = { singlePorts with id := 1 } ∧
      s.set.checkElements s.elements = .error (.elementRange "open_ports") := by
  let ports : MatchSet := { singlePorts with id := 1 }
  let declared : InstalledSet := ⟨ports, [.single (portBytes 22), .single (portBytes 443)]⟩
  have history : History [.addTable ⟨.ipv4, "filter"⟩, .addSet ports [.single (portBytes 22)],
      .addElements singlePorts [.single (portBytes 443)]]
      (runAll (throughOther singlePorts (.single (portBytes 443))) (.begin .empty)) :=
    .step (.step (.step (.step .start (.addTable ⟨.ipv4, "filter"⟩))
      (.addSet singlePorts [.single (portBytes 22)]))
      (.addElements singlePorts [.single (portBytes 443)])) .flush
  obtain ⟨-, fits, misfits⟩ := elements_fit history ⟨⟨.ipv4, "filter"⟩, [], [declared]⟩ (by decide) declared
    (by decide)
  refine ⟨⟨declared, by decide, rfl, fits ?_, misfits singlePorts.interval rfl rfl ?_⟩, _, rfl, rfl,
    by decide⟩
  · intro d logged used elements additions _ _
    rcases List.mem_cons.mp logged with rfl | logged
    · cases additions
    · rcases List.mem_cons.mp logged with rfl | logged
      · cases additions
        exact ⟨rfl, id, id⟩
      · cases List.mem_singleton.mp logged
        cases additions
        exact ⟨rfl, id, id⟩
  · intro covers
    cases covers.interval rfl

end TransactionRequest

end Firewall
