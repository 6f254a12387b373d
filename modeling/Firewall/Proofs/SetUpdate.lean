import Firewall.Proofs.Repetition
import Firewall.Proofs.Requests

namespace Firewall

open Element

/-- Where keys stand for one entry each, a change of the first entry of a key changes all of that key. -/
theorem changeFirst_keyed {α κ ε : Type} [DecidableEq κ] {key : α → κ} {k : κ} {missing : ε}
    {f : α → Except ε α} {g : α → α} {as : List α} (once : (as.map key).Nodup) (there : k ∈ as.map key)
    (made : ∀ a ∈ as, key a = k → f a = .ok (g a)) :
    changeFirst (fun a => key a = k) missing f as = .ok (as.map fun a => if key a = k then g a else a) := by
  induction as with
  | nil => exact absurd there List.not_mem_nil
  | cons a as ih =>
    obtain ⟨apart, rest⟩ := List.nodup_cons.mp once
    obtain ⟨first, later⟩ := List.forall_mem_cons.mp made
    rw [changeFirst, List.map_cons]
    by_cases here : key a = k
    · have others : ∀ b ∈ as, ¬ key b = k := by
        intro b hb same
        exact apart (here.trans same.symm ▸ List.mem_map_of_mem hb)
      have alone : (as.map fun b => if key b = k then g b else b) = as :=
        (List.map_congr_left fun b hb => if_neg (others b hb)).trans (List.map_id' as)
      simp [here, first here, alone]
    · have behind : k ∈ as.map key := (List.mem_cons.mp there).resolve_left (Ne.symm here)
      simp [here, ih rest behind later]

/-- The elements of a set behind a change: those that are not removed, and then the first of the added ones
under each of the other bounds. -/
def changedElements (old gone new : List Element) : List Element :=
  let kept := old.filter fun e => e.bounds ∉ gone.map bounds
  kept ++ (new.filter fun e => e.bounds ∉ kept.map bounds).eraseDupsBy sameKey

theorem changedElements_eq (old gone new : List Element) :
    changedElements old gone new = addElements (removeElements old gone) new := by
  rw [changedElements, addElements_eq, removeElements_eq]

def InstalledTable.mapElements (name : String) (f : List Element → List Element) (i : InstalledTable) :
    InstalledTable :=
  { i with sets := i.sets.map fun s => if s.set.name = name then { s with elements := f s.elements } else s }

/-- The batch that changes a set: no declaration without elements. -/
def changeBatch (set : MatchSet) (gone new : List Element) : Batch :=
  (if gone.isEmpty then [] else [.deleteElements set gone]) ++
    if new.isEmpty then [] else [.addElements set new]

namespace Ruleset

variable {r : Ruleset} {set : MatchSet} {s : InstalledSet} {f g : List Element → List Element}

/-- A ruleset with other elements in a set. -/
def mapElements (set : MatchSet) (f : List Element → List Element) (r : Ruleset) : Ruleset :=
  { r with tables := r.tables.map fun i => if i.table = set.table then i.mapElements set.name f else i }

theorem mapElements_id (same : ∀ es, f es = es) : r.mapElements set f = r := by
  have sets : ∀ i : InstalledTable, i.mapElements set.name f = i := by
    intro i
    simp [InstalledTable.mapElements, same]
  simp [mapElements, sets]

theorem mapElements_mapElements :
    (r.mapElements set f).mapElements set g = r.mapElements set fun es => g (f es) := by
  have sets : ∀ i : InstalledTable, (i.mapElements set.name f).mapElements set.name g =
      i.mapElements set.name fun es => g (f es) := by
    intro i
    simp only [InstalledTable.mapElements, List.map_map]
    congr 1
    refine List.map_congr_left fun s _ => ?_
    by_cases here : s.set.name = set.name <;> simp [here]
  simp only [mapElements, List.map_map]
  congr 1
  refine List.map_congr_left fun i _ => ?_
  by_cases here : i.table = set.table
  · have kept : (i.mapElements set.name f).table = set.table := here
    simp [here, kept, sets]
  · simp [here]

section Found

variable (ordered : r.Ordered) (found : r.set? set.table set.name = some s)
include ordered found

/-- In an ordered ruleset a set can be changed if it is there, and the change is one of its elements. -/
theorem changeElements_map (f : List Element → List Element) :
    (r.changeTable set.table fun i => i.changeElements set.name f) = .ok (r.mapElements set f) := by
  obtain ⟨i, table, there⟩ := Option.bind_eq_some_iff.mp found
  have hi : i ∈ r.tables := List.mem_of_find?_eq_some table
  have own : i.table = set.table := table?_table table
  have names : (i.sets.map (·.set.name)).Nodup := (ordered.sets i hi).imp String.ne_of_lt
  have looked : i.sets.find? (fun s => s.set.name = set.name) = some s := there
  have named : s.set.name = set.name := by simpa using List.find?_some looked
  have listed : set.name ∈ i.sets.map (·.set.name) :=
    named ▸ List.mem_map_of_mem (List.mem_of_find?_eq_some looked)
  have change : i.changeElements set.name f = .ok (i.mapElements set.name f) := by
    rw [InstalledTable.changeElements, changeFirst_keyed names listed fun _ _ _ => rfl]
    rfl
  have made : ∀ j ∈ r.tables, j.table = set.table →
      j.changeElements set.name f = .ok (j.mapElements set.name f) := by
    intro j hj here
    have one : r.table? set.table = some j := here ▸ find?_key ordered.apart hj
    cases table.symm.trans one
    exact change
  rw [changeTable, changeFirst_keyed ordered.apart (own ▸ List.mem_map_of_mem hi) made]
  rfl

theorem mapElements_found (f : List Element → List Element) : (r.mapElements set f).Ordered ∧
    (r.mapElements set f).set? set.table set.name = some { s with elements := f s.elements } := by
  obtain ⟨sets, -, -, keeps⟩ := changeElements_step (changeElements_map ordered found f)
  refine ⟨keeps ordered, ?_⟩
  rw [sets, if_pos ⟨rfl, rfl⟩, found]
  rfl

/-- A change that is left out if there is nothing to change. -/
theorem applyAll_unless {d : Declaration} {es : List Element}
    (changes : r.apply d = r.changeTable set.table fun i => i.changeElements set.name f)
    (idle : es = [] → ∀ current, f current = current) (index : Nat) :
    r.applyAll index (if es.isEmpty then [] else [d]) = .ok (r.mapElements set f) := by
  cases es with
  | nil => rw [mapElements_id (idle rfl)]; rfl
  | cons e es =>
    have applied : r.apply d = .ok (r.mapElements set f) := by
      rw [changes, changeElements_map ordered found]
    simp [applyAll, applied]

theorem applyAll_change (gone new : List Element) : r.applyAll 0 (changeBatch set gone new) =
    .ok (r.mapElements set fun old => changedElements old gone new) := by
  let r₁ := r.mapElements set fun old => removeElements old gone
  have removed : r.applyAll 0 (if gone.isEmpty then [] else [.deleteElements set gone]) = .ok r₁ :=
    applyAll_unless ordered found rfl (fun none old => by simp [none, removeElements]) 0
  -- The set is still there when elements are added to it.
  obtain ⟨ordered₁, found₁⟩ := mapElements_found ordered found fun old => removeElements old gone
  have added : ∀ index, r₁.applyAll index (if new.isEmpty then [] else [.addElements set new]) =
      .ok (r₁.mapElements set fun old => addElements old new) := by
    refine fun index => applyAll_unless ordered₁ found₁ rfl (fun none old => ?_) index
    rw [none, addElements]
  rw [changeBatch, applyAll_append, removed]
  dsimp only
  rw [added, mapElements_mapElements]
  simp only [changedElements_eq]

end Found

end Ruleset

namespace Kernel

variable {k k' : Kernel} {set : MatchSet} {gone new : List Element} {s : InstalledSet}

/-- A kernel behind the change of a set; without elements there is no batch. -/
def change (set : MatchSet) (gone new : List Element) (k : Kernel) : Except Error Unit × Kernel :=
  if gone = [] ∧ new = [] then (.ok (), k) else k.commit (changeBatch set gone new)

/-- A change that is made is one of the elements of the set, in one commit. -/
theorem change_ok (ordered : k.ruleset.Ordered) (found : k.ruleset.set? set.table set.name = some s)
    (h : k.change set gone new = (.ok (), k')) :
    k' = if gone = [] ∧ new = [] then k else { k with
      ruleset := k.ruleset.mapElements set fun old => changedElements old gone new
      commits := k.commits + 1
      lastBatch := changeBatch set gone new } := by
  unfold change at h
  split
  · rename_i none
    rw [if_pos none] at h
    cases h
    rfl
  · rename_i some
    rw [if_neg some, commit, Ruleset.applyAll_change ordered found] at h
    split at h
    · cases h
    · rename_i sound
      cases h
      rw [sound]

/-- Whether there is a batch or not, the set holds what the change makes of it. -/
theorem change_elements (ordered : k.ruleset.Ordered) (found : k.ruleset.set? set.table set.name = some s)
    (h : k.change set gone new = (.ok (), k')) :
    k'.elements set = .ok (changedElements s.elements gone new) := by
  rw [change_ok ordered found h]
  by_cases none : gone = [] ∧ new = []
  · obtain ⟨rfl, rfl⟩ := none
    rw [if_pos ⟨rfl, rfl⟩, elements, found, changedElements_eq]
    simp [removeElements, addElements]
  · rw [if_neg none, elements, (Ruleset.mapElements_found ordered found _).2]

theorem change_total (ordered : k.ruleset.Ordered) (found : k.ruleset.set? set.table set.name = some s)
    (sound : k.failNext = none) : ∃ k', k.change set gone new = (.ok (), k') := by
  unfold change commit
  rw [sound, Ruleset.applyAll_change ordered found]
  split
  · exact ⟨_, rfl⟩
  · exact ⟨_, rfl⟩

end Kernel

namespace Pending

variable {set : MatchSet} {gone new es : List Element}

theorem changeElements_known {make : MatchSet → List Element → Declaration} {p : Pending Kernel}
    (checked : set.checkElements es = .ok ()) (known : (knows set.table set.name p).1 = true) :
    changeElements make set es p = (.ok (), { p with transaction := { p.transaction with
      batch := p.transaction.batch ++ if es.isEmpty then [] else [make set es] } }) := by
  rw [changeElements_eq, checked, known]
  cases es with
  | nil => simp
  | cons e es => rfl

/-- A transaction that changes a set. -/
def change (set : MatchSet) (gone new : List Element) : Action (Pending Kernel) Unit := do
  deleteElements set gone
  addElements set new
  flush

/-- It hands its batch to the kernel and is empty again. -/
theorem change_eq {k : Kernel} (there : (k.ruleset.set? set.table set.name).isSome = true)
    (checkedGone : set.checkElements gone = .ok ()) (checkedNew : set.checkElements new = .ok ()) :
    change set gone new (begin k) = ((k.change set gone new).1, begin (k.change set gone new).2) := by
  have collects : ∀ {make : MatchSet → List Element → Declaration} {es : List Element} (batch : Batch),
      set.checkElements es = .ok () → changeElements make set es ⟨{ Transaction.empty with batch }, k⟩ =
        (.ok (), ⟨{ Transaction.empty with
          batch := batch ++ if es.isEmpty then [] else [make set es] }, k⟩) := by
    intro make es batch checked
    refine changeElements_known checked ?_
    rw [knows_eq]
    simp [Transaction.empty, there]
  have deleted : deleteElements set gone (begin k) = _ := collects [] checkedGone
  have added : addElements set new ⟨{ Transaction.empty with
      batch := [] ++ if gone.isEmpty then [] else [.deleteElements set gone] }, k⟩ = _ :=
    collects _ checkedNew
  rw [change, Action.bind_eq deleted, Action.bind_eq added, flush]
  by_cases none : gone = [] ∧ new = []
  · obtain ⟨rfl, rfl⟩ := none
    rfl
  · have collected : ¬ (changeBatch set gone new).isEmpty = true := by
      rw [changeBatch]
      cases gone <;> cases new <;> simp_all
    refine (if_neg collected).trans ?_
    rw [Kernel.change, if_neg none]
    rfl

end Pending

namespace Controller

/-- A controller whose kernel is in order and has the sets of addresses wherever it has that of the managers,
by which a policy is taken over, and while the policy is applied. -/
structure Equipped (config : Config) (c : Controller Kernel) : Prop where
  ordered : c.sink.ruleset.Ordered
  together : c.sink.hasSet config.filterTable Layout.managerName = true →
    ∀ which, c.sink.hasSet config.filterTable (Layout.addressName which) = true
  present : c.applied = true → ∀ which, c.sink.hasSet config.filterTable (Layout.addressName which) = true

variable {config : Config} {c c' : Controller Kernel}

namespace Equipped

theorem start {k : Kernel} (ordered : k.ruleset.Ordered)
    (together : k.hasSet config.filterTable Layout.managerName = true →
      ∀ which, k.hasSet config.filterTable (Layout.addressName which) = true)
    (fresh : Fresh config k c) : Equipped config c := by
  obtain ⟨-, -, -, idle, rfl⟩ := fresh
  exact ⟨ordered, together, fun applied => absurd (idle.symm.trans applied) Bool.false_ne_true⟩

theorem onHost (equipped : Equipped config c) (host : Discovery.Host) : Equipped config { c with host } :=
  ⟨equipped.ordered, equipped.together, equipped.present⟩

variable (equipped : Equipped config c)
include equipped

theorem onKernel {k : Kernel} (same : k.ruleset = c.sink.ruleset) : Equipped config { c with sink := k } := by
  have views : ∀ name, k.hasSet config.filterTable name = c.sink.hasSet config.filterTable name := by
    intro name
    rw [Kernel.hasSet, Kernel.hasSet, same]
  refine ⟨?_, ?_, ?_⟩
  · rw [show k.ruleset = _ from same]
    exact equipped.ordered
  · simpa [views] using equipped.together
  · simpa [views] using equipped.present

theorem applied (kept : Kept config c) (enabled : c.config.enabled = true)
    (done : apply c = (.ok (), c')) : Equipped config c' := by
  obtain ⟨ports, plan, -, -, commit, -⟩ := apply_ok kept.configured enabled done
  have made := Kernel.commit_ok commit
  have there : ∀ which, c'.sink.hasSet config.filterTable (Layout.addressName which) = true := by
    intro which
    obtain ⟨table, name⟩ := Prod.mk.inj (Layout.numbered_address (c := c.config) which)
    have declared := Ruleset.applyAll_declared Layout.declarations_noFlush Layout.declarations_setKeys made
      (Layout.mem_declarations_addresses which)
    rw [table, name, kept.own] at declared
    rw [Kernel.hasSet, declared]
    rfl
  exact ⟨Ruleset.applyAll_ordered equipped.ordered made, fun _ => there, fun _ => there⟩

/-- A cleanup leaves no set of managers. -/
theorem cleaned (kept : Kept config c) (enabled : c.config.enabled = true)
    (done : cleanup c = (.ok (), c')) : Equipped config c' := by
  obtain ⟨ports, plan, -, -, -, commit, state⟩ := cleanup_ok kept.configured enabled done
  generalize (c.sink.elements c.layout.trusted).toOption.getD [] = trusted at commit
  have made := Kernel.commit_ok commit
  have gone : c'.sink.hasSet config.filterTable Layout.managerName = false := by
    rw [← kept.own, Kernel.hasSet, (Ruleset.applyAll_flush made).2.1, Ruleset.onSet_append,
      Ruleset.onSet_other Layout.filterDeclarations_noFlush
        (Layout.filterDeclarations_setKeys c.config trusted ports).2, Ruleset.onSet_rules]
    rfl
  refine ⟨Ruleset.applyAll_ordered equipped.ordered made, fun managed => ?_, fun present => ?_⟩
  · cases gone.symm.trans managed
  · rw [state] at present
    cases present

theorem refilled {set : MatchSet} (change : Refilled set c c') : Equipped config c' := by
  obtain ⟨state, changed⟩ := change
  have views : ∀ name, c'.sink.hasSet config.filterTable name = c.sink.hasSet config.filterTable name := by
    intro name
    rw [Kernel.hasSet, Kernel.hasSet]
    by_cases here : (config.filterTable, name) = (set.table, set.name)
    · obtain ⟨table, name⟩ := Prod.mk.inj here
      simpa [table, name] using congrArg Option.isSome changed.here
    · rw [changed.others _ _ here]
  refine ⟨changed.ordered equipped.ordered, ?_, ?_⟩
  · simpa only [views] using equipped.together
  · rw [state]
    simpa only [views] using equipped.present

theorem did (kept : Kept config c) (h : Did c c') : Equipped config c' := by
  cases h with
  | nothing same => exact equipped.onKernel same
  | applied enabled done => exact equipped.applied kept enabled done
  | cleaned enabled done => exact equipped.cleaned kept enabled done
  | refilled present change => exact equipped.refilled change
  | adopted absent managed =>
    have filter : c.template.filter = config.filterTable := by
      rw [kept.configured.template, kept.own]
      rfl
    rw [filter] at managed
    exact ⟨equipped.ordered, equipped.together, fun _ => equipped.together managed⟩

end Equipped

theorem Reached.equipped (reached : Reached config c) : Equipped config c := by
  induction reached with
  | first fresh =>
    have bare : Kernel.empty.hasSet config.filterTable Layout.managerName = false := rfl
    exact .start Ruleset.ordered_empty (fun managed => absurd (bare.symm.trans managed) Bool.false_ne_true)
      fresh
  | @step c before event ih =>
    cases event with
    | run op =>
      obtain ⟨host, did⟩ := Did.run op c
      exact ((ih.onHost host).did (before.kept.onHost host) did).onHost (op.run c).2.host
    | failNext reason => exact ih.onKernel rfl
    | namespaces allowed => exact ih.onHost _
  | again before fresh ih => exact .start ih.ordered ih.together fresh

/-- The sets of addresses are installed while the policy is applied. -/
theorem Reached.address_found (reached : Reached config c) (applied : c.applied = true)
    (which : AddressSet) :
    ∃ s, c.sink.ruleset.set? (which.set c.layout).table (which.set c.layout).name = some s := by
  obtain ⟨table, name⟩ := Prod.mk.inj (reached.kept.layout.address which)
  rw [table, name]
  exact Option.isSome_iff_exists.mp (reached.equipped.present applied which)

theorem transact_change {set : MatchSet} {gone new : List Element}
    (there : ∃ s, c.sink.ruleset.set? set.table set.name = some s)
    (checkedGone : set.checkElements gone = .ok ()) (checkedNew : set.checkElements new = .ok ()) :
    transact (Pending.change set gone new) c =
      ((c.sink.change set gone new).1, { c with sink := (c.sink.change set gone new).2 }) := by
  have known : (c.sink.ruleset.set? set.table set.name).isSome = true := Option.isSome_iff_exists.mpr there
  rw [transact, Action.on, Pending.change_eq known checkedGone checkedNew]
  rfl

/-- The controllers that operations lead to while the namespaces stay as they are: on an empty kernel, or on
what such a controller has left. The kernel can be asked to fail in between. -/
inductive Operated (config : Config) : Controller Kernel → Prop where
  | first {c : Controller Kernel} (fresh : Fresh config .empty c) : Operated config c
  | run {c : Controller Kernel} (before : Operated config c) (op : Operation) : Operated config (op.run c).2
  | failNext {c : Controller Kernel} (before : Operated config c) (reason : String) :
    Operated config { c with sink := c.sink.failing reason }
  | again {c c' : Controller Kernel} (before : Operated config c) (fresh : Fresh config c.sink c') :
    Operated config c'

namespace Operated

theorem reached (operated : Operated config c) : Reached config c := by
  induction operated with
  | first fresh => exact .first fresh
  | run before op ih => exact ih.step (.run op)
  | failNext before reason ih => exact ih.step (.failNext reason)
  | again before fresh ih => exact .again ih fresh

/-- A policy is applied from within its namespace. -/
theorem entered (operated : Operated config c) (applied : c.applied = true) :
    Namespace.Entered c.host.namespaces config.networkNamespace := by
  induction operated with
  | first fresh | again before fresh => cases fresh.idle.symm.trans applied
  | failNext before reason ih => exact ih applied
  | @run c before op ih =>
    have kept := before.reached.kept
    by_cases inside : Namespace.Entered c.host.namespaces config.networkNamespace
    · rw [(op.run_guarded c).host]
      exact inside
    · have still : (op.run c).2 = c := (op.run_guarded c).outside (by rw [kept.own]; exact inside)
      rw [still] at applied
      exact absurd (ih applied) inside

theorem runAll {events : List Event} (operated : Operated config c)
    (settled : ∀ allowed, .namespaces allowed ∉ events) : Operated config (Event.runAll events c) := by
  induction events generalizing c with
  | nil => exact operated
  | cons event events ih =>
    have later : ∀ allowed, .namespaces allowed ∉ events :=
      fun allowed member => settled allowed (List.mem_cons_of_mem _ member)
    cases event with
    | run op => exact ih (operated.run op) later
    | failNext reason => exact ih (operated.failNext reason) later
    | namespaces allowed => exact absurd List.mem_cons_self (settled allowed)

end Operated

end Controller

theorem Layout.Of.elementsOfSpecs {config : Config} {l : Layout} (of : Layout.Of config l) (which : AddressSet)
    (specs : List String) :
    (which.set l).elementsOfSpecs specs = Spec.elements config.family.keyType true specs := by
  have addresses : (which.set l).keyType = config.family.keyType ∧ (which.set l).flags.interval = true := by
    cases of <;> cases which <;> exact ⟨rfl, rfl⟩
  rw [MatchSet.elementsOfSpecs, addresses.1, addresses.2]

theorem Spec.elements_eq_nil {keyType : KeyType} {interval : Bool} {specs : List String} {es : List Element}
    (read : Spec.elements keyType interval specs = .ok es) : es = [] ↔ specs = [] := by
  cases specs with
  | nil =>
    cases read
    simp
  | cons spec specs =>
    obtain ⟨e, rest, -, -, rfl⟩ := Spec.readAll_cons read
    simp

namespace Controller

variable {config : Config} {c c' : Controller Kernel}

/-- An update that gets as far as the kernel. -/
theorem updateSet_eq {which : AddressSet} {remove add : List String} {gone new : List Element}
    (applied : c.applied = true) (entered : Namespace.Entered c.host.namespaces c.config.networkNamespace)
    (left : Namespace.Left c.host.namespaces c.config.networkNamespace)
    (there : ∃ s, c.sink.ruleset.set? (which.set c.layout).table (which.set c.layout).name = some s)
    (checked : checkSpecs which c.config.family add = .ok ())
    (readGone : (which.set c.layout).elementsOfSpecs remove = .ok gone)
    (readNew : (which.set c.layout).elementsOfSpecs add = .ok new) :
    updateSet which remove add c = ((c.sink.change (which.set c.layout) gone new).1,
      { c with sink := (c.sink.change (which.set c.layout) gone new).2 }) := by
  have first : Action.ofExcept ((which.set c.layout).elementsOfSpecs remove) c = (.ok gone, c) := by
    rw [readGone]
    rfl
  have second : Action.ofExcept ((which.set c.layout).elementsOfSpecs add) c = (.ok new, c) := by
    rw [readNew]
    rfl
  have present : ¬ (!c.applied) = true := by simp [applied]
  unfold updateSet
  rw [if_neg present, checked]
  dsimp only
  rw [inNamespace, Namespace.run_of_left entered left, Action.bind_eq first, Action.bind_eq second]
  exact transact_change there (MatchSet.specs_checked readGone) (MatchSet.specs_checked readNew)

/-- An update that is done has got there. -/
theorem updateSet_done {which : AddressSet} {remove add : List String} (applied : c.applied = true)
    (done : updateSet which remove add c = (.ok (), c')) :
    Namespace.Entered c.host.namespaces c.config.networkNamespace ∧
      Namespace.Left c.host.namespaces c.config.networkNamespace ∧ checkSpecs which c.config.family add = .ok () ∧
      (∃ gone, (which.set c.layout).elementsOfSpecs remove = .ok gone) ∧
      ∃ new, (which.set c.layout).elementsOfSpecs add = .ok new := by
  unfold updateSet at done
  rw [applied, Bool.not_true, if_neg Bool.false_ne_true] at done
  split at done
  · cases done
  · rename_i checked
    obtain ⟨inside, entered, left⟩ := Namespace.run_ok done
    obtain ⟨gone, c₁, first, rest⟩ := Action.bind_ok inside
    obtain ⟨readGone, rfl⟩ := Action.ofExcept_ok first
    obtain ⟨new, c₂, second, -⟩ := Action.bind_ok rest
    exact ⟨entered, left, checked, ⟨gone, readGone⟩, new, (Action.ofExcept_ok second).1⟩

/-- An update of a set that is done takes away the elements that are to be removed and then adds the first of
those to be added under each bounds that are not there, in one commit or none, and changes nothing else. While
the kernel is not asked to fail and the namespace can be left, every update is done whose texts can be read and
pass the check. -/
theorem updateSet_effect (operated : Operated config c) (applied : c.applied = true) (which : AddressSet)
    (remove add : List String) :
    (∀ c', updateSet which remove add c = (.ok (), c') → ∃ old gone new,
      Spec.elements config.family.keyType true remove = .ok gone ∧
      Spec.elements config.family.keyType true add = .ok new ∧
      c.sink.elements (which.set c.layout) = .ok old ∧
      c'.sink.elements (which.set c.layout) = .ok (changedElements old gone new) ∧
      c' = { c with sink := if remove = [] ∧ add = [] then c.sink else { c.sink with
        ruleset := c.sink.ruleset.mapElements (which.set c.layout) fun es => changedElements es gone new
        commits := c.sink.commits + 1
        lastBatch := changeBatch (which.set c.layout) gone new } }) ∧
    (c.sink.failNext = none → Namespace.Left c.host.namespaces config.networkNamespace →
      (∃ gone, Spec.elements config.family.keyType true remove = .ok gone) →
      (∃ new, Spec.elements config.family.keyType true add = .ok new) →
      checkSpecs which config.family add = .ok () →
      ∃ c', updateSet which remove add c = (.ok (), c')) := by
  have kept := operated.reached.kept
  obtain ⟨s, found⟩ := operated.reached.address_found applied which
  have ordered := operated.reached.equipped.ordered
  have entered := operated.entered applied
  obtain ⟨rfl, -, layout, -⟩ := kept
  have read := layout.elementsOfSpecs which
  constructor
  · intro c' done
    obtain ⟨-, left, checked, ⟨gone, readGone⟩, new, readNew⟩ := updateSet_done applied done
    rw [updateSet_eq applied entered left ⟨s, found⟩ checked readGone readNew] at done
    obtain ⟨ok, state⟩ := Prod.mk.inj done
    have change : c.sink.change (which.set c.layout) gone new = (.ok (), c'.sink) :=
      Prod.ext ok (by rw [← state])
    rw [read] at readGone readNew
    have nothing : gone = [] ∧ new = [] ↔ remove = [] ∧ add = [] :=
      and_congr (Spec.elements_eq_nil readGone) (Spec.elements_eq_nil readNew)
    refine ⟨s.elements, gone, new, readGone, readNew, by rw [Kernel.elements, found], ?_, ?_⟩
    · rw [Kernel.change_elements ordered found change]
    · rw [if_congr nothing.symm rfl rfl, ← Kernel.change_ok ordered found change, ← state]
  · rintro sound left ⟨gone, readGone⟩ ⟨new, readNew⟩ checked
    rw [← read] at readGone readNew
    have changes : ∃ k, c.sink.change (which.set c.layout) gone new = (.ok (), k) :=
      Kernel.change_total ordered found sound
    obtain ⟨k, changed⟩ := changes
    rw [updateSet_eq applied entered left ⟨s, found⟩ checked readGone readNew, changed]
    exact ⟨_, rfl⟩

theorem takenOver_operated : Operated gateway.config takenOver := by
  have before : Operated gateway.config
      (Event.runAll [.run .apply, .failNext "busy", .run .cleanup] gateway) :=
    (Operated.first (start_fresh gateway_started)).runAll (by simp)
  exact (Operated.again before (start_fresh (gateway_startedOn _))).runAll (by simp)

/-- A source that is in both lists is trusted again, behind the others. -/
theorem updateSet_effect_takenOver :
    takenOver.applied = true ∧ Operated gateway.config takenOver ∧
      takenOver.sink.elements (AddressSet.trusted.set takenOver.layout) = .ok [.single [198, 51, 100, 7]] ∧
      ∃ c', updateSet .trusted ["198.51.100.7"] ["198.51.100.9", "198.51.100.7", "198.51.100.9"] takenOver =
          (.ok (), c') ∧
        c'.sink.elements (AddressSet.trusted.set takenOver.layout) =
          .ok [.single [198, 51, 100, 9], .single [198, 51, 100, 7]] ∧
        c'.sink.commits = takenOver.sink.commits + 1 := by
  have facts : takenOver.applied = true ∧ takenOver.sink.failNext = none ∧
      takenOver.sink.elements (AddressSet.trusted.set takenOver.layout) =
        .ok [.single [198, 51, 100, 7]] := by decide +kernel
  obtain ⟨applied, sound, held⟩ := facts
  have readGone : Spec.elements gateway.config.family.keyType true ["198.51.100.7"] =
      .ok [.single [198, 51, 100, 7]] := by decide +kernel
  have readNew : Spec.elements gateway.config.family.keyType true
      ["198.51.100.9", "198.51.100.7", "198.51.100.9"] =
        .ok [.single [198, 51, 100, 9], .single [198, 51, 100, 7], .single [198, 51, 100, 9]] := by
    decide +kernel
  have effect := updateSet_effect takenOver_operated applied .trusted ["198.51.100.7"]
    ["198.51.100.9", "198.51.100.7", "198.51.100.9"]
  obtain ⟨c', done⟩ := effect.2 sound (.inl rfl) ⟨_, readGone⟩ ⟨_, readNew⟩ (by decide +kernel)
  obtain ⟨old, gone, new, first, second, before, after, state⟩ := effect.1 c' done
  cases readGone.symm.trans first
  cases readNew.symm.trans second
  cases held.symm.trans before
  refine ⟨applied, takenOver_operated, held, c', done, after.trans (by decide), ?_⟩
  rw [state, if_neg (by simp)]

end Controller

end Firewall
