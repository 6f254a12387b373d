import Firewall.Nft.Session
import Firewall.Proofs.Elements

namespace Firewall

section Lists

variable {α ε : Type} {p : α → Bool} {missing : ε} {f f' : α → Except ε α} {as bs : List α}

/-- A change counts only where it is made. -/
theorem changeFirst_agree (agree : ∀ a, as.find? p = some a → f a = f' a) :
    changeFirst p missing f as = changeFirst p missing f' as := by
  induction as with
  | nil => rfl
  | cons a as ih =>
    rw [changeFirst, changeFirst]
    by_cases here : p a = true
    · rw [if_pos here, if_pos here, agree a (List.find?_cons_of_pos here)]
    · have later : ∀ b, as.find? p = some b → f b = f' b := by
        intro b found
        exact agree b (by rw [List.find?_cons_of_neg here, found])
      rw [if_neg here, if_neg here, ih later]

theorem changeFirst_idle (idle : ∀ a b, f a = .ok b → b = a) (h : changeFirst p missing f as = .ok bs) :
    bs = as := by
  induction as generalizing bs with
  | nil => cases h
  | cons a as ih =>
    rcases changeFirst_cons h with ⟨-, b, made, rfl⟩ | ⟨-, cs, later, rfl⟩
    · rw [idle a b made]
    · rw [ih later]

end Lists

namespace Ruleset

variable {r r' : Ruleset} {set : MatchSet} {gone gone' : List Element}

/-- The elements of a set, none if there is no such set. -/
def held (r : Ruleset) (set : MatchSet) : List Element :=
  ((r.set? set.table set.name).map (·.elements)).getD []

/-- Deletions are the same if they leave the same of the set. -/
theorem deleteElements_agree (same : removeElements (r.held set) gone = removeElements (r.held set) gone') :
    r.apply (.deleteElements set gone) = r.apply (.deleteElements set gone') := by
  have tables : changeFirst (fun i : InstalledTable => i.table = set.table) (Rejection.noTable set.table)
        (fun i => i.changeElements set.name fun current => removeElements current gone) r.tables =
      changeFirst (fun i : InstalledTable => i.table = set.table) (Rejection.noTable set.table)
        (fun i => i.changeElements set.name fun current => removeElements current gone') r.tables := by
    refine changeFirst_agree fun i hi => ?_
    unfold InstalledTable.changeElements
    rw [changeFirst_agree fun s hs => ?_]
    have there : r.held set = s.elements := by
      have found : r.set? set.table set.name = some s := by
        rw [set?, table?, hi]
        exact hs
      rw [held, found]
      rfl
    rw [← there]
    exact congrArg (fun es => Except.ok (InstalledSet.mk s.set es)) same
  rw [apply, apply, changeTable, changeTable, tables]

theorem deleteElements_none (h : r.apply (.deleteElements set []) = .ok r') : r' = r := by
  have kept : ∀ current : List Element, removeElements current [] = current :=
    fun current => removeElements_absent fun e he => absurd he List.not_mem_nil
  rw [apply, changeTable] at h
  split at h
  · rename_i tables changed
    cases h
    refine congrArg (Ruleset.mk · r.lastHandle) (changeFirst_idle (fun i j made => ?_) changed)
    unfold InstalledTable.changeElements at made
    split at made
    · rename_i sets emptied
      cases made
      have same : sets = i.sets := by
        refine changeFirst_idle (fun s s' hs => ?_) emptied
        cases hs
        exact congrArg (InstalledSet.mk s.set) (kept s.elements)
      rw [same]
    · cases made
  · cases h

end Ruleset

theorem Ruleset.changeElements_found {r r' : Ruleset} {set : MatchSet} {f : List Element → List Element}
    (h : (r.changeTable set.table fun t => t.changeElements set.name f) = .ok r') :
    ∃ s, r.set? set.table set.name = some s := by
  obtain ⟨-, i, j, found, made, -⟩ :=
    changeTable_ok (fun i j e => (InstalledTable.changeElements_ok e).1) h
  obtain ⟨-, -, -, s, there, -⟩ := InstalledTable.changeElements_ok made
  refine ⟨s, ?_⟩
  rw [set?, found]
  exact there

/-- Deletions one after the other, each of an element that is there when its turn comes. -/
def Takes (current : List Element) : List Element → Prop
  | [] => True
  | e :: es => e.bounds ∈ current.map Element.bounds ∧ Takes (removeElements current [e]) es

/-- A deletion finds the elements in its set. -/
def Declaration.Finds (r : Ruleset) : Declaration → Prop
  | .deleteElements set es => ∃ s, r.set? set.table set.name = some s ∧ Takes s.elements es
  | _ => True

/-- Every deletion of a batch finds its elements when the batch is applied declaration by declaration. -/
def Ruleset.Finds (r : Ruleset) : Batch → Prop
  | [] => True
  | d :: ds => d.Finds r ∧ ∃ r', r.apply d = .ok r' ∧ r'.Finds ds

def Declaration.matchSet? : Declaration → Option MatchSet
  | .addSet set _ => some set
  | .addElements set _ => some set
  | .deleteElements set _ => some set
  | _ => none

namespace Nft

open Element

section Known

variable {known current es : List Element} {e : Element}

theorem noteAdded_eq (known es : List Element) : noteAdded known es = addElements known es := by
  have symmetric : ∀ e : Element, (fun m : Element => m.sameKey e) = e.sameKey := by
    intro e
    funext m
    rw [Bool.eq_iff_iff, sameKey_iff, sameKey_iff, eq_comm]
  induction es generalizing known with
  | nil => rfl
  | cons e es ih => rw [noteAdded, addElements, ih, symmetric]

/-- Elements are known up to order and timeouts. -/
def Same (known current : List Element) : Prop := (known.map bounds).Perm (current.map bounds)

theorem Same.added (same : Same known current) (es : List Element) :
    Same (addElements known es) (addElements current es) := by
  induction es generalizing known current with
  | nil => exact same
  | cons e es ih =>
    rw [addElements_cons, addElements_cons]
    by_cases there : e.bounds ∈ current.map bounds
    · rw [if_pos there, if_pos (same.mem_iff.mpr there)]
      exact ih same
    · rw [if_neg there, if_neg fun known => there (same.mem_iff.mp known)]
      have longer : Same (known ++ [e]) (current ++ [e]) := by
        rw [Same, List.map_append, List.map_append]
        exact same.append_right _
      exact ih longer

theorem Same.erased (same : Same known current) (distinct : Distinct current) (e : Element) :
    Same (known.eraseP fun m => m.sameKey e) (removeElements current [e]) := by
  have erased : (known.eraseP fun m => m.sameKey e).map bounds = (known.map bounds).erase e.bounds := by
    rw [List.erase_eq_eraseP', List.eraseP_map]
    congr 2
  have removed : (removeElements current [e]).map bounds = (current.map bounds).erase e.bounds := by
    rw [removeElements_bounds, List.Nodup.erase_eq_filter distinct]
    refine List.filter_congr fun b _ => ?_
    rw [Bool.eq_iff_iff]
    simp
  rw [Same, erased, removed]
  exact List.Perm.erase _ same

/-- The deletions that are left find their elements, and remove what all of them would have removed. -/
theorem presentDeletes_same (same : Same known current) (distinct : Distinct current) (es : List Element) :
    Takes current (presentDeletes known es).1 ∧
      removeElements current (presentDeletes known es).1 = removeElements current es ∧
      Same (presentDeletes known es).2 (removeElements current es) := by
  induction es generalizing known current with
  | nil =>
    have kept : removeElements current [] = current :=
      removeElements_absent fun e he => absurd he List.not_mem_nil
    refine ⟨trivial, rfl, ?_⟩
    rw [kept]
    exact same
  | cons e es ih =>
    have found : (known.any fun m => m.sameKey e) = true ↔ e.bounds ∈ current.map bounds := by
      rw [← same.mem_iff, List.any_eq_true, List.mem_map]
      exact exists_congr fun m => and_congr_right fun _ => sameKey_iff
    rw [removeElements_cons, presentDeletes]
    by_cases there : e.bounds ∈ current.map bounds
    · obtain ⟨takes, removes, left⟩ := ih (same.erased distinct e) (removeElements_distinct distinct [e])
      rw [if_pos (found.mpr there)]
      refine ⟨⟨there, takes⟩, ?_, left⟩
      rw [removeElements_cons, removes]
    · have absent : removeElements current [e] = current := by
        refine removeElements_absent fun d hd => ?_
        rw [List.mem_singleton.mp hd]
        exact there
      rw [if_neg fun known => there (found.mp known), absent]
      exact ih same distinct

end Known

theorem Known.find?_put (k : Known) (set set' : MatchSet) (es : List Element) :
    (k.put set es).find? set' =
      if (set'.table, set'.name) = (set.table, set.name) then some es else k.find? set' := by
  unfold Known.find? put
  rw [List.find?_cons]
  by_cases here : (set'.table, set'.name) = (set.table, set.name)
  · rw [if_pos here, decide_eq_true here.symm]
    rfl
  · have other : ¬ (set.table, set.name) = (set'.table, set'.name) := fun same => here same.symm
    rw [if_neg here, decide_eq_false other, List.find?_filter]
    refine congrArg (Option.map Prod.snd) (congrArg (List.find? · k.sets) (funext fun s => ?_))
    by_cases found : s.1 = (set'.table, set'.name)
    · simp [found, here]
    · simp [found]

/-- What is known of the sets in `tracked`, at a point of a batch where the kernel holds `r`, which was `r₀`
before the batch. -/
structure Known.Tracks (tracked : Table → String → Prop) (r₀ r : Ruleset) (k : Known) : Prop where
  known : ∀ set es, tracked set.table set.name → k.find? set = some es →
    ∃ s, r.set? set.table set.name = some s ∧ Same es s.elements
  flushed : ∀ set, tracked set.table set.name → k.find? set = none → k.flushed = true →
    r.set? set.table set.name = none
  untouched : ∀ set, tracked set.table set.name → k.find? set = none → k.flushed = false →
    r.set? set.table set.name = r₀.set? set.table set.name

section Step

variable {list : MatchSet → List Element} {tracked : Table → String → Prop} {r₀ r r₁ : Ruleset} {k : Known}
  {d : Declaration} {set : MatchSet}

/-- A declaration refers to tracked sets by values that are not anonymous and listed as the kernel holds them
before the batch. -/
def Lists (list : MatchSet → List Element) (tracked : Table → String → Prop) (r₀ : Ruleset)
    (d : Declaration) : Prop :=
  ∀ set, d.matchSet? = some set → tracked set.table set.name →
    set.flags.anonymous = false ∧ Same (list set) (r₀.held set)

/-- What is known behind a declaration. -/
def Known.behind (list : MatchSet → List Element) (k : Known) : Declaration → Known
  | .flushRuleset => ⟨[], true⟩
  | .addSet set es => k.put set (noteAdded (Id.run (membersOf (m := Id) list k set)) es)
  | .addElements set es => k.put set (noteAdded (Id.run (membersOf (m := Id) list k set)) es)
  | .deleteElements set es => k.put set (presentDeletes (Id.run (membersOf (m := Id) list k set)) es).2
  | _ => k

/-- What is left of a declaration. -/
def Known.left (list : MatchSet → List Element) (k : Known) : Declaration → Batch
  | .deleteElements set es =>
    let present := (presentDeletes (Id.run (membersOf (m := Id) list k set)) es).1
    if present.isEmpty then [] else [.deleteElements set present]
  | d => [d]

theorem prune_cons (d : Declaration) (ds : Batch) :
    Id.run (prune (m := Id) list k (d :: ds)) =
      k.left list d ++ Id.run (prune (m := Id) list (k.behind list d) ds) := by
  cases d with
  | deleteElements set es =>
    have here : Id.run (prune (m := Id) list k (.deleteElements set es :: ds)) =
        if (presentDeletes (Id.run (membersOf (m := Id) list k set)) es).1.isEmpty then
          Id.run (prune (m := Id) list (k.behind list (.deleteElements set es)) ds)
        else .deleteElements set (presentDeletes (Id.run (membersOf (m := Id) list k set)) es).1 ::
          Id.run (prune (m := Id) list (k.behind list (.deleteElements set es)) ds) := rfl
    rw [here, Known.left]
    split <;> rfl
  | flushRuleset | addSet | addElements | addTable | addChain | addRule | insertRule | deleteRule => rfl

theorem membersOf_tracks (tracks : k.Tracks tracked r₀ r) (lists : Lists list tracked r₀ d)
    (names : d.matchSet? = some set) (of : tracked set.table set.name) :
    Same (Id.run (membersOf (m := Id) list k set)) (r.held set) := by
  unfold membersOf
  cases known : k.find? set with
  | some es =>
    obtain ⟨s, found, same⟩ := tracks.known set es of known
    rw [Ruleset.held, found]
    exact same
  | none =>
    obtain ⟨plain, listed⟩ := lists set names of
    cases flushed : k.flushed with
    | true =>
      rw [Ruleset.held, tracks.flushed set of known flushed]
      exact .refl _
    | false =>
      have asked : ¬ (false = true ∨ set.flags.anonymous = true) := by simp [plain]
      rw [Ruleset.held, tracks.untouched set of known flushed]
      dsimp only
      rw [if_neg asked]
      exact listed

namespace Known.Tracks

theorem unchanged (tracks : k.Tracks tracked r₀ r) (same : ∀ t name, r₁.set? t name = r.set? t name) :
    k.Tracks tracked r₀ r₁ := by
  refine ⟨?_, ?_, ?_⟩
  · intro set es of known
    rw [same]
    exact tracks.known set es of known
  · intro set of unknown flushed
    rw [same]
    exact tracks.flushed set of unknown flushed
  · intro set of unknown flushed
    rw [same]
    exact tracks.untouched set of unknown flushed

theorem put (tracks : k.Tracks tracked r₀ r) {es : List Element}
    (others : ∀ t name, (t, name) ≠ (set.table, set.name) → r₁.set? t name = r.set? t name)
    (here : tracked set.table set.name →
      ∃ s, r₁.set? set.table set.name = some s ∧ Same es s.elements) :
    (k.put set es).Tracks tracked r₀ r₁ := by
  -- A set of another name is known, or unknown, as before.
  have elsewhere : ∀ {set' : MatchSet}, (set'.table, set'.name) ≠ (set.table, set.name) →
      (k.put set es).find? set' = k.find? set' := by
    intro set' other
    rw [find?_put, if_neg other]
  have unknown : ∀ {set' : MatchSet}, (k.put set es).find? set' = none →
      (set'.table, set'.name) ≠ (set.table, set.name) := by
    intro set' none same
    rw [find?_put, if_pos same] at none
    cases none
  refine ⟨?_, ?_, ?_⟩
  · intro set' es' of known
    by_cases same : (set'.table, set'.name) = (set.table, set.name)
    · rw [find?_put, if_pos same] at known
      cases known
      obtain ⟨table, name⟩ := Prod.mk.inj same
      rw [table, name] at of ⊢
      exact here of
    · rw [elsewhere same] at known
      rw [others _ _ same]
      exact tracks.known set' es' of known
  · intro set' of none flushed
    have other := unknown none
    rw [others _ _ other]
    exact tracks.flushed set' of (elsewhere other ▸ none) flushed
  · intro set' of none flushed
    have other := unknown none
    rw [others _ _ other]
    exact tracks.untouched set' of (elsewhere other ▸ none) flushed

/-- What a declaration does to the elements of its set, it does to what is known of them. -/
theorem changed (tracks : k.Tracks tracked r₀ r) {es : List Element} {f : List Element → List Element}
    (h : (r.changeTable set.table fun t => t.changeElements set.name f) = .ok r₁)
    (same : tracked set.table set.name → Same es (f (r.held set))) : (k.put set es).Tracks tracked r₀ r₁ := by
  obtain ⟨s, found⟩ := Ruleset.changeElements_found h
  obtain ⟨sets, -, -, -⟩ := Ruleset.changeElements_step h
  have held : r.held set = s.elements := by rw [Ruleset.held, found]; rfl
  refine tracks.put (fun t name other => ?_) fun of => ?_
  · rw [sets, if_neg]
    rintro ⟨rfl, rfl⟩
    exact other rfl
  · refine ⟨{ s with elements := f s.elements }, ?_, ?_⟩
    · rw [sets, if_pos ⟨rfl, rfl⟩, found]
      rfl
    · rw [← held]
      exact same of

/-- What is known behind a declaration is what the kernel holds behind it. -/
theorem behind (tracks : k.Tracks tracked r₀ r) (lists : Lists list tracked r₀ d) (ordered : r.Ordered)
    (distinct : r.Distinct) (h : r.apply d = .ok r₁) : (k.behind list d).Tracks tracked r₀ r₁ := by
  have step := (Ruleset.apply_step ordered h).set?
  cases d with
  | flushRuleset =>
    refine ⟨fun set es of known => ?_, fun set of none flushed => step _ _, fun set of none flushed => ?_⟩
    · cases known
    · cases flushed
  | addTable | addChain | addRule | insertRule | deleteRule => exact tracks.unchanged step
  | addSet set es =>
    refine tracks.put (fun t name other => ?_) fun of => ?_
    · rw [step, Declaration.onSet, if_neg]
      rintro ⟨rfl, rfl⟩
      exact other rfl
    · refine ⟨_, (step _ _).trans (if_pos ⟨rfl, rfl⟩), ?_⟩
      have same := (membersOf_tracks tracks lists rfl of).added es
      rw [noteAdded_eq]
      unfold Ruleset.held at same
      cases found : r.set? set.table set.name with
      | none =>
        rw [found] at same
        exact same
      | some s =>
        rw [found] at same
        exact same
  | addElements set es =>
    refine tracks.changed h fun of => ?_
    rw [noteAdded_eq]
    exact (membersOf_tracks tracks lists rfl of).added es
  | deleteElements set es =>
    refine tracks.changed h fun of => ?_
    obtain ⟨s, found⟩ := Ruleset.changeElements_found h
    have once : Distinct (r.held set) := by
      rw [Ruleset.held, found]
      exact distinct _ _ s found
    exact (presentDeletes_same (membersOf_tracks tracks lists rfl of) once es).2.2

/-- A declaration is left out if it does nothing, and otherwise does what it did, and finds what it deletes. -/
theorem left (tracks : k.Tracks tracked r₀ r) (lists : Lists list tracked r₀ d) (distinct : r.Distinct)
    (deletes : ∀ set es, d = .deleteElements set es → tracked set.table set.name)
    (h : r.apply d = .ok r₁) :
    (k.left list d = [] ∧ r₁ = r) ∨ ∃ d', k.left list d = [d'] ∧ d'.Finds r ∧ r.apply d' = .ok r₁ := by
  cases d with
  | deleteElements set es =>
    have of := deletes set es rfl
    obtain ⟨s, found⟩ := Ruleset.changeElements_found h
    have held : r.held set = s.elements := by rw [Ruleset.held, found]; rfl
    have once : Distinct (r.held set) := held ▸ distinct _ _ s found
    obtain ⟨takes, removes, -⟩ := presentDeletes_same (membersOf_tracks tracks lists rfl of) once es
    have agrees := Ruleset.deleteElements_agree removes
    rw [Known.left]
    generalize (presentDeletes (Id.run (membersOf (m := Id) list k set)) es).1 = present at *
    cases present with
    | nil => exact .inl ⟨rfl, Ruleset.deleteElements_none (agrees.trans h)⟩
    | cons e es' => exact .inr ⟨_, rfl, ⟨s, found, held ▸ takes⟩, agrees.trans h⟩
  | flushRuleset | addSet | addElements | addTable | addChain | addRule | insertRule | deleteRule =>
    exact .inr ⟨_, rfl, trivial, h⟩

end Known.Tracks

/-- A pruned batch finds what it deletes, and does what the whole batch does. -/
theorem prune_tracks {ds : Batch} {r' : Ruleset} {index : Nat} (lists : ∀ d ∈ ds, Lists list tracked r₀ d)
    (deletes : ∀ set es, .deleteElements set es ∈ ds → tracked set.table set.name)
    (tracks : k.Tracks tracked r₀ r) (ordered : r.Ordered) (distinct : r.Distinct)
    (h : r.applyAll index ds = .ok r') (index' : Nat) :
    r.Finds (Id.run (prune (m := Id) list k ds)) ∧
      r.applyAll index' (Id.run (prune (m := Id) list k ds)) = .ok r' := by
  induction ds generalizing k r index index' with
  | nil =>
    cases h
    exact ⟨trivial, rfl⟩
  | cons d ds ih =>
    obtain ⟨r₁, first, rest⟩ := Ruleset.applyAll_cons h
    obtain ⟨here, later⟩ := List.forall_mem_cons.mp lists
    have own : ∀ set es, d = .deleteElements set es → tracked set.table set.name :=
      fun set es e => deletes set es (e ▸ List.mem_cons_self)
    have tail := ih later (fun set es hd => deletes set es (List.mem_cons_of_mem d hd))
      (tracks.behind here ordered distinct first) (Ruleset.apply_step ordered first).ordered
      (Ruleset.apply_distinct ordered distinct first) rest
    rw [prune_cons]
    rcases tracks.left here distinct own first with ⟨none, rfl⟩ | ⟨d', one, finds, does⟩
    · rw [none, List.nil_append]
      exact tail index'
    · rw [one, List.singleton_append]
      obtain ⟨finds', does'⟩ := tail (index' + 1)
      refine ⟨⟨finds, r₁, does, finds'⟩, ?_⟩
      rw [Ruleset.applyAll, does]
      exact does'

end Step

namespace Session

/-- What an action results in depends on the command, not on the runs before. -/
def Stable {α : Type} (a : Action Session α) : Prop :=
  ∀ s, (a s).1 = (a (start s.reply)).1 ∧ (a s).2.reply = s.reply

namespace Stable

variable {α β : Type}

theorem ofExcept (r : Except Error α) : Stable (Action.ofExcept r) := by
  intro s
  cases r with
  | ok a => exact ⟨rfl, rfl⟩
  | error e => exact ⟨rfl, rfl⟩

theorem bind {x : Action Session α} {f : α → Action Session β} (hx : Stable x) (hf : ∀ a, Stable (f a)) :
    Stable (x >>= f) := by
  intro s
  obtain ⟨same, kept⟩ := hx s
  have kept' := (hx (start s.reply)).2
  show (Action.andThen x f s).1 = (Action.andThen x f _).1 ∧ (Action.andThen x f s).2.reply = s.reply
  unfold Action.andThen
  cases first : x s with
  | mk r s₁ =>
    cases second : x (start s.reply) with
    | mk r' s₂ =>
      rw [first, second] at same
      rw [first] at kept
      rw [second] at kept'
      cases same
      have replies : s₂.reply = s₁.reply := kept'.trans kept.symm
      cases r with
      | ok a =>
        obtain ⟨result, reply⟩ := hf a s₁
        refine ⟨?_, reply.trans kept⟩
        dsimp only
        rw [result, (hf a s₂).1, replies]
      | error e => exact ⟨rfl, kept⟩

theorem run (args : List String) (stdin : Option String) : Stable (Session.run args stdin) := by
  intro s
  unfold Session.run start
  dsimp only
  split
  · exact ⟨rfl, rfl⟩
  · cases s.reply ⟨args, stdin⟩ with
    | missing => exact ⟨rfl, rfl⟩
    | exited stdout stderr code =>
      by_cases done : code = 0
      · simp [done]
      · simp [done]

theorem elements (set : MatchSet) : Stable (Session.elements set) := by
  refine .bind (.bind (.run _ _) fun stdout => ?_) fun j => .ofExcept _
  split
  · exact .ofExcept (.ok _)
  · exact .ofExcept (.error _)

end Stable

/-- The elements that a command lists for a set, none if it fails. -/
def listed (reply : Invocation → Reply) (set : MatchSet) : List Element :=
  (elements set (start reply)).1.toOption.getD []

/-- A question to the command, with the answer that its replies give. -/
def Asks {α : Type} (x : StateM Session α) (answer : (Invocation → Reply) → α) : Prop :=
  ∀ s, ∃ s', x s = (answer s.reply, s') ∧ s'.reply = s.reply

namespace Asks

variable {α β : Type}

theorem pure (a : α) : Asks (Pure.pure a) fun _ => a := fun s => ⟨s, rfl, rfl⟩

theorem bind {x : StateM Session α} {f : α → StateM Session β} {answer : (Invocation → Reply) → α}
    {next : α → (Invocation → Reply) → β} (hx : Asks x answer) (hf : ∀ a, Asks (f a) (next a)) :
    Asks (x >>= f) fun reply => next (answer reply) reply := by
  intro s
  obtain ⟨s₁, first, kept⟩ := hx s
  obtain ⟨s₂, second, kept'⟩ := hf (answer s.reply) s₁
  refine ⟨s₂, ?_, kept'.trans kept⟩
  show f (x s).1 (x s).2 = _
  rw [first, second, kept]

theorem elementsOrNone (set : MatchSet) : Asks (Session.elementsOrNone set) fun reply => listed reply set := by
  intro s
  obtain ⟨same, kept⟩ := Stable.elements set s
  have answers : listed s.reply set = (Session.elements set s).1.toOption.getD [] := by rw [listed, ← same]
  dsimp only
  rw [answers]
  unfold Session.elementsOrNone
  cases answer : Session.elements set s with
  | mk r s' =>
    rw [answer] at kept
    cases r with
    | ok es => exact ⟨s', rfl, kept⟩
    | error e => exact ⟨s', rfl, kept⟩

theorem membersOf (k : Known) (set : MatchSet) : Asks (Nft.membersOf Session.elementsOrNone k set)
    fun reply => Id.run (Nft.membersOf (m := Id) (listed reply) k set) := by
  unfold Nft.membersOf
  cases k.find? set with
  | some es => exact .pure es
  | none =>
    by_cases known : k.flushed = true ∨ set.flags.anonymous = true
    · simp only [if_pos known]
      exact .pure []
    · simp only [if_neg known]
      exact .elementsOrNone set

/-- Pruning asks for listings and goes on with the answers. -/
theorem prune (k : Known) (ds : Batch) : Asks (Nft.prune Session.elementsOrNone k ds)
    fun reply => Id.run (Nft.prune (m := Id) (listed reply) k ds) := by
  induction ds generalizing k with
  | nil => exact .pure []
  | cons d ds ih =>
    cases d with
    | flushRuleset => exact .bind (ih _) fun rest => .pure _
    | addSet set es | addElements set es =>
      exact .bind (.membersOf k set) fun members => .bind (ih _) fun rest => .pure _
    | deleteElements set es =>
      exact .bind (.membersOf k set) fun members => .bind (ih _) fun rest => .pure _
    | addTable | addChain | addRule | insertRule | deleteRule => exact .bind (ih k) fun rest => .pure _

end Asks

/-- The batch that is sent in place of a batch. -/
def pruned (batch : Batch) (s : Session) : Batch := (prune elementsOrNone .empty batch s).1

/-- The command lists a set as the kernel holds it, whose order and timeouts do not count, and fails to list a
set that is not there. -/
def Shows (s : Session) (r : Ruleset) (set : MatchSet) : Prop :=
  match r.set? set.table set.name with
  | some held => ∃ es, (elements set s).1 = .ok es ∧ Same es held.elements
  | none => ∃ e, (elements set s).1 = .error e

theorem Shows.listed {s : Session} {r : Ruleset} {set : MatchSet} (shows : s.Shows r set) :
    Same (listed s.reply set) (r.held set) := by
  unfold Shows at shows
  rw [Session.listed, ← (Stable.elements set s).1, Ruleset.held]
  cases found : r.set? set.table set.name with
  | some held =>
    rw [found] at shows
    obtain ⟨es, answer, same⟩ := shows
    rw [answer]
    exact same
  | none =>
    rw [found] at shows
    obtain ⟨e, answer⟩ := shows
    rw [answer]
    exact .refl _

end Session

/-- Elements of a set are deleted by the batch. -/
def DeletesFrom (batch : Batch) (t : Table) (name : String) : Prop :=
  ∃ set es, .deleteElements set es ∈ batch ∧ (set.table, set.name) = (t, name)

/-- The batch that is sent deletes no element that is not there, and does what the whole batch does. It has to be
one that is accepted from what the kernel holds, without the check that deletions find something; and the sets
that it deletes from have names of their own and are listed as the kernel holds them. -/
theorem Session.pruned_exact {s : Session} {r r' : Ruleset} {batch : Batch} (ordered : r.Ordered)
    (distinct : r.Distinct) (accepted : r.applyAll 0 batch = .ok r')
    (named : ∀ d ∈ batch, ∀ set, d.matchSet? = some set → DeletesFrom batch set.table set.name →
      set.flags.anonymous = false)
    (lists : ∀ d ∈ batch, ∀ set, d.matchSet? = some set → DeletesFrom batch set.table set.name →
      s.Shows r set) :
    r.Finds (s.pruned batch) ∧ r.applyAll 0 (s.pruned batch) = .ok r' := by
  obtain ⟨s', asked, -⟩ := Asks.prune .empty batch s
  have sent : s.pruned batch = Id.run (prune (m := Id) (listed s.reply) .empty batch) := by
    rw [pruned, asked]
  have start : Known.empty.Tracks (DeletesFrom batch) r r := by
    refine ⟨fun set es of known => ?_, fun set of none flushed => ?_, fun set of none flushed => rfl⟩
    · cases known
    · cases flushed
  rw [sent]
  refine prune_tracks (fun d hd set names of => ?_) (fun set es hd => ⟨set, es, hd, rfl⟩) start ordered
    distinct accepted 0
  exact ⟨named d hd set names of, (lists d hd set names of).listed⟩

def openPorts : MatchSet := .ofKeyType ⟨.ipv4, "filter"⟩ "open_ports" .inetService

def openPort (port : UInt16) : Element := .single (portBytes port)

def portKernel : Ruleset := ⟨[⟨openPorts.table, [], [⟨openPorts, [openPort 80, openPort 443]⟩]⟩], 0⟩

def portSession : Session :=
  let listing : Json := .object [("nftables", .array [.object [("set",
    .object [("elem", .array [.nat 443, .nat 80])])]])]
  .start (Script.reply [⟨"--json list set ip filter open_ports", none, listing.text, "", 0⟩])

/-- Deletions of a port that is held, twice, of a port in the batch alone, and of ports behind a flush. -/
def portBatch : Batch :=
  [.deleteElements openPorts [openPort 80, openPort 80, openPort 22],
    .addElements openPorts [openPort 22], .deleteElements openPorts [openPort 22, openPort 8080],
    .flushRuleset, .addTable openPorts.table, .addSet openPorts [openPort 25],
    .deleteElements openPorts [openPort 25, openPort 443]]

theorem Session.pruned_exact_ports :
    portSession.pruned portBatch =
        [.deleteElements openPorts [openPort 80], .addElements openPorts [openPort 22],
          .deleteElements openPorts [openPort 22], .flushRuleset, .addTable openPorts.table,
          .addSet openPorts [openPort 25], .deleteElements openPorts [openPort 25]] ∧
      portKernel.Finds (portSession.pruned portBatch) ∧
      portKernel.applyAll 0 (portSession.pruned portBatch) =
        .ok ⟨[⟨openPorts.table, [], [⟨openPorts, []⟩]⟩], 0⟩ := by
  have ordered : portKernel.Ordered := by
    refine ⟨List.pairwise_singleton _ _, fun i hi => ?_⟩
    rw [List.mem_singleton.mp hi]
    exact List.pairwise_singleton _ _
  have own : ∀ d ∈ portBatch, ∀ set, d.matchSet? = some set → set = openPorts := by
    simp [portBatch, Declaration.matchSet?]
  have there : portKernel.set? openPorts.table openPorts.name =
      some ⟨openPorts, [openPort 80, openPort 443]⟩ := by decide
  have distinct : portKernel.Distinct := by
    intro t name s found
    obtain ⟨i, table, there⟩ := Option.bind_eq_some_iff.mp found
    cases List.mem_singleton.mp (List.mem_of_find?_eq_some table)
    cases List.mem_singleton.mp (List.mem_of_find?_eq_some there)
    unfold Distinct
    decide
  have shown : portSession.Shows portKernel openPorts := by
    have listing : (elements openPorts portSession).1.toOption = some [openPort 443, openPort 80] := by
      decide +kernel
    unfold Shows
    rw [there]
    cases answer : (elements openPorts portSession).1 with
    | error e =>
      rw [answer] at listing
      cases listing
    | ok es =>
      rw [answer] at listing
      cases listing
      exact ⟨_, rfl, List.Perm.swap _ _ _⟩
  refine ⟨by decide +kernel, pruned_exact ordered distinct rfl ?_ ?_⟩
  · intro d hd set names _
    rw [own d hd set names]
    rfl
  · intro d hd set names _
    rw [own d hd set names]
    exact shown

end Nft

end Firewall
