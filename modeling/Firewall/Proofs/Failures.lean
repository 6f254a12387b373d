import Firewall.Proofs.HostDecision

namespace Firewall

/-- A kernel behind a failure: the same, or without the failure that was asked for and has occurred. -/
inductive Kernel.Spared (e : Error) (k : Kernel) : Kernel → Prop where
  | same : Spared e k k
  | used {reason : String} (asked : k.failNext = some reason) (cause : e = .commitFailed reason) :
    Spared e k { k with failNext := none }

theorem Kernel.commit_error {k k' : Kernel} {batch : Batch} {e : Error}
    (h : k.commit batch = (.error e, k')) : k.Spared e k' := by
  unfold commit at h
  split at h
  · rename_i reason asked
    cases h
    exact .used asked rfl
  · split at h
    · cases h
    · cases h
      exact .same

namespace Action

variable {σ α : Type}

theorem Keeps.fail {I : σ → Prop} (e : Error) : Keeps I (Action.fail e : Action σ α) := fun _ h => h

theorem Keeps.ite {I : σ → Prop} {p : Prop} [Decidable p] {a b : Action σ α} (ha : Keeps I a)
    (hb : Keeps I b) : Keeps I (if p then a else b) := by
  split
  · exact ha
  · exact hb

end Action

namespace Pending

variable {α β : Type} {k : Kernel}

/-- An action that never touches the kernel, also when it fails. -/
def Quiet (a : Action (Pending Kernel) α) : Prop := ∀ k, a.Keeps (·.sink = k)

/-- An action that leaves the kernel as it was if it fails. -/
def Atomic (a : Action (Pending Kernel) α) : Prop :=
  ∀ p e p', a p = (.error e, p') → p.sink.Spared e p'.sink

theorem Quiet.sink {a : Action (Pending Kernel) α} (quiet : Quiet a) (p : Pending Kernel) :
    (a p).2.sink = p.sink := quiet p.sink p rfl

theorem Quiet.pure (a : α) : Quiet (Pure.pure a) := fun _ => .pure a

theorem Quiet.ofExcept (r : Except Error α) : Quiet (Action.ofExcept r) := fun _ => .ofExcept r

theorem Quiet.bind {x : Action (Pending Kernel) α} {f : α → Action (Pending Kernel) β} (hx : Quiet x)
    (hf : ∀ a, Quiet (f a)) : Quiet (x >>= f) := fun k => (hx k).bind fun a => hf a k

theorem Quiet.ite {p : Prop} [Decidable p] {a b : Action (Pending Kernel) α} (ha : Quiet a)
    (hb : Quiet b) : Quiet (if p then a else b) := fun k => (ha k).ite (hb k)

theorem collect_quiet (f : Transaction → Transaction) : Quiet (collect f) := fun _ _ h => h

theorem freshNumber_kernel (table : Table) (tries n : Nat) (p : Pending Kernel) :
    (freshNumber table tries n p).2 = p := by
  induction tries generalizing n with
  | zero => rfl
  | succ tries ih =>
    have same := knows_kernel table (anonymousName n) p
    unfold freshNumber
    split
    · rename_i q known
      rw [known] at same
      cases same
      exact ih (n + 1)
    · rename_i q unknown
      rw [unknown] at same
      exact same

theorem takeName_quiet (table : Table) (id : Nat) : Quiet (takeName table id) := by
  intro k p h
  have same := freshNumber_kernel table (setNumberBound - id) id p
  unfold takeName
  split
  rename_i n q found
  rw [found] at same
  cases same
  exact h

theorem addSet_quiet (set : MatchSet) (elements : List Element) : Quiet (addSet set elements) := by
  have takeId : Quiet takeId := fun _ _ h => h
  have declare : ∀ (check : Except Error Unit) (f : Transaction → Transaction) (set : MatchSet),
      Quiet (do
        Action.ofExcept check
        collect f
        return set) :=
    fun check f set => (Quiet.ofExcept check).bind fun _ => (collect_quiet f).bind fun _ => .pure set
  have named : ∀ (name : String) {a : Action (Pending Kernel) MatchSet}, Quiet a →
      Quiet (if name = "" then Action.fail .setUnnamed else a) :=
    fun name a ha => Quiet.ite (fun _ => Action.Keeps.fail _) ha
  refine takeId.bind fun id => Quiet.ite ?_ ?_
  · exact (takeName_quiet set.table id).bind fun name => named name (declare _ _ _)
  · exact (Quiet.pure set.name).bind fun name => named name (declare _ _ _)

theorem requireSet_quiet (table : Table) (name : String) : Quiet (requireSet table name) := by
  have asks : Quiet (Action.ofState (knows table name)) := by
    intro k p h
    show (knows table name p).2.sink = k
    rw [knows_kernel]
    exact h
  exact asks.bind fun known => Quiet.ite (.pure ()) fun k => Action.Keeps.fail _

theorem requireSets_quiet (table : Table) (sets : List SetRef) : Quiet (requireSets table sets) := by
  induction sets with
  | nil => exact .pure ()
  | cons s ss ih => exact (requireSet_quiet table s.name).bind fun _ => ih

theorem changeElements_quiet (d : MatchSet → List Element → Declaration) (set : MatchSet)
    (elements : List Element) : Quiet (changeElements d set elements) := by
  refine Quiet.ite (.pure ()) ?_
  exact Quiet.bind (.ofExcept _) fun _ =>
    (requireSet_quiet set.table set.name).bind fun _ => collect_quiet _

theorem addRule_quiet (chain : Chain) (data : RuleData) : Quiet (addRule chain data) :=
  Quiet.bind (.ofExcept _) fun _ => (requireSets_quiet chain.table _).bind fun _ => collect_quiet _

/-- Only a batch that is handed over touches the kernel. -/
theorem flush_atomic : Atomic flush := by
  intro p e p' h
  unfold flush at h
  split at h
  · cases h
  · cases hc : Sink.commit p.transaction.batch p.sink with
    | mk r k =>
      rw [hc] at h
      cases h
      exact Kernel.commit_error hc

theorem Quiet.atomic {a : Action (Pending Kernel) α} (quiet : Quiet a) : Atomic a := by
  intro p e p' h
  have same := quiet.sink p
  rw [h] at same
  rw [same]
  exact .same

theorem Quiet.before {x : Action (Pending Kernel) α} {f : α → Action (Pending Kernel) β}
    (hx : Quiet x) (hf : ∀ a, Atomic (f a)) : Atomic (x >>= f) := by
  intro p e p' h
  rcases Action.bind_error h with first | ⟨a, p₁, first, second⟩
  · exact hx.atomic p e p' first
  · have same := hx.sink p
    rw [first] at same
    have spared := hf a p₁ e p' second
    rwa [same] at spared

theorem Atomic.result {x : Action (Pending Kernel) α} (hx : Atomic x) (b : β) :
    Atomic (x >>= fun _ => Pure.pure b) := by
  intro p e p' h
  rcases Action.bind_error h with first | ⟨a, p₁, first, second⟩
  · exact hx p e p' first
  · cases second

end Pending

namespace Layout

open Pending

theorem declareSpecs_quiet (set : MatchSet) (specs : List String) : Quiet (declareSpecs set specs) :=
  Quiet.bind (.ofExcept _) fun _ => addSet_quiet set _

theorem declareService_quiet (wanted : Bool) (set : MatchSet) (specs : List String) :
    Quiet (declareService wanted set specs) := (declareSpecs_quiet set specs).ite (.pure set)

theorem declareFilter_quiet (l : Layout) (c : Config) (trusted : List Element) :
    Quiet (l.declareFilter c trusted) :=
  (collect_quiet _).bind fun _ => (addSet_quiet _ _).bind fun _ => (declareSpecs_quiet _ _).bind fun _ =>
    (declareService_quiet _ _ _).bind fun _ => (declareService_quiet _ _ _).bind fun _ => .pure _

theorem declareAll_quiet (l : Layout) (c : Config) : Quiet (l.declareAll c) :=
  (collect_quiet _).bind fun _ => (declareFilter_quiet l c []).bind fun _ =>
    (addSet_quiet _ _).bind fun _ => (addSet_quiet _ _).bind fun _ => (addSet_quiet _ _).bind fun _ =>
      (declareSpecs_quiet _ _).bind fun _ => (collect_quiet _).bind fun _ => .pure _

theorem declareReduced_quiet (l : Layout) (c : Config) (trusted : List Element) :
    Quiet (l.declareReduced c trusted) :=
  (collect_quiet _).bind fun _ => declareFilter_quiet l c trusted

end Layout

theorem Compiler.queue_quiet (plan : List PlannedRule) : Pending.Quiet (queue plan) := by
  induction plan with
  | nil => exact .pure ()
  | cons r plan ih => exact (Pending.addRule_quiet r.chain r.data).bind fun _ => ih

namespace Controller

variable {α β : Type}

/-- The controller without a failure of the kernel that was asked for. -/
def cleared (c : Controller Kernel) : Controller Kernel := { c with sink := { c.sink with failNext := none } }

/-- An action that changes nothing if it fails, but for a failure that was asked for. -/
def Atomic (a : Action (Controller Kernel) α) : Prop :=
  ∀ c e c', a c = (.error e, c') → ∃ k, c.sink.Spared e k ∧ c' = { c with sink := k }

/-- An action that changes nothing at all. -/
def Still (a : Action (Controller Kernel) α) : Prop := ∀ c, (a c).2 = c

theorem Still.atomic {a : Action (Controller Kernel) α} (still : Still a) : Atomic a := by
  intro c e c' h
  have same := still c
  rw [h] at same
  exact ⟨c.sink, .same, same⟩

theorem Still.before {x : Action (Controller Kernel) α} {f : α → Action (Controller Kernel) β}
    (hx : Still x) (hf : ∀ a, Atomic (f a)) : Atomic (x >>= f) := by
  intro c e c' h
  rcases Action.bind_error h with first | ⟨a, c₁, first, second⟩
  · exact hx.atomic c e c' first
  · have same := hx c
    rw [first] at same
    cases same
    exact hf a c₁ e c' second

theorem Atomic.finish {x : Action (Controller Kernel) α} {f : α → Action (Controller Kernel) β}
    (hx : Atomic x) (sure : ∀ a c, ∃ b, (f a c).1 = .ok b) : Atomic (x >>= f) := by
  intro c e c' h
  rcases Action.bind_error h with first | ⟨a, c₁, first, second⟩
  · exact hx c e c' first
  · obtain ⟨b, ok⟩ := sure a c₁
    rw [second] at ok
    cases ok

theorem transact_atomic {a : Action (Pending Kernel) α} (ha : Pending.Atomic a) :
    Atomic (transact a) := by
  intro c e c' h
  unfold transact Action.on at h
  cases hr : a (Pending.begin c.sink) with
  | mk r p =>
    rw [hr] at h
    cases h
    exact ⟨p.sink, ha (Pending.begin c.sink) e p hr, rfl⟩

/-- A layout is declared and its rules are collected before anything reaches the kernel. -/
theorem install_atomic {declare : Action (Pending Kernel) Layout}
    {plan : Layout → Except Error (List PlannedRule)} (quiet : Pending.Quiet declare) :
    Pending.Atomic (install declare plan) :=
  quiet.before fun layout => (Pending.Quiet.ofExcept (plan layout)).before fun rules =>
    (Compiler.queue_quiet rules).before fun _ => Pending.flush_atomic.result layout

theorem elementsOrNone_still (set : MatchSet) : Still (elementsOrNone set : Action (Controller Kernel) _) := by
  intro c
  unfold elementsOrNone onSink Action.on
  dsimp only [Sink.elements]
  cases c.sink.elements set with
  | ok es => rfl
  | error e => rfl

/-- An action that neither looks at the host nor changes it. -/
def Blind (a : Action (Controller Kernel) α) : Prop :=
  ∀ c host, a { c with host } = ((a c).1, { (a c).2 with host })

namespace Blind

theorem pure (a : α) : Blind (Pure.pure a) := fun _ _ => rfl

theorem ofExcept (r : Except Error α) : Blind (Action.ofExcept r) := by
  cases r with
  | ok a => exact .pure a
  | error e => exact fun _ _ => rfl

theorem bind {x : Action (Controller Kernel) α} {f : α → Action (Controller Kernel) β} (hx : Blind x)
    (hf : ∀ a, Blind (f a)) : Blind (x >>= f) := by
  intro c host
  show Action.andThen x f _ = ((Action.andThen x f c).1, { (Action.andThen x f c).2 with host })
  unfold Action.andThen
  rw [hx c host]
  cases x c with
  | mk r c₁ =>
    cases r with
    | ok a => exact hf a c₁ host
    | error e => rfl

theorem transact (a : Action (Pending Kernel) α) : Blind (transact a) := fun _ _ => rfl

theorem onSink (a : Action Kernel α) : Blind (onSink a) := fun _ _ => rfl

theorem elementsOrNone (set : MatchSet) : Blind (elementsOrNone set) := by
  intro c host
  unfold Controller.elementsOrNone Controller.onSink Action.on
  dsimp only [Sink.elements]
  cases c.sink.elements set <;> rfl

theorem settle (layout : Layout) (applied : Bool) : Blind (Action.change fun c => { c with layout, applied }) :=
  fun _ _ => rfl

end Blind

/-- A call is settled at once, or it runs an action in the namespace. -/
inductive Guarded (x : Action (Controller Kernel) α) (c : Controller Kernel) : Prop where
  | settled (r : Except Error α) (is : ∀ host, x { c with host } = (r, { c with host }))
  | inside (a : Action (Controller Kernel) α) (blind : Blind a) (atomic : Atomic a)
    (is : ∀ host, x { c with host } = inNamespace a { c with host })

namespace Guarded

variable {x : Action (Controller Kernel) α} {c c' : Controller Kernel} {e : Error}

theorem map (guarded : Guarded x c) (f : α → β) : Guarded (x >>= fun b => pure (f b)) c := by
  cases guarded with
  | settled r is =>
    refine .settled (r.map f) fun host => ?_
    show Action.andThen x _ _ = _
    unfold Action.andThen
    rw [is]
    cases r <;> rfl
  | inside a blind atomic is =>
    refine .inside (a >>= fun b => pure (f b)) (blind.bind fun b => .pure (f b))
      (atomic.finish fun b _ => ⟨f b, rfl⟩) fun host => ?_
    show Action.andThen x _ _ = _
    unfold Action.andThen
    rw [is, inNamespace, inNamespace, ← Namespace.run_map]
    rfl

variable (guarded : Guarded x c)
include guarded

/-- A call that fails changes nothing, or is done and cannot leave its namespace: then it succeeds, and does the
same, wherever it can. -/
theorem error (failed : x c = (.error e, c')) :
    (∃ k, c.sink.Spared e k ∧ c' = { c with sink := k }) ∨
      e = .namespaceHeld ∧ Namespace.Entered c.host.namespaces c.config.networkNamespace ∧
        ¬Namespace.Left c.host.namespaces c.config.networkNamespace ∧
        ∃ answer, ∀ host : Discovery.Host, Namespace.Entered host.namespaces c.config.networkNamespace →
          Namespace.Left host.namespaces c.config.networkNamespace →
            x { c with host } = (.ok answer, { c' with host }) := by
  cases guarded with
  | settled r is =>
    cases (is c.host).symm.trans failed
    exact .inl ⟨c.sink, .same, rfl⟩
  | inside a blind atomic is =>
    rcases Namespace.run_error ((is c.host).symm.trans failed) with rfl | inside | ⟨held, entered, left, answer, done⟩
    · exact .inl ⟨c.sink, .same, rfl⟩
    · exact .inl (atomic c e c' inside)
    · refine .inr ⟨held, entered, left, answer, fun host entered left => ?_⟩
      rw [is, inNamespace, Namespace.run_of_left entered left, blind, done]

theorem outside (out : ¬Namespace.Entered c.host.namespaces c.config.networkNamespace) : (x c).2 = c := by
  cases guarded with
  | settled r is => exact congrArg Prod.snd (is c.host)
  | inside a blind atomic is =>
    obtain ⟨e, refused⟩ := Namespace.run_of_not_entered out a
    exact (congrArg Prod.snd (is c.host)).trans (congrArg Prod.snd (congrFun refused c))

theorem host : (x c).2.host = c.host := by
  cases guarded with
  | settled r is => exact congrArg (fun y => y.2.host) (is c.host)
  | inside a blind atomic is =>
    have kept : (a c).2.host = c.host := congrArg (fun y => y.2.host) (blind c c.host)
    have ran : (x c).2 = (inNamespace a c).2 := congrArg Prod.snd (is c.host)
    rw [ran]
    rcases Namespace.run_state c.host.namespaces c.config.networkNamespace a c with same | inside
    · exact congrArg Controller.host same
    · exact (congrArg Controller.host inside).trans kept

end Guarded

theorem apply_guarded (c : Controller Kernel) : Guarded apply c := by
  cases enabled : c.config.enabled with
  | false =>
    refine .settled (.ok ()) fun host => ?_
    unfold apply
    rw [enabled]
    rfl
  | true =>
    refine .inside (do
        let layout ← transact (install (c.template.declareAll c.config) fun l => (c.compiler l).baseline)
        .change fun c => { c with layout, applied := true })
      ((Blind.transact _).bind fun layout => .settle layout true)
      ((transact_atomic (install_atomic (Layout.declareAll_quiet _ _))).finish fun _ _ => ⟨(), rfl⟩)
      fun host => ?_
    unfold apply
    rw [enabled]
    rfl

theorem cleanup_guarded (c : Controller Kernel) : Guarded cleanup c := by
  cases enabled : c.config.enabled with
  | false =>
    refine .settled (.ok ()) fun host => ?_
    unfold cleanup
    rw [enabled]
    rfl
  | true =>
    refine .inside (do
        let trusted ← elementsOrNone c.layout.trusted
        let layout ← transact (install (c.template.declareReduced c.config trusted) fun l => (c.compiler l).cleanup)
        .change fun c => { c with layout, applied := false })
      ((Blind.elementsOrNone _).bind fun trusted => (Blind.transact _).bind fun layout => .settle layout false)
      ((elementsOrNone_still _).before fun trusted =>
        (transact_atomic (install_atomic (Layout.declareReduced_quiet _ _ trusted))).finish fun _ _ => ⟨(), rfl⟩)
      fun host => ?_
    unfold cleanup
    rw [enabled]
    rfl

theorem ofExcept_still (r : Except Error α) : Still (Action.ofExcept r) := by
  intro c
  cases r with
  | ok a => rfl
  | error e => rfl

/-- A change that is refused for one of its texts does not get as far as a transaction. -/
theorem updateSet_guarded (which : AddressSet) (remove add : List String) (c : Controller Kernel) :
    Guarded (updateSet which remove add) c := by
  cases applied : c.applied with
  | false =>
    refine .settled (.ok ()) fun host => ?_
    unfold updateSet
    rw [applied]
    rfl
  | true =>
    cases checked : checkSpecs which c.config.family add with
    | error e =>
      refine .settled (.error e) fun host => ?_
      unfold updateSet
      rw [applied, checked]
      rfl
    | ok _ =>
      have changes : ∀ gone new, Pending.Atomic (Pending.deleteElements (which.set c.layout) gone >>= fun _ =>
          Pending.addElements (which.set c.layout) new >>= fun _ => Pending.flush) := fun gone new =>
        (Pending.changeElements_quiet _ _ gone).before fun _ =>
          (Pending.changeElements_quiet _ _ new).before fun _ => Pending.flush_atomic
      refine .inside (do
          let gone ← .ofExcept ((which.set c.layout).elementsOfSpecs remove)
          let new ← .ofExcept ((which.set c.layout).elementsOfSpecs add)
          transact do
            Pending.deleteElements (which.set c.layout) gone
            Pending.addElements (which.set c.layout) new
            Pending.flush)
        ((Blind.ofExcept _).bind fun gone => (Blind.ofExcept _).bind fun new => .transact _)
        ((ofExcept_still _).before fun gone => (ofExcept_still _).before fun new =>
          transact_atomic (changes gone new))
        fun host => ?_
      unfold updateSet
      rw [applied, checked]
      rfl

theorem ban_guarded (specs : List String) (timeout : Option Duration) (c : Controller Kernel) :
    Guarded (ban specs timeout) c := by
  cases applied : c.applied with
  | false =>
    refine .settled (.ok ()) fun host => ?_
    unfold ban
    rw [applied]
    rfl
  | true =>
    cases checked : checkSpecs .blacklist c.config.family specs with
    | error e =>
      refine .settled (.error e) fun host => ?_
      unfold ban
      rw [applied, checked]
      rfl
    | ok _ =>
      let add (expiring : List Element → List Element) : Action (Controller Kernel) Unit := do
        let elements ← .ofExcept (c.layout.blacklist.elementsOfSpecs specs)
        transact do
          Pending.addElements c.layout.blacklist (expiring elements)
          Pending.flush
      have adds : ∀ expiring, Blind (add expiring) ∧ Atomic (add expiring) := by
        intro expiring
        have changes : ∀ elements, Pending.Atomic (Pending.addElements c.layout.blacklist elements >>= fun _ =>
            Pending.flush) := fun elements =>
          (Pending.changeElements_quiet _ _ elements).before fun _ => Pending.flush_atomic
        exact ⟨(Blind.ofExcept _).bind fun elements => .transact _,
          (ofExcept_still _).before fun elements => transact_atomic (changes (expiring elements))⟩
      cases timeout with
      | none =>
        refine .inside (add id) (adds id).1 (adds id).2 fun host => ?_
        unfold ban
        rw [applied, checked]
        rfl
      | some d =>
        let expiring : List Element → List Element := List.map fun e => e.withTimeout d
        refine .inside (add expiring) (adds expiring).1 (adds expiring).2 fun host => ?_
        unfold ban
        rw [applied, checked]
        rfl

theorem hasSet_still (table : Table) (name : String) :
    Still (onSink (.ofState (Sink.hasSet table name)) : Action (Controller Kernel) Bool) := fun _ => rfl

theorem attach_guarded (c : Controller Kernel) : Guarded attach c := by
  cases applied : c.applied with
  | true =>
    refine .settled (.ok true) fun host => ?_
    unfold attach
    rw [applied]
    rfl
  | false =>
    let adopt (present : Bool) : Action (Controller Kernel) Bool := do
      if present then
        Action.change fun c => { c with layout := c.template, applied := true }
      return present
    have adopts : ∀ present, Blind (adopt present) ∧ Atomic (adopt present) := by
      intro present
      cases present with
      | true => exact ⟨fun _ _ => rfl, fun c e c' h => by cases h⟩
      | false => exact ⟨fun _ _ => rfl, fun c e c' h => by cases h⟩
    let find (trusted : Bool) : Action (Controller Kernel) Bool := do
      let present ←
        if trusted then onSink (.ofState (Sink.hasSet c.template.filter Layout.managerName))
        else pure false
      adopt present
    have finds : ∀ trusted, Blind (find trusted) ∧ Atomic (find trusted) := by
      intro trusted
      cases trusted with
      | true =>
        exact ⟨(Blind.onSink _).bind fun present => (adopts present).1,
          (hasSet_still _ _).before fun present => (adopts present).2⟩
      | false => exact adopts false
    refine .inside (onSink (.ofState (Sink.hasSet c.template.filter Layout.trustedName)) >>= find)
      ((Blind.onSink _).bind fun trusted => (finds trusted).1)
      ((hasSet_still _ _).before fun trusted => (finds trusted).2)
      fun host => ?_
    unfold attach
    rw [applied]
    rfl

end Controller

inductive Operation where
  | apply
  | cleanup
  | update (which : AddressSet) (remove add : List String)
  | ban (specs : List String) (timeout : Option Duration)
  | unban (specs : List String)
  | attach
  deriving DecidableEq, Repr

namespace Operation

/-- Runs an operation; only `attach` has something to tell. -/
def run : Operation → Action (Controller Kernel) (Option Bool)
  | .apply => do
    Controller.apply
    return none
  | .cleanup => do
    Controller.cleanup
    return none
  | .update which remove add => do
    Controller.updateSet which remove add
    return none
  | .ban specs timeout => do
    Controller.ban specs timeout
    return none
  | .unban specs => do
    Controller.unban specs
    return none
  | .attach => do
    let present ← Controller.attach
    return some present

theorem run_guarded (op : Operation) (c : Controller Kernel) : Controller.Guarded op.run c := by
  cases op with
  | apply => exact (Controller.apply_guarded c).map fun _ => none
  | cleanup => exact (Controller.cleanup_guarded c).map fun _ => none
  | update which remove add => exact (Controller.updateSet_guarded which remove add c).map fun _ => none
  | ban specs timeout => exact (Controller.ban_guarded specs timeout c).map fun _ => none
  | unban specs => exact (Controller.updateSet_guarded .blacklist specs [] c).map fun _ => none
  | attach => exact (Controller.attach_guarded c).map some

/-- An operation that fails for any reason but one leaves the controller with everything that it has installed as
it was, only a failure of the kernel that was asked for is used up. So the same call, or another, has the result
that it would have had at first, on any host. The exception is the namespace that cannot be left: this is found
when the operation is done, and nothing is taken back. What it has changed is what the same call changes where it
succeeds. -/
theorem failed_unchanged_or_held {op : Operation} {c c' : Controller Kernel} {e : Error}
    (failed : op.run c = (.error e, c')) :
    ((c' = c ∨ ∃ reason, c.sink.failNext = some reason ∧ e = .commitFailed reason ∧ c' = c.cleared) ∧
      ∀ (host : Discovery.Host) (again : Operation),
        again.run { c'.cleared with host } = again.run { c.cleared with host }) ∨
    e = .namespaceHeld ∧ Namespace.Entered c.host.namespaces c.config.networkNamespace ∧
      ¬Namespace.Left c.host.namespaces c.config.networkNamespace ∧
      ∃ answer, ∀ host : Discovery.Host, Namespace.Entered host.namespaces c.config.networkNamespace →
        Namespace.Left host.namespaces c.config.networkNamespace →
          op.run { c with host } = (.ok answer, { c' with host }) := by
  rcases (op.run_guarded c).error failed with ⟨k, spared, rfl⟩ | done
  · -- In either case the two controllers are the same once the failure is cleared.
    cases spared with
    | same => exact .inl ⟨.inl rfl, fun _ _ => rfl⟩
    | used asked cause => exact .inl ⟨.inr ⟨_, asked, cause, rfl⟩, fun _ _ => rfl⟩
  · exact .inr done

/-- A gateway with its policy whose kernel refuses the next batch. -/
def refusing : Controller Kernel :=
  let c := (Controller.apply Controller.gateway).2
  { c with sink := c.sink.failing "busy" }

/-- The gateway in a namespace of its own that cannot be left again. -/
def confined : Controller Kernel :=
  { Controller.gateway with
    config := { Controller.gateway.config with networkNamespace := "blue" }
    host := { Controller.gateway.host with namespaces := { Namespaces.named ["blue"] with releases := false } } }

theorem failed_refusing_confined :
    (∃ c', (update .trusted [] ["198.51.100.7"]).run refusing = (.error (.commitFailed "busy"), c') ∧
      (c' = refusing ∨ ∃ reason, refusing.sink.failNext = some reason ∧
        Error.commitFailed "busy" = .commitFailed reason ∧ c' = refusing.cleared) ∧
      ∀ (host : Discovery.Host) (again : Operation),
        again.run { c'.cleared with host } = again.run { refusing.cleared with host }) ∧
    ∃ c', apply.run confined = (.error .namespaceHeld, c') ∧ c'.applied = true ∧
      ¬Namespace.Left confined.host.namespaces "blue" ∧
      ∃ answer, apply.run { confined with host := { confined.host with namespaces := .named ["blue"] } } =
        (.ok answer, { c' with host := { confined.host with namespaces := .named ["blue"] } }) := by
  have refused : ((update .trusted [] ["198.51.100.7"]).run refusing).1 =
      .error (.commitFailed "busy") := by decide +kernel
  have held : (apply.run confined).1 = .error .namespaceHeld ∧ (apply.run confined).2.applied = true := by
    decide +kernel
  constructor
  · cases h : (update .trusted [] ["198.51.100.7"]).run refusing with
    | mk r c' =>
      rw [h] at refused
      cases refused
      rcases failed_unchanged_or_held h with unchanged | ⟨cause, -⟩
      · exact ⟨c', rfl, unchanged⟩
      · cases cause
  · cases h : apply.run confined with
    | mk r c' =>
      rw [h] at held
      obtain ⟨told, applied⟩ := held
      cases told
      rcases failed_unchanged_or_held h with ⟨rfl | ⟨reason, -, cause, -⟩, -⟩ | ⟨-, -, left, answer, done⟩
      · cases applied
      · cases cause
      · exact ⟨c', rfl, applied, left, answer, done _ (.inr (by decide +kernel)) (.inr rfl)⟩

end Operation

end Firewall
