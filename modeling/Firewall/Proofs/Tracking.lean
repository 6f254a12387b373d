import Firewall.Proofs.Requests

namespace Firewall

namespace Pending

variable {p p' : Pending Kernel} {d : Declaration}

theorem knows_record (t : Transaction) (d : Declaration) (k : Kernel) (table : Table) (name : String) :
    (knows table name ⟨t.record d, k⟩).1 = d.leaves (knows table name ⟨t, k⟩).1 table name := by
  rw [knows_eq, knows_eq]
  cases d with
  | flushRuleset => rfl
  | addSet set elements => simp [Transaction.record, Transaction.push, Declaration.leaves, Bool.or_assoc]
  | _ => rfl

/-- The transaction knows the sets that will be there when its batch has been applied, and its batch is not
refused for a set. -/
structure Tracks (p : Pending Kernel) : Prop where
  ordered : p.sink.ruleset.Ordered
  exact : ∀ r, p.sink.ruleset.applyAll 0 p.transaction.batch = .ok r →
    ∀ table name, (knows table name p).1 = (r.set? table name).isSome
  safe : ∀ index name, p.sink.ruleset.applyAll 0 p.transaction.batch ≠ .error (index, .noSet name)

/-- A transaction that has collected nothing asks the kernel. -/
theorem tracks_nothing {k : Kernel} (ordered : k.ruleset.Ordered) (n : Nat) :
    Tracks ⟨{ Transaction.empty with nextSetId := n }, k⟩ where
  ordered := ordered
  exact r h table name := by
    cases h
    exact knows_eq table name _
  safe := fun _ _ => nofun

theorem Tracks.numbered (tracks : p.Tracks) (n : Nat) : Tracks ⟨p.transaction.numbered n, p.sink⟩ where
  ordered := tracks.ordered
  exact r h table name := by
    rw [← tracks.exact r h, knows_eq, knows_eq]
    rfl
  safe := tracks.safe

/-- The sets that a declaration misses are those that the transaction does not know. -/
theorem Tracks.missing? (tracks : p.Tracks) {r : Ruleset}
    (h : p.sink.ruleset.applyAll 0 p.transaction.batch = .ok r) (keys : List (Table × String)) :
    r.missing? keys = keys.find? fun key => !(p.knows key.1 key.2).1 := by
  rw [Ruleset.missing?]
  congr 1
  funext key
  rw [tracks.exact r h, Option.not_isSome]

/-- A declaration whose sets are known keeps the transaction exact. -/
theorem Tracks.record (tracks : p.Tracks) (known : ∀ key ∈ d.needs, (p.knows key.1 key.2).1 = true) :
    Tracks ⟨p.transaction.record d, p.sink⟩ where
  ordered := tracks.ordered
  exact := by
    intro r' h table name
    rw [Transaction.record_batch, Ruleset.applyAll_append] at h
    cases applied : p.sink.ruleset.applyAll 0 p.transaction.batch with
    | error fault =>
      rw [applied] at h
      cases h
    | ok r =>
      rw [applied] at h
      obtain ⟨r₁, first, last⟩ := Ruleset.applyAll_cons h
      cases last
      have step := Ruleset.apply_step (Ruleset.applyAll_ordered tracks.ordered applied) first
      rw [knows_record, tracks.exact r applied, step.set?, Declaration.onSet_leaves]
  safe := by
    intro index name h
    rw [Transaction.record_batch, Ruleset.applyAll_append] at h
    cases applied : p.sink.ruleset.applyAll 0 p.transaction.batch with
    | error fault =>
      rw [applied] at h
      cases h
      exact tracks.safe index name applied
    | ok r =>
      rw [applied] at h
      dsimp only at h
      unfold Ruleset.applyAll at h
      split at h
      · cases h
      · rename_i cause refused
        cases h
        refine Ruleset.apply_noSet refused ?_
        rw [tracks.missing? applied, List.find?_eq_none]
        intro key hk
        simp [known key hk]

theorem Tracks.effect {α : Type} {asks : Declaration → Prop} {result : Except Error α} (tracks : p.Tracks)
    (effect : Effect asks p (result, p')) : p'.Tracks := by
  cases effect with
  | nothing result n => exact tracks.numbered n
  | unknown => exact tracks
  | collected asked a n known => 
    have numbered := tracks.numbered n
    exact numbered.record fun key hk => by
      rw [knows_eq, ← known key hk, knows_eq]
      rfl

theorem Tracks.flush (tracks : p.Tracks) : Tracks (Pending.flush p).2 := by
  unfold Pending.flush
  split
  · exact tracks
  · refine tracks_nothing ?_ _
    rcases Kernel.commit_ruleset p.sink p.transaction.batch with same | applied
    · exact same ▸ tracks.ordered
    · exact Ruleset.applyAll_ordered tracks.ordered applied

end Pending

namespace TransactionRequest

open Pending

variable {p : Pending Kernel}

theorem run_tracks (tracks : p.Tracks) (req : TransactionRequest) : (req.run p).2.Tracks := by
  by_cases handsOver : req = flush
  · subst handsOver
    rw [run_flush]
    exact tracks.flush
  · exact tracks.effect (run_effect handsOver)

theorem runAll_tracks (tracks : p.Tracks) (requests : List TransactionRequest) :
    (runAll requests p).Tracks := by
  induction requests generalizing p with
  | nil => exact tracks
  | cons req reqs ih => exact ih (run_tracks tracks req)

/-- A flush fails for what the kernel is asked to fail for, or for a declaration that is refused. -/
theorem run_flush_error {e : Error} (h : (flush.run p).1 = .error e) :
    (∃ reason, e = .commitFailed reason) ∨ ∃ index cause, e = .declarationRejected index cause ∧
      p.sink.ruleset.applyAll 0 p.transaction.batch = .error (index, cause) := by
  rw [run_flush, map_error] at h
  unfold Pending.flush at h
  split at h
  · cases h
  · have failed : (p.sink.commit p.transaction.batch).1 = .error e := h
    unfold Kernel.commit at failed
    split at failed
    · cases failed
      exact .inl ⟨_, rfl⟩
    · split at failed
      · cases failed
      · rename_i index cause refused
        cases failed
        exact .inr ⟨index, cause, rfl, refused⟩

/-- A request is refused for the first set of its declaration that is not known. -/
theorem run_unknown {req : TransactionRequest} {name : String} {table : Table} {p' : Pending Kernel}
    (h : req.run p = (.error (.setUnknown name table), p')) :
    ∃ d, req.Asks d ∧ d.needs.find? (fun key => !(p.knows key.1 key.2).1) = some (table, name) := by
  have collects : req ≠ flush := by
    rintro rfl
    rcases run_flush_error (congrArg Prod.fst h) with ⟨_, other⟩ | ⟨_, _, other, _⟩ <;> cases other
  have effect := run_effect (p := p) collects
  rw [h] at effect
  cases effect with
  | nothing result n known => exact absurd rfl (known name table)
  | unknown asked first => exact ⟨_, asked, first⟩

end TransactionRequest

namespace Pending

variable {p : Pending Kernel} {d : Declaration} {key : Table × String}

/-- Behind the pending declarations, one with a set that is not known is refused. -/
theorem Tracks.refuses (tracks : p.Tracks)
    (first : d.needs.find? (fun key => !(p.knows key.1 key.2).1) = some key) {r : Ruleset}
    (applied : p.sink.ruleset.applyAll 0 p.transaction.batch = .ok r) :
    r.apply d = .error (.noSet key.2) ∨ r.apply d = .error (.noTable key.1) :=
  Ruleset.apply_missing ((tracks.missing? applied _).trans first)

theorem Tracks.commit_fails (tracks : p.Tracks)
    (first : d.needs.find? (fun key => !(p.knows key.1 key.2).1) = some key) :
    ∃ e, (p.sink.commit (p.transaction.batch ++ [d])).1 = .error e := by
  unfold Kernel.commit
  cases p.sink.failNext with
  | some reason => exact ⟨_, rfl⟩
  | none =>
    dsimp only
    rw [Ruleset.applyAll_append]
    cases applied : p.sink.ruleset.applyAll 0 p.transaction.batch with
    | error fault => exact ⟨_, rfl⟩
    | ok r =>
      dsimp only
      unfold Ruleset.applyAll
      rcases tracks.refuses first applied with refused | refused
      · rw [refused]
        exact ⟨_, rfl⟩
      · rw [refused]
        exact ⟨_, rfl⟩

end Pending

namespace TransactionRequest

open Pending

variable {p : Pending Kernel}

/-- What a transaction over a kernel tells about sets is exact, whatever it was asked before and whether that
was refused or not. It knows the sets that the kernel will have when the pending declarations have been
applied; so no flush fails for a set that is not there, and what is refused for a set that is not known would
have made the commit fail behind the pending declarations. Such a refusal, or any other, changes nothing but
the number of the next set. -/
theorem tracking_exact {k : Kernel} (ordered : k.ruleset.Ordered) {requests : List TransactionRequest}
    (reached : runAll requests (.begin k) = p) :
    (∀ r, p.sink.ruleset.applyAll 0 p.transaction.batch = .ok r →
      ∀ table name, (knows table name p).1 = (r.set? table name).isSome) ∧
    (∀ index name, (flush.run p).1 ≠ .error (.declarationRejected index (.noSet name))) ∧
    (∀ (req : TransactionRequest) name table p', req.run p = (.error (.setUnknown name table), p') →
      ∃ d, req.Asks d ∧ (∃ e, (p.sink.commit (p.transaction.batch ++ [d])).1 = .error e) ∧
        ∀ r, p.sink.ruleset.applyAll 0 p.transaction.batch = .ok r →
          r.apply d = .error (.noSet name) ∨ r.apply d = .error (.noTable table)) ∧
    ∀ (req : TransactionRequest) e p', req ≠ flush → req.run p = (.error e, p') →
      ∃ n, p' = ⟨{ p.transaction with nextSetId := n }, p.sink⟩ := by
  have tracks : p.Tracks := reached ▸ runAll_tracks (tracks_nothing ordered 1) requests
  refine ⟨tracks.exact, ?_, ?_, ?_⟩
  · intro index name h
    rcases run_flush_error h with ⟨reason, other⟩ | ⟨index, cause, same, refused⟩
    · cases other
    · cases same
      exact tracks.safe index name refused
  · intro req name table p' h
    obtain ⟨d, asked, first⟩ := run_unknown h
    exact ⟨d, asked, tracks.commit_fails first, fun r applied => tracks.refuses first applied⟩
  · intro req e p' collects h
    have effect := run_effect (p := p) collects
    rw [h] at effect
    cases effect with
    | nothing result n known => exact ⟨n, rfl⟩
    | unknown asked first => exact ⟨p.transaction.nextSetId, rfl⟩

/-- A transaction with a refused batch behind it that has flushed the ruleset. -/
def forgotten : Pending Kernel :=
  runAll [.deleteRule (.filter ⟨.ipv4, "filter"⟩ .input .drop) 9, .flush, .flushRuleset,
    .addTable ⟨.ipv4, "filter"⟩] (.begin Kernel.installed)

def openPort : TransactionRequest :=
  .addElements (.ofKeyType ⟨.ipv4, "filter"⟩ "open_ports" .inetService) [.single (portBytes 443)]

theorem tracking_exact_forgotten :
    Kernel.installed.ruleset.Ordered ∧
    (Kernel.installed.ruleset.set? ⟨.ipv4, "filter"⟩ "open_ports").isSome ∧
    openPort.run forgotten = (.error (.setUnknown "open_ports" ⟨.ipv4, "filter"⟩), forgotten) ∧
    (∃ d, openPort.Asks d ∧ ∃ e, (forgotten.sink.commit (forgotten.transaction.batch ++ [d])).1 = .error e) ∧
    (flush.run forgotten).1 ≠ .error (.declarationRejected 0 (.noSet "open_ports")) ∧
    ∃ n, forgotten = ⟨{ forgotten.transaction with nextSetId := n }, forgotten.sink⟩ := by
  have ordered : Kernel.installed.ruleset.Ordered := (Kernel.Leads.commit .refl _).consistent.1
  have refused : openPort.run forgotten =
      (.error (.setUnknown "open_ports" ⟨.ipv4, "filter"⟩), forgotten) := rfl
  obtain ⟨-, accepts, fails, unchanged⟩ := tracking_exact ordered (p := forgotten) rfl
  obtain ⟨d, asked, commit, -⟩ := fails openPort _ _ _ refused
  exact ⟨ordered, by decide, refused, ⟨d, asked, commit⟩, accepts 0 "open_ports",
    unchanged openPort _ _ (by decide) refused⟩

end TransactionRequest

end Firewall
