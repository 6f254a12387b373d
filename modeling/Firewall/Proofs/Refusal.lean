import Firewall.Proofs.Outline

namespace Firewall

section First

variable {α β ε : Type} {p : α → Bool} {missing : ε} {f : α → Except ε α} {as : List α} {e : ε}

theorem map_error {x : Except ε α} {g : α → β} : x.map g = .error e ↔ x = .error e := by
  cases x with
  | ok a => exact ⟨nofun, nofun⟩
  | error e => exact ⟨fun h => congrArg _ (Except.error.inj h), fun h => congrArg _ (Except.error.inj h)⟩

/-- A change fails if there is no such entry, or the change of the first one fails. -/
theorem changeFirst_error : changeFirst p missing f as = .error e ↔
    (as.find? p = none ∧ e = missing) ∨ ∃ a, as.find? p = some a ∧ f a = .error e := by
  induction as with
  | nil => simp [changeFirst, eq_comm]
  | cons a as ih =>
    rw [changeFirst]
    cases here : p a with
    | true =>
      rw [List.find?_cons_of_pos here, if_pos rfl]
      cases made : f a <;> simp [made]
    | false =>
      rw [List.find?_cons_of_neg (by simp [here]), if_neg Bool.false_ne_true, ← ih]
      cases changeFirst p missing f as <;> simp

end First

namespace InstalledTable

variable {t : InstalledTable} {name : String} {cause : Rejection}

theorem changeElements_error {f : List Element → List Element} :
    t.changeElements name f = .error cause ↔ t.set? name = none ∧ cause = .noSet name := by
  have fails : t.changeElements name f = .error cause ↔
      changeFirst (fun s : InstalledSet => s.set.name = name) (.noSet name)
        (fun s => .ok { s with elements := f s.elements }) t.sets = .error cause := by
    unfold changeElements
    split
    · rename_i changed
      simp [changed]
    · rename_i changed
      simp [changed]
  rw [fails, changeFirst_error]
  simp [set?]

theorem changeRules_error {put : List RuleData → Except Rejection (List RuleData)}
    (h : t.changeRules name put = .error cause) :
    cause = .noChain name ∨ ∃ rules, put rules = .error cause := by
  rw [changeRules_eq, map_error, changeFirst_error] at h
  rcases h with ⟨-, missing⟩ | ⟨c, -, fails⟩
  · exact .inl missing
  · exact .inr ⟨c.rules, map_error.mp fails⟩

theorem addSet_error {set : MatchSet} {elements : List Element} {ss : List InstalledSet}
    (h : addSet set elements ss = .error cause) : ∃ keyType, cause = .keyTypeTaken set.name keyType := by
  induction ss with
  | nil => cases h
  | cons s ss ih =>
    unfold addSet at h
    split at h
    · split at h
      · cases h
      · cases h
        exact ⟨_, rfl⟩
    · split at h
      · cases h
      · split at h
        · cases h
        · rename_i fails
          cases h
          exact ih fails

end InstalledTable

theorem insertBefore_error {handle : Nat} {rule : RuleData} {rules : List RuleData} {cause : Rejection}
    (h : insertBefore handle rule rules = .error cause) : cause = .noRule handle := by
  induction rules with
  | nil =>
    cases h
    rfl
  | cons first rest ih =>
    unfold insertBefore at h
    split at h
    · cases h
    · split at h
      · cases h
      · rename_i fails
        cases h
        exact ih fails

theorem deleteHandle_error {handle : Nat} {rules : List RuleData} {cause : Rejection}
    (h : deleteHandle handle rules = .error cause) : cause = .noRule handle := by
  unfold deleteHandle at h
  dsimp only at h
  split at h
  · cases h
    rfl
  · cases h

/-- The sets that have to be there for a declaration. -/
def Declaration.needs : Declaration → List (Table × String)
  | .addElements set _ => [(set.table, set.name)]
  | .deleteElements set _ => [(set.table, set.name)]
  | .addRule rule => rule.data.program.sets.map fun s => (rule.table, s.name)
  | .insertRule rule _ => rule.data.program.sets.map fun s => (rule.table, s.name)
  | _ => []

namespace Ruleset

variable {r r' : Ruleset} {t : Table} {cause : Rejection}

theorem changeTable_error {f : InstalledTable → Except Rejection InstalledTable} :
    r.changeTable t f = .error cause ↔
      (r.table? t = none ∧ cause = .noTable t) ∨ ∃ i, r.table? t = some i ∧ f i = .error cause := by
  have fails : r.changeTable t f = .error cause ↔
      changeFirst (fun i : InstalledTable => i.table = t) (.noTable t) f r.tables = .error cause := by
    unfold changeTable
    split
    · rename_i changed
      simp [changed]
    · rename_i changed
      simp [changed]
  rw [fails, changeFirst_error]
  rfl

/-- A rule is refused for the first of its sets that is not there, before its chain is looked for. -/
theorem placeRule_error {rule : Rule} {put : RuleData → List RuleData → Except Rejection (List RuleData)} :
    r.placeRule rule put = .error cause ↔
      (r.table? rule.table = none ∧ cause = .noTable rule.table) ∨
        ∃ i, r.table? rule.table = some i ∧
          match i.missingSet? rule.data.program.sets with
          | some set => cause = .noSet set.name
          | none =>
            i.changeRules rule.chain (put (rule.data.withHandle (r.lastHandle + 1))) = .error cause := by
  rw [placeRule_eq, map_error, changeTable_error]
  refine or_congr Iff.rfl (exists_congr fun i => and_congr_right fun _ => ?_)
  cases i.missingSet? rule.data.program.sets with
  | none => exact Iff.rfl
  | some set => exact ⟨fun h => (Except.error.inj h).symm, fun h => congrArg _ h.symm⟩

/-- The first of some sets that is not there. -/
def missing? (r : Ruleset) (keys : List (Table × String)) : Option (Table × String) :=
  keys.find? fun key => (r.set? key.1 key.2).isNone

theorem missing?_rule {rule : Rule} {i : InstalledTable} (found : r.table? rule.table = some i) :
    r.missing? (rule.data.program.sets.map fun s => (rule.table, s.name)) =
      (i.missingSet? rule.data.program.sets).map fun s => (rule.table, s.name) := by
  have same : ∀ name, r.set? rule.table name = i.set? name := by
    intro name
    rw [set?, found, Option.bind_some]
  rw [missing?, List.find?_map, InstalledTable.missingSet?]
  simp only [Function.comp_def, same]

section Missing

variable {key : Table × String} {set : MatchSet} {f : List Element → List Element} {rule : Rule}
  {put : RuleData → List RuleData → Except Rejection (List RuleData)}

theorem changeElements_missing (missing : r.missing? [(set.table, set.name)] = some key) :
    (r.changeTable set.table fun t => t.changeElements set.name f) = .error (.noSet key.2) ∨
      (r.changeTable set.table fun t => t.changeElements set.name f) = .error (.noTable key.1) := by
  have absent := List.find?_some missing
  cases List.mem_singleton.mp (List.mem_of_find?_eq_some missing)
  cases found : r.table? set.table with
  | none => exact .inr (changeTable_error.mpr (.inl ⟨found, rfl⟩))
  | some i =>
    left
    refine changeTable_error.mpr (.inr ⟨i, found, InstalledTable.changeElements_error.mpr ⟨?_, rfl⟩⟩)
    simpa [set?, found] using absent

theorem placeRule_missing
    (missing : r.missing? (rule.data.program.sets.map fun s => (rule.table, s.name)) = some key) :
    r.placeRule rule put = .error (.noSet key.2) ∨ r.placeRule rule put = .error (.noTable key.1) := by
  obtain ⟨s, -, rfl⟩ := List.mem_map.mp (List.mem_of_find?_eq_some missing)
  cases found : r.table? rule.table with
  | none => exact .inr (placeRule_error.mpr (.inl ⟨found, rfl⟩))
  | some i =>
    left
    refine placeRule_error.mpr (.inr ⟨i, found, ?_⟩)
    rw [missing?_rule found] at missing
    obtain ⟨first, absent, same⟩ := Option.map_eq_some_iff.mp missing
    rw [absent]
    exact congrArg (fun key => Rejection.noSet key.2) same.symm

/-- What needs a set that is not there is refused. -/
theorem apply_missing {d : Declaration} (missing : r.missing? d.needs = some key) :
    r.apply d = .error (.noSet key.2) ∨ r.apply d = .error (.noTable key.1) := by
  cases d with
  | flushRuleset | addTable | addChain | addSet | deleteRule => cases missing
  | addElements set es => exact changeElements_missing missing
  | deleteElements set es => exact changeElements_missing missing
  | addRule rule =>
    unfold apply
    exact placeRule_missing missing
  | insertRule rule before =>
    cases before with
    | none | some =>
      unfold apply
      exact placeRule_missing missing

theorem changeElements_noSet {name : String}
    (h : (r.changeTable set.table fun t => t.changeElements set.name f) = .error (.noSet name)) :
    r.missing? [(set.table, set.name)] ≠ none := by
  rcases changeTable_error.mp h with ⟨-, other⟩ | ⟨i, found, fails⟩
  · cases other
  · obtain ⟨absent, -⟩ := InstalledTable.changeElements_error.mp fails
    simp [missing?, set?, found, absent]

theorem placeRule_noSet {name : String}
    (puts : ∀ data rules cause, put data rules = .error cause → cause ≠ .noSet name)
    (h : r.placeRule rule put = .error (.noSet name)) :
    r.missing? (rule.data.program.sets.map fun s => (rule.table, s.name)) ≠ none := by
  rcases placeRule_error.mp h with ⟨-, other⟩ | ⟨i, found, fails⟩
  · cases other
  · rw [missing?_rule found]
    cases absent : i.missingSet? rule.data.program.sets with
    | some set => exact nofun
    | none =>
      rw [absent] at fails
      rcases InstalledTable.changeRules_error fails with other | ⟨rules, other⟩
      · cases other
      · exact absurd rfl (puts _ rules _ other)

/-- What is refused for a set needs a set that is not there. -/
theorem apply_noSet {d : Declaration} {name : String} (h : r.apply d = .error (.noSet name)) :
    r.missing? d.needs ≠ none := by
  have table : ∀ {t f}, r.changeTable t f = .error (.noSet name) →
      (∀ i, f i ≠ .error (.noSet name)) → r.missing? d.needs ≠ none := by
    intro t f h never
    rcases changeTable_error.mp h with ⟨-, other⟩ | ⟨i, -, fails⟩
    · cases other
    · exact absurd fails (never i)
  cases d with
  | flushRuleset | addTable => cases h
  | addChain chain => exact table h fun _ => nofun
  | addSet set es =>
    refine table h fun i fails => ?_
    split at fails
    · cases fails
    · rename_i refused
      cases fails
      obtain ⟨keyType, other⟩ := InstalledTable.addSet_error refused
      cases other
  | addElements set es => exact changeElements_noSet h
  | deleteElements set es => exact changeElements_noSet h
  | addRule rule =>
    unfold apply at h
    exact placeRule_noSet (fun _ _ _ fails => by cases fails) h
  | insertRule rule before =>
    cases before with
    | none =>
      unfold apply at h
      exact placeRule_noSet (fun _ _ _ fails => by cases fails) h
    | some handle =>
      unfold apply at h
      refine placeRule_noSet (fun data rules cause fails => ?_) h
      rw [insertBefore_error fails]
      exact nofun
  | deleteRule t chain handle =>
    refine table h fun i fails => ?_
    rcases InstalledTable.changeRules_error fails with other | ⟨rules, other⟩
    · cases other
    · cases deleteHandle_error other

end Missing

end Ruleset

end Firewall
