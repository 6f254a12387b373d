import Firewall.Ruleset.Decision

namespace Firewall

def Verdict.isFinal : Verdict → Bool
  | .accept => true
  | .drop => true
  | .reject _ _ => true
  | _ => false

def Policy.verdict : Policy → Verdict
  | .accept => .accept
  | .drop => .drop

/-- The verdict that an outcome is taken for; a packet is accepted with its translation. -/
def Outcome.verdict? : Outcome → Option Verdict
  | .noMatch => none
  | .verdict v => some v
  | .nat => some .accept

namespace RuleData

variable {members : Members} {p : Packet}

/-- The verdict of a rule that matches. -/
def decides? (members : Members) (p : Packet) (r : RuleData) : Option Verdict :=
  (r.program.evaluate members p).verdict?

/-- The first rule that matches. -/
def first? (members : Members) (p : Packet) (rules : List RuleData) : Option RuleData :=
  rules.find? fun r => (r.decides? members p).isSome

theorem first?_bare (rules : List RuleData) :
    first? members p (rules.map bare) = (first? members p rules).map bare := by
  induction rules with
  | nil => rfl
  | cons r rules ih =>
    have same : r.bare.decides? members p = r.decides? members p := rfl
    unfold first? at ih ⊢
    cases h : (r.decides? members p).isSome with
    | true => simp [same, h]
    | false =>
      rw [List.map_cons, List.find?_cons, List.find?_cons, same, h]
      exact ih

theorem first?_some {rules : List RuleData} {r : RuleData}
    (h : first? members p rules = some r) : ∃ v, r.decides? members p = some v := by
  unfold first? at h
  have matched := List.find?_some h
  exact Option.isSome_iff_exists.mp matched

theorem findSome?_decides (rules : List RuleData) :
    rules.findSome? (decides? members p) = (first? members p rules).bind (decides? members p) := by
  induction rules with
  | nil => rfl
  | cons r rules ih =>
    unfold first? at ih ⊢
    cases h : r.decides? members p with
    | some v => simp [h]
    | none => simp [h, ih]

end RuleData

namespace Ruleset

variable {members : Members} {p : Packet}

/-- Where rules only accept, drop, reject or translate, the first one that matches decides. -/
theorem walkRules_first {enter : String → Except Error Walk} {rules : List RuleData}
    (final : ∀ r ∈ rules, ∀ v, r.decides? members p = some v → v.isFinal = true) :
    walkRules members p enter rules = .ok (match RuleData.first? members p rules with
      | some r => .decided ⟨(r.decides? members p).getD .accept, r.handle, r.id⟩
      | none => .returned) := by
  induction rules with
  | nil => rfl
  | cons r rules ih =>
    have later := ih fun q hq => final q (List.mem_cons_of_mem r hq)
    have here := final r List.mem_cons_self
    unfold walkRules RuleData.first?
    rw [List.find?_cons]
    unfold RuleData.decides? at here ⊢
    cases h : r.program.evaluate members p with
    | noMatch =>
      simp only [Outcome.verdict?, Option.isSome_none]
      exact later
    | nat => simp [Outcome.verdict?, h]
    | verdict v =>
      have fin := here v (by rw [h]; rfl)
      cases v with
      | accept => simp [Outcome.verdict?, h]
      | drop => simp [Outcome.verdict?, h]
      | reject kind code => simp [Outcome.verdict?, h]
      | jump chain => cases fin
      | goto chain => cases fin
      | ret => cases fin
      | cont => cases fin

theorem rules_bare {r : Ruleset} {t : Table} {name : String} {c : InstalledChain}
    (h : r.chain? t name = some c) :
    ∃ rules, r.rules t name = .ok rules ∧ rules.map RuleData.bare = c.rules.map RuleData.bare := by
  unfold rules
  rw [h]
  refine ⟨_, rfl, ?_⟩
  apply List.ext_getElem
  · simp
  · intro i hi hi'
    simp [RuleData.bare]

/-- The decision of a chain: the first rule that matches, or the policy. -/
theorem decidePacket_first {r : Ruleset} {t : Table} {name : String} {c : InstalledChain}
    (wf : p.wellFormed = true) (h : r.chain? t name = some c)
    (final : ∀ rule ∈ c.rules, ∀ v, rule.decides? (r.members t) p = some v → v.isFinal = true) :
    ∃ d, r.decidePacket t name p = .ok d ∧
      d.verdict = ((c.rules.map RuleData.bare).findSome? (RuleData.decides? (r.members t) p)).getD
        (c.chain.policy?.getD .accept).verdict ∧
      d.id = (RuleData.first? (r.members t) p (c.rules.map RuleData.bare)).bind (·.id) := by
  obtain ⟨rules, found, bare⟩ := rules_bare h
  have final' : ∀ rule ∈ rules, ∀ v, rule.decides? (r.members t) p = some v → v.isFinal = true := by
    intro rule hr v hv
    have hb : rule.bare ∈ c.rules.map RuleData.bare := bare ▸ List.mem_map_of_mem hr
    obtain ⟨rule', hr', e⟩ := List.mem_map.mp hb
    have same : rule'.program = rule.program := congrArg (·.program) e
    apply final rule' hr' v
    rw [RuleData.decides?, same]
    exact hv
  unfold decidePacket
  rw [wf, h]
  simp only [Bool.not_true, Bool.false_eq_true, if_false, walk, maxEntries, found]
  rw [walkRules_first final', ← bare, RuleData.findSome?_decides, RuleData.first?_bare]
  cases hf : RuleData.first? (r.members t) p rules with
  | none =>
    refine ⟨_, rfl, ?_, ?_⟩
    · cases c.chain.policy?.getD .accept <;> rfl
    · cases c.chain.policy?.getD .accept <;> rfl
  | some rule =>
    obtain ⟨v, hv⟩ := RuleData.first?_some hf
    have same : rule.bare.decides? (r.members t) p = some v := hv
    refine ⟨_, rfl, ?_, rfl⟩
    simp [same, hv]

end Ruleset
end Firewall
