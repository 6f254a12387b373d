import Firewall.Policy.Rules
import Firewall.Proofs.Decision
import Firewall.Proofs.ElementText
import Firewall.Proofs.Predicate

namespace Firewall

namespace Compiler

open Predicate Program

variable (members : Members) (p : Packet) (t : Table) (name : String)

/-- A part of a rule tests for `b`, if it can be built. -/
def PartTests (part : Except Error Program) (b : Bool) : Prop :=
  ∀ f, part = .ok f → Tests members p f b

/-- The parts of a rule lead to an outcome if `b` holds, and to no match otherwise. -/
def Leads (parts : List (Except Error Program)) (b : Bool) (o : Outcome) : Prop :=
  ∀ programs, Spec.readAll (fun part => part) parts = .ok programs →
    ∀ r, Program.run members p r programs.flatten = if b then o else .noMatch

def rulesFor (plan : List PlannedRule) : List RuleData :=
  (plan.filter fun r => r.chain.table = t ∧ r.chain.name = name).map (·.data)

/-- The planned rules of a chain have a verdict together, and none of them leaves the chain. -/
structure Decides (plan : List PlannedRule) (v : Option Verdict) : Prop where
  final : ∀ r ∈ rulesFor t name plan, ∀ w, r.decides? members p = some w → w.isFinal = true
  verdict : (rulesFor t name plan).findSome? (RuleData.decides? members p) = v

/-- A rule has a verdict in a chain, if it can be built. -/
def RuleDecides (rule : Except Error PlannedRule) (v : Option Verdict) : Prop :=
  ∀ planned, rule = .ok planned → Decides members p t name [planned] v

/-- Rules have a verdict together, if they can be built. -/
def GroupDecides (group : Except Error (List PlannedRule)) (v : Option Verdict) : Prop :=
  ∀ plan, group = .ok plan → Decides members p t name plan v

def accepts (b : Bool) : Option Verdict := if b then some .accept else none

variable {members p t name}

theorem accepts_or (a b : Bool) : (accepts a).or (accepts b) = accepts (a || b) := by
  cases a <;> cases b <;> rfl

namespace Leads

variable {part : Except Error Program} {parts : List (Except Error Program)} {a b : Bool}
  {o : Outcome}

theorem cons (first : PartTests members p part a) (rest : a = true → Leads members p parts b o) :
    Leads members p (part :: parts) (a && b) o := by
  intro programs h r
  obtain ⟨f, programs, hf, hp, rfl⟩ := Spec.readAll_cons h
  have tests := first f hf
  rw [List.flatten_cons]
  cases ha : a with
  | false => exact tests.fails ha r _
  | true =>
    obtain ⟨r', e⟩ := tests.passes ha r programs.flatten
    rw [e]
    exact rest ha programs hp r'

theorem verdict (v : Verdict) : Leads members p [.ok (Predicate.verdict v)] true (.verdict v) := by
  intro programs h r
  cases h
  rfl

/-- The last part of a rule before its verdict. -/
theorem last (first : PartTests members p part a) (v : Verdict) :
    Leads members p [part, .ok (Predicate.verdict v)] a (.verdict v) := by
  have h := cons first fun _ => verdict v
  rwa [Bool.and_true] at h

end Leads

theorem PartTests.ok {f : Program} {b : Bool} (h : Tests members p f b) :
    PartTests members p (.ok f) b := by
  intro g hg
  cases hg
  exact h

section Rules

variable {chain : Chain} {id : String} {parts : List (Except Error Program)} {b : Bool} {o : Outcome}

theorem rule_ok {planned : PlannedRule} (h : rule chain id parts = .ok planned) :
    ∃ programs, Spec.readAll (fun part => part) parts = .ok programs ∧
      planned = ⟨chain, .named id programs.flatten⟩ := by
  unfold rule at h
  split at h
  · rename_i programs hp
    cases h
    exact ⟨programs, hp, rfl⟩
  · cases h

/-- The chains that rules are for. -/
def Only (chains : List Chain) (group : Except Error (List PlannedRule)) : Prop :=
  ∀ plan, group = .ok plan → ∀ r ∈ plan, r.chain ∈ chains

def For (chains : List Chain) (r : Except Error PlannedRule) : Prop :=
  ∀ planned, r = .ok planned → planned.chain ∈ chains

theorem rule_for {chains : List Chain} (h : chain ∈ chains) : For chains (rule chain id parts) := by
  intro planned hr
  obtain ⟨programs, -, rfl⟩ := rule_ok hr
  exact h

/-- A rule of the chain decides what its parts lead to. -/
theorem rule_here (wf : p.wellFormed = true) (here : chain.table = t ∧ chain.name = name)
    (leads : Leads members p parts b o)
    (final : ∀ v, o.verdict? = some v → v.isFinal = true := by intro v e; cases e; rfl) :
    RuleDecides members p t name (rule chain id parts) (if b then o.verdict? else none) := by
  intro planned h
  obtain ⟨programs, hp, rfl⟩ := rule_ok h
  have only : rulesFor t name [⟨chain, .named id programs.flatten⟩] =
      [.named id programs.flatten] := by
    simp [rulesFor, here]
  have outcome : (RuleData.named id programs.flatten).decides? members p =
      if b then o.verdict? else none := by
    unfold RuleData.decides? Program.evaluate
    rw [wf, if_pos rfl]
    show (Program.run members p .empty programs.flatten).verdict? = _
    rw [leads programs hp]
    cases b <;> rfl
  constructor
  · intro r hr w hw
    rw [only, List.mem_singleton] at hr
    rw [hr, outcome] at hw
    cases b with
    | false => cases hw
    | true => exact final w hw
  · rw [only, List.findSome?_singleton, outcome]

/-- A rule that accepts. -/
theorem rule_accepts (wf : p.wellFormed = true) (here : chain.table = t ∧ chain.name = name)
    (leads : Leads members p parts b (.verdict .accept)) :
    RuleDecides members p t name (rule chain id parts) (accepts b) :=
  rule_here wf here leads

/-- A rule of another chain decides nothing. -/
theorem rule_elsewhere (elsewhere : chain.name ≠ name) :
    RuleDecides members p t name (rule chain id parts) none := by
  intro planned h
  obtain ⟨programs, -, rfl⟩ := rule_ok h
  have none : rulesFor t name [⟨chain, .named id programs.flatten⟩] = [] := by
    simp [rulesFor, elsewhere]
  constructor
  · intro r hr
    rw [none] at hr
    cases hr
  · rw [none]
    rfl

end Rules

theorem rulesFor_append (plan plan' : List PlannedRule) :
    rulesFor t name (plan ++ plan') = rulesFor t name plan ++ rulesFor t name plan' := by
  simp [rulesFor]

theorem Decides.nil : Decides members p t name [] none :=
  ⟨fun _ h => absurd h List.not_mem_nil, rfl⟩

theorem Decides.append {plan plan' : List PlannedRule} {v v' : Option Verdict}
    (h : Decides members p t name plan v) (h' : Decides members p t name plan' v') :
    Decides members p t name (plan ++ plan') (v.or v') := by
  constructor
  · intro r hr
    rw [rulesFor_append] at hr
    rcases List.mem_append.mp hr with first | second
    · exact h.final r first
    · exact h'.final r second
  · rw [rulesFor_append, List.findSome?_append, h.verdict, h'.verdict]

/-- Rules decide something together if one of them matches. -/
theorem Decides.matched {plan : List PlannedRule} {v : Option Verdict} {r : RuleData} {w : Verdict}
    (h : Decides members p t name plan v) (member : r ∈ rulesFor t name plan)
    (hw : r.decides? members p = some w) : v ≠ none := by
  intro nothing
  have silent := List.findSome?_eq_none_iff.mp (h.verdict.trans nothing) r member
  cases hw.symm.trans silent

section Groups

variable {v w : Option Verdict}

theorem GroupDecides.of_eq {group : Except Error (List PlannedRule)}
    (h : GroupDecides members p t name group v) (e : v = w) :
    GroupDecides members p t name group w :=
  e ▸ h

theorem rules_nil : GroupDecides members p t name (rules []) none := by
  intro plan h
  cases h
  exact .nil

theorem rules_cons {r : Except Error PlannedRule} {rs : List (Except Error PlannedRule)}
    (first : RuleDecides members p t name r v) (rest : GroupDecides members p t name (rules rs) w) :
    GroupDecides members p t name (rules (r :: rs)) (v.or w) := by
  intro plan h
  obtain ⟨planned, plan, hr, hs, rfl⟩ := Spec.readAll_cons h
  exact (first planned hr).append (rest plan hs)

/-- Rules that are only there if a service is wanted. -/
theorem rules_if {wanted b : Bool} {rs : List (Except Error PlannedRule)}
    (h : wanted = true → GroupDecides members p t name (rules rs) (accepts b)) :
    GroupDecides members p t name (rules (if wanted then rs else [])) (accepts (wanted && b)) := by
  cases wanted with
  | true => exact h rfl
  | false => exact rules_nil

theorem rules_append {rs rs' : List (Except Error PlannedRule)}
    (first : GroupDecides members p t name (rules rs) v)
    (rest : GroupDecides members p t name (rules rs') w) :
    GroupDecides members p t name (rules (rs ++ rs')) (v.or w) := by
  intro plan h
  obtain ⟨front, back, hf, hb, rfl⟩ := Spec.readAll_append h
  exact (first front hf).append (rest back hb)

theorem groups_ok {gs : List (Except Error (List PlannedRule))} {plan : List PlannedRule}
    (h : groups gs = .ok plan) :
    ∃ plans, Spec.readAll (fun g => g) gs = .ok plans ∧ plan = plans.flatten := by
  unfold groups at h
  cases e : Spec.readAll (fun g => g) gs with
  | error fault =>
    rw [e] at h
    cases h
  | ok plans =>
    rw [e] at h
    cases h
    exact ⟨plans, rfl, rfl⟩

theorem groups_cons_ok {g : Except Error (List PlannedRule)}
    {gs : List (Except Error (List PlannedRule))} {plan : List PlannedRule}
    (h : groups (g :: gs) = .ok plan) :
    ∃ front back, g = .ok front ∧ groups gs = .ok back ∧ plan = front ++ back := by
  obtain ⟨plans, hg, rfl⟩ := groups_ok h
  obtain ⟨front, back, hf, hb, rfl⟩ := Spec.readAll_cons hg
  refine ⟨front, back.flatten, hf, ?_, rfl⟩
  rw [groups, hb]
  rfl

theorem groups_append_ok {gs gs' : List (Except Error (List PlannedRule))} {plan : List PlannedRule}
    (h : groups (gs ++ gs') = .ok plan) :
    ∃ front back, groups gs = .ok front ∧ groups gs' = .ok back ∧ plan = front ++ back := by
  obtain ⟨plans, hg, rfl⟩ := groups_ok h
  obtain ⟨front, back, hf, hb, rfl⟩ := Spec.readAll_append hg
  refine ⟨front.flatten, back.flatten, ?_, ?_, List.flatten_append⟩
  · rw [groups, hf]
    rfl
  · rw [groups, hb]
    rfl

theorem groups_nil : GroupDecides members p t name (groups []) none := by
  intro plan h
  cases h
  exact .nil

theorem groups_cons {g : Except Error (List PlannedRule)} {gs : List (Except Error (List PlannedRule))}
    (first : GroupDecides members p t name g v) (rest : GroupDecides members p t name (groups gs) w) :
    GroupDecides members p t name (groups (g :: gs)) (v.or w) := by
  intro plan h
  obtain ⟨front, back, hf, hb, rfl⟩ := groups_cons_ok h
  exact (first front hf).append (rest back hb)

theorem groups_append {gs gs' : List (Except Error (List PlannedRule))}
    (first : GroupDecides members p t name (groups gs) v)
    (rest : GroupDecides members p t name (groups gs') w) :
    GroupDecides members p t name (groups (gs ++ gs')) (v.or w) := by
  intro plan h
  obtain ⟨front, back, hf, hb, rfl⟩ := groups_append_ok h
  exact (first front hf).append (rest back hb)

/-- Groups that accept, one for each interface. -/
theorem groups_map {f : String → Except Error (List PlannedRule)} {b : String → Bool}
    (each : ∀ i, GroupDecides members p t name (f i) (accepts (b i))) (is : List String) :
    GroupDecides members p t name (groups (is.map f)) (accepts (is.any b)) := by
  induction is with
  | nil => exact groups_nil
  | cons i is ih =>
    rw [List.map_cons, List.any_cons, ← accepts_or]
    exact groups_cons (each i) ih

theorem only_nil (chains : List Chain) : Only chains (.ok []) := by
  intro plan hp r hr
  cases hp
  cases hr

/-- Every planned rule is one of those that were to be built. -/
theorem rules_mem {rs : List (Except Error PlannedRule)} {plan : List PlannedRule} (h : rules rs = .ok plan)
    {r : PlannedRule} (hr : r ∈ plan) : .ok r ∈ rs := by
  induction rs generalizing plan with
  | nil =>
    cases h
    cases hr
  | cons q rs ih =>
    obtain ⟨planned, rest, hq, hs, rfl⟩ := Spec.readAll_cons h
    rcases List.mem_cons.mp hr with rfl | later
    · exact hq ▸ List.mem_cons_self
    · exact List.mem_cons_of_mem q (ih hs later)

/-- Every planned rule is in one of the groups. -/
theorem groups_mem {gs : List (Except Error (List PlannedRule))} {plan : List PlannedRule}
    (h : groups gs = .ok plan) {r : PlannedRule} (hr : r ∈ plan) : ∃ front, .ok front ∈ gs ∧ r ∈ front := by
  induction gs generalizing plan with
  | nil =>
    cases h
    cases hr
  | cons g gs ih =>
    obtain ⟨front, back, hg, ht, rfl⟩ := groups_cons_ok h
    rcases List.mem_append.mp hr with first | later
    · exact ⟨front, hg ▸ List.mem_cons_self, first⟩
    · obtain ⟨front', member, inside⟩ := ih ht later
      exact ⟨front', List.mem_cons_of_mem g member, inside⟩

theorem only_rules {chains : List Chain} {rs : List (Except Error PlannedRule)}
    (h : ∀ r ∈ rs, For chains r) : Only chains (rules rs) :=
  fun _ hp r hr => h _ (rules_mem hp hr) r rfl

theorem only_groups {chains : List Chain} {gs : List (Except Error (List PlannedRule))}
    (h : ∀ g ∈ gs, Only chains g) : Only chains (groups gs) := by
  intro plan hp r hr
  obtain ⟨front, member, inside⟩ := groups_mem hp hr
  exact h _ member front rfl r inside

/-- Rules for other chains are not in this one. -/
theorem rulesFor_only {chains : List Chain} {plan : List PlannedRule}
    (h : ∀ r ∈ plan, r.chain ∈ chains) (elsewhere : ∀ chain ∈ chains, chain.name ≠ name) :
    rulesFor t name plan = [] := by
  have none : plan.filter (fun r => r.chain.table = t ∧ r.chain.name = name) = [] := by
    rw [List.filter_eq_nil_iff]
    intro r hr here
    exact elsewhere r.chain (h r hr) (of_decide_eq_true here).2
  rw [rulesFor, none, List.map_nil]

theorem Only.decides_none {chains : List Chain} {g : Except Error (List PlannedRule)}
    (h : Only chains g) (elsewhere : ∀ chain ∈ chains, chain.name ≠ name) :
    GroupDecides members p t name g none := by
  intro plan hp
  have none : rulesFor t name plan = [] := rulesFor_only (h plan hp) elsewhere
  constructor
  · intro r hr
    rw [none] at hr
    cases hr
  · rw [none]
    rfl

end Groups

end Compiler
end Firewall
