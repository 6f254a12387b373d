import Firewall.Ruleset.Decision
import Mathlib.Logic.Relation

namespace Firewall

/-- The rules of a chain that are left, and the number of jumps and gotos that lead to it from the start. -/
structure Frame where
  rules : List RuleData
  depth : Nat

/-- How a traversal of chains ends. -/
inductive Ending where
  | decided (decision : Decision)
  /-- The start chain is left. -/
  | exhausted
  | missing (chain : String)
  | tooDeep (chain : String)

namespace Ending

/-- What is decided at the end of a traversal that starts in a chain; that chain has the last word. -/
def answer (start : Chain) : Ending → Except Error Decision
  | .decided d => .ok d
  | .exhausted => .ok (.ofPolicy (start.policy?.getD .accept))
  | .missing chain => .error (.rejected (.noChain chain))
  | .tooDeep chain => .error (.jumpDepth chain)

/-- A chain could not be entered. -/
def Failed (e : Ending) : Prop := ∃ chain, e = .missing chain ∨ e = .tooDeep chain

theorem answer_error {start : Chain} {e : Ending} : (∃ fault, e.answer start = .error fault) ↔ e.Failed := by
  cases e <;> simp [answer, Failed]

end Ending

/-- A chain is walked without regard to the positions of its rules. -/
theorem Ruleset.walkRules_positions (members : Members) (p : Packet) (go : String → Except Error Walk)
    (rules : List RuleData) (place : Nat → Option Nat) :
    walkRules members p go (rules.mapIdx fun i data => { data with position := place i }) =
      walkRules members p go rules := by
  induction rules generalizing place with
  | nil => rfl
  | cons rule rules ih =>
    have later := ih fun i => place (i + 1)
    rw [List.mapIdx_cons, walkRules, walkRules, later]

/-- A traversal inside a chain, with the callers that wait for its end, the innermost first; or its end. -/
inductive Traversal where
  | inside (here : Frame) (callers : List Frame)
  | ended (ending : Ending)

namespace Traversal

/-- The depth at which a chain may be entered. -/
def maxDepth : Nat := 16

def start (c : InstalledChain) : Traversal := .inside ⟨c.rules, 0⟩ []

/-- The innermost caller goes on where it has left off. -/
def resume : List Frame → Traversal
  | [] => .ended .exhausted
  | caller :: callers => .inside caller callers

section Steps

variable (r : Ruleset) (t : Table) (p : Packet)

/-- A chain is entered, unless it is nested too deeply or not there. -/
def enter (target : String) (depth : Nat) (callers : List Frame) : Traversal :=
  if maxDepth < depth then .ended (.tooDeep target)
  else
    match r.chain? t target with
    | some c => .inside ⟨c.rules, depth⟩ callers
    | none => .ended (.missing target)

/-- What follows a rule with an outcome. -/
def follow (rule : RuleData) (rest : Frame) (callers : List Frame) : Outcome → Traversal
  | .noMatch => .inside rest callers
  | .nat => .ended (.decided ⟨.accept, rule.handle, rule.id⟩)
  | .verdict .cont => .inside rest callers
  | .verdict .ret => resume callers
  | .verdict (.jump target) => enter r t target (rest.depth + 1) (rest :: callers)
  | .verdict (.goto target) => enter r t target (rest.depth + 1) callers
  | .verdict .accept => .ended (.decided ⟨.accept, rule.handle, rule.id⟩)
  | .verdict .drop => .ended (.decided ⟨.drop, rule.handle, rule.id⟩)
  | .verdict (.reject kind code) => .ended (.decided ⟨.reject kind code, rule.handle, rule.id⟩)

/-- One step of the machine, the next rule or the end of a chain; none behind the end. -/
def step? : Traversal → Option Traversal
  | .ended _ => none
  | .inside ⟨[], _⟩ callers => some (resume callers)
  | .inside ⟨rule :: rules, depth⟩ callers =>
    some (follow r t rule ⟨rules, depth⟩ callers (rule.program.evaluate (r.members t) p))

/-- The chain that the next rule leads to, and the depth at which it is entered. -/
def target? : Traversal → Option (String × Nat)
  | .inside ⟨rule :: _, depth⟩ _ =>
    match rule.program.evaluate (r.members t) p with
    | .verdict (.jump target) => some (target, depth + 1)
    | .verdict (.goto target) => some (target, depth + 1)
    | _ => none
  | _ => none

def Next (s s' : Traversal) : Prop := s.step? r t p = some s'

def Steps : Traversal → Traversal → Prop := Relation.ReflTransGen (Next r t p)

/-- The next rule leads to a chain that is nested too deeply or not there. -/
def Fails (s : Traversal) : Prop :=
  ∃ target depth, s.target? r t p = some (target, depth) ∧
    (maxDepth < depth ∨ r.chain? t target = none)

/-- The machine comes from a state to where the result of a walk leaves it, with those callers waiting. -/
inductive Reaches (s : Traversal) (callers : List Frame) : Except Error Walk → Prop
  | decided (d : Decision) (h : Steps r t p s (.ended (.decided d))) :
    Reaches s callers (.ok (.decided d))
  | returned (h : Steps r t p s (resume callers)) : Reaches s callers (.ok .returned)
  | missing (chain : String) (h : Steps r t p s (.ended (.missing chain))) :
    Reaches s callers (.error (.rejected (.noChain chain)))
  | tooDeep (chain : String) (h : Steps r t p s (.ended (.tooDeep chain))) :
    Reaches s callers (.error (.jumpDepth chain))

end Steps

variable {r : Ruleset} {t : Table} {p : Packet} {s s' : Traversal} {callers : List Frame}
  {walk : Except Error Walk} {e e' : Ending}

namespace Reaches

theorem from_steps (steps : Steps r t p s s') (h : Reaches r t p s' callers walk) :
    Reaches r t p s callers walk := by
  cases h with
  | decided d h => exact .decided d (steps.trans h)
  | returned h => exact .returned (steps.trans h)
  | missing chain h => exact .missing chain (steps.trans h)
  | tooDeep chain h => exact .tooDeep chain (steps.trans h)

theorem from_step (step : Next r t p s s') (h : Reaches r t p s' callers walk) :
    Reaches r t p s callers walk :=
  from_steps (Relation.ReflTransGen.single step) h

end Reaches

/-- The rules of a chain are followed as they are walked, if the chains that they lead to are. -/
theorem reaches_rules {depth : Nat} {go : String → Except Error Walk}
    (entered : ∀ target callers, Reaches r t p (enter r t target (depth + 1) callers) callers (go target))
    (rules : List RuleData) (callers : List Frame) :
    Reaches r t p (.inside ⟨rules, depth⟩ callers) callers
      (Ruleset.walkRules (r.members t) p go rules) := by
  induction rules with
  | nil => exact .returned (Relation.ReflTransGen.single rfl)
  | cons rule rules ih =>
    have step : Next r t p (.inside ⟨rule :: rules, depth⟩ callers)
        (follow r t rule ⟨rules, depth⟩ callers (rule.program.evaluate (r.members t) p)) := rfl
    refine .from_step step ?_
    rw [Ruleset.walkRules]
    cases rule.program.evaluate (r.members t) p with
    | noMatch => exact ih
    | nat => exact .decided _ .refl
    | verdict v =>
      cases v with
      | accept => exact .decided _ .refl
      | drop => exact .decided _ .refl
      | reject kind code => exact .decided _ .refl
      | cont => exact ih
      | ret => exact .returned .refl
      | goto target => exact entered target callers
      | jump target =>
        have inner := entered target (⟨rules, depth⟩ :: callers)
        dsimp only [follow]
        generalize go target = w at inner ⊢
        cases inner with
        | decided d h => exact .decided d h
        | returned h => exact .from_steps h ih
        | missing chain h => exact .missing chain h
        | tooDeep chain h => exact .tooDeep chain h

/-- A chain is followed as it is walked, at every depth. -/
theorem reaches_chain {entries depth : Nat} (h : depth + entries = maxDepth + 1) (target : String)
    (callers : List Frame) :
    Reaches r t p (enter r t target depth callers) callers (r.walk t p entries target) := by
  induction entries generalizing depth target callers with
  | zero =>
    have deep : maxDepth < depth := by omega
    rw [enter, if_pos deep]
    exact .tooDeep target .refl
  | succ entries ih =>
    have within : ¬ maxDepth < depth := by omega
    have less : depth + 1 + entries = maxDepth + 1 := by omega
    have entered := ih less
    rw [enter, if_neg within, Ruleset.walk, Ruleset.rules]
    cases r.chain? t target with
    | none => exact .missing target .refl
    | some c =>
      dsimp only
      rw [Ruleset.walkRules_positions]
      exact reaches_rules entered c.rules callers

section Determinism

theorem steps_ended (h : Steps r t p (.ended e) s) : s = .ended e := by
  rcases Relation.ReflTransGen.cases_head h with same | ⟨s', step, -⟩
  · exact same.symm
  · cases step

/-- What is on the way to the end is reached by everyone who comes to the end. -/
theorem steps_meet (h : Steps r t p s (.ended e)) (h' : Steps r t p s s') : Steps r t p s' (.ended e) := by
  induction h' using Relation.ReflTransGen.head_induction_on with
  | refl => exact h
  | head first _ ih =>
    apply ih
    rcases Relation.ReflTransGen.cases_head h with here | ⟨c, step, rest⟩
    · rw [here] at first
      cases first
    · cases first.symm.trans step
      exact rest

theorem ending_unique (h : Steps r t p s (.ended e)) (h' : Steps r t p s (.ended e')) : e' = e := by
  have same := steps_ended (steps_meet h h')
  cases same
  rfl

/-- No run goes on for ever from where an end is reached. -/
theorem acc_of_steps (h : Steps r t p s (.ended e)) : Acc (fun s' s => Next r t p s s') s := by
  induction h using Relation.ReflTransGen.head_induction_on with
  | refl =>
    constructor
    intro s' step
    cases step
  | head first _ ih =>
    constructor
    intro s' step
    cases first.symm.trans step
    exact ih

end Determinism

section Failure

/-- A chain that cannot be entered ends the traversal, and only such a chain makes it fail. -/
theorem enter_failed {target : String} {depth : Nat} :
    (∃ e, enter r t target depth callers = .ended e ∧ e.Failed) ↔
      maxDepth < depth ∨ r.chain? t target = none := by
  by_cases deep : maxDepth < depth
  · simp [enter, deep, Ending.Failed]
  · cases found : r.chain? t target with
    | none => simp [enter, deep, found, Ending.Failed]
    | some c => simp [enter, deep, found]

theorem resume_failed : ¬ ∃ e, resume callers = .ended e ∧ e.Failed := by
  cases callers <;> simp [resume, Ending.Failed]

/-- A step ends in a failure where the next rule leads to a chain that cannot be entered. -/
theorem next_failed : (∃ e, Next r t p s (.ended e) ∧ e.Failed) ↔ s.Fails r t p := by
  cases s with
  | ended e => simp [Next, step?, Fails, target?]
  | inside here callers =>
    obtain ⟨rules, depth⟩ := here
    cases rules with
    | nil => simpa [Next, step?, Fails, target?] using resume_failed
    | cons rule rules =>
      simp only [Next, step?, Fails, target?, Option.some.injEq]
      cases rule.program.evaluate (r.members t) p with
      | noMatch => simp [follow]
      | nat => simp [follow, Ending.Failed]
      | verdict v =>
        cases v with
        | accept => simp [follow, Ending.Failed]
        | drop => simp [follow, Ending.Failed]
        | reject kind code => simp [follow, Ending.Failed]
        | cont => simp [follow]
        | ret => simpa [follow] using resume_failed
        | jump target => simp [follow, enter_failed, and_assoc]
        | goto target => simp [follow, enter_failed, and_assoc]

/-- A run ends in a failure if it comes by a rule that leads to a chain that cannot be entered. -/
theorem failed_iff {here : Frame} (h : Steps r t p (.inside here callers) (.ended e)) :
    e.Failed ↔ ∃ s, Steps r t p (.inside here callers) s ∧ s.Fails r t p := by
  constructor
  · intro failed
    rcases Relation.ReflTransGen.cases_tail h with same | ⟨s, steps, last⟩
    · cases same
    · exact ⟨s, steps, next_failed.mp ⟨e, last, failed⟩⟩
  · rintro ⟨s, steps, fails⟩
    obtain ⟨e', last, failed⟩ := next_failed.mpr fails
    rwa [← ending_unique h (steps.tail last)]

end Failure

end Traversal

namespace Ruleset

open Traversal

variable {r : Ruleset} {t : Table} {p : Packet} {name : String} {c : InstalledChain}

/-- A packet is decided as the traversal ends. -/
theorem decidePacket_answer (wf : p.wellFormed = true) (there : r.chain? t name = some c) :
    ∃ e, Steps r t p (start c) (.ended e) ∧ r.decidePacket t name p = e.answer c.chain := by
  have entered : enter r t name 0 [] = start c := by
    simp [enter, maxDepth, there, start]
  have whole : 0 + maxEntries = maxDepth + 1 := rfl
  have reaches : Reaches r t p _ [] (r.walk t p maxEntries name) := reaches_chain whole name []
  rw [entered] at reaches
  unfold decidePacket
  rw [wf, Bool.not_true, if_neg Bool.false_ne_true, there]
  dsimp only
  generalize r.walk t p maxEntries name = w at reaches ⊢
  cases reaches with
  | decided d h => exact ⟨_, h, rfl⟩
  | returned h => exact ⟨_, h, rfl⟩
  | missing chain h => exact ⟨_, h, rfl⟩
  | tooDeep chain h => exact ⟨_, h, rfl⟩

/-- Whatever jumps, gotos and returns there are, the machine that follows a packet from an installed chain comes to
one end and has no run without an end. The packet is decided as the machine ends, and this is a failure
exactly if the run comes by a rule that leads to a chain nested too deeply or not there. -/
theorem decidePacket_traverses (wf : p.wellFormed = true) (there : r.chain? t name = some c) :
    ∃ e, (∀ e', Steps r t p (start c) (.ended e') ↔ e' = e) ∧
      Acc (fun s' s => Next r t p s s') (start c) ∧
      r.decidePacket t name p = e.answer c.chain ∧
      ((∃ fault, r.decidePacket t name p = .error fault) ↔
        ∃ s, Steps r t p (start c) s ∧ s.Fails r t p) := by
  obtain ⟨e, ends, answer⟩ := decidePacket_answer wf there
  refine ⟨e, fun e' => ⟨ending_unique ends, fun same => same ▸ ends⟩, acc_of_steps ends, answer, ?_⟩
  rw [answer, Ending.answer_error]
  exact failed_iff ends

end Ruleset

section Crossing

open Traversal

def crossingTable : Table := ⟨.ipv4, "filter"⟩

def crossingChain (chain : Chain) (first : Nat) (verdicts : List Verdict) : InstalledChain :=
  ⟨chain, verdicts.mapIdx fun i v => ⟨some chain.name, [.verdict v], some (first + i), none⟩⟩

def inputChain : InstalledChain :=
  crossingChain (.filter crossingTable .input .drop) 1 [.cont, .jump "outer", .accept]

def circleChain : InstalledChain := crossingChain (.regular crossingTable "circle") 8 [.jump "circle"]

def crossing : Ruleset :=
  ⟨[⟨crossingTable, [inputChain, crossingChain (.regular crossingTable "outer") 4 [.goto "inner", .drop],
    crossingChain (.regular crossingTable "inner") 6 [.ret, .drop], circleChain], []⟩], 8⟩

def crossingPacket : Packet :=
  ⟨some "lan0", none, protocolTcp, .v4 0x0A000001#32, .v4 0x0A000002#32, 40000, 22, 0, 0, 8⟩

theorem Ruleset.decidePacket_traverses_crossing :
    crossingPacket.wellFormed = true ∧
    (crossing.chain? crossingTable "input" = some inputChain ∧
      Steps crossing crossingTable crossingPacket (start inputChain)
        (.ended (.decided ⟨.accept, some 3, some "input"⟩)) ∧
      crossing.decidePacket crossingTable "input" crossingPacket = .ok ⟨.accept, some 3, some "input"⟩) ∧
    crossing.chain? crossingTable "circle" = some circleChain ∧
      crossing.decidePacket crossingTable "circle" crossingPacket = .error (.jumpDepth "circle") ∧
      ∃ s, Steps crossing crossingTable crossingPacket (start circleChain) s ∧
        s.Fails crossing crossingTable crossingPacket := by
  have wf : crossingPacket.wellFormed = true := rfl
  have input : crossing.chain? crossingTable "input" = some inputChain := by decide
  have circle : crossing.chain? crossingTable "circle" = some circleChain := by decide
  have accepted : crossing.decidePacket crossingTable "input" crossingPacket =
      .ok ⟨.accept, some 3, some "input"⟩ := by rfl
  have refused : crossing.decidePacket crossingTable "circle" crossingPacket =
      .error (.jumpDepth "circle") := by rfl
  obtain ⟨e, ends, -, answer, -⟩ := decidePacket_traverses wf input
  obtain ⟨-, -, -, -, fails⟩ := decidePacket_traverses wf circle
  refine ⟨wf, ⟨input, (ends _).mpr ?_, accepted⟩, circle, refused, fails.mp ⟨_, refused⟩⟩
  rw [accepted] at answer
  cases e with
  | decided d =>
    cases answer
    rfl
  | exhausted => cases answer
  | missing chain => cases answer
  | tooDeep chain => cases answer

end Crossing
end Firewall
