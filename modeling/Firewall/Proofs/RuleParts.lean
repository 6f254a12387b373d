import Firewall.Proofs.Statements

namespace Firewall.Nft

open Program

/-- A call of a builder for a part of a rule. -/
inductive Part where
  | inputInterface (name : String) (invert : Bool)
  | outputInterface (name : String) (invert : Bool)
  | protocol (number : UInt8)
  | echoRequest
  | netfilterFamily
  | port (dir : Direction) (number : UInt16) (invert : Bool) (reg : Register)
  | portRange (dir : Direction) (low high : UInt16) (reg : Register)
  | portSet (dir : Direction) (set : MatchSet) (invert : Bool) (reg : Register)
  | address (dir : Direction) (address : Address) (invert : Bool) (reg : Register)
  | network (dir : Direction) (network : Network) (invert : Bool) (reg : Register)
  | addressSet (dir : Direction) (set : MatchSet) (invert : Bool) (reg : Register)
  | ctState (states : CtState) (reg : Register)
  | ctStateSet (set : MatchSet) (invert : Bool)
  | limit (rate : RateLimit)
  | counter

inductive Closing where
  | verdict (verdict : Verdict)
  | snat (target : Address)
  | dnat (target : Address) (port : Option UInt16)

/-- The operations that a builder returns for a family. -/
def Part.program (profile : Profile) : Part → Except Error Program
  | .inputInterface name invert => Predicate.interface .inputInterface name invert
  | .outputInterface name invert => Predicate.interface .outputInterface name invert
  | .protocol number => .ok (Predicate.protocol profile number)
  | .echoRequest => .ok (Predicate.echoRequest profile)
  | .netfilterFamily => .ok (Predicate.netfilterFamily profile)
  | .port dir number invert reg => .ok (Predicate.port dir number invert reg)
  | .portRange dir low high reg => Predicate.portRange dir low high reg
  | .portSet dir set invert reg => Predicate.portSet dir set invert reg
  | .address dir a invert reg => Predicate.address profile dir a invert reg
  | .network dir n invert reg => Predicate.network profile dir n invert reg
  | .addressSet dir set invert reg => Predicate.addressSet profile dir set invert reg
  | .ctState states reg => .ok (Predicate.ctState states reg)
  | .ctStateSet set invert => Predicate.ctStateSet set invert
  | .limit rate => .ok (Predicate.limit rate)
  | .counter => .ok Predicate.counter

def Closing.program (profile : Profile) : Closing → Except Error Program
  | .verdict v => .ok (Predicate.verdict v)
  | .snat target => Predicate.snat profile target
  | .dnat target port => Predicate.dnat profile target port

/-- The program of a rule: its parts in order and its end; the first failure counts. -/
def ruleProgram (profile : Profile) (closing : Closing) : List Part → Except Error Program
  | [] => closing.program profile
  | part :: parts =>
    match part.program profile with
    | .error e => .error e
    | .ok f =>
      match ruleProgram profile closing parts with
      | .error e => .error e
      | .ok rest => .ok (f ++ rest)

section RuleProgram

variable {profile : Profile} {closing : Closing} {part : Part} {parts : List Part} {program : Program}

theorem ruleProgram_cons (h : ruleProgram profile closing (part :: parts) = .ok program) :
    ∃ f rest, part.program profile = .ok f ∧ ruleProgram profile closing parts = .ok rest ∧
      program = f ++ rest := by
  unfold ruleProgram at h
  split at h
  · cases h
  · rename_i f hf
    split at h
    · cases h
    · rename_i rest hr
      cases h
      exact ⟨f, rest, hf, hr, rfl⟩

/-- Every part of a rule that is built is built. -/
theorem ruleProgram_part (build : ruleProgram profile closing parts = .ok program) :
    ∀ part ∈ parts, ∃ f, part.program profile = .ok f := by
  induction parts generalizing program with
  | nil => exact fun part hp => absurd hp List.not_mem_nil
  | cons first parts ih =>
    obtain ⟨f, rest, hf, hr, -⟩ := ruleProgram_cons build
    intro part hp
    rcases List.mem_cons.mp hp with rfl | later
    · exact ⟨f, hf⟩
    · exact ih hr part later

end RuleProgram

/-- What an outcome of the machine decides; the target of NAT is that of the rule's end, as an address of
its own family. -/
def Closing.effect (closing : Closing) : Outcome → Effect
  | .noMatch => .noMatch
  | .verdict v => .verdict (plainVerdict v)
  | .nat =>
    match closing with
    | .verdict _ => .noMatch
    | .snat target => .nat .source target.unmapped none
    | .dnat target port => .nat .destination target.unmapped port

namespace Part

def set? : Part → Option MatchSet
  | .portSet _ set _ _ => some set
  | .addressSet _ set _ _ => some set
  | .ctStateSet set _ => some set
  | _ => none

def interface? : Part → Option String
  | .inputInterface name _ => some name
  | .outputInterface name _ => some name
  | _ => none

/-- What a part asks of a packet. -/
def tests (members : Members) (p : Packet) : Part → Bool
  | .inputInterface name invert => p.arrivesOn name != invert
  | .outputInterface name invert => p.leavesBy name != invert
  | .protocol number => p.protocol == number
  | .echoRequest =>
    p.protocol == p.family.profile.icmpProtocol && p.icmpType == p.family.profile.echoRequestType
  | .netfilterFamily => true
  | .port dir number invert _ => (p.portField dir == portBytes number) != invert
  | .portRange dir low high _ =>
    Bytes.le (portBytes low) (p.portField dir) && Bytes.le (p.portField dir) (portBytes high)
  | .portSet dir set invert _ => members set.name (p.portField dir) != invert
  | .address dir a invert _ => (p.address dir == a.unmapped) != invert
  | .network dir n invert _ => n.covers (p.address dir) != invert
  | .addressSet dir set invert _ => members set.name (p.address dir).bytes != invert
  | .ctState states _ => p.meets states
  | .ctStateSet set invert => members set.name (Bytes.ofNatHost 4 p.ctState.toNat) != invert
  | .limit rate => !rate.beyond
  | .counter => true

/-- A part as it can be in a batch: the name of an interface has no null character, and an anonymous set
is looked up by the type of its keys and has elements of that type. -/
structure Declared (table : Table) (sets : List AnonymousSet) (part : Part) : Prop where
  interface : ∀ name, part.interface? = some name → Char.ofNat 0 ∉ name.toList
  set : ∀ set, part.set? = some set → ∀ s, findAnonymous? sets table set.name = some s →
    s.keyType = set.keyType ∧ ∀ e ∈ s.elements, e.hasWidth s.keyType = true

/-- The members of an anonymous set are its elements. -/
def Holds (table : Table) (sets : List AnonymousSet) (members : Members) (part : Part) : Prop :=
  ∀ set, part.set? = some set → ∀ s, findAnonymous? sets table set.name = some s →
    ∀ value, members set.name value = s.elements.any (·.contains value)

/-- A part that is written as it is meant: no interface is taken for a set, and every key of an anonymous
set is held by an element whose text denotes it. -/
structure Faithful (table : Table) (sets : List AnonymousSet) (part : Part) : Prop where
  interface : ∀ name, part.interface? = some name → isReference name = false
  set : ∀ set, part.set? = some set → ∀ s, findAnonymous? sets table set.name = some s →
    ∀ value, value.length = s.keyType.length → s.elements.any (·.contains value) = true →
      s.elements.any (fun e => !e.misread s.keyType && e.contains value) = true

theorem program_tests {part : Part} {f : Program} {members : Members} {p : Packet}
    (wf : p.wellFormed = true) (h : part.program p.family.profile = .ok f) :
    Tests members p f (part.tests members p) := by
  cases part with
  | inputInterface name invert => exact Predicate.interface_tests h
  | outputInterface name invert => exact Predicate.interface_tests h
  | protocol number =>
    cases h
    exact Predicate.protocol_tests wf number
  | echoRequest =>
    cases h
    exact Predicate.echoRequest_tests wf
  | netfilterFamily =>
    cases h
    have t : Tests members p _ _ := Predicate.netfilterFamily_tests p.family.profile
    rwa [beq_self_eq_true] at t
  | port dir number invert reg =>
    cases h
    exact Predicate.port_tests dir number invert reg
  | portRange dir low high reg => exact Predicate.portRange_tests h
  | portSet dir set invert reg => exact Predicate.portSet_tests h
  | address dir a invert reg => exact Predicate.address_tests wf h
  | network dir n invert reg => exact Predicate.network_tests wf h
  | addressSet dir set invert reg => exact Predicate.addressSet_tests wf h
  | ctState states reg =>
    cases h
    exact Predicate.ctState_tests states reg
  | ctStateSet set invert => exact Predicate.ctStateSet_tests h
  | limit rate =>
    cases h
    exact Predicate.limit_tests rate
  | counter =>
    cases h
    exact Predicate.counter_tests

end Part

end Firewall.Nft
