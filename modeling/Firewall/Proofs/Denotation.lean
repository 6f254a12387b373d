import Firewall.Proofs.RuleParts

namespace Firewall

open Program

/-- A fact, or its complement. -/
def Inverted (invert : Bool) (P : Prop) : Prop := if invert then ¬P else P

instance (invert : Bool) (P : Prop) [Decidable P] : Decidable (Inverted invert P) :=
  inferInstanceAs (Decidable (if invert then ¬P else P))

theorem bne_iff_inverted {b : Bool} {P : Prop} (h : b = true ↔ P) (invert : Bool) :
    (b != invert) = true ↔ Inverted invert P := by
  rw [Inverted, ← h]
  cases invert with
  | false => simp
  | true => simp

/-- Ports are compared as numbers, although it is their bytes that are compared. -/
theorem portBytes_le (m n : UInt16) :
    Bytes.le (portBytes m) (portBytes n) = decide (m.toNat ≤ n.toNat) :=
  Bytes.le_ofNat m.toNat_lt n.toNat_lt

/-- A name that the builders accept and that has no null character is one that an interface can have. -/
theorem Predicate.interface_named {key : MetaKey} {name : String} {invert : Bool} {f : Program}
    (h : Predicate.interface key name invert = .ok f) (plain : Char.ofNat 0 ∉ name.toList) :
    IsInterfaceName name := by
  obtain ⟨some, short, -⟩ := Predicate.interface_ok h
  exact ⟨some, Nat.le_of_lt_succ short, plain⟩

/-- The names of a packet's interfaces are such as a kernel can give. -/
structure Packet.Named (p : Packet) : Prop where
  input : ∀ name, p.inputInterface = some name → IsInterfaceName name
  output : ∀ name, p.outputInterface = some name → IsInterfaceName name

namespace Nft

variable {family : Family} {members : Members} {p : Packet} {v : Verdict} {part : Part}
  {parts : List Part} {f program : Program}

namespace Part

/-- What a part says of a packet for tables of a family. -/
def TrueOf (family : Family) (members : Members) (p : Packet) : Part → Prop
  | .inputInterface name invert => Inverted invert (p.inputInterface = some name)
  | .outputInterface name invert => Inverted invert (p.outputInterface = some name)
  | .protocol number => p.protocol = number
  | .echoRequest =>
    p.protocol = family.profile.icmpProtocol ∧ p.icmpType = family.profile.echoRequestType
  | .netfilterFamily => p.family = family
  | .port dir number invert _ => Inverted invert (p.port dir = number)
  | .portRange dir low high _ =>
    low.toNat ≤ (p.port dir).toNat ∧ (p.port dir).toNat ≤ high.toNat
  | .portSet dir set invert _ => Inverted invert (members set.name (portBytes (p.port dir)) = true)
  | .address dir a invert _ => Inverted invert (p.address dir = a.unmapped)
  | .network dir n invert _ => Inverted invert (n.covers (p.address dir) = true)
  | .addressSet dir set invert _ =>
    Inverted invert (members set.name (p.address dir).bytes = true)
  | .ctState states _ => p.ctState &&& states.bits ≠ 0
  | .ctStateSet set invert =>
    Inverted invert (members set.name (Bytes.ofNatHost 4 p.ctState.toNat) = true)
  | .limit rate => rate.beyond = false
  | .counter => True

instance (family : Family) (members : Members) (p : Packet) :
    (part : Part) → Decidable (part.TrueOf family members p)
  | .inputInterface _ _ => inferInstanceAs (Decidable (Inverted _ (_ = _)))
  | .outputInterface _ _ => inferInstanceAs (Decidable (Inverted _ (_ = _)))
  | .protocol _ => inferInstanceAs (Decidable (_ = _))
  | .echoRequest => inferInstanceAs (Decidable (_ ∧ _))
  | .netfilterFamily => inferInstanceAs (Decidable (_ = _))
  | .port _ _ _ _ => inferInstanceAs (Decidable (Inverted _ (_ = _)))
  | .portRange _ _ _ _ => inferInstanceAs (Decidable (_ ∧ _))
  | .portSet _ _ _ _ => inferInstanceAs (Decidable (Inverted _ (_ = _)))
  | .address _ _ _ _ => inferInstanceAs (Decidable (Inverted _ (_ = _)))
  | .network _ _ _ _ => inferInstanceAs (Decidable (Inverted _ (_ = _)))
  | .addressSet _ _ _ _ => inferInstanceAs (Decidable (Inverted _ (_ = _)))
  | .ctState _ _ => inferInstanceAs (Decidable (_ ≠ _))
  | .ctStateSet _ _ => inferInstanceAs (Decidable (Inverted _ (_ = _)))
  | .limit _ => inferInstanceAs (Decidable (_ = _))
  | .counter => inferInstanceAs (Decidable True)

/-- Whether a part looks at a port. -/
def readsPort : Part → Bool
  | .port _ _ _ _ => true
  | .portRange _ _ _ _ => true
  | .portSet _ _ _ _ => true
  | _ => false

/-- The test of the bytes of a packet decides what the part says. The ports have to be where they are read,
which they are not in a message of the family's ICMP. -/
theorem tests_iff_trueOf (same : p.family = family) (named : p.Named)
    (built : part.program family.profile = .ok f)
    (plain : ∀ name, part.interface? = some name → Char.ofNat 0 ∉ name.toList)
    (ports : part.readsPort = true → p.protocol ≠ family.profile.icmpProtocol) :
    part.tests members p = true ↔ part.TrueOf family members p := by
  subst same
  cases part with
  | inputInterface name invert =>
    have proper := Predicate.interface_named built (plain name rfl)
    have found := Packet.fieldNamed_eq named.input proper
    exact bne_iff_inverted ((congrArg (· = true) found).to_iff.trans beq_iff_eq) invert
  | outputInterface name invert =>
    have proper := Predicate.interface_named built (plain name rfl)
    have found := Packet.fieldNamed_eq named.output proper
    exact bne_iff_inverted ((congrArg (· = true) found).to_iff.trans beq_iff_eq) invert
  | protocol number => exact beq_iff_eq
  | echoRequest => exact Bool.and_eq_true_iff.trans (and_congr beq_iff_eq beq_iff_eq)
  | netfilterFamily => exact iff_of_true rfl rfl
  | port dir number invert reg =>
    refine bne_iff_inverted ?_ invert
    rw [beq_iff_eq, Packet.portField_eq (ports rfl)]
    exact portBytes_inj
  | portRange dir low high reg =>
    have field : p.portField dir = portBytes (p.port dir) := Packet.portField_eq (ports rfl) dir
    simp only [tests, TrueOf, field, portBytes_le, Bool.and_eq_true, decide_eq_true_eq]
  | portSet dir set invert reg =>
    have field : p.portField dir = portBytes (p.port dir) := Packet.portField_eq (ports rfl) dir
    refine bne_iff_inverted ?_ invert
    rw [field]
  | address dir a invert reg => exact bne_iff_inverted beq_iff_eq invert
  | network dir n invert reg => exact bne_iff_inverted Iff.rfl invert
  | addressSet dir set invert reg => exact bne_iff_inverted Iff.rfl invert
  | ctState states reg => exact bne_iff_ne
  | ctStateSet set invert => exact bne_iff_inverted Iff.rfl invert
  | limit rate => exact iff_of_eq (Bool.not_eq_true' _)
  | counter => exact iff_of_true rfl trivial

end Part

/-- The tests of a rule are those of its parts; a part leaves nothing in the registers that the test of a
later one would see. -/
theorem ruleProgram_tests (members : Members) (wf : p.wellFormed = true)
    (built : ruleProgram p.family.profile (.verdict v) parts = .ok program) :
    ∃ front, program = front ++ [.verdict v] ∧
      Tests members p front (parts.all (Part.tests members p)) := by
  induction parts generalizing program with
  | nil =>
    cases built
    exact ⟨[], rfl, Tests.nil⟩
  | cons part parts ih =>
    obtain ⟨f, rest, first, later, rfl⟩ := ruleProgram_cons built
    obtain ⟨front, rfl, tests⟩ := ih later
    exact ⟨f ++ front, (List.append_assoc f front _).symm, (Part.program_tests wf first).append tests⟩

theorem evaluate_tests (wf : p.wellFormed = true)
    (built : ruleProgram p.family.profile (.verdict v) parts = .ok program) :
    program.evaluate members p = if parts.all (Part.tests members p) then .verdict v else .noMatch := by
  obtain ⟨front, rfl, tests⟩ := ruleProgram_tests members wf built
  rw [evaluate, if_pos wf]
  exact run_verdict tests _ v

/-- A rule gives its verdict to exactly the packets of which all its parts are true. -/
theorem evaluate_denotes (wf : p.wellFormed = true) (same : p.family = family) (named : p.Named)
    (built : ruleProgram family.profile (.verdict v) parts = .ok program)
    (plain : ∀ part ∈ parts, ∀ name, part.interface? = some name → Char.ofNat 0 ∉ name.toList)
    (ports : (∃ part ∈ parts, part.readsPort = true) → p.protocol ≠ family.profile.icmpProtocol) :
    program.evaluate members p =
      if ∀ part ∈ parts, part.TrueOf family members p then .verdict v else .noMatch := by
  have tests : parts.all (Part.tests members p) = true ↔
      ∀ part ∈ parts, part.TrueOf family members p := by
    rw [List.all_eq_true]
    refine forall₂_congr fun part inside => ?_
    obtain ⟨f, made⟩ := ruleProgram_part built part inside
    exact Part.tests_iff_trueOf same named made (plain part inside) fun reads =>
      ports ⟨part, inside, reads⟩
  subst same
  rw [evaluate_tests wf built]
  exact if_congr tests rfl rfl

section Service

def closedPorts : MatchSet := .ofKeyType ⟨.ipv4, "service"⟩ "closed" .inetService

/-- New connections from outside the local network to an open port of a service. -/
def serviceParts : List Part :=
  [.inputInterface "wan0" false, .protocol protocolTcp,
   .network .source ⟨.v4 0x0A000000#32, 8, by decide⟩ true ⟨3⟩,
   .portRange .destination 8000 8100 ⟨2⟩, .portSet .destination closedPorts true ⟨2⟩, .ctState .new ⟨2⟩]

def servicePacket (number : UInt16) : Packet :=
  ⟨some "wan0", none, protocolTcp, .v4 0xCB007107#32, .v4 0xC6336402#32, 40000, number, 0, 0, 8⟩

def serviceMembers : Members := fun name value => name == "closed" && value == portBytes 8081

theorem evaluate_denotes_service :
    ∃ program, ruleProgram Family.ipv4.profile (.verdict .accept) serviceParts = .ok program ∧
      program.evaluate serviceMembers (servicePacket 8080) = .verdict .accept ∧
      program.evaluate serviceMembers (servicePacket 8081) = .noMatch := by
  have named : ∀ number, (servicePacket number).Named := by
    intro number
    constructor
    · intro name h
      cases h
      decide
    · intro name h
      cases h
  have plain : ∀ part ∈ serviceParts, ∀ name, part.interface? = some name →
      Char.ofNat 0 ∉ name.toList := by
    intro part inside name h
    have wan : name = "wan0" := by
      simp only [serviceParts, List.mem_cons, List.not_mem_nil, or_false] at inside
      rcases inside with rfl | rfl | rfl | rfl | rfl | rfl <;> cases h
      rfl
    rw [wan]
    decide
  have exists_program : ∃ program, ruleProgram Family.ipv4.profile (.verdict .accept) serviceParts =
      .ok program := ⟨_, rfl⟩
  obtain ⟨program, built⟩ := exists_program
  refine ⟨program, built, ?_, ?_⟩
  · rw [evaluate_denotes rfl rfl (named 8080) built plain fun _ => by decide]
    exact if_pos (by decide)
  · rw [evaluate_denotes rfl rfl (named 8081) built plain fun _ => by decide]
    exact if_neg (by decide)

end Service

end Nft
end Firewall
