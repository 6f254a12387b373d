import Firewall.Proofs.Admission
import Firewall.Proofs.Baseline

namespace Firewall

def FitsInterface (name : String) : Prop :=
  1 ≤ (Bytes.ofString name).length ∧ (Bytes.ofString name).length ≤ 15

theorem IsInterfaceName.fits {name : String} (h : IsInterfaceName name) : FitsInterface name :=
  ⟨h.1, h.2.1⟩

/-- A batch declares a set of a table, for keys of a type. -/
structure Declares (batch : Batch) (t : Table) (k : KeyType) (set : MatchSet) : Prop where
  table : set.table = t
  keyType : set.keyType = k
  declared : ∃ elements, .addSet set elements ∈ batch

theorem Declares.mono {batch batch' : Batch} {t : Table} {k : KeyType} {set : MatchSet}
    (h : Declares batch t k set) (more : batch ⊆ batch') : Declares batch' t k set := by
  obtain ⟨table, key, elements, declared⟩ := h
  exact ⟨table, key, elements, more declared⟩

/-- The lookups of a program are in sets of a table that a batch declares. -/
def Finds (batch : Batch) (t : Table) (program : Program) : Prop :=
  ∀ s ∈ program.sets, ∃ (set : MatchSet) (elements : List Element),
    .addSet set elements ∈ batch ∧ set.table = t ∧ set.ref = s

namespace Finds

variable {batch : Batch} {t : Table} {f g : Program}

theorem none (h : f.sets = []) : Finds batch t f := by
  intro s hs
  rw [h] at hs
  cases hs

theorem append (hf : Finds batch t f) (hg : Finds batch t g) : Finds batch t (f ++ g) := by
  intro s hs
  rw [Program.sets, List.filterMap_append] at hs
  rcases List.mem_append.mp hs with first | second
  · exact hf s first
  · exact hg s second

end Finds

namespace Compiler

open Nft Predicate

/-- Fragments of a rule as the builders return them: parts without a range of ports, and an end. -/
structure Assembles (batch : Batch) (t : Table) (fragments : List (Except Error Program)) : Prop where
  built : ∃ programs, Spec.readAll (fun part => part) fragments = .ok programs ∧
    Finds batch t programs.flatten ∧
    ∃ parts closing, ruleProgram t.family.profile closing parts = .ok programs.flatten ∧
      ∀ part ∈ parts, part.isPortRange = false

namespace Assembles

variable {batch : Batch} {t : Table} {fragments : List (Except Error Program)} {f : Program}

theorem ending (closing : Closing) (built : closing.program t.family.profile = .ok f)
    (nothing : f.sets = []) : Assembles batch t [closing.program t.family.profile] := by
  have alone : [f].flatten = f := List.append_nil f
  refine ⟨[f], ?_, ?_, [], closing, ?_, fun part hp => absurd hp List.not_mem_nil⟩
  · rw [built]
    rfl
  · rw [alone]
    exact .none nothing
  · rw [alone]
    exact built

theorem part (part : Part) (built : part.program t.family.profile = .ok f)
    (single : part.isPortRange = false) (finds : Finds batch t f) (rest : Assembles batch t fragments) :
    Assembles batch t (part.program t.family.profile :: fragments) := by
  obtain ⟨programs, read, found, parts, closing, rule, plain⟩ := rest.built
  refine ⟨f :: programs, ?_, finds.append found, part :: parts, closing, ?_,
    List.forall_mem_cons.mpr ⟨single, plain⟩⟩
  · rw [Spec.readAll, built, read]
  · rw [ruleProgram, built, rule]
    rfl

theorem verdict (v : Verdict) : Assembles batch t [.ok (Predicate.verdict v)] := ending (.verdict v) rfl rfl

theorem familyAddress_own {p : Profile} {a : Address} (own : p.family.contains a = true) :
    familyAddress p a = .ok a.unmapped := by
  have same : p.family.contains a.unmapped = true := by
    unfold Family.contains at own ⊢
    rwa [a.unmapped_unmapped]
  rw [familyAddress, if_pos same]

theorem snat {a : Address} (own : t.family.contains a = true) :
    Assembles batch t [Predicate.snat t.family.profile a] := by
  have address : familyAddress t.family.profile a = .ok a.unmapped :=
    familyAddress_own (by rwa [t.family.profile_family])
  have built : Predicate.snat t.family.profile a =
      .ok [.immediate defaultRegister a.unmapped.bytes,
        .nat .source t.family.profile.family (some defaultRegister) none] := by
    rw [Predicate.snat, address]
  exact ending (.snat a) built rfl

theorem interface_built {name : String} (fits : FitsInterface name) (key : MetaKey) (invert : Bool) :
    ∃ f, interface key name invert = .ok f ∧ f.sets = [] := by
  have width : ¬ ((Bytes.ofString name).length = 0 ∨
      interfaceNameLength.toNat ≤ (Bytes.ofString name).length) := by
    have bound : interfaceNameLength.toNat = 16 := rfl
    obtain ⟨some, short⟩ := fits
    omega
  refine ⟨[.load (.metaKey key) defaultRegister, .compare (.equal invert) defaultRegister
    (Bytes.resize interfaceNameLength.toNat (Bytes.ofString name))], ?_, rfl⟩
  unfold interface interfaceBytes
  dsimp only
  rw [if_neg width]

/-- A lookup is built if the set has keys of the type that is looked up. -/
theorem member_built {set : MatchSet} {needs : KeyType} (declares : Declares batch t needs set)
    (field : Field) (reg : Register) (invert : Bool) :
    ∃ f, member (.load field reg) reg set needs invert = .ok f ∧ Finds batch t f := by
  obtain ⟨table, key, elements, declared⟩ := declares
  refine ⟨[.load field reg, .lookup reg set.ref invert], ?_, ?_⟩
  · rw [member, expectKey, if_pos key]
  · intro s hs
    have same : set.ref = s := by simpa [Program.sets, Op.set?] using hs
    exact ⟨set, elements, declared, table, same⟩

section Parts

variable (rest : Assembles batch t fragments)
include rest

theorem input {name : String} (fits : FitsInterface name) :
    Assembles batch t (inputInterface name :: fragments) := by
  obtain ⟨f, built, nothing⟩ := interface_built fits .inputInterface false
  exact rest.part (.inputInterface name false) built rfl (.none nothing)

theorem notInput {name : String} (fits : FitsInterface name) :
    Assembles batch t (notInputInterface name :: fragments) := by
  obtain ⟨f, built, nothing⟩ := interface_built fits .inputInterface true
  exact rest.part (.inputInterface name true) built rfl (.none nothing)

theorem output {name : String} (fits : FitsInterface name) :
    Assembles batch t (outputInterface name :: fragments) := by
  obtain ⟨f, built, nothing⟩ := interface_built fits .outputInterface false
  exact rest.part (.outputInterface name false) built rfl (.none nothing)

theorem protocol (number : UInt8) :
    Assembles batch t (.ok (Predicate.protocol t.family.profile number) :: fragments) :=
  rest.part (.protocol number) rfl rfl (.none rfl)

theorem echoRequest : Assembles batch t (.ok (Predicate.echoRequest t.family.profile) :: fragments) :=
  rest.part .echoRequest rfl rfl (.none rfl)

theorem state (s : CtState) : Assembles batch t (inState s :: fragments) :=
  rest.part (.ctState s defaultRegister) rfl rfl (.none rfl)

theorem port (dir : Direction) (number : UInt16) :
    Assembles batch t (.ok (Predicate.port dir number false defaultRegister) :: fragments) :=
  rest.part (.port dir number false defaultRegister) rfl rfl (.none rfl)

theorem loopback :
    Assembles batch t (sourceNetwork t.family.profile t.family.profile.family.loopbackNetwork ::
      fragments) := by
  have built : sourceNetwork t.family.profile t.family.profile.family.loopbackNetwork =
      .ok [loadAddress t.family.profile .source defaultRegister,
        .bitwise defaultRegister defaultRegister t.family.profile.addressLength
          t.family.profile.family.loopbackNetwork.mask.bytes t.family.profile.zeroXor,
        .compare (.equal false) defaultRegister
          t.family.profile.family.loopbackNetwork.base.bytes] := by
    rw [sourceNetwork, network, if_pos]
    cases t.family <;> rfl
  exact rest.part (.network .source _ false defaultRegister) built rfl (.none rfl)

theorem ports (dir : Direction) {set : MatchSet} (declares : Declares batch t .inetService set) :
    Assembles batch t (portSet dir set false defaultRegister :: fragments) := by
  obtain ⟨f, built, finds⟩ := member_built declares _ defaultRegister false
  exact rest.part (.portSet dir set false defaultRegister) built rfl finds

theorem addresses (dir : Direction) {set : MatchSet}
    (declares : Declares batch t t.family.profile.family.keyType set) :
    Assembles batch t (addressSet t.family.profile dir set false defaultRegister :: fragments) := by
  obtain ⟨f, built, finds⟩ := member_built declares _ defaultRegister false
  exact rest.part (.addressSet dir set false defaultRegister) built rfl finds

end Parts

end Assembles

section Groups

variable {batch : Batch} {rs rs' : List (Except Error PlannedRule)}
  {gs gs' : List (Except Error (List PlannedRule))} {r : Except Error PlannedRule}
  {g : Except Error (List PlannedRule)}

/-- A planned rule in a chain that a batch declares, from the builders. -/
structure Placed (batch : Batch) (r : PlannedRule) : Prop where
  chain : .addChain r.chain ∈ batch
  finds : Finds batch r.chain.table r.data.program
  built : ∃ parts closing,
    ruleProgram r.chain.table.family.profile closing parts = .ok r.data.program ∧
      ∀ part ∈ parts, part.isPortRange = false

/-- A rule that can be built, as a batch has it. -/
def Builds (batch : Batch) (r : Except Error PlannedRule) : Prop :=
  ∃ planned, r = .ok planned ∧ Placed batch planned

/-- Rules that can be built together, as a batch has them. -/
def Sound (batch : Batch) (g : Except Error (List PlannedRule)) : Prop :=
  ∃ plan, g = .ok plan ∧ ∀ r ∈ plan, Placed batch r

theorem Assembles.rule {chain : Chain} {t : Table} {fragments : List (Except Error Program)}
    (h : Assembles batch t fragments) (there : .addChain chain ∈ batch ∧ chain.table = t) (id : String) :
    Builds batch (rule chain id fragments) := by
  obtain ⟨declared, rfl⟩ := there
  obtain ⟨programs, read, finds, built⟩ := h.built
  refine ⟨⟨chain, .named id programs.flatten⟩, ?_, declared, finds, built⟩
  rw [Compiler.rule, read]

theorem sound_nil : Sound batch (.ok []) := ⟨[], rfl, fun _ h => absurd h List.not_mem_nil⟩

theorem sound_cons (first : Builds batch r) (rest : Sound batch (rules rs)) :
    Sound batch (rules (r :: rs)) := by
  obtain ⟨planned, rfl, placed⟩ := first
  obtain ⟨plan, read, all⟩ := rest
  refine ⟨planned :: plan, ?_, List.forall_mem_cons.mpr ⟨placed, all⟩⟩
  have later : Spec.readAll (fun r => r) rs = .ok plan := read
  rw [rules, Spec.readAll, later]

theorem sound_append (front : Sound batch (rules rs)) (back : Sound batch (rules rs')) :
    Sound batch (rules (rs ++ rs')) := by
  induction rs with
  | nil => exact back
  | cons r rs ih =>
    obtain ⟨plan, read, all⟩ := front
    obtain ⟨planned, rest, rfl, later, rfl⟩ := Spec.readAll_cons read
    obtain ⟨placed, others⟩ := List.forall_mem_cons.mp all
    exact sound_cons ⟨planned, rfl, placed⟩ (ih ⟨rest, later, others⟩)

theorem sound_if {wanted : Bool} (h : wanted = true → Sound batch (rules rs)) :
    Sound batch (rules (if wanted then rs else [])) := by
  cases wanted with
  | true => exact h rfl
  | false => exact sound_nil

theorem sound_groups (h : ∀ g ∈ gs, Sound batch g) : Sound batch (groups gs) := by
  induction gs with
  | nil => exact sound_nil
  | cons g gs ih =>
    obtain ⟨first, rest⟩ := List.forall_mem_cons.mp h
    obtain ⟨front, rfl, placed⟩ := first
    obtain ⟨back, read, all⟩ := ih rest
    obtain ⟨plans, later, rfl⟩ := groups_ok read
    refine ⟨front ++ plans.flatten, ?_, List.forall_mem_append.mpr ⟨placed, all⟩⟩
    rw [groups, Spec.readAll, later]
    rfl

end Groups

/-- A batch declares the chains and sets that the rules of outside interfaces refer to. -/
structure Serves (c : Compiler) (batch : Batch) : Prop where
  input : .addChain c.layout.input ∈ batch ∧ c.layout.input.table = c.layout.filter
  output : .addChain c.layout.output ∈ batch ∧ c.layout.output.table = c.layout.filter
  trusted : Declares batch c.layout.filter c.profile.family.keyType c.layout.trusted
  trustedPorts : Declares batch c.layout.filter .inetService c.layout.trustedPorts
  httpPorts : c.config.services.http = true →
    Declares batch c.layout.filter .inetService c.layout.httpPorts
  smtpPorts : c.config.services.smtp = true →
    Declares batch c.layout.filter .inetService c.layout.smtpPorts

structure ServesAll (c : Compiler) (batch : Batch) : Prop extends Serves c batch where
  forward : .addChain c.layout.forward ∈ batch ∧ c.layout.forward.table = c.layout.filter
  postrouting : .addChain c.layout.postrouting ∈ batch ∧ c.layout.postrouting.table = c.layout.nat
  family : c.layout.nat.family = c.layout.filter.family
  manager : Declares batch c.layout.filter c.profile.family.keyType c.layout.manager
  forwarded : Declares batch c.layout.filter c.profile.family.keyType c.layout.forwarded
  blacklist : Declares batch c.layout.filter c.profile.family.keyType c.layout.blacklist
  managerPorts : Declares batch c.layout.filter .inetService c.layout.managerPorts

theorem Serves.mono {c : Compiler} {batch batch' : Batch} (h : c.Serves batch) (more : batch ⊆ batch') :
    c.Serves batch' where
  input := h.input.imp_left fun there => more there
  output := h.output.imp_left fun there => more there
  trusted := h.trusted.mono more
  trustedPorts := h.trustedPorts.mono more
  httpPorts wanted := (h.httpPorts wanted).mono more
  smtpPorts wanted := (h.smtpPorts wanted).mono more

section Policy

variable {c : Compiler} {batch : Batch} {i : String}

theorem loopback_fits : FitsInterface loopbackInterface := by
  constructor <;> decide

theorem loopback_sound (serves : c.Serves batch) : Sound batch c.loopback := by
  refine sound_cons ?_ (sound_cons ?_ (sound_cons ?_ sound_nil))
  · exact Assembles.rule ((Assembles.verdict _).input loopback_fits) serves.input _
  · exact Assembles.rule ((Assembles.verdict _).loopback.notInput loopback_fits) serves.input _
  · exact Assembles.rule ((Assembles.verdict _).output loopback_fits) serves.output _

theorem hostBase_sound (serves : c.Serves batch) (fits : FitsInterface i) :
    Sound batch (c.hostBase i) := by
  refine sound_cons ?_ (sound_cons ?_ sound_nil)
  · exact Assembles.rule ((((Assembles.verdict _).state _).protocol _).input fits) serves.input _
  · exact Assembles.rule ((((Assembles.verdict _).state _).protocol _).output fits) serves.output _

theorem dnsOver_sound (serves : c.Serves batch) (fits : FitsInterface i) (name : String) (number : UInt8) :
    Sound batch (rules (c.dnsOver i name (protocol c.profile number))) := by
  refine sound_cons ?_ (sound_cons ?_ sound_nil)
  · exact Assembles.rule (((((Assembles.verdict _).state _).port _ _).protocol _).output fits)
      serves.output _
  · exact Assembles.rule (((((Assembles.verdict _).state _).port _ _).protocol _).input fits)
      serves.input _

theorem services_sound (serves : c.Serves batch) (fits : FitsInterface i) :
    Sound batch (c.services i) := by
  refine sound_append (sound_append (sound_if fun _ => ?_) (sound_if fun wanted => ?_))
    (sound_if fun wanted => ?_)
  · exact sound_append (dnsOver_sound serves fits "udp" _) (dnsOver_sound serves fits "tcp" _)
  · have ports := serves.httpPorts wanted
    refine sound_cons ?_ (sound_cons ?_ sound_nil)
    · exact Assembles.rule (((((Assembles.verdict _).state _).ports _ ports).protocol _).input fits)
        serves.input _
    · exact Assembles.rule (((((Assembles.verdict _).state _).ports _ ports).protocol _).output fits)
        serves.output _
  · have ports := serves.smtpPorts wanted
    refine sound_cons ?_ (sound_cons ?_ sound_nil)
    · exact Assembles.rule (((((Assembles.verdict _).state _).ports _ ports).protocol _).output fits)
        serves.output _
    · exact Assembles.rule (((((Assembles.verdict _).state _).ports _ ports).protocol _).input fits)
        serves.input _

theorem trusted_sound (serves : c.Serves batch) (fits : FitsInterface i) :
    Sound batch (c.trusted i) := by
  have ports := serves.trustedPorts
  have sources := serves.trusted
  refine sound_cons ?_ (sound_cons ?_ (sound_cons ?_ sound_nil))
  · exact Assembles.rule (((((Assembles.verdict _).state _).addresses _ sources).echoRequest).input fits)
      serves.input _
  · exact Assembles.rule
      ((((((Assembles.verdict _).state _).addresses _ sources).ports _ ports).protocol _).input fits)
      serves.input _
  · exact Assembles.rule
      ((((((Assembles.verdict _).state _).addresses _ sources).ports _ ports).protocol _).output fits)
      serves.output _

theorem overlayPort_sound (serves : c.Serves batch) (fits : FitsInterface i) :
    Sound batch (c.overlayPort i) := by
  unfold overlayPort
  dsimp only
  split
  · exact sound_nil
  · refine sound_cons ?_ (sound_cons ?_ sound_nil)
    · exact Assembles.rule ((((Assembles.verdict _).port _ _).protocol _).input fits) serves.input _
    · exact Assembles.rule ((((Assembles.verdict _).port _ _).protocol _).output fits) serves.output _

theorem common_sound (serves : c.Serves batch) (fits : FitsInterface i) : Sound batch (c.common i) := by
  refine sound_groups (List.forall_mem_cons.mpr ⟨hostBase_sound serves fits, ?_⟩)
  exact List.forall_mem_cons.mpr ⟨services_sound serves fits,
    List.forall_mem_singleton.mpr (trusted_sound serves fits)⟩

theorem interfaceRules_sound (serves : c.Serves batch) (fits : FitsInterface i) :
    Sound batch (c.interfaceRules i) :=
  sound_groups (List.forall_mem_cons.mpr ⟨common_sound serves fits,
    List.forall_mem_singleton.mpr (overlayPort_sound serves fits)⟩)

theorem blacklist_sound (serves : c.ServesAll batch) : Sound batch c.blacklist :=
  sound_cons (Assembles.rule ((Assembles.verdict _).addresses _ serves.blacklist) serves.input _) sound_nil

theorem overlay_sound (serves : c.ServesAll batch)
    (fits : c.config.hasOverlay = true → FitsInterface c.config.overlayInterface) :
    Sound batch c.overlay := by
  unfold overlay
  dsimp only
  split
  · exact sound_nil
  · rename_i has
    have inside := fits (by simpa using has)
    have ports := serves.managerPorts
    have managers := serves.manager
    refine sound_cons ?_ (sound_cons ?_ (sound_cons ?_ (sound_cons ?_ (sound_cons ?_ sound_nil))))
    · exact Assembles.rule ((((Assembles.verdict _).state _).echoRequest).input inside) serves.input _
    · exact Assembles.rule ((((Assembles.verdict _).state _).protocol _).input inside) serves.input _
    · exact Assembles.rule
        ((((((Assembles.verdict _).state _).addresses _ managers).ports _ ports).protocol _).input inside)
        serves.input _
    · exact Assembles.rule ((((Assembles.verdict _).state _).protocol _).output inside) serves.output _
    · exact Assembles.rule
        ((((((Assembles.verdict _).state _).addresses _ managers).ports _ ports).protocol _).output inside)
        serves.output _

theorem forward_sound (serves : c.ServesAll batch) (outside : FitsInterface c.outsideInterface)
    (fits : c.config.hasOverlay = true → FitsInterface c.config.overlayInterface) :
    Sound batch c.forward := by
  have forwarded := serves.forwarded
  refine sound_cons ?_ (sound_if fun has => ?_)
  · exact Assembles.rule (((Assembles.verdict _).port _ _).protocol _) serves.forward _
  · have inside := fits has
    refine sound_cons ?_ (sound_cons ?_ (sound_cons ?_ sound_nil))
    · exact Assembles.rule
        ((((Assembles.verdict _).output outside).addresses _ forwarded).input inside) serves.forward _
    · exact Assembles.rule
        (((((Assembles.verdict _).state _).output inside).addresses _ forwarded).input outside)
        serves.forward _
    · exact Assembles.rule (((Assembles.verdict _).output inside).input inside) serves.forward _

theorem nat_sound (serves : c.ServesAll batch) (outside : FitsInterface c.outsideInterface)
    (own : c.layout.filter.family.contains c.outsideAddress = true) : Sound batch c.nat := by
  have translates : Assembles batch c.layout.nat [snat c.profile c.outsideAddress] := by
    unfold profile
    rw [← serves.family] at own ⊢
    exact .snat own
  exact sound_cons (Assembles.rule (translates.output outside) serves.postrouting _) sound_nil

variable (outside : FitsInterface c.outsideInterface)
  (listed : ∀ i ∈ c.config.interfaces, FitsInterface i)
include outside listed

theorem interfaces_fit : ∀ i ∈ c.interfaces, FitsInterface i := by
  intro i hi
  rcases mem_addNames.mp hi with first | other
  · rw [List.mem_singleton.mp first]
    exact outside
  · exact listed i other

theorem cleanup_sound (serves : c.Serves batch) : Sound batch c.cleanup := by
  refine sound_groups (List.forall_mem_cons.mpr ⟨loopback_sound serves, fun g hg => ?_⟩)
  obtain ⟨i, hi, rfl⟩ := List.mem_map.mp hg
  exact common_sound serves (interfaces_fit outside listed i hi)

/-- The policy can be compiled, whatever services, ports, interfaces and overlay it is for. -/
theorem baseline_sound (serves : c.ServesAll batch)
    (overlay : c.config.hasOverlay = true → FitsInterface c.config.overlayInterface)
    (own : c.layout.filter.family.contains c.outsideAddress = true) : Sound batch c.baseline := by
  refine sound_groups (List.forall_mem_append.mpr ⟨List.forall_mem_append.mpr ⟨?_, fun g hg => ?_⟩, ?_⟩)
  · exact List.forall_mem_cons.mpr ⟨loopback_sound serves.toServes,
      List.forall_mem_singleton.mpr (blacklist_sound serves)⟩
  · obtain ⟨i, hi, rfl⟩ := List.mem_map.mp hg
    exact interfaceRules_sound serves.toServes (interfaces_fit outside listed i hi)
  · exact List.forall_mem_cons.mpr ⟨overlay_sound serves overlay, List.forall_mem_cons.mpr
      ⟨forward_sound serves outside overlay, List.forall_mem_singleton.mpr (nat_sound serves outside own)⟩⟩

end Policy
end Compiler
end Firewall
