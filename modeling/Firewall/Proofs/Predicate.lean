import Firewall.Proofs.Fragment
import Firewall.Proofs.Network

namespace Firewall

open Program

theorem maskBytes_zero {mask : List UInt8} {len : Nat} (h : mask.length = len)
    (value : List UInt8) :
    maskBytes value mask (List.replicate len 0) = List.zipWith (· &&& ·) value mask := by
  subst h
  induction mask generalizing value with
  | nil => cases value <;> rfl
  | cons m mask ih =>
    cases value with
    | nil => rfl
    | cons v value =>
      have rest := ih value
      simp only [maskBytes] at rest
      simp [maskBytes, List.replicate_succ, rest]

theorem portBytes_inj {m n : UInt16} : portBytes m = portBytes n ↔ m = n := by
  rw [portBytes, portBytes, Bytes.ofNat_inj m.toNat_lt n.toNat_lt, UInt16.toNat_inj]

def Packet.meets (p : Packet) (s : CtState) : Bool := p.ctState &&& s.bits != 0

theorem Packet.address_family {p : Packet} (h : p.wellFormed = true) (dir : Direction) :
    (p.address dir).family = p.family := by
  cases dir with
  | source => rfl
  | destination => exact eq_of_beq h

namespace Predicate

variable {members : Members} {p : Packet} {f : Program}

/-- Only a name of 1 to 15 bytes is asked for. -/
theorem interface_ok {key : MetaKey} {name : String} {invert : Bool}
    (h : interface key name invert = .ok f) :
    0 < (Bytes.ofString name).length ∧ (Bytes.ofString name).length < interfaceNameLength.toNat ∧
      f = [.load (.metaKey key) defaultRegister, .compare (.equal invert) defaultRegister
        (Bytes.resize interfaceNameLength.toNat (Bytes.ofString name))] := by
  unfold interface interfaceBytes at h
  dsimp only at h
  split at h
  · rename_i data hb
    cases h
    split at hb
    · cases hb
    · rename_i fits
      cases hb
      exact ⟨by omega, by omega, rfl⟩
  · cases h

theorem interface_tests {key : MetaKey} {name : String} {invert : Bool}
    (h : interface key name invert = .ok f) :
    Tests members p f
      ((p.metaField key == Bytes.resize interfaceNameLength.toNat (Bytes.ofString name)) != invert) := by
  obtain ⟨-, -, rfl⟩ := interface_ok h
  rw [← Comparison.equal_holds]
  exact tests_compare rfl defaultRegister (.equal invert) _

theorem inputInterface_tests {name : String} (h : inputInterface name = .ok f) :
    Tests members p f (p.arrivesOn name) := by
  have t : Tests members p _ _ := interface_tests h
  rwa [Bool.bne_false] at t

theorem outputInterface_tests {name : String} (h : outputInterface name = .ok f) :
    Tests members p f (p.leavesBy name) := by
  have t : Tests members p _ _ := interface_tests h
  rwa [Bool.bne_false] at t

theorem notInputInterface_tests {name : String} (h : notInputInterface name = .ok f) :
    Tests members p f (!p.arrivesOn name) := by
  have t : Tests members p _ _ := interface_tests h
  rwa [Bool.bne_true] at t

theorem protocol_tests (h : p.wellFormed = true) (number : UInt8) :
    Tests members p (protocol p.family.profile number) (p.protocol == number) := by
  have t : Tests members p _ _ := tests_compare (Packet.field?_protocol h) defaultRegister .eq [number]
  rwa [Comparison.eq_holds, Bytes.beq_byte] at t

theorem echoRequest_tests (h : p.wellFormed = true) :
    Tests members p (echoRequest p.family.profile)
      (p.protocol == p.family.profile.icmpProtocol &&
        p.icmpType == p.family.profile.echoRequestType) := by
  have isIcmp : Tests members p _ _ := protocol_tests h p.family.profile.icmpProtocol
  have isRequest : Tests members p _ _ := tests_compare (Packet.field?_icmpType p) defaultRegister .eq
    [p.family.profile.echoRequestType]
  have t := isIcmp.append isRequest
  have e : (p.protocol == p.family.profile.icmpProtocol && Comparison.eq.holds
      (p.transportHeader.take 1) [p.family.profile.echoRequestType]) =
      (p.protocol == p.family.profile.icmpProtocol &&
        p.icmpType == p.family.profile.echoRequestType) := by
    cases hp : p.protocol == p.family.profile.icmpProtocol with
    | false => rfl
    | true =>
      rw [Packet.icmpType_eq (eq_of_beq hp), Comparison.eq_holds, Bytes.beq_byte]
  rwa [e] at t

theorem netfilterFamily_tests (profile : Profile) :
    Tests members p (netfilterFamily profile)
      (p.family.profile.netfilterNumber == profile.netfilterNumber) := by
  have found : p.field? (.metaKey .netfilterFamily) = some (p.metaField .netfilterFamily) := rfl
  have t : Tests members p _ _ := tests_compare found defaultRegister .eq [profile.netfilterNumber]
  rwa [Comparison.eq_holds, Packet.metaField, Bytes.beq_byte] at t

theorem port_tests (dir : Direction) (number : UInt16) (invert : Bool) (reg : Register) :
    Tests members p (port dir number invert reg)
      ((p.portField dir == portBytes number) != invert) := by
  rw [← Comparison.equal_holds]
  exact tests_compare (Packet.field?_port p dir) reg (.equal invert) (portBytes number)

theorem member_ok {load : Op} {reg : Register} {set : MatchSet} {needs : KeyType} {invert : Bool}
    (h : member load reg set needs invert = .ok f) : f = [load, .lookup reg set.ref invert] := by
  unfold member at h
  split at h
  · cases h
    rfl
  · cases h

theorem portSet_tests {dir : Direction} {set : MatchSet} {invert : Bool} {reg : Register}
    (h : portSet dir set invert reg = .ok f) :
    Tests members p f (members set.name (p.portField dir) != invert) := by
  rw [member_ok h]
  exact tests_lookup (Packet.field?_port p dir) reg set.ref invert

theorem addressSet_tests {dir : Direction} {set : MatchSet} {invert : Bool} {reg : Register}
    (wf : p.wellFormed = true) (h : addressSet p.family.profile dir set invert reg = .ok f) :
    Tests members p f (members set.name (p.address dir).bytes != invert) := by
  rw [member_ok h]
  exact tests_lookup (Packet.field?_address wf dir) reg set.ref invert

theorem ctStateSet_tests {set : MatchSet} {invert : Bool} (h : ctStateSet set invert = .ok f) :
    Tests members p f (members set.name (Bytes.ofNatHost 4 p.ctState.toNat) != invert) := by
  have found : p.field? .ctState = some (Bytes.ofNatHost 4 p.ctState.toNat) := rfl
  rw [member_ok h]
  exact tests_lookup found defaultRegister set.ref invert

theorem portRange_tests {dir : Direction} {low high : UInt16} {reg : Register}
    (h : portRange dir low high reg = .ok f) :
    Tests members p f (Bytes.le (portBytes low) (p.portField dir) &&
      Bytes.le (p.portField dir) (portBytes high)) := by
  unfold portRange at h
  split at h
  · cases h
  · cases h
    have above : Comparison.ge.holds (p.portField dir) (portBytes low) =
        Bytes.le (portBytes low) (p.portField dir) := by
      rw [Comparison.holds, Bytes.le, Bytes.order_swap]
      cases Bytes.order (portBytes low) (p.portField dir) <;> rfl
    have below : Comparison.le.holds (p.portField dir) (portBytes high) =
        Bytes.le (p.portField dir) (portBytes high) := rfl
    rw [← above, ← below]
    exact tests_between (Packet.field?_port p dir) reg .ge .le (portBytes low) (portBytes high)

theorem familyAddress_ok {profile : Profile} {a b : Address} (h : familyAddress profile a = .ok b) :
    b = a.unmapped ∧ b.family = profile.family := by
  unfold familyAddress at h
  split at h
  · rename_i fits
    cases h
    rw [Family.contains, Address.unmapped_unmapped, beq_iff_eq] at fits
    exact ⟨rfl, fits⟩
  · cases h

theorem address_tests {dir : Direction} {a : Address} {invert : Bool} {reg : Register}
    (wf : p.wellFormed = true) (h : address p.family.profile dir a invert reg = .ok f) :
    Tests members p f ((p.address dir == a.unmapped) != invert) := by
  unfold address at h
  split at h
  · rename_i b hb
    cases h
    obtain ⟨rfl, family⟩ := familyAddress_ok hb
    have same : (p.address dir).family = a.unmapped.family := by
      rw [Packet.address_family wf, family, p.family.profile_family]
    have t : Tests members p _ _ := tests_compare (Packet.field?_address wf dir) reg (.equal invert)
      a.unmapped.bytes
    have e : ((p.address dir).bytes == a.unmapped.bytes) = (p.address dir == a.unmapped) := by
      rw [Bool.eq_iff_iff, beq_iff_eq, beq_iff_eq, Address.bytes_inj same]
    rwa [Comparison.equal_holds, e] at t
  · cases h

theorem network_tests {dir : Direction} {n : Network} {invert : Bool} {reg : Register}
    (wf : p.wellFormed = true) (h : network p.family.profile dir n invert reg = .ok f) :
    Tests members p f (n.covers (p.address dir) != invert) := by
  unfold network at h
  split at h
  · rename_i family
    cases h
    have same : (p.address dir).family = n.address.family := by
      rw [Packet.address_family wf, family, p.family.profile_family]
    have length : n.mask.bytes.length = p.family.profile.addressLength.toNat := by
      rw [Address.bytes_length, n.mask_family, family, p.family.profile_family]
    refine tests_masked (Packet.field?_address wf dir) fun r hr => ?_
    have masked : r reg = Bytes.ofNat (p.address dir).family.profile.addressLength.toNat
        ((p.address dir).toNat &&& n.mask.toNat) := by
      rw [hr, Profile.zeroXor, maskBytes_zero length, Address.bytes_eq, Address.bytes_eq n.mask,
        n.mask_family, ← same, ← Bytes.ofNat_and]
    rw [Op.step, masked, Comparison.equal_holds, ← Network.covers_eq same]
  · cases h

theorem limit_tests (rate : RateLimit) : Tests members p (limit rate) (!rate.beyond) :=
  tests_guard fun _ => rfl

theorem counter_tests : Tests members p counter true :=
  tests_guard fun _ => rfl

theorem ctState_tests (s : CtState) (reg : Register) :
    Tests members p (ctState s reg) (p.meets s) := by
  have found : p.field? .ctState = some (Bytes.ofNatHost 4 p.ctState.toNat) := rfl
  refine tests_masked found ?_
  intro r h
  have zero : List.replicate 4 0 = Bytes.ofNatHost 4 0 := rfl
  have masked : r reg = Bytes.ofNatHost 4 (p.ctState &&& s.bits).toNat := by
    rw [h, maskBytes_zero (by rw [CtState.bytes, Bytes.ofNatHost_length]), CtState.bytes,
      ← Bytes.ofNatHost_and, UInt32.toNat_and]
  have same : (Bytes.ofNatHost 4 (p.ctState &&& s.bits).toNat != Bytes.ofNatHost 4 0) = p.meets s := by
    rw [Bool.eq_iff_iff, bne_iff_ne, Packet.meets, bne_iff_ne, Ne, Bytes.ofNatHost_inj
      (UInt32.toNat_lt _) (by decide), Ne, ← UInt32.toNat_inj]
    rfl
  rw [Op.step, masked, Comparison.ne_holds, zero, same]

end Predicate
end Firewall
