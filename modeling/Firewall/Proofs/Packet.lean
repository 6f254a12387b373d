import Firewall.Packet
import Firewall.Proofs.Bytes
import Firewall.Proofs.Utf8

namespace Firewall

/-- A name that a kernel can give an interface: 1 to 15 bytes, none of them zero. -/
def IsInterfaceName (name : String) : Prop :=
  0 < (Bytes.ofString name).length ∧ (Bytes.ofString name).length ≤ 15 ∧ Char.ofNat 0 ∉ name.toList

instance (name : String) : Decidable (IsInterfaceName name) :=
  inferInstanceAs (Decidable (_ ∧ _ ∧ _))

theorem Family.profile_family (f : Family) : f.profile.family = f := by
  cases f <;> rfl

theorem Address.bytes_length (a : Address) :
    a.bytes.length = a.family.profile.addressLength.toNat := by
  cases a <;> simp [bytes, family, Family.profile]

namespace Packet

def address (p : Packet) : Direction → Address
  | .source => p.source
  | .destination => p.destination

def port (p : Packet) : Direction → UInt16
  | .source => p.sourcePort
  | .destination => p.destinationPort

/-- The bytes of the transport header where a port is read, whatever the protocol. -/
def portField (p : Packet) (dir : Direction) : List UInt8 :=
  (p.transportHeader.drop (portOffset dir).toNat).take 2

def fieldNamed (name : Option String) (i : String) : Bool :=
  interfaceField name == Bytes.resize interfaceNameLength.toNat (Bytes.ofString i)

/-- Whether a packet arrived on the interface with that name, as far as its field tells. -/
def arrivesOn (p : Packet) (i : String) : Bool := fieldNamed p.inputInterface i

def leavesBy (p : Packet) (i : String) : Bool := fieldNamed p.outputInterface i

end Packet

theorem resize_short {bs : List UInt8} {len : Nat} (h : bs.length ≤ len) :
    Bytes.resize len bs = bs ++ List.replicate (len - bs.length) 0 := by
  rw [Bytes.resize, List.take_of_length_le h]

/-- The zeros that fill a field are not taken for a part of the name. -/
theorem takeWhile_resize {bs : List UInt8} {len : Nat} (h : bs.length ≤ len) (zero : 0 ∉ bs) :
    (Bytes.resize len bs).takeWhile (· != 0) = bs := by
  have all : ∀ b ∈ bs, (b != 0) = true := by
    intro b hb
    rw [bne_iff_ne]
    intro e
    exact zero (e ▸ hb)
  rw [resize_short h, List.takeWhile_append_of_pos all, List.takeWhile_replicate]
  simp

theorem resize_inj {as bs : List UInt8} {len : Nat} (ha : as.length ≤ len) (hb : bs.length ≤ len)
    (za : 0 ∉ as) (zb : 0 ∉ bs) : Bytes.resize len as = Bytes.resize len bs ↔ as = bs := by
  constructor
  · intro h
    rw [← takeWhile_resize ha za, h, takeWhile_resize hb zb]
  · intro h
    rw [h]

namespace IsInterfaceName

variable {name : String}

theorem length_le (h : IsInterfaceName name) :
    (Bytes.ofString name).length ≤ interfaceNameLength.toNat :=
  Nat.le_succ_of_le h.2.1

theorem zero_not_mem (h : IsInterfaceName name) : 0 ∉ Bytes.ofString name :=
  Utf8.zero_not_mem_ofString h.2.2

end IsInterfaceName

namespace Packet

/-- A field tells interfaces apart: by the name that it holds, and from no interface. -/
theorem fieldNamed_eq {field : Option String} {i : String}
    (hf : ∀ name, field = some name → IsInterfaceName name) (hi : IsInterfaceName i) :
    fieldNamed field i = (field == some i) := by
  rw [Bool.eq_iff_iff, fieldNamed, beq_iff_eq, beq_iff_eq]
  cases field with
  | none =>
    have pos := hi.1
    have empty : Bytes.ofString "" = [] := rfl
    simp only [interfaceField, Option.getD_none, empty, reduceCtorEq, iff_false]
    rw [resize_inj (by simp) hi.length_le (by simp) hi.zero_not_mem]
    intro h
    rw [← h] at pos
    exact absurd pos (Nat.lt_irrefl 0)
  | some name =>
    have hn := hf name rfl
    simp only [interfaceField, Option.getD_some, Option.some.injEq]
    rw [resize_inj hn.length_le hi.length_le hn.zero_not_mem hi.zero_not_mem]
    exact Utf8.ofString_inj

theorem slice?_middle (as bs cs : List UInt8) {start stop : Nat} (hs : start = as.length)
    (he : stop = as.length + bs.length) : slice? (as ++ bs ++ cs) start stop = some bs := by
  subst hs he
  simp [slice?]

theorem field?_network (p : Packet) (offset length : UInt32) :
    p.field? (.payload .network offset length) =
      p.networkHeader?.bind fun bs => slice? bs offset.toNat (offset + length).toNat := rfl

/-- The addresses of a well-formed packet are of one family. -/
theorem wellFormed_cases {p : Packet} (h : p.wellFormed = true) :
    (∃ s d, p.source = .v4 s ∧ p.destination = .v4 d) ∨
      ∃ s d, p.source = .v6 s ∧ p.destination = .v6 d := by
  simp only [wellFormed, family, beq_iff_eq] at h
  cases hs : p.source <;> cases hd : p.destination <;> simp_all [Address.family]

/-- A network header is zeros around the protocol, then the two addresses. -/
theorem networkHeader?_eq {p : Packet} (h : p.wellFormed = true) :
    ∃ before behind : List UInt8,
      before.length = p.family.profile.protocolOffset.toNat ∧
      before.length + 1 + behind.length = p.family.profile.sourceOffset.toNat ∧
      p.networkHeader? =
        some (before ++ [p.protocol] ++ (behind ++ p.source.bytes ++ p.destination.bytes)) := by
  rcases wellFormed_cases h with ⟨s, d, hs, hd⟩ | ⟨s, d, hs, hd⟩
  · refine ⟨List.replicate 9 0, [0, 0], ?_, ?_, ?_⟩
    · simp [family, hs, Address.family, Family.profile]
    · simp [family, hs, Address.family, Family.profile]
    · simp only [networkHeader?, hs, hd, Address.bytes]
      rfl
  · refine ⟨List.replicate 6 0, [0], ?_, ?_, ?_⟩
    · simp [family, hs, Address.family, Family.profile]
    · simp [family, hs, Address.family, Family.profile]
    · simp only [networkHeader?, hs, hd, Address.bytes]
      rfl

theorem field?_protocol {p : Packet} (h : p.wellFormed = true) :
    p.field? (.payload .network p.family.profile.protocolOffset protocolLength) =
      some [p.protocol] := by
  obtain ⟨before, behind, offset, -, header⟩ := networkHeader?_eq h
  have stop : (p.family.profile.protocolOffset + protocolLength).toNat = before.length + 1 := by
    rw [offset]
    cases p.family <;> rfl
  rw [field?_network, header, Option.bind_some]
  exact slice?_middle before [p.protocol] _ offset.symm stop

theorem field?_address {p : Packet} (h : p.wellFormed = true) (dir : Direction) :
    p.field? (.payload .network (p.family.profile.addressOffset dir) p.family.profile.addressLength)
      = some (p.address dir).bytes := by
  obtain ⟨before, behind, -, offset, header⟩ := networkHeader?_eq h
  have source : p.source.bytes.length = p.family.profile.addressLength.toNat := by
    rw [Address.bytes_length]
    rfl
  have destination : p.destination.bytes.length = p.family.profile.addressLength.toNat := by
    rw [Address.bytes_length, eq_of_beq h]
  have front : (before ++ [p.protocol] ++ behind).length = p.family.profile.sourceOffset.toNat := by
    rw [List.length_append, List.length_append, List.length_singleton, offset]
  rw [field?_network, header, Option.bind_some]
  cases dir with
  | source =>
    have stop : (p.family.profile.sourceOffset + p.family.profile.addressLength).toNat =
        p.family.profile.sourceOffset.toNat + p.family.profile.addressLength.toNat := by
      cases p.family <;> rfl
    have e := slice?_middle (before ++ [p.protocol] ++ behind) p.source.bytes p.destination.bytes
      front.symm (stop.trans (by rw [front, source]))
    simpa only [Profile.addressOffset, address, List.append_assoc] using e
  | destination =>
    have start : p.family.profile.destinationOffset.toNat =
        p.family.profile.sourceOffset.toNat + p.family.profile.addressLength.toNat := by
      cases p.family <;> rfl
    have stop : (p.family.profile.destinationOffset + p.family.profile.addressLength).toNat =
        p.family.profile.destinationOffset.toNat + p.family.profile.addressLength.toNat := by
      cases p.family <;> rfl
    have middle : (before ++ [p.protocol] ++ behind ++ p.source.bytes).length =
        p.family.profile.destinationOffset.toNat := by
      rw [List.length_append, front, source, start]
    have e := slice?_middle (before ++ [p.protocol] ++ behind ++ p.source.bytes)
      p.destination.bytes [] middle.symm (stop.trans (by rw [middle, destination]))
    simpa only [Profile.addressOffset, address, List.append_assoc, List.append_nil] using e

theorem transportHeader_length (p : Packet) : p.transportHeader.length = 20 := by
  unfold transportHeader
  split <;> simp

theorem field?_transport {p : Packet} {offset length : UInt32} {stop : Nat}
    (hs : (offset + length).toNat = offset.toNat + stop) (h : offset.toNat + stop ≤ 20) :
    p.field? (.payload .transport offset length) =
      some ((p.transportHeader.drop offset.toNat).take stop) := by
  have within : offset.toNat ≤ offset.toNat + stop ∧
      offset.toNat + stop ≤ p.transportHeader.length := by
    rw [transportHeader_length]
    omega
  simp only [field?, header?, Option.bind_some, slice?, hs, if_pos within,
    Nat.add_sub_cancel_left]

theorem field?_port (p : Packet) (dir : Direction) :
    p.field? (.payload .transport (portOffset dir) portLength) = some (p.portField dir) := by
  cases dir <;> exact field?_transport rfl (by decide)

theorem field?_icmpType (p : Packet) :
    p.field? (.payload .transport icmpTypeOffset icmpTypeLength) =
      some (p.transportHeader.take 1) := by
  have length : (icmpTypeOffset + icmpTypeLength).toNat = icmpTypeOffset.toNat + 1 := rfl
  exact field?_transport length (by decide)

theorem portField_length (p : Packet) (dir : Direction) : (p.portField dir).length = 2 := by
  rw [portField, List.length_take, List.length_drop, transportHeader_length]
  cases dir <;> rfl

/-- A packet that is no message of the family's ICMP has its ports where ports are read. -/
theorem portField_eq {p : Packet} (h : p.protocol ≠ p.family.profile.icmpProtocol)
    (dir : Direction) : p.portField dir = Bytes.ofNat 2 (p.port dir).toNat := by
  rw [portField, transportHeader, if_neg h]
  cases dir with
  | source => exact List.take_left' (Bytes.ofNat_length 2 _)
  | destination =>
    have drop : (portOffset .destination).toNat = (Bytes.ofNat 2 p.sourcePort.toNat).length := by
      simp [portOffset]
    rw [drop, List.append_assoc, List.drop_left]
    exact List.take_left' (Bytes.ofNat_length 2 _)

theorem icmpType_eq {p : Packet} (h : p.protocol = p.family.profile.icmpProtocol) :
    p.transportHeader.take 1 = [p.icmpType] := by
  rw [transportHeader, if_pos h]
  rfl

end Packet
end Firewall
