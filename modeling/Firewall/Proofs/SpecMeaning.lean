import Firewall.Proofs.NetworkRange
import Firewall.Proofs.NetworkText
import Firewall.Proofs.Success
import Mathlib.Data.List.Forall2

namespace Firewall

open Text

namespace Spec

/-- What a specification says about keys. -/
inductive Sense where
  | port (number : Nat)
  | ports (low high : Nat)
  | address (a : Address)
  | addresses (low high : Address)
  | network (n : Network)
  | states (bits : List UInt32)

def union (bits : List UInt32) : UInt32 := bits.foldr (· ||| ·) 0

/-- Whether a key is among those that a specification says. Ports and addresses are numbers in network order,
states a number in host order. -/
def Sense.Holds (key : List UInt8) : Sense → Prop
  | port number => Bytes.toNat key = number
  | ports low high => low ≤ Bytes.toNat key ∧ Bytes.toNat key ≤ high
  | address a => Bytes.toNat key = a.toNat
  | addresses low high => low.toNat ≤ Bytes.toNat key ∧ Bytes.toNat key ≤ high.toNat
  | network n => ∀ i < n.length,
    (Bytes.toNat key).testBit (n.address.family.width - 1 - i) =
      n.address.toNat.testBit (n.address.family.width - 1 - i)
  | states bits => Bytes.toNatHost key = (union bits).toNat

/-- Whether a part of a specification is the name of a state; blanks around it do not count. -/
def NamesState (name : List Char) (bit : UInt32) : Prop := (bit, String.ofList (trim name)) ∈ CtState.states

/-- What a text says as a specification of keys of a type. Blanks around it and around the bounds of a range
do not count. An address that stands for an IPv4 address is one, but not as the address of a network. -/
inductive Means : KeyType → List Char → Sense → Prop where
  | port {text : List Char} {n : Nat} (single : '-' ∉ text)
    (number : number? 65535 (trim text) = some n) : Means .inetService text (.port n)
  | ports {text low high : List Char} {m n : Nat} (cut : trim text = low ++ '-' :: high)
    (first : '-' ∉ low) (lower : number? 65535 (trim low) = some m)
    (upper : number? 65535 (trim high) = some n) : Means .inetService text (.ports m n)
  | address {text : List Char} {a : Address} (plain : '/' ∉ text) (single : '-' ∉ text)
    (read : Address.parse? (trim text) = some a) :
    Means a.unmapped.family.keyType text (.address a.unmapped)
  | addresses {text low high : List Char} {a b : Address} (plain : '/' ∉ text)
    (cut : trim text = low ++ '-' :: high) (first : '-' ∉ low)
    (lower : Address.parse? (trim low) = some a) (upper : Address.parse? (trim high) = some b)
    (same : b.unmapped.family = a.unmapped.family) :
    Means a.unmapped.family.keyType text (.addresses a.unmapped b.unmapped)
  | network {text address length : List Char} {n : Network} (cut : trim text = address ++ '/' :: length)
    (first : '/' ∉ address) (last : '/' ∉ length) (read : Address.parse? address = some n.address)
    (number : number? n.address.family.width length = some n.length) :
    Means n.address.family.keyType text (.network n)
  | masked {text address mask : List Char} {b : BitVec 32} {n : Nat} (le : n ≤ 32)
    (cut : trim text = address ++ '/' :: mask) (first : '/' ∉ address) (last : '/' ∉ mask)
    (read : Address.parse? address = some (.v4 b)) (ones : Address.dotted? mask = some (prefixMask 32 n)) :
    Means .ipv4Addr text (.network ⟨.v4 b, n, le⟩)
  | states {text : List Char} {bits : List UInt32}
    (named : List.Forall₂ NamesState (pieces (· == ',') text) bits) : Means .ctState text (.states bits)

def Sense.first : Sense → List UInt8
  | port n => Bytes.ofNat 2 n
  | ports low _ => Bytes.ofNat 2 low
  | address a => a.bytes
  | addresses low _ => low.bytes
  | network n => n.base.bytes
  | states bits => Bytes.ofNatHost 4 (union bits).toNat

def Sense.last : Sense → List UInt8
  | port n => Bytes.ofNat 2 n
  | ports _ high => Bytes.ofNat 2 high
  | address a => a.bytes
  | addresses _ high => high.bytes
  | network n => n.last.bytes
  | states bits => Bytes.ofNatHost 4 (union bits).toNat

section Keys

variable {k : KeyType} {text : List Char} {s : Sense} {key : List UInt8}

theorem Means.widths (h : Means k text s) : s.first.length = k.length ∧ s.last.length = k.length := by
  cases h with
  | port | ports => exact ⟨Bytes.ofNat_length 2 _, Bytes.ofNat_length 2 _⟩
  | address => exact ⟨Address.bytes_keyLength _, Address.bytes_keyLength _⟩
  | addresses plain cut first lower upper same =>
    exact ⟨Address.bytes_keyLength _, same ▸ Address.bytes_keyLength _⟩
  | @network text address length n =>
    exact ⟨n.base_family ▸ n.base.bytes_keyLength, n.base_family ▸ n.last_family ▸ n.last.bytes_keyLength⟩
  | masked => exact ⟨Bytes.ofNat_length 4 _, Bytes.ofNat_length 4 _⟩
  | states => exact ⟨Bytes.ofNatHost_length 4 _, Bytes.ofNatHost_length 4 _⟩

/-- A range holds the keys whose numbers lie between those of its bounds. -/
theorem range_holds {first last : List UInt8} (hf : first.length = key.length) (hl : last.length = key.length) :
    (Element.range first last).contains key = true ↔
      Bytes.toNat first ≤ Bytes.toNat key ∧ Bytes.toNat key ≤ Bytes.toNat last := by
  rw [Element.range_contains_bounds hf, Bytes.le_toNat hf, Bytes.le_toNat hl.symm, Bool.and_eq_true,
    decide_eq_true_iff, decide_eq_true_iff]

theorem network_holds {n : Network} (width : key.length = n.address.family.keyType.length) :
    (Element.range n.base.bytes n.last.bytes).contains key = true ↔ (Sense.network n).Holds key := by
  obtain ⟨a, family, rfl⟩ := Address.exists_bytes width
  rw [Network.range_contains family, Network.covers_iff family, Sense.Holds, Address.toNat_bytes]

/-- The keys that are said are those from the first to the last one. -/
theorem Means.holds_iff (h : Means k text s) (width : key.length = k.length) :
    (Element.range s.first s.last).contains key = true ↔ s.Holds key := by
  obtain ⟨hf, hl⟩ := h.widths
  have between := range_holds (hf.trans width.symm) (hl.trans width.symm)
  have port : ∀ {n}, n ≤ 65535 → Bytes.toNat (Bytes.ofNat 2 n) = n := fun le =>
    Bytes.toNat_ofNat_of_lt (Nat.lt_succ_of_le le)
  cases h with
  | @port _ n single number =>
    rw [between, Sense.first, Sense.last, port (number?_le number), Sense.Holds]
    omega
  | @ports _ _ _ m n cut first lower upper =>
    rw [between, Sense.first, Sense.last, port (number?_le lower), port (number?_le upper), Sense.Holds]
  | address plain single read =>
    rw [between, Sense.first, Sense.last, Address.toNat_bytes, Sense.Holds]
    omega
  | addresses plain cut first lower upper same =>
    rw [between, Sense.first, Sense.last, Address.toNat_bytes, Address.toNat_bytes, Sense.Holds]
  | network cut first last read number => exact network_holds width
  | masked le cut first last read ones => exact network_holds (n := ⟨.v4 _, _, le⟩) width
  | @states _ bits named =>
    have whole := Bytes.ofNatHost_toNatHost key
    rw [width] at whole
    have bound := Bytes.toNatHost_lt key
    rw [width] at bound
    rw [Sense.first, Sense.last, Element.range_self, Sense.Holds]
    show (Bytes.ofNatHost 4 (union bits).toNat == key) = true ↔ _
    rw [beq_iff_eq, ← whole, eq_comm (a := Bytes.toNatHost _)]
    have small : (union bits).toNat < 256 ^ 4 := (union bits).toNat_lt
    have same : KeyType.ctState.length = 4 := rfl
    rw [same] at bound ⊢
    rw [Bytes.ofNatHost_inj small bound, Bytes.toNatHost_ofNatHost_of_lt bound]

end Keys

section Reading

/-- How a specification is read whose keys go from `first` to `last`: as their range, unless there are none,
or more than one for a set without the interval flag. -/
inductive Reads (interval : Bool) (first last : List UInt8) : Except Error Element → Prop where
  | element (single : interval = false → first = last) : Reads interval first last (.ok (.range first last))
  | reversed {fault : Error} (empty : Bytes.order first last = .gt) : Reads interval first last (.error fault)
  | several {fault : Error} (off : interval = false) (more : first ≠ last)
    (kind : fault.kind = .configuration) : Reads interval first last (.error fault)

variable {k : KeyType} {interval : Bool} {text : String} {cs spec : List Char} {s : Sense} {e : Element}

theorem reads_bounds {first last : List UInt8} {fault fault' : Error} (kind : fault'.kind = .configuration) :
    Reads interval first last (if Bytes.order first last = .gt then .error fault
      else if !interval ∧ first ≠ last then .error fault' else .ok (.range first last)) := by
  split
  · rename_i empty
    exact .reversed empty
  · split
    · rename_i several
      exact .several (by simpa using several.1) several.2 kind
    · rename_i allowed
      exact .element (single_of_allowed allowed)

theorem reads_single (key : List UInt8) : Reads interval key key (.ok (.single key)) := by
  rw [← Element.range_self]
  exact .element fun _ => rfl

theorem port_number {n : Nat} (h : number? 65535 (trim cs) = some n) (spec : List Char) :
    port cs spec = .ok (UInt16.ofNat n) :=
  port_ok_iff.mpr (by rw [port?, h]; rfl)

theorem port_ok {p : UInt16} (h : port cs spec = .ok p) : ∃ n, number? 65535 (trim cs) = some n := by
  obtain ⟨n, number, -⟩ := Option.map_eq_some_iff.mp (port_ok_iff.mp h)
  exact ⟨n, number⟩

/-- Ports are compared like their keys. -/
theorem portBytes_gt {low high : UInt16} : Bytes.order (portBytes low) (portBytes high) = .gt ↔ high < low := by
  rw [portBytes, portBytes, Bytes.order_ofNat low.toNat_lt high.toNat_lt, Nat.compare_eq_gt,
    UInt16.lt_iff_toNat_lt]

theorem portElement_port {n : Nat} (single : '-' ∉ text.toList)
    (number : number? 65535 (trim text.toList) = some n) :
    portElement interval text = .ok (.single (Bytes.ofNat 2 n)) := by
  have whole : splitOnce '-' (trim text.toList) = none := splitOnce_trim_none (splitOnce_none.mpr single)
  rw [← trim_trim] at number
  rw [portElement, whole]
  dsimp only
  rw [port_number number]
  dsimp only
  rw [portBytes_ofNat (Nat.lt_succ_of_le (number?_le number))]

theorem portElement_ports {low high : List Char} {m n : Nat} (cut : trim text.toList = low ++ '-' :: high)
    (first : '-' ∉ low) (lower : number? 65535 (trim low) = some m)
    (upper : number? 65535 (trim high) = some n) :
    Reads interval (Bytes.ofNat 2 m) (Bytes.ofNat 2 n) (portElement interval text) := by
  have parts : splitOnce '-' (trim text.toList) = some (low, high) := splitOnce_some.mpr ⟨cut, first⟩
  rw [portElement, parts]
  dsimp only
  rw [port_number lower, port_number upper]
  dsimp only
  rw [← portBytes_ofNat (Nat.lt_succ_of_le (number?_le lower)),
    ← portBytes_ofNat (Nat.lt_succ_of_le (number?_le upper))]
  simp only [← portBytes_gt, ← portBytes_inj.not]
  exact reads_bounds rfl

theorem address_read {f : Family} {a : Address} (read : Address.parse? (trim cs) = some a)
    (own : a.unmapped.family = f) (spec : List Char) : address f cs spec = .ok a.unmapped := by
  rw [address, read]
  exact if_pos own

theorem address_inv {f : Family} {a : Address} (h : address f cs spec = .ok a) :
    ∃ b : Address, Address.parse? (trim cs) = some b ∧ b.unmapped = a ∧ a.family = f := by
  unfold address at h
  split at h
  · cases h
  · rename_i b read
    split at h
    · rename_i own
      cases h
      exact ⟨b, read, rfl, own⟩
    · cases h

/-- A slash tells networks from other specifications of addresses. -/
theorem contains_slash : (trim cs).contains '/' = true ↔ '/' ∈ cs := by
  rw [List.contains_iff_mem, mem_trim (by decide)]

theorem addressElement_plain {f : Family} (plain : '/' ∉ text.toList) :
    addressElement f interval text = match splitOnce '-' (trim text.toList) with
      | some (low, high) => addressRange f interval low high (trim text.toList)
      | none =>
        match address f (trim text.toList) (trim text.toList) with
        | .ok a => .ok (.single a.bytes)
        | .error fault => .error fault :=
  if_neg (contains_slash.not.mpr plain)

theorem addressElement_slash {f : Family} (slash : '/' ∈ text.toList) :
    addressElement f interval text = networkElement f interval (trim text.toList) :=
  if_pos (contains_slash.mpr slash)

theorem addressElement_address {a : Address} (plain : '/' ∉ text.toList) (single : '-' ∉ text.toList)
    (read : Address.parse? (trim text.toList) = some a) :
    addressElement a.unmapped.family interval text = .ok (.single a.unmapped.bytes) := by
  have whole : splitOnce '-' (trim text.toList) = none := splitOnce_trim_none (splitOnce_none.mpr single)
  rw [← trim_trim] at read
  rw [addressElement_plain plain, whole]
  dsimp only
  rw [address_read read rfl]

theorem addressElement_addresses {low high : List Char} {a b : Address} (plain : '/' ∉ text.toList)
    (cut : trim text.toList = low ++ '-' :: high) (first : '-' ∉ low)
    (lower : Address.parse? (trim low) = some a) (upper : Address.parse? (trim high) = some b)
    (same : b.unmapped.family = a.unmapped.family) :
    Reads interval a.unmapped.bytes b.unmapped.bytes (addressElement a.unmapped.family interval text) := by
  have parts : splitOnce '-' (trim text.toList) = some (low, high) := splitOnce_some.mpr ⟨cut, first⟩
  rw [addressElement_plain plain, parts]
  dsimp only
  rw [addressRange, address_read lower rfl]
  dsimp only
  rw [address_read upper same]
  exact reads_bounds rfl

/-- A network is read as the range of its addresses. -/
theorem networkElement_reads {n : Network} (read : Network.parse? cs = some n) :
    Reads interval n.base.bytes n.last.bytes (networkElement n.address.family interval cs) := by
  rw [networkElement, read]
  dsimp only
  rw [if_neg (not_not.mpr rfl)]
  split
  · rename_i several
    exact .several (by simpa using several.1) several.2 rfl
  · rename_i allowed
    exact .element (single_of_allowed allowed)

end Reading

end Spec

namespace CtState

/-- Every state is read from its name. -/
theorem ofName_state {bit : UInt32} {name : String} (h : (bit, name) ∈ states) :
    ∃ s, ofName name = .ok s ∧ s.bits = bit := by
  have each : ∀ entry ∈ states, (ofName entry.2).toOption.map bits = some entry.1 := by decide
  obtain ⟨s, read, same⟩ := Option.map_eq_some_iff.mp (each _ h)
  exact ⟨s, ok_of_toOption read, same⟩

theorem ofName_inv {name : String} {s : CtState} (h : ofName name = .ok s) :
    ∃ bit, (bit, name) ∈ states := by
  unfold ofName at h
  split at h
  · rename_i bit found entry
    have named := List.find?_some entry
    rw [decide_eq_true_iff] at named
    exact ⟨bit, named ▸ List.mem_of_find?_eq_some entry⟩
  · cases h

end CtState

namespace Spec

theorem ctStates_union {ws : List (List Char)} {bits : List UInt32} (some : ws ≠ [])
    (named : List.Forall₂ NamesState ws bits) : ∃ s, ctStates ws = .ok s ∧ s.bits = union bits := by
  induction named with
  | nil => exact absurd rfl some
  | @cons w bit ws bits first rest ih =>
    obtain ⟨s, read, same⟩ := CtState.ofName_state first
    cases rest with
    | nil => exact ⟨s, read, by rw [same]; exact UInt32.or_zero.symm⟩
    | cons second rest =>
      obtain ⟨t, later, others⟩ := ih (List.cons_ne_nil _ _)
      refine ⟨s.union t, ?_, ?_⟩
      · rw [ctStates.eq_3 _ _ (List.cons_ne_nil _ _), read]
        dsimp only
        rw [later]
      · show s.bits ||| t.bits = bit ||| _
        rw [same, others]
        rfl

theorem namesState_of_read {ws : List (List Char)} {s : CtState} (h : ctStates ws = .ok s) :
    ∃ bits, List.Forall₂ NamesState ws bits := by
  have each := ctStates_named h
  clear h
  induction ws with
  | nil => exact ⟨[], .nil⟩
  | cons w ws ih =>
    obtain ⟨t, first⟩ := each w List.mem_cons_self
    obtain ⟨bit, named⟩ := CtState.ofName_inv first
    obtain ⟨bits, rest⟩ := ih fun v hv => each v (List.mem_cons_of_mem w hv)
    exact ⟨bit :: bits, .cons named rest⟩

variable {k : KeyType} {interval : Bool} {text : String} {s : Sense} {e : Element}

/-- What a specification says is what it is read as. -/
theorem Means.reads (h : Means k text.toList s) : Reads interval s.first s.last (element k interval text) := by
  cases h with
  | port single number =>
    rw [element_ports, portElement_port single number]
    exact reads_single _
  | ports cut first lower upper => exact portElement_ports cut first lower upper
  | address plain single read =>
    rw [element_address, addressElement_address plain single read]
    exact reads_single _
  | addresses plain cut first lower upper same =>
    rw [element_address]
    exact addressElement_addresses plain cut first lower upper same
  | @network _ address length n cut first last read number =>
    have slash : '/' ∈ trim text.toList := by simp [cut]
    rw [element_address, addressElement_slash ((mem_trim (by decide)).mp slash), cut]
    exact networkElement_reads (Network.parse?_number first last read number)
  | @masked _ address mask b n le cut first last read ones =>
    have slash : '/' ∈ trim text.toList := by simp [cut]
    show Reads interval _ _ (addressElement .ipv4 interval text)
    rw [addressElement_slash ((mem_trim (by decide)).mp slash), cut]
    have parsed := Network.parse?_mask le first last read ones
    exact networkElement_reads parsed
  | states named =>
    obtain ⟨u, read, bits⟩ := ctStates_union (pieces_ne_nil _ _) named
    rw [element_states, ctStateElement, read, Sense.first, Sense.last, ← bits]
    exact reads_single _

/-- A specification of ports that is accepted says something. -/
theorem portElement_inv (h : portElement interval text = .ok e) :
    ∃ s, Means .inetService text.toList s := by
  unfold portElement at h
  dsimp only at h
  split at h
  · rename_i low high parts
    obtain ⟨cut, first⟩ := splitOnce_some.mp parts
    split at h
    · cases h
    · rename_i p lower
      split at h
      · cases h
      · rename_i q upper
        obtain ⟨m, lower⟩ := port_ok lower
        obtain ⟨n, upper⟩ := port_ok upper
        exact ⟨.ports m n, .ports cut first lower upper⟩
  · rename_i whole
    split at h
    · rename_i p read
      obtain ⟨n, number⟩ := port_ok read
      rw [trim_trim] at number
      have single : '-' ∉ text.toList := (mem_trim (by decide)).not.mp (splitOnce_none.mp whole)
      exact ⟨.port n, .port single number⟩
    · cases h

theorem networkElement_inv {f : Family} {cs : List Char} (h : networkElement f interval cs = .ok e) :
    ∃ n, Network.parse? cs = some n ∧ n.address.family = f := by
  unfold networkElement at h
  split at h
  · cases h
  · rename_i n read
    split at h
    · cases h
    · rename_i family
      exact ⟨n, read, not_ne_iff.mp family⟩

theorem addressRange_inv {f : Family} {low high cs : List Char}
    (h : addressRange f interval low high cs = .ok e) :
    ∃ a b : Address, Address.parse? (trim low) = some a ∧ Address.parse? (trim high) = some b ∧
      a.unmapped.family = f ∧ b.unmapped.family = f := by
  unfold addressRange at h
  split at h
  · cases h
  · rename_i a lower
    split at h
    · cases h
    · rename_i b upper
      obtain ⟨a, first, rfl, own⟩ := address_inv lower
      obtain ⟨b, second, rfl, same⟩ := address_inv upper
      exact ⟨a, b, first, second, own, same⟩

/-- A specification of addresses that is accepted says something. -/
theorem addressElement_inv {f : Family} (h : addressElement f interval text = .ok e) :
    ∃ s, Means f.keyType text.toList s := by
  by_cases slash : '/' ∈ text.toList
  · rw [addressElement_slash slash] at h
    obtain ⟨n, read, rfl⟩ := networkElement_inv h
    obtain ⟨address, length, cut, first, last, own, number | ⟨ipv4, ones⟩⟩ :=
      Network.parse?_inv ((mem_trim (by decide)).mpr slash) read
    · exact ⟨.network n, .network cut first last own number⟩
    · obtain ⟨a, len, le⟩ := n
      cases a with
      | v4 b => exact ⟨_, .masked le cut first last own ones⟩
      | v6 b => cases ipv4
  · rw [addressElement_plain slash] at h
    split at h
    · rename_i low high parts
      obtain ⟨cut, first⟩ := splitOnce_some.mp parts
      obtain ⟨a, b, lower, upper, rfl, same⟩ := addressRange_inv h
      exact ⟨_, .addresses slash cut first lower upper same⟩
    · rename_i whole
      split at h
      · rename_i a found
        obtain ⟨b, read, rfl, rfl⟩ := address_inv found
        rw [trim_trim] at read
        exact ⟨_, .address slash ((mem_trim (by decide)).not.mp (splitOnce_none.mp whole)) read⟩
      · cases h

/-- A specification that is accepted says something. -/
theorem element_means (h : element k interval text = .ok e) : ∃ s, Means k text.toList s := by
  cases k with
  | inetService => exact portElement_inv h
  | ipv4Addr => exact addressElement_inv (f := .ipv4) h
  | ipv6Addr => exact addressElement_inv (f := .ipv6) h
  | ctState =>
    rw [element_states, ctStateElement] at h
    split at h
    · rename_i u read
      obtain ⟨bits, named⟩ := namesState_of_read read
      exact ⟨.states bits, .states named⟩
    · cases h

/-- The element of an accepted specification holds exactly the keys that it says. -/
theorem Means.contains (h : Means k text.toList s) (read : element k interval text = .ok e) {key : List UInt8}
    (width : key.length = k.length) : e.contains key = true ↔ s.Holds key := by
  have reads : Reads interval s.first s.last (.ok e) := read ▸ h.reads
  cases reads
  exact h.holds_iff width

/-- A specification that says two keys is refused by a set without the interval flag. -/
theorem Means.refused (h : Means k text.toList s) {key other : List UInt8} (width : key.length = k.length)
    (width' : other.length = k.length) (apart : key ≠ other) (holds : s.Holds key) (holds' : s.Holds other) :
    ∃ fault, element k false text = .error fault ∧ fault.kind = .configuration := by
  have inside := (h.holds_iff width).mpr holds
  have inside' := (h.holds_iff width').mpr holds'
  obtain ⟨hf, hl⟩ := h.widths
  have reads : Reads false s.first s.last (element k false text) := h.reads
  cases made : element k false text with
  | ok e =>
    rw [made] at reads
    cases reads with
    | element single =>
      rw [← single rfl, Element.range_self] at inside inside'
      exact absurd ((eq_of_beq inside).symm.trans (eq_of_beq inside')) apart
  | error fault =>
    rw [made] at reads
    cases reads with
    | reversed empty =>
      have backwards : Bytes.le s.first s.last = false := by
        rw [Bytes.le, empty]
        rfl
      have outside := Element.between_reversed (hf.trans width.symm) (hl.trans width.symm) backwards
      rw [Element.range_contains_bounds (hf.trans width.symm), outside] at inside
      cases inside
    | several off more kind => exact ⟨fault, rfl, kind⟩

/-- Readings of accepted specifications stand in their order. -/
theorem readAll_forall {α β : Type} {read : α → Except Error β} {ss : List α} {es : List β}
    (h : readAll read ss = .ok es) : List.Forall₂ (fun s e => read s = .ok e) ss es := by
  induction ss generalizing es with
  | nil =>
    cases h
    exact .nil
  | cons s ss ih =>
    obtain ⟨e, rest, first, later, rfl⟩ := readAll_cons h
    exact .cons first (ih later)

theorem readAll_refused {α β : Type} {read : α → Except Error β} {front rest : List α} {es : List β} {s : α}
    {fault : Error} (h : readAll read front = .ok es) (refused : read s = .error fault) :
    readAll read (front ++ s :: rest) = .error fault := by
  induction front generalizing es with
  | nil => rw [List.nil_append, readAll, refused]
  | cons t front ih =>
    obtain ⟨e, others, first, later, rfl⟩ := readAll_cons h
    rw [List.cons_append, readAll, first, ih later]

end Spec

/-- A set makes one element of each accepted specification, in their order, which holds exactly the keys that
the specification says; the elements pass the set's check. Without the interval flag each is a single key, and
the first specification that says more than one is refused as an error of the configuration. -/
theorem MatchSet.specs_denote (set : MatchSet) :
    (∀ specs es, set.elementsOfSpecs specs = .ok es →
      set.checkElements es = .ok () ∧ (set.flags.interval = false → ∀ e ∈ es, e.keyEnd = none) ∧
      List.Forall₂ (fun spec e => (∃ s, Spec.Means set.keyType spec.toList s) ∧
        ∀ s, Spec.Means set.keyType spec.toList s → ∀ key, key.length = set.keyType.length →
          (e.contains key = true ↔ s.Holds key)) specs es) ∧
    (set.flags.interval = false → ∀ front spec rest es s key other,
      set.elementsOfSpecs front = .ok es → Spec.Means set.keyType spec.toList s →
      key.length = set.keyType.length → other.length = set.keyType.length → key ≠ other →
      s.Holds key → s.Holds other → ∃ fault,
        set.elementsOfSpecs (front ++ spec :: rest) = .error fault ∧ fault.kind = .configuration) := by
  constructor
  · intro specs es read
    refine ⟨specs_checked read, fun off e he => ?_, ?_⟩
    · obtain ⟨first, last, rfl, -, -, single⟩ := (Spec.elements_spells read e he).bounds
      rw [single off, Element.range_self]
      rfl
    · refine (Spec.readAll_forall read).imp fun spec e element => ⟨Spec.element_means element, ?_⟩
      exact fun s means key width => means.contains element width
  · intro off front spec rest es s key other read means width width' apart holds holds'
    obtain ⟨fault, refused, kind⟩ := means.refused width width' apart holds holds'
    refine ⟨fault, Spec.readAll_refused read ?_, kind⟩
    rw [off]
    exact refused

section Offices

def offices : MatchSet := .addresses ⟨.ipv4, "filter"⟩ "offices"

def officeSpecs : List String := [" 10.1.3.9/255.255.254.0", "::ffff:192.0.2.7", "192.0.2.250 - 192.0.3.4"]

def officeNetwork : Network := ⟨.v4 0x0A010309#32, 23, by decide⟩

theorem officeNetwork_means :
    Spec.Means .ipv4Addr officeSpecs[0].toList (.network officeNetwork) := by
  have cut : trim officeSpecs[0].toList = "10.1.3.9".toList ++ '/' :: "255.255.254.0".toList := by decide
  exact .masked (by decide) cut (by decide) (by decide) rfl rfl

theorem MatchSet.specs_denote_offices :
    (∃ e f g, offices.interval.elementsOfSpecs officeSpecs = .ok [e, f, g] ∧
      offices.interval.checkElements [e, f, g] = .ok () ∧
      e.contains [10, 1, 2, 77] = true ∧ e.contains [10, 1, 4, 0] = false) ∧
    ∃ fault, offices.elementsOfSpecs ["192.0.2.7", officeSpecs[0]] = .error fault ∧
      fault.kind = .configuration := by
  have read : offices.interval.elementsOfSpecs officeSpecs =
      .ok [.range [10, 1, 2, 0] [10, 1, 3, 255], .single [192, 0, 2, 7],
        .range [192, 0, 2, 250] [192, 0, 3, 4]] := by rfl
  have inside : (Spec.Sense.network officeNetwork).Holds [10, 1, 2, 77] := by
    show ∀ i < 23, _
    decide
  have outside : ¬(Spec.Sense.network officeNetwork).Holds [10, 1, 4, 0] := by
    show ¬∀ i < 23, _
    decide
  have other : (Spec.Sense.network officeNetwork).Holds [10, 1, 3, 0] := by
    show ∀ i < 23, _
    decide
  obtain ⟨whole, -⟩ := specs_denote offices.interval
  obtain ⟨checked, -, denoted⟩ := whole officeSpecs _ read
  cases denoted with
  | cons first rest =>
    have exact := first.2 _ officeNetwork_means
    refine ⟨⟨_, _, _, read, checked, (exact _ rfl).mpr inside, ?_⟩, ?_⟩
    · exact Bool.eq_false_iff.mpr fun held => outside ((exact _ rfl).mp held)
    · obtain ⟨-, discrete⟩ := specs_denote offices
      exact discrete rfl ["192.0.2.7"] officeSpecs[0] [] [.single [192, 0, 2, 7]] _ [10, 1, 2, 77]
        [10, 1, 3, 0] (by rfl) officeNetwork_means rfl rfl (by decide) inside other

end Offices

end Firewall