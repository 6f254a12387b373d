import Firewall.Proofs.ElementText

namespace Firewall

open Text

/-- Bytes that are no IPv6 address stand for no other address. -/
theorem isMappedKey_width {bs : List UInt8} (h : bs.length ≠ 16) : isMappedKey bs = false := by
  unfold isMappedKey Address.ofBytes?
  by_cases four : bs.length = 4
  · rw [if_pos four, Option.any_some]
    exact bne_self_eq_false _
  · rw [if_neg four, if_neg h]
    rfl

theorem keyText_portBytes (p : UInt16) : KeyType.inetService.keyText (portBytes p) = decimal p.toNat := by
  have number : Bytes.toNat (portBytes p) = p.toNat := Bytes.toNat_ofNat_of_lt p.toNat_lt
  rw [KeyType.keyText, Element.port?, if_pos (portBytes_length p), number, UInt16.ofNat_toNat]
  rfl

theorem keyText_states (s : CtState) : KeyType.ctState.keyText s.bytes = s.text.toList := by
  rw [KeyType.keyText, CtState.ofBytes?_bytes]
  rfl

theorem Network.last_family (n : Network) : n.last.family = n.base.family := by
  unfold last base
  cases n.address <;> rfl

namespace Element

/-- Whether an element is a single key that stands for an IPv4 address. -/
def isMapped (e : Element) : Bool := e.keyEnd.isNone && isMappedKey e.key

theorem range_self (key : List UInt8) : range key key = single key := if_pos rfl

theorem range_ne {first last : List UInt8} (h : first ≠ last) : range first last = ⟨first, some last, none⟩ :=
  if_neg h

theorem isMapped_range {first last : List UInt8} (h : first ≠ last) : (range first last).isMapped = false := by
  rw [range_ne h]
  rfl

theorem isMapped_width {key : List UInt8} (h : key.length ≠ 16) : (single key).isMapped = false :=
  isMappedKey_width h

end Element

namespace Spec

/-- What specifications spell. Without the interval flag both bounds are the same. -/
inductive Spells (interval : Bool) : KeyType → Element → Prop where
  | ports (low high : UInt16) (ordered : ¬high < low) (single : interval = false → low = high) :
    Spells interval .inetService (.range (portBytes low) (portBytes high))
  | address (a : Address) (own : a.unmapped = a) : Spells interval a.family.keyType (.single a.bytes)
  | addresses (a b : Address) (same : b.family = a.family) (low : a.unmapped = a) (high : b.unmapped = b)
      (ordered : Bytes.order a.bytes b.bytes ≠ .gt) (single : interval = false → a.bytes = b.bytes) :
    Spells interval a.family.keyType (.range a.bytes b.bytes)
  | network (n : Network) (single : interval = false → n.base.bytes = n.last.bytes) :
    Spells interval n.base.family.keyType (.range n.base.bytes n.last.bytes)
  | states (s : CtState) : Spells interval .ctState (.single s.bytes)

variable {f : Family} {interval : Bool} {text : String} {k : KeyType} {e : Element}

/-- A specification spells a range of keys of that type, which without the interval flag is one key. -/
theorem Spells.bounds (h : Spells interval k e) : ∃ first last, e = .range first last ∧
    first.length = k.length ∧ last.length = k.length ∧ (interval = false → first = last) := by
  cases h with
  | ports low high _ single =>
    exact ⟨_, _, rfl, portBytes_length low, portBytes_length high, fun off => congrArg portBytes (single off)⟩
  | address a =>
    exact ⟨_, _, (Element.range_self _).symm, a.bytes_keyLength, a.bytes_keyLength, fun _ => rfl⟩
  | addresses a b same _ _ _ single =>
    exact ⟨_, _, rfl, a.bytes_keyLength, same ▸ b.bytes_keyLength, single⟩
  | network n single =>
    exact ⟨_, _, rfl, n.base.bytes_keyLength, n.last_family ▸ n.last.bytes_keyLength, single⟩
  | states s =>
    have width : s.bytes.length = KeyType.ctState.length := Bytes.ofNatHost_length 4 _
    exact ⟨_, _, (Element.range_self _).symm, width, width, fun _ => rfl⟩

/-- A range that is not refused for its bounds has only one key without the interval flag. -/
theorem single_of_allowed {α : Type} {low high : α} (h : ¬(!interval ∧ low ≠ high)) :
    interval = false → low = high := by
  intro off
  by_contra differ
  exact h ⟨by rw [off]; rfl, differ⟩

theorem interval_of_ne {α : Type} {low high : α} (single : interval = false → low = high)
    (differ : low ≠ high) : interval = true := by
  by_contra off
  exact differ (single (Bool.not_eq_true _ ▸ off))

section Reading

theorem portElement_spells (h : portElement interval text = .ok e) : Spells interval .inetService e := by
  unfold portElement at h
  dsimp only at h
  split at h
  · split at h
    · cases h
    · rename_i low _
      split at h
      · cases h
      · rename_i high _
        split at h
        · cases h
        · rename_i ordered
          split at h
          · cases h
          · rename_i allowed
            cases h
            exact .ports low high ordered (single_of_allowed allowed)
  · split at h
    · rename_i p _
      cases h
      rw [← Element.range_self]
      exact .ports p p (UInt16.lt_irrefl p) fun _ => rfl
    · cases h

theorem address_ok {cs spec : List Char} {a : Address} (h : address f cs spec = .ok a) :
    a.unmapped = a ∧ a.family = f := by
  unfold address at h
  split at h
  · cases h
  · split at h
    · rename_i family
      cases h
      exact ⟨Address.unmapped_unmapped _, family⟩
    · cases h

theorem addressRange_spells {low high spec : List Char} (h : addressRange f interval low high spec = .ok e) :
    Spells interval f.keyType e := by
  unfold addressRange at h
  split at h
  · cases h
  · rename_i a ha
    split at h
    · cases h
    · rename_i b hb
      obtain ⟨own, rfl⟩ := address_ok ha
      obtain ⟨own', same⟩ := address_ok hb
      split at h
      · cases h
      · rename_i ordered
        split at h
        · cases h
        · rename_i allowed
          cases h
          exact .addresses a b same own own' ordered (single_of_allowed allowed)

theorem networkElement_spells {spec : List Char} (h : networkElement f interval spec = .ok e) :
    Spells interval f.keyType e := by
  unfold networkElement at h
  split at h
  · cases h
  · rename_i n _
    split at h
    · cases h
    · rename_i family
      split at h
      · cases h
      · rename_i allowed
        cases h
        rw [← not_ne_iff.mp family, ← n.base_family]
        exact .network n (single_of_allowed allowed)

theorem addressElement_spells (h : addressElement f interval text = .ok e) :
    Spells interval f.keyType e := by
  unfold addressElement at h
  dsimp only at h
  split at h
  · exact networkElement_spells h
  · split at h
    · exact addressRange_spells h
    · split at h
      · rename_i a ha
        cases h
        obtain ⟨own, rfl⟩ := address_ok ha
        exact .address a own
      · cases h

theorem ctStateElement_spells (h : ctStateElement text = .ok e) : Spells interval .ctState e := by
  unfold ctStateElement at h
  split at h
  · cases h
    exact .states _
  · cases h

/-- A specification that is accepted spells its element. -/
theorem element_spells (h : element k interval text = .ok e) : Spells interval k e := by
  cases k with
  | inetService => exact portElement_spells h
  | ipv4Addr => exact addressElement_spells (f := .ipv4) h
  | ipv6Addr => exact addressElement_spells (f := .ipv6) h
  | ctState => exact ctStateElement_spells h

theorem elements_spells {specs : List String} {es : List Element} (h : elements k interval specs = .ok es) :
    ∀ e ∈ es, Spells interval k e := by
  induction specs generalizing es with
  | nil =>
    cases h
    exact fun e he => absurd he List.not_mem_nil
  | cons spec specs ih =>
    obtain ⟨e, rest, first, later, rfl⟩ := readAll_cons h
    exact List.forall_mem_cons.mpr ⟨element_spells first, ih later⟩

end Reading

section ReadingBack

/-- What reading an element from its text gives: the element, unless it stands for an IPv4 address. -/
def ReadsBack (k : KeyType) (interval : Bool) (e : Element) : Prop :=
  element k interval (e.spec k) =
    if e.isMapped then .error (.addressOutsideSet (e.spec k) .ipv6) else .ok e

theorem readsBack_of_ok (plain : e.isMapped = false) (h : element k interval (e.spec k) = .ok e) :
    ReadsBack k interval e := by
  rw [ReadsBack, plain, if_neg Bool.false_ne_true, h]

theorem readsBack_ports {low high : UInt16} (ordered : ¬high < low)
    (single : interval = false → low = high) :
    ReadsBack .inetService interval (.range (portBytes low) (portBytes high)) := by
  by_cases same : low = high
  · subst same
    rw [Element.range_self]
    refine readsBack_of_ok (Element.isMapped_width (by rw [portBytes_length]; decide)) ?_
    show element _ _ (String.ofList (KeyType.inetService.keyText (portBytes low))) = _
    rw [keyText_portBytes, element_ports, portElement_decimal low.toNat_lt]
    rfl
  · have differ : portBytes low ≠ portBytes high := fun h =>
      same (UInt16.toNat_inj.mp ((Bytes.ofNat_inj low.toNat_lt high.toNat_lt).mp h))
    have wide : ¬(!interval ∧ low ≠ high) := by simp [interval_of_ne single same]
    refine readsBack_of_ok (Element.isMapped_range differ) ?_
    rw [Element.range_ne differ, Element.spec, Element.specChars_range none rfl, keyText_portBytes,
      keyText_portBytes, element_ports, portElement_range low.toNat_lt high.toNat_lt,
      UInt16.ofNat_toNat, UInt16.ofNat_toNat, if_neg ordered, if_neg wide]
    exact congrArg Except.ok (Element.range_ne differ)

/-- An address is refused if it stands for another one, and read back otherwise. -/
theorem readsBack_address (a : Address) (interval : Bool) :
    ReadsBack a.family.keyType interval (.single a.bytes) := by
  have text : (Element.single a.bytes).spec a.family.keyType = String.ofList a.chars :=
    congrArg String.ofList (Address.keyText_bytes a)
  have mapped : (Element.single a.bytes).isMapped = (a.unmapped != a) := Address.isMappedKey_bytes a
  rw [ReadsBack, text, mapped, element_address, addressElement_chars]
  by_cases own : a.unmapped = a
  · rw [if_pos own, own, if_neg (by simp)]
  · have family : a.family = .ipv6 := by
      cases a with
      | v4 b => exact absurd rfl own
      | v6 b => rfl
    rw [if_neg own, if_pos (bne_iff_ne.mpr own), family]

/-- Bounds of different addresses are read back, as a network where they have its form. -/
theorem readsBack_bounds {a b : Address} (same : b.family = a.family) (differ : a.bytes ≠ b.bytes)
    (h : a.family.keyType.networkLength? a.bytes b.bytes = none →
      a.unmapped = a ∧ b.unmapped = b ∧ Bytes.order a.bytes b.bytes ≠ .gt) :
    ReadsBack a.family.keyType true (.range a.bytes b.bytes) := by
  refine readsBack_of_ok (Element.isMapped_range differ) ?_
  rw [Element.range_ne differ, Element.spec]
  -- Only the bounds are kept: a range that has the form of a network is written as one.
  cases len : a.family.keyType.networkLength? a.bytes b.bytes with
  | some length =>
    obtain ⟨n, address, bits, base, last⟩ := networkLength?_bounds same len
    have chars : a.family.keyType.keyText a.bytes ++ '/' :: decimal length.toNat = n.chars := by
      rw [Address.keyText_bytes, Network.chars, address, bits]
    have read := addressElement_network n true
    rw [if_neg (by simp), base, last, address, Element.range_ne differ] at read
    rw [Element.specChars_network none len, chars, element_address, read]
  | none =>
    obtain ⟨low, high, ordered⟩ := h len
    have second : a.family.keyType.keyText b.bytes = b.chars := by rw [← same, Address.keyText_bytes]
    rw [Element.specChars_range none len, Address.keyText_bytes, second, element_address,
      addressElement_range, addressRange_chars same low high, if_neg ordered, if_neg (by simp),
      Element.range_ne differ]

/-- What a specification spells is read back from its own text. -/
theorem Spells.readsBack (h : Spells interval k e) : ReadsBack k interval e := by
  cases h with
  | ports low high ordered single => exact readsBack_ports ordered single
  | address a own => exact readsBack_address a interval
  | addresses a b same low high ordered single =>
    by_cases one : a.bytes = b.bytes
    · rw [← one, Element.range_self]
      exact readsBack_address a interval
    · rw [interval_of_ne single one]
      exact readsBack_bounds same one fun _ => ⟨low, high, ordered⟩
  | network n single =>
    -- A network of one address is written as this address, which may stand for another one.
    by_cases one : n.base.bytes = n.last.bytes
    · rw [← one, Element.range_self]
      exact readsBack_address n.base interval
    · rw [interval_of_ne single one]
      refine readsBack_bounds n.last_family one fun none => ?_
      have found := networkLength?_network n
      rw [none] at found
      cases found
  | states s =>
    refine readsBack_of_ok (Element.isMapped_width ?_) ?_
    · rw [CtState.bytes, Bytes.ofNatHost_length]
      decide
    · show element _ _ (String.ofList (KeyType.ctState.keyText s.bytes)) = _
      rw [keyText_states, element_states, ctStateElement_text]

end ReadingBack

/-- Elements are read back one after the other, up to the first that stands for an IPv4 address. -/
theorem elements_specs {specs : List String} {es : List Element} (h : elements k interval specs = .ok es) :
    elements k interval (es.map (Element.spec k)) =
      match es.find? Element.isMapped with
      | none => .ok es
      | some e => .error (.addressOutsideSet (e.spec k) .ipv6) := by
  induction specs generalizing es with
  | nil =>
    cases h
    rfl
  | cons spec specs ih =>
    obtain ⟨e, rest, first, later, rfl⟩ := readAll_cons h
    have back : ReadsBack k interval e := (element_spells first).readsBack
    have behind := ih later
    rw [ReadsBack] at back
    rw [elements] at behind ⊢
    rw [List.map_cons, readAll, back, List.find?_cons]
    cases mapped : e.isMapped with
    | true => rfl
    | false =>
      rw [if_neg Bool.false_ne_true]
      dsimp only
      rw [behind]
      cases rest.find? Element.isMapped <;> rfl

end Spec

/-- The elements that specifications spell for a set are read back from their texts, in their order and with
their bounds, unless one is a single key that stands for an IPv4 address: the text of the first such key is
refused. -/
theorem MatchSet.specs_read_back {set : MatchSet} {specs : List String} {es : List Element}
    (h : set.elementsOfSpecs specs = .ok es) :
    set.elementsOfSpecs (es.map (Element.spec set.keyType)) =
      match es.find? Element.isMapped with
      | none => .ok es
      | some e => .error (.addressOutsideSet (e.spec set.keyType) .ipv6) :=
  Spec.elements_specs h

section Peers

def peers : MatchSet := (MatchSet.addresses ⟨.ipv6, "filter"⟩ "peers").interval

def peerSpecs : List String :=
  ["2001:db8::7/32", "fe80::10-fe80::1f", " fe80::1-fe80::9", "2001:DB8:0:0::1"]

def peerElements : List Element :=
  let key := Bytes.ofNat 16
  [.range (key 0x20010DB8000000000000000000000000) (key 0x20010DB8FFFFFFFFFFFFFFFFFFFFFFFF),
   .range (key 0xFE800000000000000000000000000010) (key 0xFE80000000000000000000000000001F),
   .range (key 0xFE800000000000000000000000000001) (key 0xFE800000000000000000000000000009),
   .single (key 0x20010DB8000000000000000000000001)]

/-- What the network that holds only the IPv6 form of 1.2.3.4 spells. -/
def mappedElement : Element := .single (Bytes.ofNat 16 0xFFFF01020304)

theorem MatchSet.specs_read_back_peers :
    (peers.elementsOfSpecs peerSpecs = .ok peerElements ∧
      peers.elementsOfSpecs (peerElements.map (Element.spec .ipv6Addr)) = .ok peerElements) ∧
    peers.elementsOfSpecs ["::ffff:1.2.3.4/128"] = .ok [mappedElement] ∧
      peers.elementsOfSpecs ["::ffff:1.2.3.4"] = .error (.addressOutsideSet "::ffff:1.2.3.4" .ipv6) := by
  have read : peers.elementsOfSpecs peerSpecs = .ok peerElements := by rfl
  have mapped : peers.elementsOfSpecs ["::ffff:1.2.3.4/128"] = .ok [mappedElement] := by rfl
  have plain : peerElements.find? Element.isMapped = none := by decide +kernel
  have refused : [mappedElement].find? Element.isMapped = some mappedElement := by decide +kernel
  have text : mappedElement.spec peers.keyType = "::ffff:1.2.3.4" := by decide +kernel
  have back := specs_read_back read
  have back' := specs_read_back mapped
  rw [plain] at back
  rw [refused, List.map_singleton] at back'
  dsimp only at back'
  rw [text] at back'
  exact ⟨⟨read, back⟩, mapped, back'⟩

end Peers

end Firewall
