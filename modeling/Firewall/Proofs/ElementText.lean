import Firewall.MatchSet.Spec
import Firewall.Proofs.AddressText
import Firewall.Proofs.HostBits

namespace Firewall

namespace Spec

variable {α β : Type} {read : α → Except Error β}

theorem readAll_cons {s : α} {ss : List α} {es : List β} (h : readAll read (s :: ss) = .ok es) :
    ∃ e rest, read s = .ok e ∧ readAll read ss = .ok rest ∧ es = e :: rest := by
  unfold readAll at h
  split at h
  · rename_i e he
    split at h
    · rename_i rest hr
      cases h
      exact ⟨e, rest, he, hr, rfl⟩
    · cases h
  · cases h

theorem readAll_append {ss ss' : List α} {es : List β} (h : readAll read (ss ++ ss') = .ok es) :
    ∃ front back, readAll read ss = .ok front ∧ readAll read ss' = .ok back ∧ es = front ++ back := by
  induction ss generalizing es with
  | nil => exact ⟨[], es, rfl, h, rfl⟩
  | cons s ss ih =>
    obtain ⟨e, rest, he, hr, rfl⟩ := readAll_cons h
    obtain ⟨front, back, hf, hb, rfl⟩ := ih hr
    refine ⟨e :: front, back, ?_, hb, rfl⟩
    simp only [readAll, he, hf]

end Spec

/-- Whether a text denotes a key; a text that is refused denotes none. -/
def Spec.denotes (k : KeyType) (text : List Char) (value : List UInt8) : Bool :=
  match Spec.element k true (String.ofList text) with
  | .ok e => e.contains value
  | .error _ => false

/-- The bytes of an address that stands for an IPv4 address. -/
def isMappedKey (bs : List UInt8) : Bool := (Address.ofBytes? bs).any fun a => a.unmapped != a

namespace Element

def hasWidth (k : KeyType) (e : Element) : Bool :=
  e.key.length == k.length && e.keyEnd.all fun last => last.length == k.length

theorem key_width {k : KeyType} {e : Element} (wide : e.hasWidth k = true) :
    e.key.length = k.length :=
  eq_of_beq (Bool.and_eq_true_iff.mp wide).1

theorem last_width {k : KeyType} {e : Element} {last : List UInt8} (wide : e.hasWidth k = true)
    (h : e.keyEnd = some last) : last.length = k.length := by
  have bounds := (Bool.and_eq_true_iff.mp wide).2
  rw [h] at bounds
  exact eq_of_beq bounds

/-- An element whose text denotes other keys. -/
def misread (k : KeyType) (e : Element) : Bool :=
  match k, e.keyEnd with
  | .inetService, _ => false
  | .ctState, none => (CtState.ofBytes? e.key).isNone
  | .ctState, some last => Bytes.le e.key last
  | _, none => isMappedKey e.key
  | k, some last => Bytes.le e.key last && (k.networkLength? e.key last).isNone &&
      (isMappedKey e.key || isMappedKey last)

section Notation

variable {k : KeyType} {key last : List UInt8} {len : UInt32} (timeout : Option Duration)

theorem specChars_network (h : k.networkLength? key last = some len) :
    specChars k ⟨key, some last, timeout⟩ = k.keyText key ++ '/' :: Text.decimal len.toNat := by
  rw [specChars]
  dsimp only
  rw [h]

theorem specChars_range (h : k.networkLength? key last = none) :
    specChars k ⟨key, some last, timeout⟩ = k.keyText key ++ '-' :: k.keyText last := by
  rw [specChars]
  dsimp only
  rw [h]

end Notation

/-- The keys between two bounds, also if these are the same. -/
theorem range_contains_bounds {first last value : List UInt8} (hf : first.length = value.length) :
    (range first last).contains value = (Bytes.le first value && Bytes.le value last) := by
  unfold range
  split
  · rename_i same
    have both : (first == value) = (decide (Bytes.toNat first ≤ Bytes.toNat value) &&
        decide (Bytes.toNat value ≤ Bytes.toNat first)) := by
      rw [Bool.eq_iff_iff, beq_iff_eq, ← Bytes.toNat_inj hf]
      simp only [Bool.and_eq_true, decide_eq_true_eq]
      omega
    rw [← same, Bytes.le_toNat hf, Bytes.le_toNat hf.symm]
    exact both
  · rfl

/-- Nothing lies between bounds in the wrong order. -/
theorem between_reversed {first last value : List UInt8} (hf : first.length = value.length)
    (hl : last.length = value.length) (h : Bytes.le first last = false) :
    (Bytes.le first value && Bytes.le value last) = false := by
  rw [Bytes.le_toNat (hf.trans hl.symm), decide_eq_false_iff_not] at h
  rw [Bytes.le_toNat hf, Bytes.le_toNat hl.symm, Bool.and_eq_false_iff, decide_eq_false_iff_not,
    decide_eq_false_iff_not]
  omega

end Element

section Ports

open Text

theorem digit_blank (n : Nat) : ∀ c ∈ decimal n, isBlank c = false := by
  intro c hc
  have digit := Address.decimalDigit_hex (decimal_numerals.isSome_digit n c hc)
  apply Address.isAddressChar_blank
  rw [Address.isAddressChar, digit]
  rfl

theorem hyphen_not_mem (n : Nat) : '-' ∉ decimal n := decimal_numerals.not_mem (by decide) n

theorem Spec.port_decimal {n : Nat} (h : n < 65536) (spec : List Char) :
    port (decimal n) spec = .ok (UInt16.ofNat n) := by
  rw [port, port?, trim_eq_self (digit_blank n), number?_decimal (Nat.le_of_lt_succ h)]
  rfl

theorem portBytes_length (p : UInt16) : (portBytes p).length = 2 := Bytes.ofNat_length 2 _

theorem portBytes_ofNat {n : Nat} (h : n < 65536) : portBytes (UInt16.ofNat n) = Bytes.ofNat 2 n := by
  rw [portBytes, UInt16.toNat_ofNat_of_lt' h]

/-- A key of ports is a number, and its text the numeral. -/
theorem keyText_port {bs : List UInt8} (h : bs.length = 2) :
    ∃ n, n < 65536 ∧ bs = Bytes.ofNat 2 n ∧ KeyType.inetService.keyText bs = decimal n := by
  have bound := Bytes.toNat_lt bs
  have whole := Bytes.ofNat_toNat bs
  rw [h] at bound whole
  refine ⟨Bytes.toNat bs, bound, whole.symm, ?_⟩
  rw [KeyType.keyText, Element.port?, if_pos h]
  show decimal (UInt16.ofNat (Bytes.toNat bs)).toNat = _
  rw [UInt16.toNat_ofNat_of_lt' bound]

theorem Spec.element_ports (interval : Bool) (text : String) :
    element .inetService interval text = portElement interval text :=
  rfl

/-- A port is read as itself. -/
theorem Spec.portElement_decimal {n : Nat} (h : n < 65536) (interval : Bool) :
    portElement interval (String.ofList (decimal n)) = .ok (.single (Bytes.ofNat 2 n)) := by
  have cut : splitOnce '-' (decimal n) = none := splitOnce_none.mpr (hyphen_not_mem n)
  rw [portElement, String.toList_ofList, trim_eq_self (digit_blank n), cut, port_decimal h]
  dsimp only
  rw [portBytes_ofNat h]

/-- Two ports with a hyphen between them are read as the ports between them. -/
theorem Spec.portElement_range {m n : Nat} (hm : m < 65536) (hn : n < 65536) (interval : Bool) :
    portElement interval (String.ofList (decimal m ++ '-' :: decimal n)) =
      if UInt16.ofNat n < UInt16.ofNat m then
        .error (.portRangeReversed (String.ofList (decimal m ++ '-' :: decimal n)))
      else if !interval ∧ UInt16.ofNat m ≠ UInt16.ofNat n then
        .error (.portRangeDiscrete (String.ofList (decimal m ++ '-' :: decimal n)))
      else .ok (.range (Bytes.ofNat 2 m) (Bytes.ofNat 2 n)) := by
  have blank : ∀ c ∈ decimal m ++ '-' :: decimal n, isBlank c = false := by
    intro c hc
    simp only [List.mem_append, List.mem_cons] at hc
    rcases hc with front | rfl | back
    · exact digit_blank m c front
    · decide
    · exact digit_blank n c back
  have cut : splitOnce '-' (decimal m ++ '-' :: decimal n) = some (decimal m, decimal n) :=
    splitOnce_some.mpr ⟨rfl, hyphen_not_mem m⟩
  rw [portElement, String.toList_ofList, trim_eq_self blank, cut]
  dsimp only
  rw [port_decimal hm]
  dsimp only
  rw [port_decimal hn]
  dsimp only
  rw [portBytes_ofNat hm, portBytes_ofNat hn]

/-- A port denotes itself. -/
theorem Spec.denotes_port {n : Nat} (h : n < 65536) (value : List UInt8) :
    denotes .inetService (decimal n) value = (Bytes.ofNat 2 n == value) := by
  rw [denotes, element_ports, portElement_decimal h]
  rfl

/-- Two ports with a hyphen between them denote the ports between them. -/
theorem Spec.denotes_ports {m n : Nat} (hm : m < 65536) (hn : n < 65536) {value : List UInt8}
    (width : value.length = 2) : denotes .inetService (decimal m ++ '-' :: decimal n) value =
      (Bytes.le (Bytes.ofNat 2 m) value && Bytes.le value (Bytes.ofNat 2 n)) := by
  have wm : (Bytes.ofNat 2 m).length = value.length := by rw [Bytes.ofNat_length, width]
  have wn : (Bytes.ofNat 2 n).length = value.length := by rw [Bytes.ofNat_length, width]
  rw [denotes, element_ports, portElement_range hm hn]
  by_cases reversed : UInt16.ofNat n < UInt16.ofNat m
  · rw [if_pos reversed]
    rw [UInt16.lt_iff_toNat_lt, UInt16.toNat_ofNat_of_lt' hm, UInt16.toNat_ofNat_of_lt' hn]
      at reversed
    refine (Element.between_reversed wm wn ?_).symm
    rw [Bytes.le_ofNat hm hn, decide_eq_false_iff_not]
    omega
  · rw [if_neg reversed, if_neg (by simp)]
    exact Element.range_contains_bounds wm

/-- Elements of ports denote their keys. -/
theorem Spec.denotes_portElement {e : Element} (wide : e.hasWidth .inetService = true)
    {value : List UInt8} (width : value.length = 2) :
    denotes .inetService (e.specChars .inetService) value = e.contains value := by
  obtain ⟨key, keyEnd, timeout⟩ := e
  obtain ⟨m, hm, rfl, first⟩ := keyText_port (Element.key_width wide)
  cases keyEnd with
  | none =>
    show denotes _ (KeyType.inetService.keyText (Bytes.ofNat 2 m)) value = _
    rw [first, denotes_port hm]
    rfl
  | some last =>
    obtain ⟨n, hn, rfl, second⟩ := keyText_port (Element.last_width wide rfl)
    have discrete : KeyType.inetService.networkLength? (Bytes.ofNat 2 m) (Bytes.ofNat 2 n) = none := rfl
    rw [Element.specChars_range timeout discrete, first, second, denotes_ports hm hn width]
    rfl

end Ports

section States

open Text

namespace CtState

theorem bits_known (s : CtState) : s.bits &&& Error.definedCtBits = s.bits := by
  have split : s.bits = s.bits &&& Error.definedCtBits ||| s.bits &&& ~~~Error.definedCtBits := by
    apply UInt32.toBitVec_inj.1
    ext i hi
    simp [← Bool.and_or_distrib_left]
  rw [s.defined] at split
  simpa using split.symm

theorem bits_lt (s : CtState) : s.bits.toNat < 80 := by
  rw [← s.bits_known, UInt32.toNat_and]
  exact Nat.lt_succ_of_le Nat.and_le_right

/-- Whether a set of states is read back from its text. -/
def readsBack (s : CtState) : Bool :=
  match Spec.ctStates (pieces (· == ',') s.text.toList) with
  | .ok t => t == s
  | .error _ => false

theorem ofMask_bits (s : CtState) : ofMask s.bits = .ok s := by
  rw [ofMask, dif_neg s.nonempty, dif_pos s.defined]

/-- There are so few sets of states that each can be looked at. -/
theorem forall_masks {P : CtState → Bool}
    (h : ∀ n < 80, (ofMask (UInt32.ofNat n)).toOption.all P = true) (s : CtState) : P s = true := by
  have here := h s.bits.toNat s.bits_lt
  rw [UInt32.ofNat_toNat, ofMask_bits] at here
  exact here

theorem readsBack_eq (s : CtState) : s.readsBack = true := forall_masks (by decide +kernel) s

theorem ofBytes?_some {bs : List UInt8} {s : CtState} (h : ofBytes? bs = some s) : s.bytes = bs := by
  unfold ofBytes? at h
  split at h
  · rename_i width
    have bound := Bytes.toNatHost_lt bs
    have whole := Bytes.ofNatHost_toNatHost bs
    rw [width] at bound whole
    have mask : s.bits = UInt32.ofNat (Bytes.toNatHost bs) := by
      unfold ofMask at h
      split at h
      · cases h
      · split at h
        · cases h
          rfl
        · cases h
    rw [bytes, mask, UInt32.toNat_ofNat_of_lt' bound]
    exact whole
  · cases h

theorem ofBytes?_bytes (s : CtState) : ofBytes? s.bytes = some s := by
  have mask : UInt32.ofNat (Bytes.toNatHost s.bytes) = s.bits := by
    rw [bytes, Bytes.toNatHost_ofNatHost_of_lt s.bits.toNat_lt, UInt32.ofNat_toNat]
  have width : s.bytes.length = 4 := Bytes.ofNatHost_length 4 _
  rw [ofBytes?, if_pos width, mask, ofMask_bits]
  rfl

theorem ofName_plain {name : String} {s : CtState} (h : ofName name = .ok s) :
    '/' ∉ name.toList ∧ '-' ∉ name.toList := by
  have plain : ∀ entry ∈ states, '/' ∉ entry.2.toList ∧ '-' ∉ entry.2.toList := by decide
  unfold ofName at h
  split at h
  · rename_i found
    have same := List.find?_some found
    have named := plain _ (List.mem_of_find?_eq_some found)
    rw [decide_eq_true_eq] at same
    rwa [same] at named
  · cases h

end CtState

theorem Spec.ctStates_named {ws : List (List Char)} {s : CtState} (h : ctStates ws = .ok s) :
    ∀ w ∈ ws, ∃ t, CtState.ofName (String.ofList (trim w)) = .ok t := by
  induction ws generalizing s with
  | nil => cases h
  | cons w ws ih =>
    intro v hv
    cases ws with
    | nil =>
      rw [List.mem_singleton.mp hv]
      exact ⟨s, h⟩
    | cons w' ws =>
      rw [ctStates.eq_3] at h
      · split at h
        · cases h
        · rename_i t first
          split at h
          · rename_i t' rest
            rcases List.mem_cons.mp hv with rfl | later
            · exact ⟨t, first⟩
            · exact ih rest v later
          · cases h
      · exact List.cons_ne_nil _ _

/-- A text that names states has neither a slash nor a hyphen. -/
theorem Spec.ctStates_plain {text : List Char} {s : CtState}
    (h : ctStates (pieces (· == ',') text) = .ok s) : '/' ∉ text ∧ '-' ∉ text := by
  have named : ∀ {c : Char}, (c == ',') = false → c ∈ text →
      ∃ w t, c ∈ w ∧ CtState.ofName (String.ofList (trim w)) = .ok t := by
    intro c stays hc
    obtain ⟨w, hw, inside⟩ := mem_pieces hc (p := (· == ',')) stays
    obtain ⟨t, read⟩ := ctStates_named h w hw
    exact ⟨w, t, inside, read⟩
  constructor
  · intro slash
    obtain ⟨w, t, inside, read⟩ := named rfl slash
    have plain := (CtState.ofName_plain read).1
    rw [String.toList_ofList] at plain
    exact plain ((mem_trim rfl).mpr inside)
  · intro hyphen
    obtain ⟨w, t, inside, read⟩ := named rfl hyphen
    have plain := (CtState.ofName_plain read).2
    rw [String.toList_ofList] at plain
    exact plain ((mem_trim rfl).mpr inside)

theorem CtState.ctStates_text (s : CtState) : Spec.ctStates (pieces (· == ',') s.text.toList) = .ok s := by
  have back := s.readsBack_eq
  unfold readsBack at back
  split at back
  · rename_i t ht
    rw [ht, eq_of_beq back]
  · cases back

theorem Spec.element_states (interval : Bool) (text : String) :
    element .ctState interval text = ctStateElement text :=
  rfl

/-- The names of states are read as the states. -/
theorem Spec.ctStateElement_text (s : CtState) :
    ctStateElement (String.ofList s.text.toList) = .ok (.single s.bytes) := by
  rw [ctStateElement, String.toList_ofList, s.ctStates_text]

/-- No names of states have a hyphen between them. -/
theorem Spec.denotes_hyphen {text : List Char} (h : '-' ∈ text) (value : List UInt8) :
    denotes .ctState text value = false := by
  rw [denotes, element_states, ctStateElement, String.toList_ofList]
  cases hs : ctStates (pieces (· == ',') text) with
  | error fault => rfl
  | ok s => exact absurd h (ctStates_plain hs).2

/-- Elements of states denote their keys, unless they are misread. -/
theorem Spec.denotes_ctStateElement {e : Element} (wide : e.hasWidth .ctState = true)
    {value : List UInt8} (width : value.length = 4) :
    denotes .ctState (e.specChars .ctState) value = (!e.misread .ctState && e.contains value) := by
  obtain ⟨key, keyEnd, timeout⟩ := e
  cases keyEnd with
  | none =>
    show denotes _ (KeyType.ctState.keyText key) value = (!(CtState.ofBytes? key).isNone && key == value)
    cases hs : CtState.ofBytes? key with
    | none =>
      rw [KeyType.keyText, hs]
      rfl
    | some s =>
      have text : KeyType.ctState.keyText key = s.text.toList := by
        rw [KeyType.keyText, hs]
        rfl
      rw [text, denotes, element_states, ctStateElement_text, CtState.ofBytes?_some hs]
      rfl
  | some last =>
    have discrete : KeyType.ctState.networkLength? key last = none := rfl
    have keyWidth : key.length = value.length := (Element.key_width wide).trans width.symm
    have lastWidth : last.length = value.length := (Element.last_width wide rfl).trans width.symm
    rw [Element.specChars_range timeout discrete, denotes_hyphen (by simp)]
    show false = (!Bytes.le key last && (Bytes.le key value && Bytes.le value last))
    cases ordered : Bytes.le key last with
    | true => rfl
    | false => rw [Element.between_reversed keyWidth lastWidth ordered, Bool.and_false]

end States

section Addresses

open Text

namespace Address

theorem ofBytes?_bytes (a : Address) : ofBytes? a.bytes = some a := by
  cases a with
  | v4 b =>
    have width : (v4 b).bytes.length = 4 := Bytes.ofNat_length 4 _
    rw [ofBytes?, if_pos width, bytes, Bytes.toNat_ofNat_of_lt b.isLt, BitVec.ofNat_toNat,
      BitVec.setWidth_eq]
  | v6 b =>
    have width : (v6 b).bytes.length = 16 := Bytes.ofNat_length 16 _
    have long : ¬ (v6 b).bytes.length = 4 := by
      rw [width]
      decide
    rw [ofBytes?, if_neg long, if_pos width, bytes, Bytes.toNat_ofNat_of_lt b.isLt,
      BitVec.ofNat_toNat, BitVec.setWidth_eq]

theorem exists_bytes {f : Family} {bs : List UInt8} (h : bs.length = f.keyType.length) :
    ∃ a : Address, a.family = f ∧ a.bytes = bs := by
  have bound := Bytes.toNat_lt bs
  have whole := Bytes.ofNat_toNat bs
  rw [h] at bound whole
  cases f with
  | ipv4 =>
    have small : Bytes.toNat bs < 2 ^ 32 := bound
    refine ⟨.v4 (BitVec.ofNat 32 (Bytes.toNat bs)), rfl, ?_⟩
    rw [bytes, BitVec.toNat_ofNat, Nat.mod_eq_of_lt small]
    exact whole
  | ipv6 =>
    have small : Bytes.toNat bs < 2 ^ 128 := bound
    refine ⟨.v6 (BitVec.ofNat 128 (Bytes.toNat bs)), rfl, ?_⟩
    rw [bytes, BitVec.toNat_ofNat, Nat.mod_eq_of_lt small]
    exact whole

theorem exists_family (f : Family) : ∃ a : Address, a.family = f := by
  cases f with
  | ipv4 => exact ⟨.v4 0, rfl⟩
  | ipv6 => exact ⟨.v6 0, rfl⟩

theorem bytes_keyLength (a : Address) : a.bytes.length = a.family.keyType.length := by
  cases a <;> simp [bytes, family, Family.keyType, KeyType.length]

theorem toNat_bytes (a : Address) : Bytes.toNat a.bytes = a.toNat := by
  cases a with
  | v4 b => exact Bytes.toNat_ofNat_of_lt b.isLt
  | v6 b => exact Bytes.toNat_ofNat_of_lt b.isLt

theorem keyText_bytes (a : Address) : a.family.keyType.keyText a.bytes = a.chars := by
  have text : ∀ (f : Family) (bs : List UInt8), bs.length = f.keyType.length →
      f.keyType.keyText bs = ((ofBytes? bs).map chars).getD [] := by
    intro f bs h
    cases f with
    | ipv4 => exact if_pos h
    | ipv6 => exact if_pos h
  rw [text _ _ (bytes_keyLength a), ofBytes?_bytes]
  rfl

theorem isMappedKey_bytes (a : Address) : isMappedKey a.bytes = (a.unmapped != a) := by
  rw [isMappedKey, ofBytes?_bytes]
  rfl

/-- An address that stands for another one is an IPv6 address that stands for an IPv4 address. -/
theorem unmapped_family {a : Address} (h : a.unmapped ≠ a) : a.unmapped.family ≠ a.family := by
  cases a with
  | v4 b => exact absurd rfl h
  | v6 b =>
    cases mapped : isMapped b with
    | true =>
      rw [unmapped, if_pos mapped]
      exact Family.noConfusion
    | false =>
      have plain : (v6 b).unmapped = v6 b := by rw [unmapped, mapped, if_neg Bool.false_ne_true]
      exact absurd plain h

end Address

theorem Address.toNat_mod (a : Address) : a.toNat % addressBound = a.toNat := by
  cases a with
  | v4 b => exact Nat.mod_eq_of_lt (Nat.lt_trans b.isLt (by decide))
  | v6 b => exact Nat.mod_eq_of_lt b.isLt

/-- What is made of two addresses to see whether they bound a network. -/
theorem networkLength?_bytes (a b : Address) :
    a.family.keyType.networkLength? a.bytes b.bytes =
      let host := a.toNat ^^^ b.toNat
      if host &&& (host + 1) = 0 ∧ a.toNat &&& host = 0 then
        some (UInt32.ofNat (a.family.keyType.length * 8) - UInt32.ofNat (countOnes host))
      else none := by
  have known : a.family.keyType.family?.isNone = false := by cases a.family <;> rfl
  rw [KeyType.networkLength?, known, if_neg Bool.false_ne_true, Address.toNat_bytes,
    Address.toNat_bytes, Address.toNat_mod, Address.toNat_mod]

/-- Bounds that have the form of a network are its first and its last address. -/
theorem networkLength?_bounds {a b : Address} {len : UInt32} (same : b.family = a.family)
    (h : a.family.keyType.networkLength? a.bytes b.bytes = some len) :
    ∃ n : Network, n.address = a ∧ n.length = len.toNat ∧ n.base = a ∧ n.last = b := by
  have short : ∀ w n : Nat, w < 2 ^ 32 → n ≤ w → (UInt32.ofNat w - UInt32.ofNat n).toNat = w - n := by
    intro w n hw hn
    have below : UInt32.ofNat n ≤ UInt32.ofNat w := by
      rw [UInt32.le_iff_toNat_le, UInt32.toNat_ofNat_of_lt' hw,
        UInt32.toNat_ofNat_of_lt' (Nat.lt_of_le_of_lt hn hw)]
      exact hn
    rw [UInt32.toNat_sub_of_le _ _ below, UInt32.toNat_ofNat_of_lt' hw,
      UInt32.toNat_ofNat_of_lt' (Nat.lt_of_le_of_lt hn hw)]
  rw [networkLength?_bytes] at h
  dsimp only at h
  split at h
  · rename_i host
    obtain ⟨ones, clear⟩ := host
    cases h
    cases a with
    | v4 x =>
      cases b with
      | v4 y =>
        obtain ⟨le, first, last⟩ := bounds_of_host ones clear rfl
        exact ⟨⟨.v4 x, 32 - countOnes (x.toNat ^^^ y.toNat), Nat.sub_le _ _⟩, rfl,
          (short 32 _ (by decide) le).symm, congrArg Address.v4 first, congrArg Address.v4 last⟩
      | v6 y => cases same
    | v6 x =>
      cases b with
      | v4 y => cases same
      | v6 y =>
        obtain ⟨le, first, last⟩ := bounds_of_host ones clear rfl
        exact ⟨⟨.v6 x, 128 - countOnes (x.toNat ^^^ y.toNat), Nat.sub_le _ _⟩, rfl,
          (short 128 _ (by decide) le).symm, congrArg Address.v6 first, congrArg Address.v6 last⟩
  · cases h

/-- The bounds of a network have the form of one. -/
theorem networkLength?_network (n : Network) :
    (n.base.family.keyType.networkLength? n.base.bytes n.last.bytes).isSome = true := by
  have host : ∃ k, n.base.toNat ^^^ n.last.toNat = 2 ^ k - 1 ∧ n.base.toNat &&& (2 ^ k - 1) = 0 := by
    obtain ⟨a, length, le⟩ := n
    cases a with
    | v4 b => exact ⟨32 - length, base_xor_last b length, base_host b length⟩
    | v6 b => exact ⟨128 - length, base_xor_last b length, base_host b length⟩
  obtain ⟨k, differ, clear⟩ := host
  rw [networkLength?_bytes, differ]
  dsimp only
  rw [if_pos ⟨ones_and_succ k, clear⟩]
  rfl

/-- An address is read as itself, unless it stands for another one. -/
theorem Spec.address_chars (a : Address) (spec : List Char) :
    address a.family a.chars spec =
      if a.unmapped = a then .ok a
      else .error (.addressOutsideSet (String.ofList a.chars) a.family) := by
  rw [address, Address.trim_chars, Address.parse?_chars]
  dsimp only
  by_cases h : a.unmapped = a
  · rw [if_pos h, h, if_pos rfl]
  · rw [if_neg h, if_neg (Address.unmapped_family h)]

theorem Spec.element_address (f : Family) (interval : Bool) (text : String) :
    element f.keyType interval text = addressElement f interval text := by
  cases f <;> rfl

/-- An address that stands for no other is read as itself. -/
theorem Spec.addressElement_chars (a : Address) (interval : Bool) :
    addressElement a.family interval (String.ofList a.chars) =
      if a.unmapped = a then .ok (.single a.bytes)
      else .error (.addressOutsideSet (String.ofList a.chars) a.family) := by
  have slash : a.chars.contains '/' = false := by
    rw [List.contains_eq_mem, decide_eq_false_iff_not]
    exact Address.not_mem_chars (by decide) a
  have cut : splitOnce '-' a.chars = none :=
    splitOnce_none.mpr (Address.not_mem_chars (by decide) a)
  rw [addressElement, String.toList_ofList, Address.trim_chars, slash, if_neg Bool.false_ne_true, cut]
  dsimp only
  rw [address_chars]
  by_cases h : a.unmapped = a
  · rw [if_pos h, if_pos h]
  · rw [if_neg h, if_neg h]

/-- Two addresses with a hyphen between them are read as bounds. -/
theorem Spec.addressElement_range (f : Family) (interval : Bool) (a b : Address) :
    addressElement f interval (String.ofList (a.chars ++ '-' :: b.chars)) =
      addressRange f interval a.chars b.chars (a.chars ++ '-' :: b.chars) := by
  have plain : ∀ c ∈ a.chars ++ '-' :: b.chars, isBlank c = false ∧ c ≠ '/' := by
    intro c hc
    simp only [List.mem_append, List.mem_cons] at hc
    rcases hc with front | rfl | back
    · have here := Address.chars_address a c front
      exact ⟨Address.isAddressChar_blank here, fun e => by rw [e] at here; cases here⟩
    · decide
    · have here := Address.chars_address b c back
      exact ⟨Address.isAddressChar_blank here, fun e => by rw [e] at here; cases here⟩
  have slash : (a.chars ++ '-' :: b.chars).contains '/' = false := by
    rw [List.contains_eq_mem, decide_eq_false_iff_not]
    exact fun member => (plain '/' member).2 rfl
  have cut : splitOnce '-' (a.chars ++ '-' :: b.chars) = some (a.chars, b.chars) :=
    splitOnce_some.mpr ⟨rfl, Address.not_mem_chars (by decide) a⟩
  rw [addressElement, String.toList_ofList, trim_eq_self fun c hc => (plain c hc).1, slash,
    if_neg Bool.false_ne_true, cut]

/-- Bounds that stand for no other addresses are those of a range. -/
theorem Spec.addressRange_chars {a b : Address} (same : b.family = a.family) (ha : a.unmapped = a)
    (hb : b.unmapped = b) (interval : Bool) (spec : List Char) :
    addressRange a.family interval a.chars b.chars spec =
      if Bytes.order a.bytes b.bytes = .gt then .error (.addressRangeReversed (String.ofList spec))
      else if !interval ∧ a.bytes ≠ b.bytes then .error (.addressRangeDiscrete (String.ofList spec))
      else .ok (.range a.bytes b.bytes) := by
  have second : address a.family b.chars spec = .ok b := by rw [← same, address_chars, if_pos hb]
  rw [addressRange, address_chars, if_pos ha]
  dsimp only
  rw [second]

/-- A network is read as its addresses. -/
theorem Spec.addressElement_network (n : Network) (interval : Bool) :
    addressElement n.address.family interval (String.ofList n.chars) =
      if !interval ∧ n.base.bytes ≠ n.last.bytes then .error (.networkDiscrete (String.ofList n.chars))
      else .ok (.range n.base.bytes n.last.bytes) := by
  have blank : ∀ c ∈ n.chars, isBlank c = false := by
    intro c hc
    simp only [Network.chars, List.mem_append, List.mem_cons] at hc
    rcases hc with front | rfl | back
    · exact Address.isAddressChar_blank (Address.chars_address _ c front)
    · decide
    · exact digit_blank _ c back
  have slash : n.chars.contains '/' = true := by simp [Network.chars]
  rw [addressElement, String.toList_ofList, trim_eq_self blank, if_pos slash, networkElement,
    Network.parse?_chars]
  dsimp only
  rw [if_neg (by simp)]

/-- An address that stands for no other denotes itself. -/
theorem Spec.denotes_address (a : Address) (value : List UInt8) :
    denotes a.family.keyType a.chars value = (a.unmapped == a && a.bytes == value) := by
  rw [denotes, element_address, addressElement_chars]
  by_cases h : a.unmapped = a
  · rw [if_pos h, h, beq_self_eq_true]
    rfl
  · rw [if_neg h, beq_eq_false_iff_ne.mpr h]
    rfl

/-- Two addresses with a hyphen between them denote the addresses between them, unless one of them
stands for another one. -/
theorem Spec.denotes_addresses {a b : Address} (same : b.family = a.family) {value : List UInt8}
    (width : value.length = a.family.keyType.length) :
    denotes a.family.keyType (a.chars ++ '-' :: b.chars) value =
      ((a.unmapped == a && b.unmapped == b) && (Bytes.le a.bytes value && Bytes.le value b.bytes)) := by
  have wa : a.bytes.length = value.length := by rw [Address.bytes_keyLength, width]
  have wb : b.bytes.length = value.length := by rw [Address.bytes_keyLength, same, width]
  rw [denotes, element_address, addressElement_range]
  by_cases ha : a.unmapped = a
  · by_cases hb : b.unmapped = b
    · rw [addressRange_chars same ha hb, beq_iff_eq.mpr ha, beq_iff_eq.mpr hb, Bool.true_and,
        Bool.true_and]
      by_cases reversed : Bytes.order a.bytes b.bytes = .gt
      · have backwards : Bytes.le a.bytes b.bytes = false := by rw [Bytes.le, reversed]; rfl
        rw [if_pos reversed]
        exact (Element.between_reversed wa wb backwards).symm
      · rw [if_neg reversed, if_neg (by simp)]
        exact Element.range_contains_bounds wa
    · rw [addressRange, address_chars, if_pos ha]
      dsimp only
      rw [← same, address_chars, if_neg hb, beq_eq_false_iff_ne.mpr hb, Bool.and_false]
      rfl
  · rw [addressRange, address_chars, if_neg ha, beq_eq_false_iff_ne.mpr ha]
    rfl

/-- A network denotes its addresses. -/
theorem Spec.denotes_network (n : Network) {value : List UInt8}
    (width : value.length = n.address.family.keyType.length) :
    denotes n.address.family.keyType n.chars value =
      (Bytes.le n.base.bytes value && Bytes.le value n.last.bytes) := by
  have wide : n.base.bytes.length = value.length := by
    rw [Address.bytes_keyLength, n.base_family, width]
  rw [denotes, element_address, addressElement_network, if_neg (by simp)]
  exact Element.range_contains_bounds wide

/-- Elements of addresses denote their keys, unless they are misread. -/
theorem Spec.denotes_addressElement {f : Family} {e : Element} (wide : e.hasWidth f.keyType = true)
    {value : List UInt8} (width : value.length = f.keyType.length) :
    denotes f.keyType (e.specChars f.keyType) value = (!e.misread f.keyType && e.contains value) := by
  obtain ⟨key, keyEnd, timeout⟩ := e
  obtain ⟨a, rfl, rfl⟩ := Address.exists_bytes (Element.key_width wide)
  cases keyEnd with
  | none =>
    have misread : Element.misread a.family.keyType ⟨a.bytes, none, timeout⟩ = (a.unmapped != a) := by
      rw [← Address.isMappedKey_bytes]
      cases a.family <;> rfl
    rw [misread, bne, Bool.not_not]
    show denotes _ (a.family.keyType.keyText a.bytes) value = _
    rw [Address.keyText_bytes, denotes_address]
    rfl
  | some last =>
    obtain ⟨b, same, rfl⟩ := Address.exists_bytes (f := a.family) (Element.last_width wide rfl)
    have misread : Element.misread a.family.keyType ⟨a.bytes, some b.bytes, timeout⟩ =
        (Bytes.le a.bytes b.bytes && (a.family.keyType.networkLength? a.bytes b.bytes).isNone &&
          (a.unmapped != a || b.unmapped != b)) := by
      rw [← Address.isMappedKey_bytes, ← Address.isMappedKey_bytes]
      cases a.family <;> rfl
    have wa : a.bytes.length = value.length := by rw [Address.bytes_keyLength, width]
    have wb : b.bytes.length = value.length := by rw [Address.bytes_keyLength, same, width]
    show denotes _ _ _ = (_ && (Bytes.le a.bytes value && Bytes.le value b.bytes))
    rw [misread]
    cases hn : a.family.keyType.networkLength? a.bytes b.bytes with
    | some len =>
      obtain ⟨n, address, length, base, last⟩ := networkLength?_bounds same hn
      have text : a.family.keyType.keyText a.bytes ++ '/' :: decimal len.toNat = n.chars := by
        rw [Address.keyText_bytes, Network.chars, address, length]
      have read := denotes_network n (address ▸ width)
      rw [base, last, address, ← text] at read
      rw [Element.specChars_network timeout hn, Option.isNone_some, Bool.and_false, Bool.false_and,
        Bool.not_false, Bool.true_and]
      exact read
    | none =>
      have second : a.family.keyType.keyText b.bytes = b.chars := by
        rw [← same, Address.keyText_bytes]
      rw [Element.specChars_range timeout hn, Address.keyText_bytes, second,
        denotes_addresses same width, Option.isNone_none, Bool.and_true]
      cases ordered : Bytes.le a.bytes b.bytes with
      | false =>
        rw [Element.between_reversed wa wb ordered, Bool.and_false, Bool.and_false]
      | true => rw [Bool.true_and, Bool.not_or, bne, bne, Bool.not_not, Bool.not_not]

end Addresses

/-- An element denotes its keys, unless it is misread. -/
theorem Spec.denotes_specChars {k : KeyType} {e : Element} (wide : e.hasWidth k = true)
    {value : List UInt8} (width : value.length = k.length) :
    denotes k (e.specChars k) value = (!e.misread k && e.contains value) := by
  cases k with
  | inetService => exact denotes_portElement wide width
  | ipv4Addr => exact denotes_addressElement (f := .ipv4) wide width
  | ipv6Addr => exact denotes_addressElement (f := .ipv6) wide width
  | ctState => exact denotes_ctStateElement wide width

/-- A misread element is not empty. -/
theorem Element.misread_contains {k : KeyType} {e : Element} (h : e.misread k = true) :
    e.contains e.key = true := by
  obtain ⟨key, keyEnd, timeout⟩ := e
  cases keyEnd with
  | none => exact beq_self_eq_true key
  | some last =>
    have ordered : Bytes.le key last = true := by
      cases k with
      | inetService => cases h
      | ipv4Addr => exact (Bool.and_eq_true_iff.mp (Bool.and_eq_true_iff.mp h).1).1
      | ipv6Addr => exact (Bool.and_eq_true_iff.mp (Bool.and_eq_true_iff.mp h).1).1
      | ctState => exact h
    have self : Bytes.le key key = true := by
      rw [Bytes.le, Bytes.order_self]
      rfl
    show (Bytes.le key key && Bytes.le key last) = true
    rw [self, ordered]
    rfl

end Firewall
