import Firewall.Proofs.SetUpdate
import Firewall.Proofs.SpecMeaning

namespace Firewall

open Text

namespace Spec

variable {f : Family} {cs spec low high : List Char} {text : String}

/-- The address that a text names; blanks around it do not count. -/
def readAddress (cs : List Char) : Option Address := Address.parse? (trim cs)

theorem readAddress_trim (cs : List Char) : readAddress (trim cs) = readAddress cs := by
  rw [readAddress, trim_trim]
  rfl

/-- A text that names a range of addresses of one family whose start is above its end. -/
def Reversed (text : List Char) : Prop := '/' ∉ text ∧ ∃ bounds ∈ ends? readAddress text,
  bounds.1.unmapped.family = bounds.2.unmapped.family ∧ bounds.2.unmapped.toNat < bounds.1.unmapped.toNat
  deriving Decidable

/-- A text that names an address which stands for an IPv4 address, alone or as the bound of a range, where the
bounds are of the family as they are written or as what they stand for. -/
def Disputed (f : Family) (text : List Char) : Prop := '/' ∉ text ∧ ∃ bounds ∈ ends? readAddress text,
  (bounds.1.unmapped ≠ bounds.1 ∨ bounds.2.unmapped ≠ bounds.2) ∧
  (bounds.1.family = f ∧ bounds.2.family = f ∨ bounds.1.unmapped.family = f ∧ bounds.2.unmapped.family = f)
  deriving Decidable

theorem address_ok_iff {a : Address} : address f cs spec = .ok a ↔
    ∃ b, readAddress cs = some b ∧ b.unmapped = a ∧ a.family = f := by
  constructor
  · exact address_inv
  · rintro ⟨b, read, rfl, own⟩
    exact address_read read own spec

/-- The keys of addresses of one family are ordered like the addresses. -/
theorem bytes_gt_iff {a b : Address} (same : a.family = b.family) :
    Bytes.order a.bytes b.bytes = .gt ↔ b.toNat < a.toNat := by
  have width : a.bytes.length = b.bytes.length := by
    rw [Address.bytes_keyLength, Address.bytes_keyLength, same]
  have ordered := Bytes.le_toNat width
  rw [Address.toNat_bytes, Address.toNat_bytes, Bytes.le] at ordered
  rw [← Nat.not_le, ← decide_eq_false_iff_not, ← ordered, bne_eq_false_iff_eq]

/-- A set with the interval flag takes a range whose bounds are of its family and in order. -/
theorem addressRange_ok_iff : (∃ e, addressRange f true low high spec = .ok e) ↔
    ∃ a b, readAddress low = some a ∧ readAddress high = some b ∧ a.unmapped.family = f ∧
      b.unmapped.family = f ∧ a.unmapped.toNat ≤ b.unmapped.toNat := by
  unfold addressRange
  constructor
  · rintro ⟨e, read⟩
    split at read
    · cases read
    · rename_i a first
      split at read
      · cases read
      · rename_i b second
        obtain ⟨a, lower, rfl, own⟩ := address_ok_iff.mp first
        obtain ⟨b, upper, rfl, own'⟩ := address_ok_iff.mp second
        refine ⟨a, b, lower, upper, own, own', ?_⟩
        split at read
        · cases read
        · rename_i ordered
          rwa [bytes_gt_iff (own.trans own'.symm), Nat.not_lt] at ordered
  · rintro ⟨a, b, lower, upper, own, own', ordered⟩
    rw [address_ok_iff.mpr ⟨a, lower, rfl, own⟩]
    dsimp only
    rw [address_ok_iff.mpr ⟨b, upper, rfl, own'⟩]
    dsimp only
    rw [if_neg ((bytes_gt_iff (own.trans own'.symm)).not.mpr (Nat.not_lt.mpr ordered)), if_neg (by simp)]
    exact ⟨_, rfl⟩

/-- Without a slash a set takes the addresses between two of its family. -/
theorem addressElement_plain_iff (plain : '/' ∉ text.toList) :
    (∃ e, addressElement f true text = .ok e) ↔ ∃ a b, ends? readAddress text.toList = some (a, b) ∧
      a.unmapped.family = f ∧ b.unmapped.family = f ∧ a.unmapped.toNat ≤ b.unmapped.toNat := by
  rw [addressElement_plain plain, ← ends?_trim readAddress_trim]
  generalize trim text.toList = spec
  cases cut : splitOnce '-' spec with
  | none =>
    rw [ends?_whole cut]
    dsimp only
    constructor
    · rintro ⟨e, read⟩
      split at read
      · rename_i a found
        obtain ⟨b, named, rfl, own⟩ := address_ok_iff.mp found
        exact ⟨b, b, by rw [named]; rfl, own, own, Nat.le_refl _⟩
      · cases read
    · rintro ⟨a, b, named, own, -, -⟩
      obtain ⟨a, read, same⟩ := Option.map_eq_some_iff.mp named
      cases same
      rw [address_ok_iff.mpr ⟨a, read, rfl, own⟩]
      exact ⟨_, rfl⟩
  | some parts =>
    obtain ⟨low, high⟩ := parts
    rw [ends?_parts cut]
    dsimp only
    rw [addressRange_ok_iff]
    refine exists_congr fun a => exists_congr fun b => ?_
    rw [← and_assoc]
    refine and_congr_left fun _ => ?_
    rw [Option.bind_eq_some_iff]
    constructor
    · rintro ⟨lower, upper⟩
      exact ⟨a, lower, by rw [upper]; rfl⟩
    · rintro ⟨a, lower, named⟩
      obtain ⟨b, upper, same⟩ := Option.map_eq_some_iff.mp named
      cases same
      exact ⟨lower, upper⟩

theorem networkElement_ok_iff :
    (∃ e, networkElement f true cs = .ok e) ↔ ∃ n, Network.parse? cs = some n ∧ n.address.family = f := by
  constructor
  · rintro ⟨e, read⟩
    exact networkElement_inv read
  · rintro ⟨n, named, own⟩
    rw [networkElement, named]
    dsimp only
    rw [if_neg (not_not.mpr own), if_neg (by simp)]
    exact ⟨_, rfl⟩

theorem elements_one_iff : (∃ es, elements f.keyType true [text] = .ok es) ↔
    ∃ e, addressElement f true text = .ok e := by
  rw [elements, readAll_iff, List.forall_mem_singleton, element_address]

end Spec

/-- An address that stands for another one is an IPv6 address, and the other one an IPv4 address. -/
theorem Address.mapped_families {a : Address} (mapped : a.unmapped ≠ a) :
    a.family = .ipv6 ∧ a.unmapped.family = .ipv4 := by
  have apart := unmapped_family mapped
  cases a with
  | v4 b => exact absurd rfl mapped
  | v6 b =>
    refine ⟨rfl, ?_⟩
    cases other : (v6 b).unmapped.family with
    | ipv4 => rfl
    | ipv6 => exact absurd other apart

/-- No network has a hyphen in its text. -/
theorem Network.parse?_hyphen {cs : List Char} (slash : '/' ∈ cs) (hyphen : '-' ∈ cs) : parse? cs = none := by
  cases read : parse? cs with
  | none => rfl
  | some n =>
    obtain ⟨address, length, rfl, -, -, first, last⟩ := parse?_inv slash read
    have clear : '-' ∉ length := by
      intro inside
      rcases last with number | ⟨-, mask⟩
      · exact (number?_iff.mp number).1.not_mem (by decide) (by decide) inside
      · rw [Address.dotted?_foreign inside (by decide) (by decide)] at mask
        cases mask
    have front : '-' ∈ address := by
      rcases List.mem_append.mp hyphen with front | back
      · exact front
      · exact absurd ((List.mem_cons.mp back).resolve_left (by decide)) clear
    rw [Address.parse?_foreign front (by decide)] at first
    cases first

theorem Network.parse?_plain {cs : List Char} (plain : '/' ∉ cs) :
    parse? cs = (Address.parse? cs).map host := by
  rw [parse?, pieces_single (beq_of_not_mem plain)]

namespace Input

open Spec

variable {f : Family} {text : String}

/-- The check takes a text if it names addresses of the family only. -/
theorem addressSpec_iff : (∃ t, addressSpec text f = .ok t) ↔
    ∃ as, addressesOf text = .ok as ∧ ∀ a ∈ as, a.family = f := by
  unfold addressSpec
  cases addressesOf text with
  | error fault => exact ⟨fun ⟨_, taken⟩ => (nomatch taken), fun ⟨_, named, _⟩ => nomatch named⟩
  | ok as =>
    have each : as.any (fun a => a.family != f) = true ↔ ¬∀ a ∈ as, a.family = f := by
      simp
    dsimp only
    split
    · rename_i other
      refine ⟨fun ⟨_, taken⟩ => (nomatch taken), ?_⟩
      rintro ⟨as, same, own⟩
      cases same
      exact absurd own (each.mp other)
    · rename_i own
      rw [each, not_not] at own
      exact ⟨fun _ => ⟨as, rfl, own⟩, fun _ => ⟨_, rfl⟩⟩

/-- Without a slash the check takes the addresses between two of the family. -/
theorem addressSpec_plain_iff (plain : '/' ∉ text.toList) : (∃ t, addressSpec text f = .ok t) ↔
    ∃ a b, ends? readAddress text.toList = some (a, b) ∧ a.family = f ∧ b.family = f := by
  rw [addressSpec_iff, addressesOf]
  cases cut : splitOnce '-' text.toList with
  | none =>
    have bare : '/' ∉ trim text.toList := (mem_trim (by decide)).not.mpr plain
    rw [ends?_whole cut, readAddress]
    dsimp only
    rw [Network.parse?_plain bare]
    cases Address.parse? (trim text.toList) with
    | none => simp
    | some a => simp [Network.host]
  | some parts =>
    obtain ⟨low, high⟩ := parts
    rw [ends?_parts cut, readAddress, readAddress]
    dsimp only
    cases Address.parse? (trim low) with
    | none => simp
    | some a => cases Address.parse? (trim high) <;> simp

/-- With a slash the check takes the networks of the family, as a set does. -/
theorem addressSpec_slash_iff (slash : '/' ∈ text.toList) : (∃ t, addressSpec text f = .ok t) ↔
    ∃ e, addressElement f true text = .ok e := by
  have inside : '/' ∈ trim text.toList := (mem_trim (by decide)).mpr slash
  rw [addressSpec_iff, addressesOf, addressElement_slash slash, networkElement_ok_iff]
  cases cut : splitOnce '-' text.toList with
  | none =>
    dsimp only
    cases Network.parse? (trim text.toList) <;> simp
  | some parts =>
    obtain ⟨low, high⟩ := parts
    obtain ⟨whole, -⟩ := splitOnce_some.mp cut
    have hyphen : '-' ∈ trim text.toList := by
      rw [mem_trim (by decide), whole]
      simp
    -- With a hyphen as well there is no network, and no address in the bound with the slash.
    rw [Network.parse?_hyphen inside hyphen]
    rw [whole, List.mem_append, List.mem_cons] at slash
    have foreign : ∀ {bound : List Char}, '/' ∈ bound → Address.parse? (trim bound) = none :=
      fun h => Address.parse?_foreign ((mem_trim (by decide)).mpr h) (by decide)
    dsimp only
    rcases slash with front | here | back
    · simp [foreign front]
    · cases here
    · rw [foreign back]
      cases Address.parse? (trim low) <;> simp

theorem agrees_of_plain {a b : Address} (plain : '/' ∉ text.toList)
    (named : ends? readAddress text.toList = some (a, b)) (ordered : ¬Reversed text.toList) :
    ((∃ t, addressSpec text f = .ok t) ↔ a.family = f ∧ b.family = f) ∧
    ((∃ es, elements f.keyType true [text] = .ok es) ↔ a.unmapped.family = f ∧ b.unmapped.family = f) := by
  rw [addressSpec_plain_iff plain, elements_one_iff, addressElement_plain_iff plain, named]
  constructor
  · simp
  · constructor
    · rintro ⟨a, b, same, own, own', -⟩
      cases same
      exact ⟨own, own'⟩
    · rintro ⟨own, own'⟩
      refine ⟨a, b, rfl, own, own', Nat.le_of_not_lt fun less => ordered ⟨plain, (a, b), named, ?_, less⟩⟩
      exact own.trans own'.symm

/-- Apart from ranges in the wrong order and from disputed texts, the check takes exactly the texts that a set
with the interval flag takes. -/
theorem agrees_of_undisputed (ordered : ¬Reversed text.toList) (undisputed : ¬Disputed f text.toList) :
    (∃ t, addressSpec text f = .ok t) ↔ ∃ es, elements f.keyType true [text] = .ok es := by
  by_cases slash : '/' ∈ text.toList
  · rw [addressSpec_slash_iff slash, elements_one_iff]
  · cases named : ends? readAddress text.toList with
    | none =>
      rw [addressSpec_plain_iff slash, elements_one_iff, addressElement_plain_iff slash, named]
      simp
    | some bounds =>
      obtain ⟨a, b⟩ := bounds
      obtain ⟨check, set⟩ := agrees_of_plain (f := f) slash named ordered
      rw [check, set]
      by_cases own : a.unmapped = a ∧ b.unmapped = b
      · rw [own.1, own.2]
      -- Otherwise both sides are false, or the text would be disputed.
      · have neither := fun either => undisputed ⟨slash, (a, b), named, not_and_or.mp own, either⟩
        exact iff_of_false (neither ∘ .inl) (neither ∘ .inr)

/-- The check takes a disputed text as IPv6 addresses, and a set takes it as IPv4 addresses. -/
theorem disagrees_of_disputed (ordered : ¬Reversed text.toList) (disputed : Disputed f text.toList) :
    ((∃ t, addressSpec text f = .ok t) ↔ f = .ipv6) ∧
    ((∃ es, elements f.keyType true [text] = .ok es) ↔ f = .ipv4) := by
  obtain ⟨plain, ⟨a, b⟩, named, mapped, either⟩ := disputed
  obtain ⟨check, set⟩ := agrees_of_plain (f := f) plain named ordered
  rw [check, set]
  have one : a.family = .ipv6 ∧ a.unmapped.family = .ipv4 ∨ b.family = .ipv6 ∧ b.unmapped.family = .ipv4 :=
    mapped.imp Address.mapped_families Address.mapped_families
  -- The bounds share a family, so the one that stands for another address tells which it is.
  rcases either with ⟨rfl, same⟩ | ⟨rfl, same⟩
  · have written : a.family = .ipv6 := one.elim And.left fun second => same.symm.trans second.1
    rw [written] at same ⊢
    rcases one with ⟨-, four⟩ | ⟨-, four⟩ <;> simp [same, four]
  · have meant : a.unmapped.family = .ipv4 := one.elim And.right fun second => same.symm.trans second.2
    rw [meant] at same ⊢
    rcases one with ⟨six, -⟩ | ⟨six, -⟩ <;> simp [same, six]

/-- The check of an update or a ban takes the texts from which the set makes elements. -/
theorem checkSpecs_iff {config : Config} {l : Layout} (of : l.Of config) (which : AddressSet) {specs : List String}
    (plain : ∀ text ∈ specs, ¬Reversed text.toList ∧ ¬Disputed config.family text.toList) :
    Controller.checkSpecs which config.family specs = .ok () ↔
      ∃ es, (which.set l).elementsOfSpecs specs = .ok es := by
  rw [of.elementsOfSpecs, Controller.checkSpecs, Config.checkEach_iff, elements, readAll_iff]
  refine forall₂_congr fun text member => ?_
  obtain ⟨ordered, undisputed⟩ := plain text member
  rw [agrees_of_undisputed ordered undisputed, elements_one_iff, element_address]

/-- But for ranges in the wrong order, the check of addresses of a family takes a text exactly if a set with the
interval flag makes an element of it, unless the text is disputed. That is where a text without a network length
names an address which stands for an IPv4 address: the check goes by the address as it is written, the set by the
one that it stands for. The check of an IPv6 policy takes such a text, of which its sets make no element, and that
of an IPv4 policy refuses what its sets would take. An update or a ban of other texts passes the check exactly if
the set makes elements of them. -/
theorem addressSpec_agrees (f : Family) :
    (∀ text : String, ¬Reversed text.toList →
      (((∃ t, addressSpec text f = .ok t) ↔ ∃ es, elements f.keyType true [text] = .ok es) ↔
        ¬Disputed f text.toList)) ∧
    (∀ text : String, ¬Reversed text.toList → Disputed f text.toList →
      ((∃ t, addressSpec text f = .ok t) ↔ f = .ipv6) ∧
      ((∃ es, elements f.keyType true [text] = .ok es) ↔ f = .ipv4)) ∧
    ∀ (config : Config) (l : Layout) (which : AddressSet) (specs : List String), config.family = f → l.Of config →
      (∀ text ∈ specs, ¬Reversed text.toList ∧ ¬Disputed f text.toList) →
      (Controller.checkSpecs which f specs = .ok () ↔ ∃ es, (which.set l).elementsOfSpecs specs = .ok es) := by
  refine ⟨fun text ordered => ⟨fun agree disputed => ?_, agrees_of_undisputed ordered⟩,
    fun text => disagrees_of_disputed, ?_⟩
  · obtain ⟨check, set⟩ := disagrees_of_disputed ordered disputed
    rw [check, set] at agree
    cases f with
    | ipv4 => cases agree.mpr rfl
    | ipv6 => cases agree.mp rfl
  · rintro config l which specs rfl of plain
    exact checkSpecs_iff of which plain

/-- An address in its IPv6 form is refused by the check and taken by the set; a network and a range are taken by
both. -/
theorem addressSpec_agrees_mapped :
    (¬∃ t, addressSpec "::ffff:198.51.100.7" .ipv4 = .ok t) ∧
    (∃ es, elements Family.ipv4.keyType true ["::ffff:198.51.100.7"] = .ok es) ∧
    (∃ t, addressSpec " ::ffff:198.51.100.0/120" .ipv6 = .ok t) ∧
    ∃ es, (AddressSet.blacklist.set (Layout.numbered Config.default)).elementsOfSpecs
      ["198.51.100.1 - 198.51.100.9", "10.0.0.0/8"] = .ok es := by
  obtain ⟨-, disputes, lists⟩ := addressSpec_agrees .ipv4
  obtain ⟨agrees, -, -⟩ := addressSpec_agrees .ipv6
  obtain ⟨check, set⟩ := disputes "::ffff:198.51.100.7" (by decide) (by decide)
  have network : ∃ t, addressSpec " ::ffff:198.51.100.0/120" .ipv6 = .ok t :=
    ((agrees " ::ffff:198.51.100.0/120" (by decide)).mpr (by decide)).mpr
      ⟨[.range [0, 0, 0, 0, 0, 0, 0, 0, 0, 0, 255, 255, 198, 51, 100, 0]
        [0, 0, 0, 0, 0, 0, 0, 0, 0, 0, 255, 255, 198, 51, 100, 255]], by decide⟩
  have listed : ∃ es, (AddressSet.blacklist.set (Layout.numbered Config.default)).elementsOfSpecs
      ["198.51.100.1 - 198.51.100.9", "10.0.0.0/8"] = .ok es :=
    (lists Config.default (Layout.numbered Config.default) .blacklist
      ["198.51.100.1 - 198.51.100.9", "10.0.0.0/8"] rfl .numbered (by decide)).mp (by decide)
  refine ⟨fun taken => ?_, set.mpr rfl, network, listed⟩
  cases check.mp taken

end Input

end Firewall
