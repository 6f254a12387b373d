import Firewall.Proofs.RuleParts

namespace Firewall.Nft

section Renders

variable {table : Table} {sets : List AnonymousSet}

/-- A fragment is written as the same statements wherever it stands. -/
def Renders (table : Table) (sets : List AnonymousSet) (f : Program) (front : List Json) : Prop :=
  ∀ pos s rest, ∃ pos' s',
    renderOps table sets pos s (f ++ rest) = (renderOps table sets pos' s' rest).map (front ++ ·)

theorem renderOps_cons {s s' : Slots} {op : Op} {js : List Json}
    (h : renderOp table sets s op = .ok (js, s')) (pos : Nat) (rest : Program) :
    renderOps table sets pos s (op :: rest) =
      (renderOps table sets (pos + 1) s' rest).map (js ++ ·) := by
  rw [renderOps, h]
  dsimp only
  cases renderOps table sets (pos + 1) s' rest with
  | error e => rfl
  | ok back => rfl

theorem map_append (front back : List Json) (r : Except Error (List Json)) :
    (r.map (back ++ ·)).map (front ++ ·) = r.map (front ++ back ++ ·) := by
  cases r with
  | error e => rfl
  | ok js => exact congrArg Except.ok (List.append_assoc front back js).symm

theorem Renders.append {f g : Program} {a b : List Json} (hf : Renders table sets f a)
    (hg : Renders table sets g b) : Renders table sets (f ++ g) (a ++ b) := by
  intro pos s rest
  obtain ⟨pos₁, s₁, first⟩ := hf pos s (g ++ rest)
  obtain ⟨pos₂, s₂, second⟩ := hg pos₁ s₁ rest
  exact ⟨pos₂, s₂, by rw [List.append_assoc, first, second, map_append]⟩

theorem renders_statement {op : Op} {j : Json}
    (h : ∀ s, renderOp table sets s op = .ok ([j], s)) : Renders table sets [op] [j] := by
  intro pos s rest
  exact ⟨pos + 1, s, renderOps_cons (h s) pos rest⟩

/-- A field is loaded and read by the next operation. -/
theorem renders_read {field : Field} {reg : Register} {op : Op} {j : Json}
    (h : ∀ s : Slots, s reg = some (.field (.of table.family.profile field) none) →
      ∃ s', renderOp table sets s op = .ok ([j], s')) :
    Renders table sets [.load field reg, op] [j] := by
  intro pos s rest
  obtain ⟨s', read⟩ := h (s.set reg (some (.field (.of table.family.profile field) none)))
    (if_pos rfl)
  refine ⟨pos + 1 + 1, s', ?_⟩
  have load : renderOp table sets s (.load field reg) =
      .ok ([], s.set reg (some (.field (.of table.family.profile field) none))) := rfl
  rw [List.cons_append, renderOps_cons load, List.singleton_append, renderOps_cons read, map_append]
  rfl

/-- A field is loaded, masked and read by the next operation. -/
theorem renders_masked {field : Field} {reg : Register} {len : UInt32} {mask xor : List UInt8}
    {op : Op} {j : Json} (zero : ∀ b ∈ xor, b = 0)
    (h : ∀ s : Slots, s reg = some (.field (.of table.family.profile field) (some mask)) →
      ∃ s', renderOp table sets s op = .ok ([j], s')) :
    Renders table sets [.load field reg, .bitwise reg reg len mask xor, op] [j] := by
  intro pos s rest
  have plain : xor.any (· != 0) = false := by
    rw [List.any_eq_false]
    intro b hb
    simp [zero b hb]
  have load : renderOp table sets s (.load field reg) =
      .ok ([], s.set reg (some (.field (.of table.family.profile field) none))) := rfl
  have loaded : s.set reg (some (.field (.of table.family.profile field) none)) reg =
      some (.field (.of table.family.profile field) none) := if_pos rfl
  obtain ⟨s', read⟩ := h
    (((s.set reg (some (.field (.of table.family.profile field) none))).set reg none).set reg
      (some (.field (.of table.family.profile field) (some mask)))) (if_pos rfl)
  have masked : renderOp table sets (s.set reg (some (.field (.of table.family.profile field) none)))
      (.bitwise reg reg len mask xor) =
      .ok ([], ((s.set reg (some (.field (.of table.family.profile field) none))).set reg none).set reg
        (some (.field (.of table.family.profile field) (some mask)))) := by
    rw [renderOp, plain, if_neg Bool.false_ne_true, loaded]
  refine ⟨pos + 1 + 1 + 1, s', ?_⟩
  rw [List.cons_append, renderOps_cons load, List.cons_append, renderOps_cons masked,
    List.singleton_append, renderOps_cons read, map_append, map_append]
  rfl

theorem compareStatement_plain (p : Profile) (c : Comparison) (m : Meaning) (data : List UInt8) :
    compareStatement p c m none data = matchStatement c.symbol (m.expr p) (m.value data) := by
  cases m <;> rfl

theorem renders_compare {field : Field} {m : Meaning}
    (hm : Meaning.of table.family.profile field = m) (reg : Register) (c : Comparison)
    (data : List UInt8) :
    Renders table sets [.load field reg, .compare c reg data]
      [matchStatement c.symbol (m.expr table.family.profile) (m.value data)] := by
  refine renders_read fun s h => ⟨s.set reg none, ?_⟩
  rw [renderOp, h, hm]
  dsimp only
  rw [compareStatement_plain]

theorem renders_lookup {field : Field} {m : Meaning}
    (hm : Meaning.of table.family.profile field = m) (reg : Register) (set : SetRef) (invert : Bool) :
    Renders table sets [.load field reg, .lookup reg set invert]
      [matchStatement (Comparison.equal invert).symbol (m.expr table.family.profile)
        (lookupTarget sets table set.name)] := by
  refine renders_read fun s h => ⟨s.set reg none, ?_⟩
  rw [renderOp, h, hm]

theorem renders_maskedCompare {field : Field} {m : Meaning}
    (hm : Meaning.of table.family.profile field = m) (reg : Register) (c : Comparison) (len : UInt32)
    (mask data : List UInt8) {xor : List UInt8} (zero : ∀ b ∈ xor, b = 0) :
    Renders table sets [.load field reg, .bitwise reg reg len mask xor, .compare c reg data]
      [compareStatement table.family.profile c m (some mask) data] := by
  refine renders_masked zero fun s h => ⟨s.set reg none, ?_⟩
  rw [renderOp, h, hm]

end Renders

section Asks

variable {family : Family} {members : Members} {p : Packet} {a b : Bool}

/-- Statements let exactly the packets pass of which `b` holds. -/
def Asks (family : Family) (members : Members) (p : Packet) (front : List Json) (b : Bool) : Prop :=
  ∀ more, effectOf? family members p (front ++ more) =
    (effectOf? family members p more).map (Effect.guard b)

theorem asks_statement {j : Json} (h : moveOf? family members p j = some (.test b)) :
    Asks family members p [j] b := by
  intro more
  rw [List.singleton_append, effectOf?, h]
  rfl

theorem Asks.append {front back : List Json} (hf : Asks family members p front a)
    (hg : Asks family members p back b) : Asks family members p (front ++ back) (a && b) := by
  intro more
  have guards : Effect.guard a ∘ Effect.guard b = Effect.guard (a && b) := by
    funext e
    cases a <;> cases b <;> rfl
  rw [List.append_assoc, hf, hg, Option.map_map, guards]

end Asks

/-- The keys of the sets as the statements of a rule show them. -/
def shownMembers (table : Table) (sets : List AnonymousSet) (members : Members) : Members :=
  fun name value =>
    match findAnonymous? sets table name with
    | some s => s.elements.any fun e => !e.misread s.keyType && e.contains value
    | none => members name value

/-- A fragment is written as statements that ask what `asks` says of the packets of a table. -/
def Written (table : Table) (sets : List AnonymousSet) (members : Members) (f : Program)
    (asks : Packet → Bool) : Prop :=
  ∃ front, Renders table sets f front ∧
    ∀ p, p.wellFormed = true → p.family = table.family → Asks table.family members p front (asks p)

section Written

variable {table : Table} {sets : List AnonymousSet} {members : Members} {f g : Program}
  {asks more : Packet → Bool} {m : Meaning}

theorem Written.append (hf : Written table sets members f asks) (hg : Written table sets members g more) :
    Written table sets members (f ++ g) fun p => asks p && more p := by
  obtain ⟨front, first, asked⟩ := hf
  obtain ⟨back, second, wanted⟩ := hg
  exact ⟨front ++ back, first.append second, fun p wf same => (asked p wf same).append (wanted p wf same)⟩

theorem written_compare {field : Field} (hm : Meaning.of table.family.profile field = m)
    (named : m.isNamed = true) (reg : Register) {c : Comparison} {data : List UInt8}
    (right : rightOf? table.family members m (m.value data) = some (.value data))
    (h : ∀ p, p.wellFormed = true → p.family = table.family →
      ((m.valueIn? p).any fun v => c.holds v data) = asks p) :
    Written table sets members [.load field reg, .compare c reg data] asks := by
  refine ⟨_, renders_compare hm reg c data, fun p wf same => ?_⟩
  have move := moveOf?_compare (p := p) (c := c) (fieldOf?_expr table.family named) right
  rw [h p wf same] at move
  exact asks_statement move

/-- A lookup shows the keys of its set. -/
theorem written_lookup {field : Field} {k : KeyType} {set : MatchSet} {invert : Bool}
    (hm : Meaning.of table.family.profile field = m) (named : m.isNamed = true)
    (reg : Register) (key : m.keyType? table.family = some k)
    (declared : ∀ s, findAnonymous? sets table set.name = some s →
      s.keyType = k ∧ ∀ e ∈ s.elements, e.hasWidth s.keyType = true)
    (h : ∀ p, p.wellFormed = true → p.family = table.family →
      ∃ value, m.valueIn? p = some value ∧ value.length = k.length ∧
        (shownMembers table sets members set.name value != invert) = asks p) :
    Written table sets members [.load field reg, .lookup reg set.ref invert] asks := by
  refine ⟨_, renders_lookup hm reg set.ref invert, fun p wf same => ?_⟩
  obtain ⟨value, found, width, asked⟩ := h p wf same
  have expr := fieldOf?_expr table.family named
  rw [← asked]
  apply asks_statement
  show moveOf? table.family members p (matchStatement _ _ (lookupTarget sets table set.name)) = _
  rw [lookupTarget, shownMembers]
  cases hs : findAnonymous? sets table set.name with
  | none =>
    have keys : rightOf? table.family members m (.string ("@" ++ set.name)) = _ :=
      rightOf?_named set.name
    have move := moveOf?_keys (p := p) invert expr keys
    rw [found] at move
    exact move
  | some s =>
    obtain ⟨rfl, wide⟩ := declared s hs
    have keys : rightOf? table.family members m _ = _ := rightOf?_set key wide
    have move := moveOf?_keys (p := p) invert expr keys
    have shown : (s.elements.map (Element.specChars s.keyType)).any (Spec.denotes s.keyType · value) =
        s.elements.any fun e => !e.misread s.keyType && e.contains value := by
      rw [List.any_map, Bool.eq_iff_iff, List.any_eq_true, List.any_eq_true]
      constructor
      · rintro ⟨e, he, denoted⟩
        exact ⟨e, he, (Spec.denotes_specChars (wide e he) width).symm.trans denoted⟩
      · rintro ⟨e, he, held⟩
        exact ⟨e, he, (Spec.denotes_specChars (wide e he) width).trans held⟩
    rw [found] at move
    dsimp only
    rw [← shown]
    exact move

theorem written_network {dir : Direction} {n : Network} {invert : Bool} {reg : Register}
    (h : Predicate.network table.family.profile dir n invert reg = .ok f) :
    Written table sets members f fun p => n.covers (p.address dir) != invert := by
  unfold Predicate.network at h
  split at h
  · rename_i family
    cases h
    have fits : n.address.family = table.family := by rw [family, table.family.profile_family]
    have zero : ∀ b ∈ table.family.profile.zeroXor, b = 0 := fun b hb => (List.mem_replicate.mp hb).2
    have expr := fieldOf?_expr table.family (m := .address dir) rfl
    have rendered : Renders table sets
        [Predicate.loadAddress table.family.profile dir reg,
          .bitwise reg reg table.family.profile.addressLength n.mask.bytes table.family.profile.zeroXor,
          .compare (.equal invert) reg n.base.bytes]
        [matchStatement (Comparison.equal invert).symbol
          (Meaning.expr table.family.profile (.address dir)) (single "prefix" (.object
            [("addr", addressValue n.base.bytes), ("len", .nat (maskOnes n.mask.bytes))]))] :=
      renders_maskedCompare (of_loadAddress _ dir) reg (.equal invert) _ _ n.base.bytes zero
    refine ⟨_, rendered, fun p wf same => ?_⟩
    have inside : sameLeading n.length (p.address dir).bytes n.base.bytes = n.covers (p.address dir) := by
      apply sameLeading_base
      rw [Packet.address_family wf, same, fits]
    have keys : rightOf? table.family members (.address dir) _ = _ := rightOf?_network dir n
    have move := moveOf?_keys (p := p) invert expr keys
    dsimp only
    rw [← inside]
    exact asks_statement move
  · cases h

theorem written_ctState (s : CtState) (reg : Register) :
    Written table sets members (Predicate.ctState s reg) fun p => p.meets s := by
  have zero : ∀ b ∈ List.replicate 4 (0 : UInt8), b = 0 := fun b hb => (List.mem_replicate.mp hb).2
  have rendered : Renders table sets (Predicate.ctState s reg)
      [matchStatement "in" (Meaning.expr table.family.profile .ctState) (ctNames s.bytes)] :=
    renders_maskedCompare (m := .ctState) rfl reg .ne _ s.bytes (List.replicate 4 0) zero
  exact ⟨_, rendered, fun p _ _ => asks_statement (moveOf?_states s)⟩

/-- The fields that hold the name of an interface. -/
def NamesInterface (key : MetaKey) : Prop := key = .inputInterface ∨ key = .outputInterface

/-- An interface is written as its name. -/
theorem renders_interface {key : MetaKey} {name : String} {invert : Bool} (hk : NamesInterface key)
    (null : Char.ofNat 0 ∉ name.toList) (h : Predicate.interface key name invert = .ok f) :
    Renders table sets f [matchStatement (Comparison.equal invert).symbol
      (Meaning.expr table.family.profile (.metaKey key)) (.string name)] := by
  obtain ⟨-, short, rfl⟩ := Predicate.interface_ok h
  have value : Meaning.value (.metaKey key)
      (Bytes.resize interfaceNameLength.toNat (Bytes.ofString name)) = .string name := by
    rcases hk with rfl | rfl
    · rw [Meaning.value, interfaceName_resize null (Nat.le_of_lt short)]
    · rw [Meaning.value, interfaceName_resize null (Nat.le_of_lt short)]
  rw [← value]
  exact renders_compare rfl Predicate.defaultRegister (.equal invert) _

theorem written_interface {key : MetaKey} {name : String} {invert : Bool} (hk : NamesInterface key)
    (null : Char.ofNat 0 ∉ name.toList) (plain : isReference name = false)
    (h : Predicate.interface key name invert = .ok f) :
    Written table sets members f fun p =>
      (p.metaField key == Bytes.resize interfaceNameLength.toNat (Bytes.ofString name)) != invert := by
  have right : rightOf? table.family members (.metaKey key) (.string name) =
      some (.value (Bytes.resize interfaceNameLength.toNat (Bytes.ofString name))) := by
    rw [rightOf?_string plain]
    rcases hk with rfl | rfl
    · rfl
    · rfl
  have expr := fieldOf?_expr table.family (m := .metaKey key) rfl
  refine ⟨_, renders_interface hk null h, fun p _ _ => ?_⟩
  have move := moveOf?_compare (p := p) (c := .equal invert) expr right
  dsimp only
  rw [← Comparison.equal_holds]
  exact asks_statement move

/-- The name of an interface behind an at sign is taken for the name of a set. -/
theorem written_reference {key : MetaKey} {name : String} {rest : List Char} {invert : Bool}
    (hk : NamesInterface key) (null : Char.ofNat 0 ∉ name.toList) (text : name.toList = '@' :: rest)
    (h : Predicate.interface key name invert = .ok f) :
    Written table sets members f fun p => members (String.ofList rest) (p.metaField key) != invert := by
  have expr := fieldOf?_expr table.family (m := .metaKey key) rfl
  refine ⟨_, renders_interface hk null h, fun p _ _ => ?_⟩
  have keys : rightOf? table.family members (.metaKey key) (.string name) = _ :=
    rightOf?_reference text
  exact asks_statement (moveOf?_keys invert expr keys)

theorem member_key {load : Op} {reg : Register} {set : MatchSet} {needs : KeyType} {invert : Bool}
    (h : Predicate.member load reg set needs invert = .ok f) : set.keyType = needs := by
  by_contra other
  have refused : Predicate.member load reg set needs invert =
      .error (.setKeyType set.name set.keyType needs) := by
    simp [Predicate.member, Predicate.expectKey, other]
  rw [refused] at h
  cases h

/-- The register is empty when a range of ports is compared with its upper bound, so that it is never
written. -/
theorem portRange_unwritten {dir : Direction} {low high : UInt16} {reg : Register}
    (h : Predicate.portRange dir low high reg = .ok f) (pos : Nat) (s : Slots) (rest : Program)
    (js : List Json) : renderOps table sets pos s (f ++ rest) ≠ .ok js := by
  unfold Predicate.portRange at h
  split at h
  · cases h
  · cases h
    intro read
    simp [renderOps, renderOp, Predicate.loadPort, Slots.set] at read

/-- A value that is written as a number. -/
theorem right_number {data : List UInt8} (short : data.length ≤ 8) (value : m.value data = bigEndian data)
    (h : m.ofNat? (Bytes.toNat data) = some (Bytes.ofNat data.length (Bytes.toNat data))) :
    rightOf? table.family members m (m.value data) = some (.value data) := by
  rw [Bytes.ofNat_toNat] at h
  rw [value, rightOf?_bigEndian short h]

theorem written_protocol (number : UInt8) :
    Written table sets members (Predicate.protocol table.family.profile number)
      fun p => p.protocol == number := by
  refine written_compare (of_loadProtocol _) rfl _
    (right_number Nat.one_le_ofNat rfl rfl) fun p _ _ => ?_
  show Comparison.eq.holds [p.protocol] [number] = (p.protocol == number)
  rw [Comparison.eq_holds, Bytes.beq_byte]

theorem written_echoRequest :
    Written table sets members (Predicate.echoRequest table.family.profile) fun p =>
      p.protocol == p.family.profile.icmpProtocol &&
        p.icmpType == p.family.profile.echoRequestType := by
  have isRequest : Written table sets members
      [.load (.payload .transport icmpTypeOffset icmpTypeLength) Predicate.defaultRegister,
        .compare .eq Predicate.defaultRegister [table.family.profile.echoRequestType]]
      fun p => p.protocol == p.family.profile.icmpProtocol &&
        p.icmpType == p.family.profile.echoRequestType := by
    refine written_compare (m := .icmpType) rfl rfl _
      (right_number Nat.one_le_ofNat rfl rfl) fun p _ same => ?_
    by_cases icmp : p.protocol = p.family.profile.icmpProtocol
    · rw [Meaning.valueIn?, if_pos icmp, icmp, beq_self_eq_true, Bool.true_and, ← same]
      show Comparison.eq.holds [p.icmpType] [p.family.profile.echoRequestType] = _
      rw [Comparison.eq_holds, Bytes.beq_byte]
    · rw [Meaning.valueIn?, if_neg icmp, beq_eq_false_iff_ne.mpr icmp]
      rfl
  obtain ⟨front, rendered, asked⟩ := (written_protocol table.family.profile.icmpProtocol).append isRequest
  refine ⟨front, rendered, fun p wf same => ?_⟩
  have both := asked p wf same
  dsimp only at both ⊢
  rw [← same, ← Bool.and_assoc, Bool.and_self] at both
  rw [← same]
  exact both

theorem written_netfilterFamily :
    Written table sets members (Predicate.netfilterFamily table.family.profile) fun _ => true := by
  have right : rightOf? table.family members (.metaKey .netfilterFamily)
      (Meaning.value (.metaKey .netfilterFamily) [table.family.profile.netfilterNumber]) =
      some (.value [table.family.profile.netfilterNumber]) := by
    have plain : isReference "ipv4" = false ∧ isReference "ipv6" = false := ⟨rfl, rfl⟩
    cases table.family with
    | ipv4 => exact rightOf?_string plain.1
    | ipv6 => exact rightOf?_string plain.2
  refine written_compare rfl rfl _ right fun p _ same => ?_
  show Comparison.eq.holds [p.family.profile.netfilterNumber] _ = true
  rw [Comparison.eq_holds, same, beq_self_eq_true]

theorem written_port (dir : Direction) (number : UInt16) (invert : Bool) (reg : Register) :
    Written table sets members (Predicate.port dir number invert reg) fun p =>
      (p.portField dir == portBytes number) != invert := by
  have width : (portBytes number).length = 2 := Bytes.ofNat_length 2 _
  refine written_compare (of_loadPort _ dir) rfl _
    (right_number (by rw [width]; decide) rfl (by rw [width]; rfl)) fun p _ _ => ?_
  exact Comparison.equal_holds invert _ _

theorem written_address {dir : Direction} {a : Address} {invert : Bool} {reg : Register}
    (h : Predicate.address table.family.profile dir a invert reg = .ok f) :
    Written table sets members f fun p => (p.address dir == a.unmapped) != invert := by
  unfold Predicate.address at h
  split at h
  · rename_i b hb
    cases h
    obtain ⟨rfl, family⟩ := Predicate.familyAddress_ok hb
    refine written_compare (of_loadAddress _ dir) rfl _
      (rightOf?_address dir a.unmapped) fun p wf same => ?_
    have fits : (p.address dir).family = a.unmapped.family := by
      rw [Packet.address_family wf, family, table.family.profile_family, same]
    show (Comparison.equal invert).holds (p.address dir).bytes a.unmapped.bytes = _
    have bytes : ((p.address dir).bytes == a.unmapped.bytes) = (p.address dir == a.unmapped) := by
      rw [Bool.eq_iff_iff, beq_iff_eq, beq_iff_eq, Address.bytes_inj fits]
    rw [Comparison.equal_holds, bytes]
  · cases h

/-- A part of a rule is written as what it asks of the sets as they are shown. -/
theorem Part.written {part : Part} (h : part.program table.family.profile = .ok f)
    (declared : part.Declared table sets)
    (plain : ∀ name, part.interface? = some name → isReference name = false)
    (single : ∀ dir low high reg, part ≠ .portRange dir low high reg) :
    Written table sets members f (part.tests (shownMembers table sets members)) := by
  cases part with
  | inputInterface name invert =>
    have written : Written table sets members f _ :=
      written_interface (.inl rfl) (declared.interface name rfl) (plain name rfl) h
    exact written
  | outputInterface name invert =>
    have written : Written table sets members f _ :=
      written_interface (.inr rfl) (declared.interface name rfl) (plain name rfl) h
    exact written
  | protocol number =>
    cases h
    exact written_protocol number
  | echoRequest =>
    cases h
    exact written_echoRequest
  | netfilterFamily =>
    cases h
    exact written_netfilterFamily
  | port dir number invert reg =>
    cases h
    exact written_port dir number invert reg
  | portRange dir low high reg => exact absurd rfl (single dir low high reg)
  | portSet dir set invert reg =>
    have key := member_key h
    rw [Predicate.member_ok h]
    refine written_lookup (of_loadPort _ dir) rfl reg rfl
      (key ▸ declared.set set rfl) fun p _ _ => ⟨_, rfl, p.portField_length dir, rfl⟩
  | address dir a invert reg => exact written_address h
  | network dir n invert reg => exact written_network h
  | addressSet dir set invert reg =>
    have key := member_key h
    rw [table.family.profile_family] at key
    rw [Predicate.member_ok h]
    refine written_lookup (of_loadAddress _ dir) rfl reg rfl
      (key ▸ declared.set set rfl) fun p wf same => ⟨_, rfl, ?_, rfl⟩
    rw [Address.bytes_keyLength, Packet.address_family wf, same]
  | ctState states reg =>
    cases h
    exact written_ctState states reg
  | ctStateSet set invert =>
    have key := member_key h
    rw [Predicate.member_ok h]
    exact written_lookup rfl rfl _ rfl (key ▸ declared.set set rfl)
      fun p _ _ => ⟨_, rfl, Bytes.ofNatHost_length 4 _, rfl⟩
  | limit rate =>
    cases h
    exact ⟨_, renders_statement fun _ => rfl, fun _ _ _ => asks_statement (moveOf?_limit rate)⟩
  | counter =>
    cases h
    exact ⟨_, renders_statement fun _ => rfl, fun _ _ _ => asks_statement rfl⟩

end Written

section Rules

variable {table : Table} {sets : List AnonymousSet} {members : Members} {p : Packet}
  {parts : List Part} {closing : Closing} {program f : Program} {part : Part}

/-- The end of a rule is written as one statement, which ends the rule as the machine does. -/
theorem Closing.written (sets : List AnonymousSet) {g : Program}
    (h : closing.program table.family.profile = .ok g) :
    ∃ outcome j, (∀ members p r, Program.run members p r g = outcome) ∧
      (∀ pos s, renderOps table sets pos s g = .ok [j]) ∧
      ∀ members p, moveOf? table.family members p j = some (.done (closing.effect outcome)) := by
  have read : ∀ a : Address, Address.ofBytes? a.bytes = some a := Address.ofBytes?_bytes
  cases closing with
  | verdict v =>
    cases h
    exact ⟨.verdict v, verdictStatement table.family v, fun _ _ _ => rfl, fun _ _ => rfl,
      fun _ _ => moveOf?_verdict v⟩
  | snat target =>
    have built : Predicate.snat table.family.profile target = .ok g := h
    unfold Predicate.snat at built
    split at built
    · rename_i a ha
      cases built
      obtain ⟨rfl, -⟩ := Predicate.familyAddress_ok ha
      refine ⟨.nat, _, fun _ _ _ => rfl, fun pos s => ?_, fun _ _ => moveOf?_nat .source _ none⟩
      simp [renderOps, renderOp, natStatement, natAddress, natPort, immediate?, Slots.set, read]
    · cases built
  | dnat target port =>
    have built : Predicate.dnat table.family.profile target port = .ok g := h
    have apart : Predicate.defaultRegister ≠ Predicate.portRegister := by decide
    unfold Predicate.dnat at built
    split at built
    · rename_i a ha
      cases built
      obtain ⟨rfl, -⟩ := Predicate.familyAddress_ok ha
      refine ⟨.nat, _, fun _ _ _ => rfl, fun pos s => ?_, fun _ _ => moveOf?_nat .destination _ none⟩
      simp [renderOps, renderOp, natStatement, natAddress, natPort, immediate?, Slots.set, read]
    · rename_i a number ha
      cases built
      obtain ⟨rfl, -⟩ := Predicate.familyAddress_ok ha
      refine ⟨.nat, _, fun _ _ _ => rfl, fun pos s => ?_,
        fun _ _ => moveOf?_nat .destination _ (some number)⟩
      simp [renderOps, renderOp, natStatement, natAddress, natPort, immediate?, Slots.set, read,
        apart, apart.symm]
    · cases built

/-- The statements of a rule decide what the machine does, if its parts ask of the sets as they are shown
what they ask of the sets. -/
theorem effectOf?_rule (wf : p.wellFormed = true) (same : p.family = table.family)
    (build : ruleProgram table.family.profile closing parts = .ok program)
    (declared : ∀ part ∈ parts, part.Declared table sets)
    (plain : ∀ part ∈ parts, ∀ name, part.interface? = some name → isReference name = false)
    (shown : ∀ part ∈ parts, part.tests (shownMembers table sets members) p = part.tests members p)
    (pos : Nat) (s : Slots) (r : Registers) (js : List Json)
    (render : renderOps table sets pos s program = .ok js) :
    effectOf? table.family members p js = some (closing.effect (program.run members p r)) := by
  -- Position, slots and registers stay free: each part starts from what the parts before it left.
  induction parts generalizing program pos s r js with
  | nil =>
    obtain ⟨outcome, j, run, rendered, move⟩ := Closing.written sets build
    rw [rendered] at render
    cases render
    rw [effectOf?, move, run]
    rfl
  | cons part parts ih =>
    obtain ⟨f, rest, hf, hr, rfl⟩ := ruleProgram_cons build
    have single : ∀ dir low high reg, part ≠ .portRange dir low high reg := by
      rintro dir low high reg rfl
      exact portRange_unwritten hf pos s rest js render
    have written : Written table sets members f _ := Part.written hf
      (declared part List.mem_cons_self) (plain part List.mem_cons_self) single
    obtain ⟨front, rendered, asked⟩ := written
    obtain ⟨pos', s', rendered⟩ := rendered pos s rest
    rw [rendered] at render
    cases back : renderOps table sets pos' s' rest with
    | error e =>
      rw [back] at render
      cases render
    | ok behind =>
      rw [back] at render
      cases render
      have later : ∀ r, effectOf? table.family members p behind =
          some (closing.effect (rest.run members p r)) := fun r =>
        ih hr (fun q hq => declared q (List.mem_cons_of_mem _ hq))
          (fun q hq => plain q (List.mem_cons_of_mem _ hq))
          (fun q hq => shown q (List.mem_cons_of_mem _ hq)) pos' s' r behind back
      have tested : Program.Tests members p f _ := Part.program_tests wf (same ▸ hf)
      have asked : Asks table.family members p front (part.tests members p) :=
        shown part List.mem_cons_self ▸ asked p wf same
      rw [asked]
      cases hb : part.tests members p with
      | true =>
        obtain ⟨r', run⟩ := tested.passes hb r rest
        rw [later r', run]
        rfl
      | false =>
        rw [later r, tested.fails hb r rest]
        rfl

/-- A set that is written faithfully is shown as it is. -/
theorem shownMembers_eq {set : MatchSet} {value : List UInt8} (hs : part.set? = some set)
    (declared : part.Declared table sets) (faithful : part.Faithful table sets)
    (holds : part.Holds table sets members) (width : value.length = set.keyType.length) :
    shownMembers table sets members set.name value = members set.name value := by
  unfold shownMembers
  cases found : findAnonymous? sets table set.name with
  | none => rfl
  | some s =>
    have key := (declared.set set hs s found).1
    rw [holds set hs s found value]
    dsimp only
    cases held : s.elements.any (·.contains value) with
    | true => exact faithful.set set hs s found value (key ▸ width) held
    | false =>
      rw [List.any_eq_false] at held ⊢
      intro e he
      rw [Bool.not_eq_true, Bool.and_eq_false_iff]
      exact .inr (Bool.not_eq_true _ ▸ held e he)

/-- A part that is written faithfully asks of the sets as they are shown what it asks of the sets. -/
theorem Part.tests_shown (wf : p.wellFormed = true) (same : p.family = table.family)
    (h : part.program table.family.profile = .ok f) (declared : part.Declared table sets)
    (faithful : part.Faithful table sets) (holds : part.Holds table sets members) :
    part.tests (shownMembers table sets members) p = part.tests members p := by
  have shown : ∀ set value, part.set? = some set → value.length = set.keyType.length →
      shownMembers table sets members set.name value = members set.name value :=
    fun set value hs width => shownMembers_eq hs declared faithful holds width
  cases part with
  | portSet dir set invert reg =>
    have key := member_key h
    rw [Part.tests, Part.tests, shown set _ rfl (key ▸ p.portField_length dir)]
  | addressSet dir set invert reg =>
    have key := member_key h
    have width : (p.address dir).bytes.length = set.keyType.length := by
      rw [key, table.family.profile_family, Address.bytes_keyLength, Packet.address_family wf, same]
    rw [Part.tests, Part.tests, shown set _ rfl width]
  | ctStateSet set invert =>
    have key := member_key h
    have width : (Bytes.ofNatHost 4 p.ctState.toNat).length = set.keyType.length := by
      rw [key, Bytes.ofNatHost_length]
      rfl
    rw [Part.tests, Part.tests, shown set _ rfl width]
  | inputInterface | outputInterface | protocol | echoRequest | netfilterFamily | port | portRange
    | address | network | ctState | limit | counter => rfl

end Rules

section Unfaithful

variable {table : Table} {sets : List AnonymousSet} {members : Members} {p : Packet} {f : Program}
  {part : Part}

def samplePacket (a : Address) (name : String) (state : UInt32) : Packet :=
  ⟨some name, some name, 0, a, a, 0, 0, 0, 0, state⟩

/-- The rule of one part that accepts is written, but its statements decide otherwise than the machine. -/
def Differs (table : Table) (sets : List AnonymousSet) (f : Program) (members : Members)
    (p : Packet) : Prop :=
  ∃ js, renderProgram table sets (f ++ Predicate.accept) = .ok js ∧
    effectOf? table.family members p js ≠
      some (Closing.effect (.verdict .accept) (Program.evaluate members p (f ++ Predicate.accept)))

theorem differs_of_asks {asks : Packet → Bool} (wf : p.wellFormed = true) (same : p.family = table.family)
    (h : part.program table.family.profile = .ok f) (written : Written table sets members f asks)
    (other : asks p ≠ part.tests members p) : Differs table sets f members p := by
  obtain ⟨front, rendered, asked⟩ := written
  obtain ⟨pos, s, rendered⟩ := rendered 0 (fun _ => none) Predicate.accept
  have last : renderOps table sets pos s Predicate.accept = .ok [verdictStatement table.family .accept] :=
    rfl
  have tested : Program.Tests members p f _ := Part.program_tests wf (same ▸ h)
  have run := Program.run_verdict tested .empty .accept
  have decided : effectOf? table.family members p [verdictStatement table.family .accept] =
      some (.verdict .accept) := rfl
  refine ⟨front ++ [verdictStatement table.family .accept], ?_, ?_⟩
  · rw [renderProgram, rendered, last]
    rfl
  · rw [asked p wf same, decided, Program.evaluate, if_pos wf]
    show _ ≠ some (Closing.effect _ (Program.run members p .empty (f ++ [.verdict .accept])))
    rw [run]
    cases ha : asks p with
    | true =>
      cases hb : part.tests members p with
      | true => exact absurd (ha.trans hb.symm) other
      | false => exact fun e => by cases e
    | false =>
      cases hb : part.tests members p with
      | true => exact fun e => by cases e
      | false => exact absurd (ha.trans hb.symm) other

/-- An interface behind an at sign is asked for by the machine only, if no set holds its field. -/
theorem differs_interface {name : String} (hi : part.interface? = some name)
    (declared : part.Declared table sets) (reference : isReference name = true)
    (h : part.program table.family.profile = .ok f) (a : Address) (same : a.family = table.family) :
    Differs table sets f (fun _ _ => false) (samplePacket a name 0) := by
  have wf : (samplePacket a name 0).wellFormed = true := beq_self_eq_true a.family
  have null := declared.interface name hi
  have named : Packet.fieldNamed (some name) name = true := beq_self_eq_true _
  obtain ⟨rest, text⟩ : ∃ rest, name.toList = '@' :: rest := by
    rw [isReference, beq_iff_eq, List.head?_eq_some_iff] at reference
    exact reference
  cases part with
  | inputInterface name' invert =>
    cases hi
    refine differs_of_asks wf same h (written_reference (.inl rfl) null text h) ?_
    show (false != invert) ≠ (Packet.fieldNamed (some name) name != invert)
    rw [named]
    cases invert <;> decide
  | outputInterface name' invert =>
    cases hi
    refine differs_of_asks wf same h (written_reference (.inr rfl) null text h) ?_
    show (false != invert) ≠ (Packet.fieldNamed (some name) name != invert)
    rw [named]
    cases invert <;> decide
  | protocol | echoRequest | netfilterFamily | port | portRange | portSet | address | network
    | addressSet | ctState | ctStateSet | limit | counter => cases hi

def setMembers (name : String) (es : List Element) : Members :=
  fun other value => other == name && es.any (·.contains value)

theorem setMembers_self (name : String) (es : List Element) (value : List UInt8) :
    setMembers name es name value = es.any (·.contains value) := by
  rw [setMembers, beq_self_eq_true, Bool.true_and]

/-- A key that only misread elements hold is found by the machine only. -/
theorem differs_set {set : MatchSet} {s : AnonymousSet} {value : List UInt8}
    (hs : part.set? = some set) (found : findAnonymous? sets table set.name = some s)
    (declared : part.Declared table sets) (h : part.program table.family.profile = .ok f)
    (member : members set.name value = true) (width : value.length = s.keyType.length)
    (held : s.elements.any (·.contains value) = true)
    (lost : s.elements.any (fun e => !e.misread s.keyType && e.contains value) = false) :
    ∃ p, p.wellFormed = true ∧ p.family = table.family ∧ Differs table sets f members p := by
  have key := (declared.set set hs s found).1
  have shown : shownMembers table sets members set.name value = false := by
    unfold shownMembers
    rw [found]
    exact lost
  have apart : ∀ invert : Bool, (false != invert) ≠ (true != invert) := by decide
  have written : (∀ dir low high reg, part ≠ .portRange dir low high reg) →
      (∀ name, part.interface? = some name → isReference name = false) →
      Written table sets members f (part.tests (shownMembers table sets members)) :=
    fun single plain => Part.written h declared plain single
  cases part with
  | portSet dir set' invert reg =>
    cases hs
    have ports : s.keyType = .inetService := key.trans (member_key h)
    have all : s.elements.any (fun e => !e.misread s.keyType && e.contains value) =
        s.elements.any (·.contains value) := by
      rw [ports]
      rfl
    rw [all, held] at lost
    cases lost
  | addressSet dir set' invert reg =>
    cases hs
    have addresses : s.keyType = table.family.keyType := by
      rw [key, member_key h, table.family.profile_family]
    obtain ⟨a, same, rfl⟩ := Address.exists_bytes (addresses ▸ width)
    have wf : (samplePacket a "" 0).wellFormed = true := beq_self_eq_true a.family
    have here : (samplePacket a "" 0).address dir = a := by cases dir <;> rfl
    refine ⟨samplePacket a "" 0, wf, same, differs_of_asks wf same h
      (written (fun _ _ _ _ => Part.noConfusion) fun _ hi => by cases hi) ?_⟩
    show (shownMembers table sets members set.name _ != invert) ≠ (members set.name _ != invert)
    rw [here, shown, member]
    exact apart invert
  | ctStateSet set' invert =>
    cases hs
    have four : value.length = 4 := by
      rw [width, key, member_key h]
      rfl
    have bound := Bytes.toNatHost_lt value
    have whole := Bytes.ofNatHost_toNatHost value
    rw [four] at bound whole
    obtain ⟨a, same⟩ := Address.exists_family table.family
    have wf : (samplePacket a "" (UInt32.ofNat (Bytes.toNatHost value))).wellFormed = true :=
      beq_self_eq_true a.family
    have here : Bytes.ofNatHost 4 (UInt32.ofNat (Bytes.toNatHost value)).toNat = value := by
      rw [UInt32.toNat_ofNat_of_lt' bound, whole]
    refine ⟨samplePacket a "" (UInt32.ofNat (Bytes.toNatHost value)), wf, same,
      differs_of_asks wf same h (written (fun _ _ _ _ => Part.noConfusion) fun _ hi => by cases hi) ?_⟩
    show (shownMembers table sets members set.name (Bytes.ofNatHost 4 _) != invert) ≠
      (members set.name (Bytes.ofNatHost 4 _) != invert)
    rw [samplePacket, here, shown, member]
    exact apart invert
  | inputInterface | outputInterface | protocol | echoRequest | netfilterFamily | port | portRange
    | address | network | ctState | limit | counter => cases hs

/-- For every part that is not written faithfully there are sets and a packet that tell the difference. -/
theorem unfaithful_differs (h : part.program table.family.profile = .ok f)
    (declared : part.Declared table sets) (unfaithful : ¬ part.Faithful table sets) :
    ∃ members p, part.Holds table sets members ∧ p.wellFormed = true ∧ p.family = table.family ∧
      Differs table sets f members p := by
  by_cases plain : ∀ name, part.interface? = some name → isReference name = false
  · have some_lost : ¬ ∀ set, part.set? = some set →
        ∀ s, findAnonymous? sets table set.name = some s → ∀ value, value.length = s.keyType.length →
          s.elements.any (·.contains value) = true →
            s.elements.any (fun e => !e.misread s.keyType && e.contains value) = true :=
      fun all => unfaithful ⟨plain, all⟩
    push Not at some_lost
    obtain ⟨set, hs, s, found, value, width, held, lost⟩ := some_lost
    rw [ne_eq, Bool.not_eq_true] at lost
    have member := (setMembers_self set.name s.elements value).trans held
    obtain ⟨p, wf, same, differs⟩ := differs_set hs found declared h member width held lost
    refine ⟨setMembers set.name s.elements, p, ?_, wf, same, differs⟩
    intro set' hs' s' found' v
    cases hs.symm.trans hs'
    cases found.symm.trans found'
    exact setMembers_self set.name s.elements v
  · push Not at plain
    obtain ⟨name, hi, reference⟩ := plain
    rw [ne_eq, Bool.not_eq_false] at reference
    obtain ⟨a, same⟩ := Address.exists_family table.family
    have differs := differs_interface hi declared reference h a same
    refine ⟨_, samplePacket a name 0, ?_, beq_self_eq_true a.family, same, differs⟩
    intro set hs
    cases part <;> cases hi <;> cases hs

end Unfaithful

/-- The statements of a rule decide about every packet of its table what the machine decides, with the
target of NAT, if all parts of the rule are written faithfully; and for each part that is not there is a
packet about which the rule of that part alone decides otherwise. -/
theorem rendering_keeps_meaning {table : Table} {sets : List AnonymousSet} {parts : List Part}
    {closing : Closing} {program : Program} {js : List Json}
    (declared : ∀ part ∈ parts, part.Declared table sets)
    (build : ruleProgram table.family.profile closing parts = .ok program)
    (render : renderProgram table sets program = .ok js) :
    ((∀ part ∈ parts, part.Faithful table sets) → ∀ members p, p.wellFormed = true →
      p.family = table.family → (∀ part ∈ parts, part.Holds table sets members) →
        effectOf? table.family members p js =
          some (closing.effect (program.evaluate members p))) ∧
    ∀ part ∈ parts, ¬ part.Faithful table sets → ∃ f members p,
      part.program table.family.profile = .ok f ∧ part.Holds table sets members ∧
        p.wellFormed = true ∧ p.family = table.family ∧ Differs table sets f members p := by
  have built := ruleProgram_part build
  constructor
  · intro faithful members p wf same holds
    have plain : ∀ part ∈ parts, ∀ name, part.interface? = some name → isReference name = false :=
      fun part hp => (faithful part hp).interface
    have shown : ∀ part ∈ parts,
        part.tests (shownMembers table sets members) p = part.tests members p := by
      intro part hp
      obtain ⟨f, hf⟩ := built part hp
      exact Part.tests_shown wf same hf (declared part hp) (faithful part hp) (holds part hp)
    rw [Program.evaluate, if_pos wf]
    exact effectOf?_rule wf same build declared plain shown 0 (fun _ => none) .empty js render
  · intro part hp unfaithful
    obtain ⟨f, hf⟩ := built part hp
    obtain ⟨members, p, holds, wf, same, differs⟩ := unfaithful_differs hf (declared part hp) unfaithful
    exact ⟨f, members, p, hf, holds, wf, same, differs⟩

section Samples

def insideSet : AnonymousSet :=
  ⟨⟨.ipv4, "nat"⟩, "__set0", .ipv4Addr, [.range [10, 0, 0, 0] [10, 255, 255, 255]]⟩

def mappedSet : AnonymousSet :=
  ⟨⟨.ipv6, "filter"⟩, "__set0", .ipv6Addr, [.single (Address.v6 0xFFFF01020304#128).bytes]⟩

def AnonymousSet.part (s : AnonymousSet) (invert : Bool) : Part :=
  .addressSet .source ⟨s.table, s.name, 0, s.keyType, ⟨true, true, false, false, true⟩, none⟩ invert ⟨1⟩

theorem AnonymousSet.found_self {s s' : AnonymousSet}
    (h : findAnonymous? [s] s.table s.name = some s') : s' = s :=
  List.mem_singleton.mp (List.mem_of_find?_eq_some h)

theorem AnonymousSet.part_declared {s : AnonymousSet} (invert : Bool)
    (wide : ∀ e ∈ s.elements, e.hasWidth s.keyType = true) : (s.part invert).Declared s.table [s] := by
  constructor
  · intro name hi
    cases hi
  · intro set hs s' found
    cases hs
    rw [found_self found]
    exact ⟨rfl, wide⟩

theorem AnonymousSet.part_faithful {s : AnonymousSet} (invert : Bool)
    (read : ∀ e ∈ s.elements, e.misread s.keyType = false) : (s.part invert).Faithful s.table [s] := by
  constructor
  · intro name hi
    cases hi
  · intro set hs s' found value width held
    cases hs
    rw [found_self found] at held ⊢
    rw [List.any_eq_true] at held ⊢
    obtain ⟨e, he, holds⟩ := held
    exact ⟨e, he, by rw [read e he, holds]; rfl⟩

theorem AnonymousSet.part_unfaithful {s : AnonymousSet} {e : Element} (invert : Bool) (he : e ∈ s.elements)
    (wide : e.hasWidth s.keyType = true) (misread : ∀ e ∈ s.elements, e.misread s.keyType = true) :
    ¬ (s.part invert).Faithful s.table [s] := by
  intro faithful
  have found : findAnonymous? [s] s.table s.name = some s := by
    simp [findAnonymous?]
  have held : s.elements.any (·.contains e.key) = true :=
    List.any_eq_true.mpr ⟨e, he, Element.misread_contains (misread e he)⟩
  have kept := faithful.set _ rfl s found e.key (Element.key_width wide) held
  rw [List.any_eq_true] at kept
  obtain ⟨e', he', read⟩ := kept
  rw [misread e' he'] at read
  cases read

/-- A part without a set, by an interface whose name is written as it is. -/
theorem Part.plain {table : Table} {sets : List AnonymousSet} {members : Members} {part : Part}
    (hs : part.set? = none) (hi : part.interface?.all (fun name =>
      !name.toList.contains (Char.ofNat 0) && !isReference name) = true) :
    part.Declared table sets ∧ part.Faithful table sets ∧ part.Holds table sets members := by
  have named : ∀ name, part.interface? = some name →
      Char.ofNat 0 ∉ name.toList ∧ isReference name = false := by
    intro name found
    rw [found] at hi
    simpa using hi
  refine ⟨⟨fun name found => (named name found).1, ?_⟩, ⟨fun name found => (named name found).2, ?_⟩, ?_⟩
  · intro set found
    rw [hs] at found
    cases found
  · intro set found
    rw [hs] at found
    cases found
  · intro set found
    rw [hs] at found
    cases found

theorem AnonymousSet.part_holds (s : AnonymousSet) (invert : Bool) :
    (s.part invert).Holds s.table [s] (setMembers s.name s.elements) := by
  intro set hs s' found value
  cases hs
  rw [found_self found]
  exact setMembers_self s.name s.elements value

def forwardParts : List Part :=
  [.inputInterface "wan0" false, insideSet.part true, .protocol protocolTcp,
   .port .destination 8080 false ⟨2⟩, .counter]

def forwardedPacket : Packet :=
  ⟨some "wan0", none, protocolTcp, .v4 0xCB007107#32, .v4 0xC6336402#32, 40000, 8080, 0, 0, 8⟩

theorem forwardParts_sound : ∀ part ∈ forwardParts, part.Declared insideSet.table [insideSet] ∧
    part.Faithful insideSet.table [insideSet] ∧
      part.Holds insideSet.table [insideSet] (setMembers "__set0" insideSet.elements) := by
  intro part hp
  simp only [forwardParts, List.mem_cons, List.not_mem_nil, or_false] at hp
  rcases hp with rfl | rfl | rfl | rfl | rfl
  · exact Part.plain rfl (by decide)
  · exact ⟨AnonymousSet.part_declared true (by decide), AnonymousSet.part_faithful true (by decide),
      AnonymousSet.part_holds insideSet true⟩
  · exact Part.plain rfl rfl
  · exact Part.plain rfl rfl
  · exact Part.plain rfl rfl

/-- A rule that forwards a port is written as it is meant; one that looks up the IPv6 form of an IPv4
address is not. -/
theorem rendering_keeps_forwarding :
    (∃ program js,
      ruleProgram Family.ipv4.profile (.dnat (.v4 0x0A000005#32) (some 80)) forwardParts = .ok program ∧
      renderProgram insideSet.table [insideSet] program = .ok js ∧
      effectOf? .ipv4 (setMembers "__set0" insideSet.elements) forwardedPacket js =
        some (.nat .destination (.v4 0x0A000005#32) (some 80))) ∧
    ∃ f members p, (mappedSet.part false).program Family.ipv6.profile = .ok f ∧
      (mappedSet.part false).Holds mappedSet.table [mappedSet] members ∧ p.wellFormed = true ∧
      p.family = .ipv6 ∧ Differs mappedSet.table [mappedSet] f members p := by
  constructor
  · have declared : ∀ part ∈ forwardParts, part.Declared insideSet.table [insideSet] :=
      fun part hp => (forwardParts_sound part hp).1
    have faithful : ∀ part ∈ forwardParts, part.Faithful insideSet.table [insideSet] :=
      fun part hp => (forwardParts_sound part hp).2.1
    have written : ∃ program js, ruleProgram insideSet.table.family.profile
        (.dnat (.v4 0x0A000005#32) (some 80)) forwardParts = .ok program ∧
        renderProgram insideSet.table [insideSet] program = .ok js := ⟨_, _, rfl, rfl⟩
    obtain ⟨program, js, build, render⟩ := written
    have meaning := (rendering_keeps_meaning declared build render).1 faithful _ forwardedPacket rfl rfl
      fun part hp => (forwardParts_sound part hp).2.2
    have outcome : program.evaluate (setMembers "__set0" insideSet.elements) forwardedPacket = .nat := by
      cases build
      rfl
    rw [outcome] at meaning
    exact ⟨program, js, build, render, meaning⟩
  · have declared : ∀ part ∈ [mappedSet.part false], part.Declared mappedSet.table [mappedSet] := by
      intro part hp
      rw [List.mem_singleton.mp hp]
      exact AnonymousSet.part_declared false (by decide)
    have unfaithful : ¬ (mappedSet.part false).Faithful mappedSet.table [mappedSet] :=
      AnonymousSet.part_unfaithful false List.mem_cons_self (by decide) (by decide)
    have written : ∃ program js, ruleProgram mappedSet.table.family.profile (.verdict .accept)
        [mappedSet.part false] = .ok program ∧
        renderProgram mappedSet.table [mappedSet] program = .ok js := ⟨_, _, rfl, rfl⟩
    obtain ⟨program, js, build, render⟩ := written
    exact (rendering_keeps_meaning declared build render).2 _ List.mem_cons_self unfaithful

end Samples

end Firewall.Nft
