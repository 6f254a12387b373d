import Firewall.Proofs.Predicate
import Firewall.Proofs.Reading

namespace Firewall.Nft

open Text

section Elements

theorem plain_keyText {k : KeyType} {bs : List UInt8} (h : bs.length = k.length) :
    '/' ∉ k.keyText bs ∧ '-' ∉ k.keyText bs := by
  have ofFamily : ∀ f : Family, bs.length = f.keyType.length →
      '/' ∉ f.keyType.keyText bs ∧ '-' ∉ f.keyType.keyText bs := by
    intro f hf
    obtain ⟨a, rfl, rfl⟩ := Address.exists_bytes hf
    rw [Address.keyText_bytes]
    exact ⟨Address.not_mem_chars (by decide) a, Address.not_mem_chars (by decide) a⟩
  cases k with
  | inetService =>
    obtain ⟨n, -, -, text⟩ := keyText_port h
    rw [text]
    exact ⟨decimal_numerals.not_mem (by decide) n, hyphen_not_mem n⟩
  | ipv4Addr => exact ofFamily .ipv4 h
  | ipv6Addr => exact ofFamily .ipv6 h
  | ctState =>
    cases hs : CtState.ofBytes? bs with
    | none => simp [KeyType.keyText, hs]
    | some s =>
      have text : KeyType.ctState.keyText bs = s.text.toList := by simp [KeyType.keyText, hs]
      rw [text]
      exact Spec.ctStates_plain s.ctStates_text

/-- A key is written as the number that its text is, or as its text. -/
theorem keyValue_cases {k : KeyType} {bs : List UInt8} (h : bs.length = k.length) :
    (∃ n, k.keyText bs = decimal n ∧ keyValue k (k.keyText bs) = .nat n) ∨
      keyValue k (k.keyText bs) = .string (String.ofList (k.keyText bs)) := by
  cases k with
  | inetService =>
    obtain ⟨n, bound, -, text⟩ := keyText_port h
    refine .inl ⟨n, text, ?_⟩
    unfold keyValue
    rw [text, number?_decimal (Nat.le_of_lt_succ bound)]
  | ipv4Addr => exact .inr rfl
  | ipv6Addr => exact .inr rfl
  | ctState => exact .inr rfl

section Shapes

variable {k : KeyType} {key last : List UInt8} {len : UInt32} (timeout : Option Duration)

theorem elementKeys_single (h : key.length = k.length) :
    elementKeys k ⟨key, none, timeout⟩ = keyValue k (k.keyText key) := by
  obtain ⟨noSlash, -⟩ := plain_keyText h
  simp [elementKeys, Element.specChars, splitOnce_none.mpr noSlash]

theorem elementKeys_network (h : key.length = k.length) (hn : k.networkLength? key last = some len) :
    elementKeys k ⟨key, some last, timeout⟩ = single "prefix" (.object
      [("addr", .string (String.ofList (k.keyText key))), ("len", .nat len.toNat)]) := by
  obtain ⟨noSlash, -⟩ := plain_keyText h
  have cut : splitOnce '/' (k.keyText key ++ '/' :: decimal len.toNat) =
      some (k.keyText key, decimal len.toNat) := splitOnce_some.mpr ⟨rfl, noSlash⟩
  have bound : len.toNat ≤ 0xFFFFFFFF := Nat.le_of_lt_succ len.toNat_lt
  rw [elementKeys, Element.specChars_network timeout hn, cut]
  dsimp only
  rw [networkValue, number?_decimal bound]
  rfl

theorem elementKeys_range (h : key.length = k.length) (h' : last.length = k.length)
    (hn : k.networkLength? key last = none) :
    elementKeys k ⟨key, some last, timeout⟩ =
      single "range" (.array [keyValue k (k.keyText key), keyValue k (k.keyText last)]) := by
  obtain ⟨noSlash, noHyphen⟩ := plain_keyText h
  obtain ⟨lastSlash, -⟩ := plain_keyText h'
  have whole : splitOnce '/' (k.keyText key ++ '-' :: k.keyText last) = none := by
    rw [splitOnce_none, List.mem_append, List.mem_cons]
    rintro (front | here | back)
    · exact noSlash front
    · cases here
    · exact lastSlash back
  have cut : splitOnce '-' (k.keyText key ++ '-' :: k.keyText last) =
      some (k.keyText key, k.keyText last) := splitOnce_some.mpr ⟨rfl, noHyphen⟩
  rw [elementKeys, Element.specChars_range timeout hn, whole]
  dsimp only
  rw [cut]

end Shapes

theorem keyOf?_keyValue {k : KeyType} {bs : List UInt8} (h : bs.length = k.length) :
    keyOf? (keyValue k (k.keyText bs)) = some (k.keyText bs) := by
  rcases keyValue_cases h with ⟨n, text, value⟩ | value
  · rw [value, text]
    rfl
  · rw [value, keyOf?, String.toList_ofList]

theorem keysOf?_keyValue {k : KeyType} {bs : List UInt8} (h : bs.length = k.length) :
    keysOf? (keyValue k (k.keyText bs)) = some (k.keyText bs) := by
  have single : ∀ spec, keysOf? (keyValue k spec) = keyOf? (keyValue k spec) := by
    intro spec
    unfold keyValue
    split <;> rfl
  rw [single, keyOf?_keyValue h]

/-- Keys are written as their text. -/
theorem keysOf?_elementKeys {k : KeyType} {e : Element} (wide : e.hasWidth k = true) :
    keysOf? (elementKeys k e) = some (e.specChars k) := by
  obtain ⟨key, keyEnd, timeout⟩ := e
  have keyWidth : key.length = k.length := Element.key_width wide
  cases keyEnd with
  | none =>
    rw [elementKeys_single timeout keyWidth]
    exact keysOf?_keyValue keyWidth
  | some last =>
    have lastWidth : last.length = k.length := Element.last_width wide rfl
    cases hn : k.networkLength? key last with
    | some len =>
      rw [elementKeys_network timeout keyWidth hn, Element.specChars_network timeout hn]
      show some ((String.ofList (k.keyText key)).toList ++ '/' :: decimal len.toNat) = _
      rw [String.toList_ofList]
    | none =>
      rw [elementKeys_range timeout keyWidth lastWidth hn, Element.specChars_range timeout hn]
      show (keyOf? _).bind _ = _
      rw [keyOf?_keyValue keyWidth, Option.bind_some, keyOf?_keyValue lastWidth]
      rfl

/-- An element is written as its text, whenever it expires. -/
theorem elementOf?_elementValue {k : KeyType} {e : Element} (wide : e.hasWidth k = true) :
    elementOf? (elementValue k e) = some (e.specChars k) := by
  have keys := keysOf?_elementKeys wide
  have bare : (elementKeys k e).get? "elem" = none := by
    have value : ∀ spec, (keyValue k spec).get? "elem" = none := by
      intro spec
      unfold keyValue
      split <;> rfl
    simp only [elementKeys]
    split
    · rfl
    · split
      · rfl
      · exact value _
  unfold elementValue
  split
  · exact keys
  · rw [elementOf?, bare]
    exact keys

end Elements

section Fields

def Meaning.isNamed : Meaning → Bool
  | .raw _ _ _ => false
  | _ => true

theorem fieldOf?_expr (family : Family) {m : Meaning} (named : m.isNamed = true) :
    fieldOf? family (m.expr family.profile) = some m := by
  cases m with
  | metaKey key => cases key <;> rfl
  | ctState => rfl
  | address dir => cases family <;> cases dir <;> rfl
  | protocol => cases family <;> rfl
  | port dir => cases family <;> cases dir <;> rfl
  | icmpType => cases family <;> rfl
  | raw h offset len => cases named

/-- The field that has a meaning in tables of a family. -/
def Meaning.loaded (family : Family) : Meaning → Field
  | .metaKey key => .metaKey key
  | .ctState => .ctState
  | .address dir => .payload .network (family.profile.addressOffset dir) family.profile.addressLength
  | .protocol => .payload .network family.profile.protocolOffset protocolLength
  | .port dir => .payload .transport (portOffset dir) portLength
  | .icmpType => .payload .transport icmpTypeOffset icmpTypeLength
  | .raw header offset length => .payload header offset length

theorem loaded_of (family : Family) (field : Field) :
    (Meaning.of family.profile field).loaded family = field := by
  cases field with
  | metaKey | ctState => rfl
  | payload header offset length =>
    cases header with
    | network =>
      unfold Meaning.of
      dsimp only
      split
      · rename_i source
        rw [source.1, source.2]
        rfl
      · split
        · rename_i destination
          rw [destination.1, destination.2]
          rfl
        · split
          · rename_i protocol
            rw [protocol.1, protocol.2]
            rfl
          · rfl
    | transport =>
      unfold Meaning.of
      dsimp only
      split
      · rename_i source
        rw [source.1, source.2]
        rfl
      · split
        · rename_i destination
          rw [destination.1, destination.2]
          rfl
        · split
          · rename_i type
            rw [type.1, type.2]
            rfl
          · rfl

theorem of_loadPort (family : Family) (dir : Direction) :
    Meaning.of family.profile (.payload .transport (portOffset dir) portLength) = .port dir := by
  cases dir <;> rfl

theorem of_loadAddress (family : Family) (dir : Direction) :
    Meaning.of family.profile
      (.payload .network (family.profile.addressOffset dir) family.profile.addressLength) =
        .address dir := by
  cases family <;> cases dir <;> rfl

theorem of_loadProtocol (family : Family) :
    Meaning.of family.profile (.payload .network family.profile.protocolOffset protocolLength) =
      .protocol := by
  cases family <;> rfl

end Fields

section Values

variable {family : Family} {members : Members} {m : Meaning} {p : Packet}

/-- Whether a text is read as the name of a set. -/
def isReference (text : String) : Bool := text.toList.head? == some '@'

theorem rightOf?_string {text : String} (h : isReference text = false) :
    rightOf? family members m (.string text) = (m.ofString? text).map .value := by
  unfold rightOf?
  dsimp only
  split
  · rename_i name e
    rw [isReference, e] at h
    cases h
  · rfl

/-- A text behind an at sign is the name of a set. -/
theorem rightOf?_reference {text : String} {name : List Char} (h : text.toList = '@' :: name) :
    rightOf? family members m (.string text) = some (.keys (members (String.ofList name))) := by
  unfold rightOf?
  dsimp only
  rw [h]
  rfl

theorem rightOf?_named (name : String) :
    rightOf? family members m (.string ("@" ++ name)) = some (.keys (members name)) := by
  have text : ("@" ++ name).toList = '@' :: name.toList := by rw [String.toList_append]; rfl
  rw [rightOf?_reference text, String.ofList_toList]

theorem rightOf?_bigEndian {data : List UInt8} (short : data.length ≤ 8)
    (h : m.ofNat? (Bytes.toNat data) = some data) :
    rightOf? family members m (bigEndian data) = some (.value data) := by
  rw [bigEndian, if_pos short]
  show (m.ofNat? (Bytes.toNat data)).map Right.value = _
  rw [h]
  rfl

theorem isReference_address (a : Address) : isReference a.text = false := by
  rw [isReference, Address.text, String.toList_ofList, beq_eq_false_iff_ne]
  intro e
  exact Address.not_mem_chars (by decide) a (List.mem_of_mem_head? e)

theorem rightOf?_address (dir : Direction) (a : Address) :
    rightOf? family members (.address dir) (addressValue a.bytes) = some (.value a.bytes) := by
  rw [addressValue, Address.ofBytes?_bytes]
  dsimp only
  rw [rightOf?_string (isReference_address a), Meaning.ofString?, Address.text, String.toList_ofList,
    Address.parse?_chars]
  rfl

/-- An interface is written as its name, without the zeros that fill the field. -/
theorem interfaceName_resize {name : String} (h : Char.ofNat 0 ∉ name.toList)
    (short : (Bytes.ofString name).length ≤ interfaceNameLength.toNat) :
    interfaceName (Bytes.resize interfaceNameLength.toNat (Bytes.ofString name)) = name := by
  have stays : ∀ c ∈ name.toList.reverse, decide (c.toNat = 0) = false := by
    intro c hc
    rw [decide_eq_false_iff_not]
    intro zero
    have null : Char.ofNat 0 = c := by rw [← zero, Char.ofNat_toNat]
    exact h (null ▸ List.mem_reverse.mp hc)
  have fill : ∀ n, List.replicate n (0 : UInt8) = Bytes.ofText (List.replicate n (Char.ofNat 0)) := by
    intro n
    induction n with
    | zero => rfl
    | succ n ih =>
      rw [List.replicate_succ, List.replicate_succ, ih]
      rfl
  have goes : ∀ n, ∀ c ∈ List.replicate n (Char.ofNat 0), decide (c.toNat = 0) = true := by
    intro n c hc
    rw [(List.mem_replicate.mp hc).2]
    rfl
  rw [interfaceName, resize_short short, fill, Bytes.ofString, Utf8.decode_ofText_append,
    Utf8.decode_ofText, dropWhileEnd, List.reverse_append, List.reverse_replicate,
    List.dropWhile_append_of_pos (goes _), dropWhile_eq_self stays, List.reverse_reverse,
    String.ofList_toList]

theorem maskOnes_eq (mask : List UInt8) : maskOnes mask = countOnes (Bytes.toNat mask) := by
  have sum : ∀ (bs : List UInt8) (n : Nat),
      bs.foldr (fun b n => countOnes b.toNat + n) n = maskOnes bs + n := by
    intro bs n
    induction bs with
    | nil => exact (Nat.zero_add n).symm
    | cons b bs ih =>
      rw [List.foldr_cons, ih, ← Nat.add_assoc]
      rfl
  have none : countOnes 0 = 0 := by
    rw [countOnes]
    rfl
  induction mask using List.reverseRecOn with
  | nil => exact none.symm
  | append_singleton bs b ih =>
    have low : b.toNat < 2 ^ 8 := b.toNat_lt
    have parts := countOnes_append 8 (Bytes.toNat bs) b.toNat low
    rw [Bytes.toNat_concat, maskOnes, List.foldr_append, sum, ih]
    exact parts.symm

theorem maskOnes_mask (n : Network) : maskOnes n.mask.bytes = n.length := by
  obtain ⟨a, length, le⟩ := n
  rw [maskOnes_eq, Address.toNat_bytes]
  cases a with
  | v4 b => exact countOnes_prefixMask le
  | v6 b => exact countOnes_prefixMask le

/-- The addresses of a network are those that start like its first address. -/
theorem sameLeading_base {n : Network} {a : Address} (h : a.family = n.address.family) :
    sameLeading n.length a.bytes n.base.bytes = n.covers a := by
  have bits : ∀ b : Address, 8 * b.bytes.length = b.family.width := by
    intro b
    rw [Address.bytes_length]
    cases b <;> rfl
  have start : n.base.toNat >>> (n.address.family.width - n.length) =
      n.address.toNat >>> (n.address.family.width - n.length) := by
    obtain ⟨b, length, le⟩ := n
    cases b with
    | v4 b =>
      apply (and_prefixMask_eq_iff (a := b &&& prefixMask 32 length) (b := b)).mp
      rw [BitVec.and_assoc, BitVec.and_self]
    | v6 b =>
      apply (and_prefixMask_eq_iff (a := b &&& prefixMask 128 length) (b := b)).mp
      rw [BitVec.and_assoc, BitVec.and_self]
  have width : a.bytes.length = n.base.bytes.length := by
    rw [Address.bytes_length, Address.bytes_length, n.base_family, h]
  rw [sameLeading, width, beq_self_eq_true, bits, Address.toNat_bytes, Address.toNat_bytes,
    n.base_family, start, Network.covers, h, beq_self_eq_true]

theorem rightOf?_network (dir : Direction) (n : Network) :
    rightOf? family members (.address dir) (single "prefix" (.object
      [("addr", addressValue n.base.bytes), ("len", .nat (maskOnes n.mask.bytes))])) =
      some (.keys (sameLeading n.length · n.base.bytes)) := by
  have text : Meaning.ofString? (.address dir) n.base.text = some n.base.bytes := by
    rw [Meaning.ofString?, Address.text, String.toList_ofList, Address.parse?_chars]
    rfl
  rw [addressValue, Address.ofBytes?_bytes, maskOnes_mask]
  show (Meaning.ofString? (.address dir) n.base.text).bind _ = _
  rw [text]
  rfl

theorem mapM_elementValue {k : KeyType} {es : List Element} (wide : ∀ e ∈ es, e.hasWidth k = true) :
    (es.map (elementValue k)).mapM elementOf? = some (es.map (Element.specChars k)) := by
  induction es with
  | nil => rfl
  | cons e es ih =>
    have first := elementOf?_elementValue (wide e List.mem_cons_self)
    have rest := ih fun d hd => wide d (List.mem_cons_of_mem e hd)
    rw [List.map_cons, List.mapM_cons, first, rest]
    rfl

/-- An inline set stands for the keys that the texts of its elements denote. -/
theorem rightOf?_set {k : KeyType} {es : List Element} (key : m.keyType? family = some k)
    (wide : ∀ e ∈ es, e.hasWidth k = true) :
    rightOf? family members m (single "set" (elementValues k es)) =
      some (.keys fun value => (es.map (Element.specChars k)).any (Spec.denotes k · value)) := by
  show (m.keyType? family).bind _ = _
  rw [key, Option.bind_some]
  show ((es.map (elementValue k)).mapM elementOf?).map _ = _
  rw [mapM_elementValue wide]
  rfl

end Values

section Matches

variable {family : Family} {members : Members} {m : Meaning} {p : Packet} {left right : Json}

theorem moveOf?_match {op : String} {holds : List UInt8 → Bool} (field : fieldOf? family left = some m)
    (test : testOf? family members m op right = some holds) :
    moveOf? family members p (matchStatement op left right) =
      some (.test ((m.valueIn? p).any holds)) := by
  show (((fieldOf? family left).bind fun m =>
    (testOf? family members m op right).map (m.valueIn? p).any).map Move.test) = _
  rw [field, Option.bind_some, test]
  rfl

theorem testOf?_symbol (c : Comparison) :
    testOf? family members m c.symbol right =
      (rightOf? family members m right).bind (Right.compare? c) := by
  cases c <;> rfl

theorem moveOf?_compare {c : Comparison} {data : List UInt8} (field : fieldOf? family left = some m)
    (value : rightOf? family members m right = some (.value data)) :
    moveOf? family members p (matchStatement c.symbol left right) =
      some (.test ((m.valueIn? p).any fun v => c.holds v data)) := by
  have test : testOf? family members m c.symbol right = some fun v => c.holds v data := by
    rw [testOf?_symbol, value]
    rfl
  exact moveOf?_match field test

theorem moveOf?_keys (invert : Bool) {holds : List UInt8 → Bool} (field : fieldOf? family left = some m)
    (keys : rightOf? family members m right = some (.keys holds)) :
    moveOf? family members p (matchStatement (Comparison.equal invert).symbol left right) =
      some (.test ((m.valueIn? p).any fun v => holds v != invert)) := by
  have test : testOf? family members m (Comparison.equal invert).symbol right =
      some fun v => holds v != invert := by
    rw [testOf?_symbol, keys]
    cases invert with
    | false => simp [Comparison.equal, Right.compare?]
    | true => simp [Comparison.equal, Right.compare?]
  exact moveOf?_match field test

end Matches

section States

def singleStates (s : CtState) : List UInt32 :=
  (CtState.states.filter fun (bit, _) => s.bits &&& bit != 0).map (·.1)

theorem singleStates_named (s : CtState) :
    (s.names.map Json.string).mapM (fun j => j.string?.bind fun n => ctStateBits.lookup n) =
      some (singleStates s) := by
  have read := CtState.forall_masks (P := fun s =>
    (s.names.map Json.string).mapM (fun j => j.string?.bind fun n => ctStateBits.lookup n) ==
      some (singleStates s)) (by decide +kernel) s
  exact eq_of_beq read

/-- A connection is in one of the single states of a set if it meets the set. -/
theorem any_singleStates (s : CtState) (state : UInt32) :
    (singleStates s).any (fun bit => state &&& bit != 0) = (state &&& s.bits != 0) := by
  have small : ∀ c < 80, (singleStates s).any (fun bit => UInt32.ofNat c &&& bit != 0) =
      (UInt32.ofNat c &&& s.bits != 0) := by
    have each := CtState.forall_masks (P := fun s => (List.range 80).all fun c =>
      (singleStates s).any (fun bit => UInt32.ofNat c &&& bit != 0) ==
        (UInt32.ofNat c &&& s.bits != 0)) (by decide +kernel) s
    intro c hc
    exact eq_of_beq (List.all_eq_true.mp each c (List.mem_range.mpr hc))
  have bound : (state &&& Error.definedCtBits).toNat < 80 := by
    rw [UInt32.toNat_and]
    exact Nat.lt_succ_of_le Nat.and_le_right
  have here := small _ bound
  have known : ∀ bit, bit &&& Error.definedCtBits = bit →
      state &&& Error.definedCtBits &&& bit = state &&& bit := by
    intro bit hb
    rw [UInt32.and_assoc, UInt32.and_comm _ bit, hb]
  have single : ∀ bit ∈ singleStates s, bit &&& Error.definedCtBits = bit := by
    have all : ∀ entry ∈ CtState.states, entry.1 &&& Error.definedCtBits = entry.1 := by decide
    intro bit hb
    obtain ⟨entry, he, rfl⟩ := List.mem_map.mp hb
    exact all entry (List.mem_filter.mp he).1
  have tests : (singleStates s).any (fun bit => state &&& Error.definedCtBits &&& bit != 0) =
      (singleStates s).any fun bit => state &&& bit != 0 := by
    rw [Bool.eq_iff_iff, List.any_eq_true, List.any_eq_true]
    constructor
    · rintro ⟨bit, hb, h⟩
      exact ⟨bit, hb, known bit (single bit hb) ▸ h⟩
    · rintro ⟨bit, hb, h⟩
      exact ⟨bit, hb, (known bit (single bit hb)).symm ▸ h⟩
  rw [UInt32.ofNat_toNat, tests, known _ s.bits_known] at here
  exact here

variable {family : Family} {members : Members} {p : Packet}

/-- The states of a set are named, and one of them is asked for. -/
theorem moveOf?_states (s : CtState) :
    moveOf? family members p
        (matchStatement "in" (Meaning.expr family.profile .ctState) (ctNames s.bytes)) =
      some (.test (p.meets s)) := by
  have names : ctNames s.bytes = .strings s.names := by rw [ctNames, CtState.ofBytes?_bytes]
  have test : testOf? family members .ctState "in" (.strings s.names) = some fun value =>
      (singleStates s).any fun bit => UInt32.ofNat (Bytes.toNatHost value) &&& bit != 0 := by
    have read := congrArg (Option.map fun bits => fun value : List UInt8 =>
      bits.any fun bit => UInt32.ofNat (Bytes.toNatHost value) &&& bit != 0) (singleStates_named s)
    exact read
  have field := fieldOf?_expr family (m := .ctState) rfl
  rw [names, moveOf?_match field test]
  show some (Move.test ((singleStates s).any _)) = _
  rw [Bytes.toNatHost_ofNatHost_of_lt p.ctState.toNat_lt, UInt32.ofNat_toNat, any_singleStates]
  rfl

end States

section Ends

variable {family : Family} {members : Members} {p : Packet}

theorem moveOf?_limit (l : RateLimit) :
    moveOf? family members p (limitStatement l) = some (.test (!l.beyond)) := by
  obtain ⟨rate, unit, per, burst, beyond⟩ := l
  cases unit <;> rfl

theorem moveOf?_rejectBody {type : String} {kind : RejectKind} {name : Option String} {code : UInt8}
    (hk : (rejectKinds family).lookup type = some kind) (ht : type ≠ "tcp reset")
    (hn : ∀ n, name = some n → (rejectCodes type).lookup n = some code) :
    moveOf? family members p (rejectBody type name code) =
      some (.done (.verdict (.reject kind code))) := by
  have read : ∀ expr, rejectCodeOf? type expr = some code →
      moveOf? family members p
        (single "reject" (.object [("type", .string type), ("expr", expr)])) =
        some (.done (.verdict (.reject kind code))) := by
    intro expr h
    show ((if type = "tcp reset" then some _ else _).map _) = _
    rw [if_neg ht, hk]
    show (((rejectCodeOf? type expr).map (Verdict.reject kind)).map _) = _
    rw [h]
    rfl
  cases name with
  | some n => exact read _ (hn n rfl)
  | none =>
    refine read _ ?_
    show some (UInt8.ofNat code.toNat) = _
    rw [UInt8.ofNat_toNat]

theorem moveOf?_verdict (v : Verdict) :
    moveOf? family members p (verdictStatement family v) =
      some (.done (.verdict (plainVerdict v))) := by
  have coded : ∀ {code : UInt8} {n : Nat}, code.toNat = n → UInt8.ofNat n = code := by
    intro code n e
    rw [← e, UInt8.ofNat_toNat]
  cases v with
  | accept => rfl
  | drop => rfl
  | ret => rfl
  | cont => rfl
  | jump target => rfl
  | goto target => rfl
  | reject kind code =>
    cases kind with
    | tcpReset => cases family <;> rfl
    | icmpx =>
      refine moveOf?_rejectBody (by cases family <;> rfl) (by decide) ?_
      intro n h
      unfold icmpxName? at h
      split at h <;> cases h <;> rename_i e <;> rw [← coded e] <;> rfl
    | icmp =>
      cases family with
      | ipv4 =>
        refine moveOf?_rejectBody rfl (by decide) ?_
        intro n h
        unfold icmpName? at h
        split at h <;> cases h <;> rename_i e <;> rw [← coded e] <;> rfl
      | ipv6 =>
        refine moveOf?_rejectBody rfl (by decide) ?_
        intro n h
        unfold icmpv6Name? at h
        split at h <;> cases h <;> rename_i e <;> rw [← coded e] <;> rfl

/-- A NAT statement is read with the address and the port that it is written with. -/
theorem moveOf?_nat (kind : NatKind) (a : Address) (port : Option UInt16) :
    moveOf? family members p (single kind.name (.object ([("addr", .string a.text)] ++
      (port.map fun number => ("port", bigEndian (portBytes number))).toList))) =
      some (.done (.nat kind a port)) := by
  have address : Address.parse? a.text.toList = some a := by
    rw [Address.text, String.toList_ofList, Address.parse?_chars]
  have number : ∀ n : UInt16, UInt16.ofNat (Bytes.toNat (portBytes n)) = n := by
    intro n
    rw [portBytes, Bytes.toNat_ofNat_of_lt n.toNat_lt, UInt16.ofNat_toNat]
  have read : ∀ k, natOf? k (.object ([("addr", .string a.text)] ++
      (port.map fun number => ("port", bigEndian (portBytes number))).toList)) =
      some (.nat k a port) := by
    intro k
    show (Address.parse? a.text.toList).bind _ = _
    rw [address]
    cases port with
    | none => rfl
    | some n =>
      show some (Effect.nat k a (some (UInt16.ofNat (Bytes.toNat (portBytes n))))) = _
      rw [number]
  cases kind with
  | source => exact congrArg (Option.map Move.done) (read .source)
  | destination => exact congrArg (Option.map Move.done) (read .destination)

end Ends

end Firewall.Nft
