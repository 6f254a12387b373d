import Firewall.Proofs.Installed
import Firewall.Proofs.Pruning
import Firewall.Proofs.SpecRoundTrip
import Firewall.Proofs.Statements

namespace Firewall

namespace Element

/-- An element without the time to its expiry. -/
def untimed (e : Element) : Element := { e with timeout := none }

end Element

/-- What specifications spell has the width of the keys. -/
theorem Spec.Spells.hasWidth {interval : Bool} {k : KeyType} {e : Element} (h : Spells interval k e) :
    e.hasWidth k = true := by
  obtain ⟨first, last, rfl, hf, hl, -⟩ := h.bounds
  unfold Element.range
  split
  · simp [Element.hasWidth, Element.single, hf]
  · simp [Element.hasWidth, hf, hl]

namespace Json

section Members

variable {name : String} {v : Json} {ms : List (String × Json)}

theorem findMember?_absent (h : name ∉ ms.map Prod.fst) : findMember? name ms = none := by
  induction ms with
  | nil => rfl
  | cons m ms ih =>
    obtain ⟨k, v⟩ := m
    rw [List.map_cons, List.mem_cons, not_or] at h
    rw [findMember?, if_neg (Ne.symm h.1), ih h.2]

theorem findMember?_insertMember (name k : String) (v : Json) (ms : List (String × Json)) :
    findMember? name (insertMember k v ms) = if k = name then some v else findMember? name ms := by
  induction ms with
  | nil => rfl
  | cons m ms ih =>
    obtain ⟨k', v'⟩ := m
    unfold insertMember
    split
    · rfl
    · split
      · rename_i same
        subst same
        rw [findMember?, findMember?]
        split <;> rfl
      · rename_i other
        rw [findMember?, ih, findMember?]
        by_cases here : k' = name
        · have apart : ¬k = name := fun e => other (e.trans here.symm)
          rw [if_pos here, if_pos here, if_neg apart]
        · rw [if_neg here, if_neg here]

/-- Ordering the members of an object leaves each where it is found. -/
theorem findMember?_orderMembers (once : (ms.map Prod.fst).Nodup) :
    findMember? name (orderMembers ms) = findMember? name ms := by
  -- The members behind win over those that are ordered already.
  have ordered : ∀ acc, findMember? name (ms.foldl (fun acc m => insertMember m.1 m.2 acc) acc) =
      (findMember? name ms).or (findMember? name acc) := by
    induction ms with
    | nil => exact fun acc => rfl
    | cons m ms ih =>
      obtain ⟨k, v⟩ := m
      rw [List.map_cons, List.nodup_cons] at once
      intro acc
      rw [List.foldl_cons, ih once.2, findMember?_insertMember, findMember?]
      by_cases here : k = name
      · have absent := findMember?_absent (here ▸ once.1)
        rw [absent, if_pos here, if_pos here]
        rfl
      · rw [if_neg here, if_neg here]
  have folded : orderMembers ms = ms.foldl (fun acc m => insertMember m.1 m.2 acc) [] := rfl
  rw [folded, ordered, findMember?, Option.or_none]

theorem canonicalMembers_names (ms : List (String × Json)) :
    (canonicalMembers ms).map Prod.fst = ms.map Prod.fst := by
  induction ms with
  | nil => rfl
  | cons m ms ih => rw [canonicalMembers, List.map_cons, List.map_cons, ih]

theorem findMember?_canonicalMembers (name : String) (ms : List (String × Json)) :
    findMember? name (canonicalMembers ms) = (findMember? name ms).map canonical := by
  induction ms with
  | nil => rfl
  | cons m ms ih =>
    obtain ⟨k, v⟩ := m
    rw [canonicalMembers, findMember?, findMember?, ih]
    split <;> rfl

theorem get?_canonical (once : (ms.map Prod.fst).Nodup) :
    (object ms).canonical.get? name = ((object ms).get? name).map canonical := by
  rw [canonical, get?, findMember?_orderMembers (by rwa [canonicalMembers_names]),
    findMember?_canonicalMembers, get?]

theorem canonicalItems_eq (xs : List Json) : canonicalItems xs = xs.map canonical := by
  induction xs with
  | nil => rfl
  | cons x xs ih => rw [canonicalItems, ih, List.map_cons]

end Members

end Json

namespace Nft

open Text

section Elements

variable {k : KeyType} {e : Element}

theorem elementSpec?_keyValue {bs : List UInt8} (h : bs.length = k.length) :
    elementSpec? (keyValue k (k.keyText bs)) = some (String.ofList (k.keyText bs)) := by
  rcases keyValue_cases h with ⟨n, text, value⟩ | value
  · rw [value, text]
    rfl
  · rw [value, elementSpec?]

/-- Each form of keys is read as the text that it was made from. -/
theorem elementSpec?_elementKeys (wide : e.hasWidth k = true) :
    elementSpec? (elementKeys k e) = some (e.spec k) := by
  obtain ⟨key, keyEnd, timeout⟩ := e
  have keyWidth : key.length = k.length := Element.key_width wide
  cases keyEnd with
  | none =>
    rw [elementKeys_single timeout keyWidth]
    exact elementSpec?_keyValue keyWidth
  | some last =>
    have lastWidth : last.length = k.length := Element.last_width wide rfl
    cases hn : k.networkLength? key last with
    | some len =>
      rw [elementKeys_network timeout keyWidth hn, Element.spec, Element.specChars_network timeout hn]
      show some (String.ofList (k.keyText key) ++ "/" ++ decimalText len.toNat) = _
      simp [decimalText, String.append_assoc]
    | none =>
      rw [elementKeys_range timeout keyWidth lastWidth hn, Element.spec, Element.specChars_range timeout hn]
      show (rangeSpec? [("range", .array [_, _])]).getD _ = _
      rw [rangeSpec?, if_pos rfl]
      rw [elementSpec?_keyValue keyWidth, elementSpec?_keyValue lastWidth]
      dsimp only [Option.getD_some]
      simp [String.append_assoc]

theorem valueSpec?_eq (ms : List (String × Json)) :
    valueSpec? ms = (Json.findMember? "val" ms).bind elementSpec? := by
  induction ms with
  | nil => rfl
  | cons m ms ih =>
    obtain ⟨k, v⟩ := m
    rw [valueSpec?, Json.findMember?, ih]
    split <;> rfl

/-- The timeout of an element is passed over, wherever it stands. -/
theorem elementSpec?_elem {ms : List (String × Json)} {v : Json} (h : Json.findMember? "val" ms = some v) :
    elementSpec? (single "elem" (.object ms)) = elementSpec? v := by
  have value : valueSpec? ms = elementSpec? v := by rw [valueSpec?_eq, h, Option.bind_some]
  exact value

theorem elementSpec?_elementValue (wide : e.hasWidth k = true) :
    elementSpec? (elementValue k e) = some (e.spec k) := by
  unfold elementValue
  split
  · rw [elementSpec?_elem rfl, elementSpec?_elementKeys wide]
  · exact elementSpec?_elementKeys wide

/-- No object that stands for keys has more than one order of its members. -/
theorem canonical_elementKeys (wide : e.hasWidth k = true) :
    (elementKeys k e).canonical = elementKeys k e := by
  have keyValue : ∀ {bs : List UInt8}, bs.length = k.length →
      (keyValue k (k.keyText bs)).canonical = keyValue k (k.keyText bs) := by
    intro bs h
    rcases keyValue_cases h with ⟨n, -, value⟩ | value
    · rw [value]
      rfl
    · rw [value]
      rfl
  obtain ⟨key, keyEnd, timeout⟩ := e
  have keyWidth : key.length = k.length := Element.key_width wide
  cases keyEnd with
  | none =>
    rw [elementKeys_single timeout keyWidth]
    exact keyValue keyWidth
  | some last =>
    have lastWidth : last.length = k.length := Element.last_width wide rfl
    cases hn : k.networkLength? key last with
    | some len =>
      rw [elementKeys_network timeout keyWidth hn]
      rfl
    | none =>
      rw [elementKeys_range timeout keyWidth lastWidth hn]
      show Json.object [("range", .array [_, _])] = _
      rw [keyValue keyWidth, keyValue lastWidth]
      rfl

theorem elementSpec?_canonical (wide : e.hasWidth k = true) :
    elementSpec? (elementValue k e).canonical = some (e.spec k) := by
  unfold elementValue
  split
  · rename_i d _
    -- The timeout changes places with the keys.
    have ordered : (single "elem" (.object [("val", elementKeys k e), ("timeout", .nat d.seconds)])).canonical =
        single "elem" (.object [("timeout", .nat d.seconds), ("val", (elementKeys k e).canonical)]) := rfl
    rw [ordered, elementSpec?_elem rfl, canonical_elementKeys wide, elementSpec?_elementKeys wide]
  · rw [canonical_elementKeys wide, elementSpec?_elementKeys wide]

end Elements

section Listings

variable {set : MatchSet} {specs : List String} {es held : List Element} {elem : Option Json} {j body : Json}

/-- What the renderer writes as the member `elem` of a set, which has none without elements, or of a command
about elements. The members of objects stand as they are written or in the order of their names. -/
inductive WritesElements (set : MatchSet) (held : List Element) : Option Json → Prop where
  | set : WritesElements set held ((setBody set held).get? "elem")
  | command : WritesElements set held ((elementsBody set held).get? "elem")
  | orderedSet : WritesElements set held ((setBody set held).canonical.get? "elem")
  | orderedCommand : WritesElements set held ((elementsBody set held).canonical.get? "elem")

/-- The members of a set's body have names of their own, and only the last one is about its elements. -/
theorem setBody_members (set : MatchSet) (held : List Element) :
    ∃ ms, setBody set held = .object ms ∧ (ms.map Prod.fst).Nodup ∧ Json.findMember? "elem" ms =
      if held.isEmpty then none else some (elementValues set.keyType held) := by
  refine ⟨_, rfl, ?_⟩
  cases (flagNames set.flags).isEmpty <;> cases set.timeout <;> cases held.isEmpty <;>
    exact ⟨by simp [memberIf], rfl⟩

theorem WritesElements.items (writes : WritesElements set held elem) :
    ∃ write : Element → Json, (elem.bind Json.items?).getD [] = held.map write ∧
      ∀ e, e.hasWidth set.keyType = true → elementSpec? (write e) = some (e.spec set.keyType) := by
  obtain ⟨ms, body, once, found⟩ := setBody_members set held
  have none : held.isEmpty = true → ∀ write : Element → Json, [] = held.map write := by
    intro empty write
    rw [List.isEmpty_iff.mp empty]
    rfl
  cases writes with
  | set =>
    refine ⟨elementValue set.keyType, ?_, fun e => elementSpec?_elementValue⟩
    rw [body, Json.get?, found]
    split
    · rename_i empty
      exact none empty _
    · rfl
  | command => exact ⟨elementValue set.keyType, rfl, fun e => elementSpec?_elementValue⟩
  | orderedSet =>
    refine ⟨fun e => (elementValue set.keyType e).canonical, ?_, fun e => elementSpec?_canonical⟩
    rw [body, Json.get?_canonical once, Json.get?, found]
    split
    · rename_i empty
      exact none empty _
    · show Json.canonicalItems _ = _
      rw [Json.canonicalItems_eq, List.map_map]
      rfl
  | orderedCommand =>
    refine ⟨fun e => (elementValue set.keyType e).canonical, ?_, fun e => elementSpec?_canonical⟩
    show Json.canonicalItems _ = _
    rw [Json.canonicalItems_eq, List.map_map]
    rfl

/-- Only what is written has to be read back. -/
theorem filterMap_reads {α β : Type} {read : α → Option β} {value : α → β} {as : List α}
    (h : ∀ a ∈ as, read a = some (value a)) : as.filterMap read = as.map value := by
  rw [List.filterMap_congr h, List.filterMap_eq_map']

/-- A listing of elements that specifications spell is read as these elements, without their timeouts. -/
theorem listedElements_written (read : set.elementsOfSpecs specs = .ok es)
    (plain : ∀ e ∈ es, e.isMapped = false) (bare : held.map Element.untimed = es)
    (only : (objects j).filterMap (·.get? "set") = [body])
    (writes : WritesElements set held (body.get? "elem")) : listedElements set j = .ok es := by
  obtain ⟨write, items, reads⟩ := writes.items
  have first : (objects j).findSome? (·.get? "set") = some body := by
    rw [← List.head?_filterMap, only, List.head?_singleton]
  -- Neither the width of an element nor its text depends on when it expires.
  have texts : (held.map write).filterMap elementSpec? = es.map (Element.spec set.keyType) := by
    have wide : ∀ e ∈ held, e.hasWidth set.keyType = true := by
      intro e he
      have there : e.untimed ∈ es := bare ▸ List.mem_map_of_mem he
      exact (Spec.elements_spells read e.untimed there).hasWidth
    rw [← bare, List.map_map, List.filterMap_map]
    exact filterMap_reads fun e he => reads e (wide e he)
  have back := Spec.elements_specs read
  have unmapped : es.find? Element.isMapped = none := by simpa using plain
  rw [listedElements, first]
  dsimp only [Option.bind_some]
  rw [items, texts]
  rw [unmapped] at back
  exact back

end Listings

section Printing

variable {set : MatchSet} {specs : List String} {es held : List Element} {j body : Json} {s : Session}

def listing (set : MatchSet) : Invocation :=
  ⟨["--json", "list", "set", set.table.family.nftName, set.table.name, set.name], none⟩

/-- The command can be asked for the elements of a set and prints a document. -/
def Session.Prints (s : Session) (set : MatchSet) (j : Json) : Prop :=
  (listing set).passable = true ∧ ∃ stdout stderr,
    s.reply (listing set) = .exited stdout stderr 0 ∧ Json.ofText? stdout = some j

theorem Session.elements_printed (prints : s.Prints set j) : (elements set s).1 = listedElements set j := by
  obtain ⟨passable, stdout, stderr, reply, text⟩ := prints
  have ran : run (listing set).args none s = (.ok stdout, ⟨s.reply, listing set :: s.runs⟩) := by
    have question : Invocation.mk (listing set).args none = listing set := rfl
    unfold run
    dsimp only
    rw [question, passable, reply]
    rfl
  have asked : list ["set", set.table.family.nftName, set.table.name, set.name] s =
      (.ok j, ⟨s.reply, listing set :: s.runs⟩) := by
    show Action.andThen (run (listing set).args none) _ s = _
    unfold Action.andThen
    rw [ran]
    dsimp only
    rw [text]
    rfl
  show (Action.andThen _ (fun j => Action.ofExcept (listedElements set j)) s).1 = _
  unfold Action.andThen
  rw [asked]
  dsimp only
  cases listedElements set j <;> rfl

end Printing

end Nft

/-- The members of an address set are the texts of the elements that the sink has. -/
theorem Controller.members_result {σ : Type} [Sink σ] {c : Controller σ}
    (entered : Namespace.Entered c.host.namespaces c.config.networkNamespace)
    (left : Namespace.Left c.host.namespaces c.config.networkNamespace) (which : AddressSet) :
    (members which c).1 = (Sink.elements (which.set c.layout) c.sink).1.map fun es =>
      es.map (Element.spec (which.set c.layout).keyType) := by
  rw [members, inNamespace, Namespace.run_of_left entered left]
  show (Action.andThen (onSink (Sink.elements (which.set c.layout))) _ c).1 = _
  unfold Action.andThen onSink Action.on
  cases Sink.elements (which.set c.layout) c.sink with
  | mk r sink => cases r <;> rfl

namespace Nft

variable {set : MatchSet} {specs : List String} {es held : List Element} {j body : Json}

/-- A document whose only set has the elements that the renderer writes, whenever they expire, is read as
the elements that the specifications spelled. So where the command prints it, these are what is known
of the set when a batch is pruned, and their texts are the members of an address set. -/
theorem listing_read_back (read : set.elementsOfSpecs specs = .ok es)
    (plain : ∀ e ∈ es, e.isMapped = false) (bare : held.map Element.untimed = es)
    (only : (objects j).filterMap (·.get? "set") = [body])
    (writes : WritesElements set held (body.get? "elem")) :
    listedElements set j = .ok es ∧ ∀ s : Session, s.Prints set j →
      (∀ k : Known, k.find? set = none → k.flushed = false → set.flags.anonymous = false →
        (membersOf Session.elementsOrNone k set s).1 = es) ∧
      ∀ (c : Controller Session) (which : AddressSet), c.sink = s → which.set c.layout = set →
        Namespace.Entered c.host.namespaces c.config.networkNamespace →
        Namespace.Left c.host.namespaces c.config.networkNamespace →
          (c.members which).1 = .ok (es.map (Element.spec set.keyType)) := by
  have listed := listedElements_written read plain bare only writes
  refine ⟨listed, fun s prints => ?_⟩
  have elements : (Session.elements set s).1 = .ok es := (Session.elements_printed prints).trans listed
  constructor
  · intro k unknown kept named
    have asks : membersOf Session.elementsOrNone k set = Session.elementsOrNone set := by
      unfold membersOf
      rw [unknown]
      exact if_neg (by simp [kept, named])
    rw [asks, Session.elementsOrNone]
    cases answer : Session.elements set s with
    | mk r s' =>
      rw [answer] at elements
      cases elements
      rfl
  · intro c which sink layout entered left
    have asked : (Sink.elements set s).1 = .ok es := elements
    rw [Controller.members_result entered left, layout, sink, asked]
    rfl

section Banned

/-- The blacklist of the policy, and what it holds: a range for good and an address for a time. -/
def bannedSet : MatchSet := (Layout.ofConfig .default).blacklist

def bannedSpecs : List String := ["10.1.0.1-10.1.0.9", "192.0.2.7"]

def bannedRange : Element := .range (Bytes.ofNat 4 0x0A010001) (Bytes.ofNat 4 0x0A010009)

def bannedAddress : Element := .single (Bytes.ofNat 4 0xC0000207)

def bannedHeld : List Element := [bannedRange, bannedAddress.withTimeout (.ofSeconds 600)]

def bannedItems : List Json :=
  [single "range" (.array [.string "10.1.0.1", .string "10.1.0.9"]),
   single "elem" (.object [("timeout", .nat 600), ("val", .string "192.0.2.7")])]

theorem bannedItems_written : WritesElements bannedSet bannedHeld (some (.array bannedItems)) := by
  have low : KeyType.ipv4Addr.keyText (Bytes.ofNat 4 0x0A010001) = "10.1.0.1".toList := by decide +kernel
  have high : KeyType.ipv4Addr.keyText (Bytes.ofNat 4 0x0A010009) = "10.1.0.9".toList := by decide +kernel
  have text : KeyType.ipv4Addr.keyText (Bytes.ofNat 4 0xC0000207) = "192.0.2.7".toList := by decide +kernel
  have apart : KeyType.ipv4Addr.networkLength? (Bytes.ofNat 4 0x0A010001) (Bytes.ofNat 4 0x0A010009) =
      none := by decide +kernel
  have range : elementKeys .ipv4Addr bannedRange = _ := elementKeys_range none rfl rfl apart
  have address : elementKeys .ipv4Addr (bannedAddress.withTimeout (.ofSeconds 600)) = _ :=
    elementKeys_single _ rfl
  have elem : (elementsBody bannedSet bannedHeld).canonical.get? "elem" = some (.array bannedItems) := by
    show some (Json.array [(elementKeys .ipv4Addr bannedRange).canonical, Json.canonical (single "elem" (.object
      [("val", elementKeys .ipv4Addr (bannedAddress.withTimeout _)), ("timeout", _)]))]) = _
    rw [range, low, high, address]
    dsimp only [bannedAddress, Element.single, Element.withTimeout]
    rw [text]
    rfl
  rw [← elem]
  exact .orderedCommand

def bannedListing : Json := single "nftables" (.array [single "set" (single "elem" (.array bannedItems))])

def bannedTokens : List Json.Token :=
  let text (s : String) : Json.Token := .string (some s)
  [.leftBrace, text "nftables", .colon, .leftBracket, .leftBrace, text "set", .colon,
   .leftBrace, text "elem", .colon, .leftBracket,
   .leftBrace, text "range", .colon, .leftBracket, text "10.1.0.1", .comma, text "10.1.0.9", .rightBracket,
   .rightBrace, .comma,
   .leftBrace, text "elem", .colon, .leftBrace, text "timeout", .colon, .number (some (.int 600)), .comma,
   text "val", .colon, text "192.0.2.7", .rightBrace, .rightBrace,
   .rightBracket, .rightBrace, .rightBrace, .rightBracket, .rightBrace]

theorem bannedListing_text : Json.ofText? bannedListing.text = some bannedListing := by
  have tokens : Json.tokens? bannedListing.text.toList = some bannedTokens := by decide +kernel
  rw [Json.ofText?, Json.parse?, Json.Tree.parse?, tokens]
  rfl

/-- The command of a kernel that holds the elements, and the controller that runs it. -/
def bannedSession : Session :=
  .start (Script.reply [⟨"--json list set ip filter blacklist_ipset", none, bannedListing.text, "", 0⟩])

def bannedController : Controller Session :=
  ⟨.default, .ofOutside "eth0" (.v4 0xC6336402#32), "eth0", .v4 0xC6336402#32, Layout.ofConfig .default,
    Layout.ofConfig .default, true, bannedSession⟩

theorem listing_read_back_banned :
    listedElements bannedSet bannedListing = .ok [bannedRange, bannedAddress] ∧
      (membersOf Session.elementsOrNone .empty bannedSet bannedSession).1 = [bannedRange, bannedAddress] ∧
      (bannedController.members .blacklist).1 = .ok bannedSpecs := by
  have read : bannedSet.elementsOfSpecs bannedSpecs = .ok [bannedRange, bannedAddress] := by rfl
  have plain : ∀ e ∈ [bannedRange, bannedAddress], e.isMapped = false := by decide +kernel
  have prints : bannedSession.Prints bannedSet bannedListing :=
    ⟨by decide +kernel, bannedListing.text, "", by rfl, bannedListing_text⟩
  have texts : [bannedRange, bannedAddress].map (Element.spec bannedSet.keyType) = bannedSpecs := by
    decide +kernel
  have bare : bannedHeld.map Element.untimed = [bannedRange, bannedAddress] := by rfl
  have only : (objects bannedListing).filterMap (·.get? "set") = [single "elem" (.array bannedItems)] := by rfl
  obtain ⟨listed, printed⟩ := listing_read_back read plain bare only bannedItems_written
  obtain ⟨known, shown⟩ := printed bannedSession prints
  refine ⟨listed, known .empty rfl rfl rfl, ?_⟩
  rw [shown bannedController .blacklist rfl rfl (.inl rfl) (.inl rfl), texts]

end Banned

end Nft
end Firewall
