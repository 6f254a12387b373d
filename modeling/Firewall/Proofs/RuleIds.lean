import Firewall.Proofs.Access
import Firewall.Proofs.Inlining

namespace Firewall

namespace Compiler

def loopbackIds : List String := ["loopback-in", "loopback-spoof", "loopback-out"]

def commonNames (s : Services) : List String :=
  ["icmp-in", "icmp-out"] ++ (if s.dns then ["dns-udp-out", "dns-udp-in", "dns-tcp-out", "dns-tcp-in"] else []) ++
    (if s.http then ["http-in", "http-out"] else []) ++ (if s.smtp then ["smtp-out", "smtp-in"] else []) ++
    ["trust-ping", "trust-in", "trust-out"]

def portNames (port : UInt16) : List String := if port = 0 then [] else ["overlay-port-in", "overlay-port-out"]

def overlayIds (overlay : Bool) : List String :=
  if overlay then ["overlay-ping", "overlay-icmp-in", "manager-in", "overlay-icmp-out", "manager-out"] else []

def forwardIds (overlay : Bool) : List String :=
  "smtp-relay-drop" :: if overlay then ["forward-out", "forward-in", "forward-overlay"] else []

/-- The interfaces that get rules of their own. -/
def ruledInterfaces (config : Config) (outside : String) : List String := addNames [outside] config.interfaces

/-- The ids of the whole policy in the order of its rules. -/
def baselineIds (config : Config) (outside : String) : List String :=
  loopbackIds ++ ["blacklist"] ++
    ((ruledInterfaces config outside).flatMap fun i =>
      (commonNames config.services ++ portNames config.overlayPort).map (idFor · i)) ++
    overlayIds config.hasOverlay ++ forwardIds config.hasOverlay ++ ["wan-snat"]

/-- The ids of the rules that are left after a cleanup. -/
def cleanupIds (config : Config) (outside : String) : List String :=
  loopbackIds ++ (ruledInterfaces config outside).flatMap fun i => (commonNames config.services).map (idFor · i)

/-- The rules of a group have these ids in this order. -/
def HasIds (ids : List String) (group : Except Error (List PlannedRule)) : Prop :=
  ∀ plan, group = .ok plan → plan.map (·.data.id) = ids.map some

section Ids

variable {ids ids' : List String} {rs rs' : List (Except Error PlannedRule)}

theorem hasIds_nil : HasIds [] (.ok []) := by
  intro plan h
  cases h
  rfl

theorem hasIds_rule {chain : Chain} {id : String} {parts : List (Except Error Program)}
    (later : HasIds ids (rules rs)) : HasIds (id :: ids) (rules (rule chain id parts :: rs)) := by
  intro plan h
  obtain ⟨planned, rest, built, read, rfl⟩ := Spec.readAll_cons h
  obtain ⟨programs, -, rfl⟩ := rule_ok built
  rw [List.map_cons, List.map_cons, later rest read]
  rfl

theorem hasIds_append (front : HasIds ids (rules rs)) (back : HasIds ids' (rules rs')) :
    HasIds (ids ++ ids') (rules (rs ++ rs')) := by
  intro plan h
  obtain ⟨plan, plan', read, read', rfl⟩ := Spec.readAll_append h
  rw [List.map_append, List.map_append, front plan read, back plan' read']

theorem hasIds_if {wanted : Bool} (h : HasIds ids (rules rs)) :
    HasIds (if wanted then ids else []) (rules (if wanted then rs else [])) := by
  cases wanted with
  | true => exact h
  | false => exact hasIds_nil

theorem hasIds_groups {g : Except Error (List PlannedRule)} {gs : List (Except Error (List PlannedRule))}
    (first : HasIds ids g) (later : HasIds ids' (groups gs)) : HasIds (ids ++ ids') (groups (g :: gs)) := by
  intro plan h
  obtain ⟨front, back, hf, hb, rfl⟩ := groups_cons_ok h
  rw [List.map_append, List.map_append, first front hf, later back hb]

theorem hasIds_group {g : Except Error (List PlannedRule)} (only : HasIds ids g) : HasIds ids (groups [g]) := by
  have all : HasIds (ids ++ []) (groups [g]) := hasIds_groups only hasIds_nil
  rwa [List.append_nil] at all

theorem hasIds_groups_append {gs gs' : List (Except Error (List PlannedRule))}
    (front : HasIds ids (groups gs)) (back : HasIds ids' (groups gs')) :
    HasIds (ids ++ ids') (groups (gs ++ gs')) := by
  intro plan h
  obtain ⟨plan, plan', read, read', rfl⟩ := groups_append_ok h
  rw [List.map_append, List.map_append, front plan read, back plan' read']

theorem hasIds_groups_map {f : String → List String} {g : String → Except Error (List PlannedRule)}
    (each : ∀ i, HasIds (f i) (g i)) (is : List String) : HasIds (is.flatMap f) (groups (is.map g)) := by
  induction is with
  | nil => exact hasIds_nil
  | cons i is ih => exact hasIds_groups (each i) ih

end Ids

section Groups

variable (c : Compiler) (i : String)

theorem loopback_ids : HasIds loopbackIds c.loopback :=
  hasIds_rule (hasIds_rule (hasIds_rule hasIds_nil))

theorem blacklist_ids : HasIds ["blacklist"] c.blacklist := hasIds_rule hasIds_nil

theorem hostBase_ids : HasIds (["icmp-in", "icmp-out"].map (idFor · i)) (c.hostBase i) :=
  hasIds_rule (hasIds_rule hasIds_nil)

theorem dnsOver_ids (name : String) (protocol : Program) :
    HasIds (["dns-" ++ name ++ "-out", "dns-" ++ name ++ "-in"].map (idFor · i))
      (rules (c.dnsOver i name protocol)) :=
  hasIds_rule (hasIds_rule hasIds_nil)

theorem services_ids : HasIds (((if c.config.services.dns then
      ["dns-udp-out", "dns-udp-in", "dns-tcp-out", "dns-tcp-in"] else []) ++
    (if c.config.services.http then ["http-in", "http-out"] else []) ++
    (if c.config.services.smtp then ["smtp-out", "smtp-in"] else [])).map (idFor · i)) (c.services i) := by
  have dns := hasIds_append (c.dnsOver_ids i "udp" (Predicate.udp c.profile))
    (c.dnsOver_ids i "tcp" (Predicate.tcp c.profile))
  rw [List.map_append, List.map_append, apply_ite (List.map _), apply_ite (List.map _), apply_ite (List.map _)]
  exact hasIds_append (hasIds_append (hasIds_if dns) (hasIds_if (hasIds_rule (hasIds_rule hasIds_nil))))
    (hasIds_if (hasIds_rule (hasIds_rule hasIds_nil)))

theorem trusted_ids : HasIds (["trust-ping", "trust-in", "trust-out"].map (idFor · i)) (c.trusted i) :=
  hasIds_rule (hasIds_rule (hasIds_rule hasIds_nil))

theorem overlayPort_ids : HasIds ((portNames c.config.overlayPort).map (idFor · i)) (c.overlayPort i) := by
  unfold overlayPort portNames
  dsimp only
  split
  · exact hasIds_nil
  · exact hasIds_rule (hasIds_rule hasIds_nil)

theorem common_ids : HasIds ((commonNames c.config.services).map (idFor · i)) (c.common i) := by
  have all := hasIds_groups (c.hostBase_ids i) (hasIds_groups (c.services_ids i) (hasIds_group (c.trusted_ids i)))
  simpa only [common, commonNames, List.map_append, List.append_assoc] using all

theorem interfaceRules_ids :
    HasIds ((commonNames c.config.services ++ portNames c.config.overlayPort).map (idFor · i))
      (c.interfaceRules i) := by
  have all := hasIds_groups (c.common_ids i) (hasIds_group (c.overlayPort_ids i))
  rwa [← List.map_append] at all

theorem overlay_ids : HasIds (overlayIds c.config.hasOverlay) c.overlay := by
  unfold overlay overlayIds
  dsimp only
  cases c.config.hasOverlay with
  | true => exact hasIds_rule (hasIds_rule (hasIds_rule (hasIds_rule (hasIds_rule hasIds_nil))))
  | false => exact hasIds_nil

theorem forward_ids : HasIds (forwardIds c.config.hasOverlay) c.forward :=
  hasIds_rule (hasIds_if (hasIds_rule (hasIds_rule (hasIds_rule hasIds_nil))))

theorem nat_ids : HasIds ["wan-snat"] c.nat := hasIds_rule hasIds_nil

theorem interfaces_eq : c.interfaces = ruledInterfaces c.config c.outsideInterface := rfl

theorem baseline_ids : HasIds (baselineIds c.config c.outsideInterface) c.baseline := by
  have front := hasIds_groups c.loopback_ids (hasIds_group c.blacklist_ids)
  have back := hasIds_groups c.overlay_ids (hasIds_groups c.forward_ids (hasIds_group c.nat_ids))
  have all := hasIds_groups_append (hasIds_groups_append front (hasIds_groups_map c.interfaceRules_ids c.interfaces))
    back
  simpa only [baseline, interfaces_eq, baselineIds, List.append_assoc] using all

theorem cleanup_ids : HasIds (cleanupIds c.config c.outsideInterface) c.cleanup :=
  hasIds_groups c.loopback_ids (hasIds_groups_map c.common_ids c.interfaces)

end Groups

section Distinct

/-- A name that stands in an id before the interface, or is an id by itself: it has no colon, and its characters
are kept in a comment. -/
def IsRuleName (name : String) : Prop :=
  ':' ∉ name.toList ∧ name.toList.all Input.isCommentChar = true ∧ name.toList.length ≤ 16

instance (name : String) : Decidable (IsRuleName name) := inferInstanceAs (Decidable (_ ∧ _ ∧ _))

theorem ruleNames (s : Services) (port : UInt16) :
    (commonNames s ++ portNames port).Nodup ∧ ∀ name ∈ commonNames s ++ portNames port, IsRuleName name := by
  obtain ⟨dns, http, smtp⟩ := s
  unfold portNames
  split <;> cases dns <;> cases http <;> cases smtp <;> decide

/-- The ids of the rules without an interface. -/
theorem plainIds (overlay : Bool) :
    ((loopbackIds ++ ["blacklist"]) ++ (overlayIds overlay ++ forwardIds overlay ++ ["wan-snat"])).Nodup ∧
      ∀ id ∈ (loopbackIds ++ ["blacklist"]) ++ (overlayIds overlay ++ forwardIds overlay ++ ["wan-snat"]),
        IsRuleName id := by
  cases overlay <;> decide

theorem toList_idFor (name i : String) : (idFor name i).toList = name.toList ++ ':' :: i.toList := by
  simp [idFor]

theorem idFor_inj {name name' i i' : String} (plain : ':' ∉ name.toList) (plain' : ':' ∉ name'.toList)
    (same : idFor name i = idFor name' i') : name = name' ∧ i = i' := by
  have cut := Text.splitOnce_some.mpr ⟨toList_idFor name i, plain⟩
  rw [same, Text.splitOnce_some.mpr ⟨toList_idFor name' i', plain'⟩, Option.some.injEq, Prod.mk.injEq] at cut
  exact ⟨String.toList_inj.mp cut.1.symm, String.toList_inj.mp cut.2.symm⟩

theorem addNames_nodup {found : List String} (nodup : found.Nodup) (names : List String) :
    (addNames found names).Nodup := by
  induction names generalizing found with
  | nil => exact nodup
  | cons n names ih =>
    unfold addNames
    split
    · exact ih nodup
    · rename_i unknown
      refine ih (List.nodup_append.mpr ⟨nodup, List.nodup_singleton n, fun a ha b hb same => unknown ?_⟩)
      rw [List.contains_iff_mem, ← List.mem_singleton.mp hb, ← same]
      exact ha

/-- The names and the interfaces tell the rules of interfaces apart. -/
theorem flatMap_idFor_nodup {names interfaces : List String} (nodup : names.Nodup)
    (plain : ∀ name ∈ names, IsRuleName name) (apart : interfaces.Nodup) :
    (interfaces.flatMap fun i => names.map (idFor · i)).Nodup := by
  rw [List.nodup_flatMap]
  constructor
  · intro i _
    refine (List.nodup_map_iff_inj_on nodup).mpr fun name hn name' hn' same => ?_
    exact (idFor_inj (plain name hn).1 (plain name' hn').1 same).1
  · refine apart.imp fun {i i'} other id first second => ?_
    obtain ⟨name, hn, rfl⟩ := List.mem_map.mp first
    obtain ⟨name', hn', same⟩ := List.mem_map.mp second
    exact other (idFor_inj (plain name' hn').1 (plain name hn).1 same).2.symm

theorem nodup_between {front middle back : List String} (outer : (front ++ back).Nodup) (inner : middle.Nodup)
    (apart : ∀ id ∈ middle, id ∉ front ++ back) : (front ++ middle ++ back).Nodup := by
  rw [(List.perm_append_comm.append_right back).nodup_iff, List.append_assoc]
  exact List.nodup_append.mpr ⟨inner, outer, fun a ha b hb same => apart a ha (same ▸ hb)⟩

theorem baselineIds_nodup (config : Config) (outside : String) : (baselineIds config outside).Nodup := by
  obtain ⟨nodup, plain⟩ := ruleNames config.services config.overlayPort
  obtain ⟨others, alone⟩ := plainIds config.hasOverlay
  have interfaces : (ruledInterfaces config outside).Nodup := addNames_nodup (List.nodup_singleton outside) _
  have middle := flatMap_idFor_nodup nodup plain interfaces
  have whole := nodup_between others middle ?_
  · simpa only [baselineIds, List.append_assoc] using whole
  · intro id interface single
    obtain ⟨i, -, named⟩ := List.mem_flatMap.mp interface
    obtain ⟨name, -, rfl⟩ := List.mem_map.mp named
    refine (alone _ single).1 ?_
    rw [toList_idFor]
    exact List.mem_append_right _ List.mem_cons_self

theorem cleanupIds_sublist (config : Config) (outside : String) :
    (cleanupIds config outside).Sublist (baselineIds config outside) := by
  have each : ((ruledInterfaces config outside).flatMap fun i => (commonNames config.services).map (idFor · i)).Sublist
      ((ruledInterfaces config outside).flatMap fun i =>
        (commonNames config.services ++ portNames config.overlayPort).map (idFor · i)) := by
    generalize ruledInterfaces config outside = is
    induction is with
    | nil => exact .slnil
    | cons i is ih =>
      rw [List.flatMap_cons, List.flatMap_cons, List.map_append]
      exact (List.sublist_append_left _ _).append ih
  unfold cleanupIds baselineIds
  rw [List.append_assoc, List.append_assoc]
  exact ((List.sublist_append_left _ _).append each).trans (List.sublist_append_left _ _)

end Distinct

end Compiler

namespace Input

theorem comment_eq_self {id : String} (safe : ∀ c ∈ id.toList, isCommentChar c = true)
    (short : id.toList.length ≤ 64) : comment id = id := by
  rw [comment, List.filter_eq_self.mpr safe, List.take_of_length_le short, String.ofList_toList]

theorem length_le_byteLength (s : String) : s.toList.length ≤ byteLength s := by
  have each : ∀ cs : List Char, cs.length ≤ (Bytes.ofText cs).length := by
    intro cs
    induction cs with
    | nil => exact Nat.le_refl 0
    | cons c cs ih =>
      have some : 1 ≤ (String.utf8EncodeChar c).length := by
        rw [String.length_utf8EncodeChar]
        exact Char.utf8Size_pos c
      rw [Bytes.ofText, List.flatMap_cons, List.length_append, List.length_cons]
      exact Nat.add_comm _ 1 ▸ Nat.add_le_add some ih
  exact each s.toList

/-- An interface name that passes the check is short and made of characters that are kept in a comment. -/
theorem interface_safe {name text : String} (h : interface name = .ok text) :
    (∀ c ∈ name.toList, isCommentChar c = true) ∧ name.toList.length ≤ 15 := by
  have safe : ∀ c, isInterfaceChar c = true → isCommentChar c = true := by
    intro c
    simp only [isInterfaceChar, isCommentChar, Bool.or_eq_true, beq_iff_eq, List.contains_iff_mem, List.mem_cons]
    tauto
  unfold interface at h
  split at h
  · rename_i none
    rw [none]
    exact ⟨List.forall_mem_nil _, Nat.zero_le 15⟩
  · split at h
    · cases h
    · rename_i short
      split at h
      · cases h
      · split at h
        · rename_i allowed
          exact ⟨fun c hc => safe c (List.all_eq_true.mp allowed c hc),
            (length_le_byteLength name).trans (Nat.le_of_not_lt short)⟩
        · cases h

end Input

theorem Config.validate_interfaces {c : Config} (h : c.validate = .ok ()) :
    ∀ i ∈ c.interfaces, ∃ text, Input.interface i = .ok text := by
  obtain ⟨-, -, -, interfaces, -⟩ := validate_iff.mp h
  intro i member
  obtain ⟨text, checked⟩ := checkEach_ok interfaces i member
  unfold namedInterface at checked
  split at checked
  · cases checked
  · exact ⟨text, checked⟩

namespace Compiler

theorem comment_idFor {name i text : String} (plain : IsRuleName name) (checked : Input.interface i = .ok text) :
    Input.comment (idFor name i) = idFor name i := by
  obtain ⟨-, safe, short⟩ := plain
  obtain ⟨safe', short'⟩ := Input.interface_safe checked
  apply Input.comment_eq_self
  · rw [toList_idFor, List.forall_mem_append, List.forall_mem_cons]
    exact ⟨List.all_eq_true.mp safe, by decide, safe'⟩
  · rw [toList_idFor, List.length_append, List.length_cons]
    omega

/-- The ids are written as comments without a change if the interfaces have passed their check. -/
theorem comment_baselineIds {config : Config} {outside text : String} (valid : config.validate = .ok ())
    (checked : Input.interface outside = .ok text) :
    ∀ id ∈ baselineIds config outside, Input.comment id = id := by
  obtain ⟨-, plain⟩ := ruleNames config.services config.overlayPort
  obtain ⟨-, alone⟩ := plainIds config.hasOverlay
  intro id member
  have cases : id ∈ (loopbackIds ++ ["blacklist"]) ++ (overlayIds config.hasOverlay ++
      forwardIds config.hasOverlay ++ ["wan-snat"]) ∨
      id ∈ (ruledInterfaces config outside).flatMap fun i =>
        (commonNames config.services ++ portNames config.overlayPort).map (idFor · i) := by
    simp only [baselineIds, List.mem_append] at member ⊢
    tauto
  rcases cases with single | interface
  · obtain ⟨-, safe, short⟩ := alone id single
    exact Input.comment_eq_self (List.all_eq_true.mp safe) (by omega)
  · obtain ⟨i, hi, named⟩ := List.mem_flatMap.mp interface
    obtain ⟨name, hn, rfl⟩ := List.mem_map.mp named
    rcases mem_addNames.mp hi with first | other
    · rw [List.mem_singleton.mp first]
      exact comment_idFor (plain name hn) checked
    · obtain ⟨_, checked⟩ := Config.validate_interfaces valid i other
      exact comment_idFor (plain name hn) checked

end Compiler

/-- The rule that a declaration appends to its chain. -/
def Declaration.appended? : Declaration → Option Rule
  | .addRule rule => some rule
  | _ => none

namespace Nft
open Json

/-- The rule that a command appends. -/
def addedRule? (command : Json) : Option Json := (command.get? "add").bind (·.get? "rule")

def commentOf (rule : Json) : Option String := (rule.get? "comment").bind Json.string?

/-- A listing of the rules that the commands of a document append. -/
def ruleListing (doc : Json) : Json :=
  single "nftables" (.array (((objects doc).filterMap addedRule?).map (single "rule")))

theorem listedRules_ids (doc : Json) :
    (listedRules (ruleListing doc)).map (·.id) = ((objects doc).filterMap addedRule?).map commentOf := by
  have entries : objects (ruleListing doc) = ((objects doc).filterMap addedRule?).map (single "rule") := rfl
  have bodies : ∀ rules : List Json, (rules.map (single "rule")).filterMap (·.get? "rule") = rules := by
    intro rules
    rw [List.filterMap_map]
    exact List.filterMap_some
  rw [listedRules, entries, bodies]
  refine List.ext_getElem (by simp) fun i _ _ => ?_
  rw [List.getElem_map, List.getElem_mapIdx, List.getElem_map]
  rfl

/-- The comment of a rule's body is made of the id of the rule. -/
theorem commentOf_body {sets : List AnonymousSet} {rule : Rule} {body : Json}
    (written : ruleBody sets rule [] = .ok body) :
    commentOf body.canonical = rule.data.id.map Input.comment := by
  obtain ⟨js, ms, -, rfl, once, -, -, -⟩ := ruleBody_members (.inl rfl) written
  have same : commentOf (Json.object ms) = rule.data.id.map Input.comment := by
    rw [ruleBody] at written
    split at written
    · cases written
    · cases written
      cases rule.data.id <;> rfl
  rw [← same]
  exact stringAt?_canonical once

/-- A command appends the rule that its declaration appends. -/
theorem addedRule?_command {sets : List AnonymousSet} {d : Declaration} {o : Option Json}
    (written : command sets d = .ok o) :
    ((o.toList.map canonical).filterMap addedRule?).map commentOf =
      d.appended?.toList.map fun rule => rule.data.id.map Input.comment := by
  cases d with
  | addRule rule =>
    rw [command] at written
    split at written
    · rename_i body made
      cases written
      exact congrArg (fun comment => [comment]) (commentOf_body made)
    · cases written
  | insertRule rule before =>
    unfold command at written
    dsimp only at written
    split at written
    · cases written
      rfl
    · cases written
  | addSet s es =>
    rw [command] at written
    split at written
    · cases written
      rfl
    · cases written
      rfl
  | flushRuleset | addTable | addChain | addElements | deleteElements | deleteRule =>
    cases written
    rfl

theorem addedRule?_commands {sets : List AnonymousSet} {batch : Batch} {js : List Json}
    (written : commands sets batch = .ok js) :
    ((js.map canonical).filterMap addedRule?).map commentOf =
      (batch.filterMap Declaration.appended?).map fun rule => rule.data.id.map Input.comment := by
  induction batch generalizing js with
  | nil =>
    cases written
    rfl
  | cons d ds ih =>
    rw [commands] at written
    cases here : command sets d with
    | error e =>
      rw [here] at written
      cases written
    | ok o =>
      rw [here] at written
      cases later : commands sets ds with
      | error e =>
        rw [later] at written
        cases written
      | ok js' =>
        rw [later] at written
        cases written
        have first : (d :: ds).filterMap Declaration.appended? =
            d.appended?.toList ++ ds.filterMap Declaration.appended? := by
          cases appended : d.appended? <;> simp [appended]
        rw [List.map_append, List.filterMap_append, List.map_append, addedRule?_command here, ih later, first,
          List.map_append]

/-- The rules of a rendered batch, listed in one document, are read with the comments of their ids, in the order
of the batch. -/
theorem listedRules_document {batch : Batch} {doc : Json} (rendered : document batch = .ok doc) :
    (listedRules (ruleListing doc)).map (·.id) =
      (batch.filterMap Declaration.appended?).map fun rule => rule.data.id.map Input.comment := by
  rw [document] at rendered
  cases written : commands (anonymousSets batch) batch with
  | error e =>
    rw [written] at rendered
    cases rendered
  | ok js =>
    rw [written] at rendered
    cases rendered
    have entries : objects (single "nftables" (.array (formatVersion :: js))).canonical =
        (formatVersion :: js).map canonical := canonicalItems_eq _
    have version : addedRule? formatVersion.canonical = none := rfl
    rw [listedRules_ids]
    show ((objects (single "nftables" (.array (formatVersion :: js))).canonical).filterMap addedRule?).map _ = _
    rw [entries, List.map_cons, List.filterMap_cons_none version, addedRule?_commands written]

end Nft

namespace Compiler

/-- The rules of a plan are what its batch appends, if the declarations in front of them append none. -/
theorem appended_planned {declared : Batch} {plan : List PlannedRule} (bare : ∀ d ∈ declared, d.rule? = none) :
    (Declaration.flushRuleset :: (declared ++ plan.map PlannedRule.declaration)).filterMap Declaration.appended? =
      plan.map fun r => ⟨r.chain.table, r.chain.name, r.data⟩ := by
  have none : declared.filterMap Declaration.appended? = [] := by
    rw [List.filterMap_eq_nil_iff]
    intro d hd
    have placed := bare d hd
    cases d with
    | addRule rule => cases placed
    | _ => rfl
  rw [List.filterMap_cons_none rfl, List.filterMap_append, none, List.nil_append, List.filterMap_map]
  induction plan with
  | nil => rfl
  | cons r plan ih => exact congrArg (_ :: ·) ih

/-- What is read from a listing of the rules of a rendered batch are the ids of its plan, if they are written as
comments without a change. -/
theorem listed_planned {declared : Batch} {plan : List PlannedRule} {ids : List String} {doc : Json}
    (bare : ∀ d ∈ declared, d.rule? = none) (identified : plan.map (·.data.id) = ids.map some)
    (kept : ∀ id ∈ ids, Input.comment id = id)
    (rendered : Nft.document (.flushRuleset :: (declared ++ plan.map PlannedRule.declaration)) = .ok doc) :
    (Nft.listedRules (Nft.ruleListing doc)).map (·.id) = ids.map some := by
  have comments : (ids.map some).map (Option.map Input.comment) = ids.map some := by
    rw [List.map_map]
    exact List.map_congr_left fun id hid => congrArg some (kept id hid)
  rw [Nft.listedRules_document rendered, appended_planned bare, List.map_map, ← comments, ← identified,
    List.map_map]
  rfl

section Listed

variable {c : Controller Kernel} (valid : c.config.validate = .ok ()) (fits : FitsInterface c.outsideInterface)
  (kept : ∀ id ∈ baselineIds c.config c.outsideInterface, Input.comment id = id)
include valid fits kept

/-- The batch that installs the policy of a valid configuration can be compiled and written, and its rules are
listed under their ids. -/
theorem baseline_listed (own : c.config.family.contains c.outsideAddress = true) (ports : PortElements) :
    ∃ plan doc, (c.compiler (Layout.numbered c.config)).baseline = .ok plan ∧
      Nft.document (Controller.baselineBatch c.config ports plan) = .ok doc ∧
      (Nft.listedRules (Nft.ruleListing doc)).map (·.id) =
        (baselineIds c.config c.outsideInterface).map some := by
  have fields := Config.validate_ok valid
  have bare : ∀ d ∈ (Layout.numbered c.config).declarations c.config ports, d.rule? = none :=
    Layout.declarations_bare
  obtain ⟨plan, planned, placed⟩ := baseline_sound fits (fun i hi => (fields.interfaces i hi).fits)
    (Layout.declarations_serves c ports) (fun has => (fields.overlayInterface has).fits) own
  obtain ⟨doc, rendered⟩ := (planned_admissible bare Layout.declarations_inScope placed).written
  have identified := baseline_ids (c.compiler (Layout.numbered c.config)) plan planned
  exact ⟨plan, doc, planned, rendered, listed_planned bare identified kept rendered⟩

/-- So it is with the batch of a cleanup. -/
theorem cleanup_listed (trusted : List Element) (ports : PortElements) :
    ∃ plan doc, (c.compiler (Layout.numberedFilter c.config)).cleanup = .ok plan ∧
      Nft.document (Controller.cleanupBatch c.config trusted ports plan) = .ok doc ∧
      (Nft.listedRules (Nft.ruleListing doc)).map (·.id) =
        (cleanupIds c.config c.outsideInterface).map some := by
  have fields := Config.validate_ok valid
  have bare : ∀ d ∈ (Layout.numberedFilter c.config).filterDeclarations c.config trusted ports, d.rule? = none :=
    Layout.filterDeclarations_bare
  obtain ⟨plan, planned, placed⟩ := cleanup_sound fits (fun i hi => (fields.interfaces i hi).fits)
    (Layout.filterDeclarations_serves c trusted ports)
  obtain ⟨doc, rendered⟩ := (planned_admissible bare Layout.filterDeclarations_inScope placed).written
  have same : ∀ id ∈ cleanupIds c.config c.outsideInterface, Input.comment id = id := fun id hid =>
    kept id ((cleanupIds_sublist c.config c.outsideInterface).subset hid)
  have identified := cleanup_ids (c.compiler (Layout.numberedFilter c.config)) plan planned
  exact ⟨plan, doc, planned, rendered, listed_planned bare identified same rendered⟩

end Listed

/-- Every rule of the policy has an id of its own, whatever interfaces are treated like the outside one, and those
that a cleanup keeps are among them in the same order. As the ids of checked interfaces are written without a
change, the rules of the batches that install policy and cleanup are listed under exactly these ids. -/
theorem rule_ids_identify {config : Config} {outside text : String} (valid : config.validate = .ok ())
    (named : outside ≠ "") (checked : Input.interface outside = .ok text) :
    (baselineIds config outside).Nodup ∧ (cleanupIds config outside).Sublist (baselineIds config outside) ∧
    (∀ id ∈ baselineIds config outside, Input.comment id = id) ∧
    (∀ layout address plan, baseline ⟨config, layout, outside, address⟩ = .ok plan →
      plan.map (·.data.id) = (baselineIds config outside).map some) ∧
    (∀ layout address plan, cleanup ⟨config, layout, outside, address⟩ = .ok plan →
      plan.map (·.data.id) = (cleanupIds config outside).map some) ∧
    ∀ address, config.family.contains address = true → ∀ trusted ports,
      (∃ plan doc, baseline ⟨config, Layout.numbered config, outside, address⟩ = .ok plan ∧
        Nft.document (Controller.baselineBatch config ports plan) = .ok doc ∧
        (Nft.listedRules (Nft.ruleListing doc)).map (·.id) = (baselineIds config outside).map some) ∧
      ∃ plan doc, cleanup ⟨config, Layout.numberedFilter config, outside, address⟩ = .ok plan ∧
        Nft.document (Controller.cleanupBatch config trusted ports plan) = .ok doc ∧
        (Nft.listedRules (Nft.ruleListing doc)).map (·.id) = (cleanupIds config outside).map some := by
  have kept := comment_baselineIds valid checked
  have fits : FitsInterface outside := (Input.interface_ok named checked).fits
  refine ⟨baselineIds_nodup config outside, cleanupIds_sublist config outside, kept,
    fun layout address => baseline_ids _, fun layout address => cleanup_ids _, fun address own trusted ports => ?_⟩
  let c : Controller Kernel := ⟨config, .ofOutside outside address, outside, address, Layout.ofConfig config,
    Layout.ofConfig config, false, .empty⟩
  exact ⟨baseline_listed (c := c) valid fits kept own ports, cleanup_listed (c := c) valid fits kept trusted ports⟩

def crowded : Config :=
  { Config.default with
    overlayInterface := "eth0", overlayPort := 51820, interfaces := ["eth0", "br-0.100", "eth0", "br-0.100"],
    services := ⟨true, true, true⟩ }

theorem rule_ids_identify_crowded :
    crowded.validate = .ok () ∧ (baselineIds crowded "eth0").length = 44 ∧ (baselineIds crowded "eth0").Nodup ∧
      ∃ plan doc, baseline ⟨crowded, Layout.numbered crowded, "eth0", .v4 0xCB007107#32⟩ = .ok plan ∧
        Nft.document (Controller.baselineBatch crowded ⟨[], [], [], []⟩ plan) = .ok doc ∧
        (Nft.listedRules (Nft.ruleListing doc)).map (·.id) = (baselineIds crowded "eth0").map some := by
  have valid : crowded.validate = .ok () := by rfl
  have count : (baselineIds crowded "eth0").length = 44 := by decide +kernel
  have checked : Input.interface "eth0" = .ok "eth0" := by rfl
  obtain ⟨nodup, -, -, -, -, batches⟩ := rule_ids_identify valid (by decide) checked
  exact ⟨valid, count, nodup, (batches (.v4 0xCB007107#32) (by decide) [] ⟨[], [], [], []⟩).1⟩

end Compiler
end Firewall
