import Firewall.Proofs.ListingRoundTrip
import Firewall.Proofs.Origin
import Firewall.Proofs.Requests

namespace Firewall

def Declaration.introducesAnonymous : Declaration → Bool
  | .addSet set _ => set.flags.anonymous
  | _ => false

namespace Json

theorem string?_canonical (j : Json) : j.canonical.string? = j.string? := by
  cases j <;> rfl

theorem canonical_eq_string {j : Json} {text : String} (h : j.canonical = .string text) :
    j = .string text := by
  cases j with
  | string s => exact h
  | null | bool | number | array | object => cases h

end Json

namespace Nft

open Json

theorem stringAt?_canonical {name : String} {ms : List (String × Json)} (once : (ms.map Prod.fst).Nodup) :
    stringAt? name (Json.object ms).canonical = stringAt? name (.object ms) := by
  rw [stringAt?, get?_canonical once, stringAt?, Option.bind_map]
  exact congrArg _ (funext string?_canonical)

section Reading

def verbs : List String := ["add", "insert", "delete"]

/-- What a command adds or removes, if it is of that kind. -/
def described? (kind : String) (command : Json) : Option Json :=
  verbs.findSome? fun verb => (command.get? verb).bind (·.get? kind)

/-- The command is about a set by its name: it declares the set, or adds elements to it or removes them. -/
def NamesSet (set : MatchSet) (command : Json) : Prop :=
  ∃ kind ∈ ["set", "element"], ∃ body, described? kind command = some body ∧
    stringAt? "family" body = some set.table.family.nftName ∧
    stringAt? "table" body = some set.table.name ∧ stringAt? "name" body = some set.name

/-- The statements of a command about a rule of a table. -/
def ruleStatements? (t : Table) (command : Json) : Option (List Json) :=
  (described? "rule" command).bind fun body =>
    if stringAt? "family" body = some t.family.nftName ∧ stringAt? "table" body = some t.name then
      (body.get? "expr").bind Json.items?
    else none

def side? (name : String) (statement : Json) : Option Json := (statement.get? "match").bind (·.get? name)

theorem described?_single {verb : String} (known : verb ∈ verbs) (kind kind' : String) (body : Json) :
    described? kind (single verb (single kind' body)) = if kind' = kind then some body else none := by
  have asked : ∀ v, ((single verb (single kind' body)).get? v).bind (·.get? kind) =
      if verb = v then if kind' = kind then some body else none else none := by
    intro v
    show (if verb = v then some (single kind' body) else none).bind _ = _
    split <;> rfl
  simp only [described?, asked]
  simp only [verbs, List.mem_cons, List.not_mem_nil, or_false] at known
  rcases known with rfl | rfl | rfl <;> by_cases same : kind' = kind <;> simp [verbs, same]

end Reading

section Commands

variable {sets : List AnonymousSet} {batch : Batch} {d : Declaration} {j doc : Json} {js : List Json}

/-- Every declaration was written, and the commands are those of the declarations that have one. -/
theorem mem_commands (written : commands sets batch = .ok js) :
    (∀ d ∈ batch, ∃ o, command sets d = .ok o) ∧
      ∀ j, j ∈ js ↔ ∃ d ∈ batch, command sets d = .ok (some j) := by
  induction batch generalizing js with
  | nil =>
    cases written
    simp
  | cons d ds ih =>
    rw [commands] at written
    cases here : command sets d with
    | error e =>
      rw [here] at written
      cases written
    | ok o =>
      rw [here] at written
      cases later : commands sets ds with
      | error e =>
        rw [later] at written
        cases written
      | ok js' =>
        rw [later] at written
        cases written
        obtain ⟨all, behind⟩ := ih later
        refine ⟨List.forall_mem_cons.mpr ⟨⟨o, here⟩, all⟩, fun j => ?_⟩
        rw [List.mem_append, behind, Option.mem_toList, List.exists_mem_cons_iff, here, Except.ok.injEq]

def formatVersion : Json := single "metainfo" (single "json_schema_version" (.nat 1))

/-- A document has the version of its format and the commands of the batch. -/
theorem mem_objects (rendered : document batch = .ok doc) :
    (∀ d ∈ batch, ∃ o, command (anonymousSets batch) d = .ok o) ∧
      ∀ entry, entry ∈ objects doc ↔ entry = formatVersion ∨
        ∃ d ∈ batch, ∃ j, command (anonymousSets batch) d = .ok (some j) ∧ entry = j.canonical := by
  rw [document] at rendered
  cases written : commands (anonymousSets batch) batch with
  | error e =>
    rw [written] at rendered
    cases rendered
  | ok js =>
    rw [written] at rendered
    cases rendered
    obtain ⟨all, there⟩ := mem_commands written
    refine ⟨all, fun entry => ?_⟩
    have entries : objects (single "nftables" (.array (formatVersion :: js))).canonical =
        (formatVersion :: js).map canonical := canonicalItems_eq _
    have version : formatVersion.canonical = formatVersion := rfl
    show entry ∈ objects (single "nftables" (.array (formatVersion :: js))).canonical ↔ _
    rw [entries, List.map_cons, List.mem_cons, version, List.mem_map]
    refine or_congr_right ⟨?_, ?_⟩
    · rintro ⟨j, hj, rfl⟩
      obtain ⟨d, hd, here⟩ := (there j).mp hj
      exact ⟨d, hd, j, here, rfl⟩
    · rintro ⟨d, hd, j, here, rfl⟩
      exact ⟨j, (there j).mpr ⟨d, hd, here⟩, rfl⟩

/-- A rule that is written adds a command about a rule, behind the handle of the rule that it is put in front
of. -/
theorem command_rule {rule : Rule} {o : Option Json} (placed : d.rule? = some rule)
    (written : command sets d = .ok o) :
    ∃ verb ∈ verbs, ∃ more body, (more = [] ∨ more.map Prod.fst = ["handle"]) ∧
      ruleBody sets rule more = .ok body ∧ o = some (single verb (single "rule" body)) := by
  cases d with
  | addRule r =>
    cases placed
    rw [command] at written
    split at written
    · rename_i body made
      cases written
      exact ⟨"add", by decide, [], body, .inl rfl, made, rfl⟩
    · cases written
  | insertRule r before =>
    cases placed
    unfold command at written
    dsimp only at written
    split at written
    · rename_i body made
      cases written
      refine ⟨"insert", by decide, _, body, ?_, made, rfl⟩
      cases before with
      | none => exact .inl rfl
      | some handle => exact .inr rfl
    · cases written
  | flushRuleset | addTable | addChain | addSet | addElements | deleteElements | deleteRule => cases placed

end Commands

section Names

variable {sets : List AnonymousSet} {d : Declaration} {j : Json} {set : MatchSet}

/-- A table is known by the words for its family and by its name. -/
theorem table_eq_iff {t t' : Table} :
    t = t' ↔ t.family.nftName = t'.family.nftName ∧ t.name = t'.name := by
  have families : ∀ f g : Family, f.nftName = g.nftName ↔ f = g := by
    intro f g
    cases f <;> cases g <;> decide
  cases t
  cases t'
  rw [families, Table.mk.injEq]

theorem namesSet_single {verb : String} (known : verb ∈ verbs) (kind : String) (body : Json) :
    NamesSet set (single verb (single kind body)) ↔ kind ∈ ["set", "element"] ∧
      stringAt? "family" body = some set.table.family.nftName ∧
      stringAt? "table" body = some set.table.name ∧ stringAt? "name" body = some set.name := by
  constructor
  · rintro ⟨kind', listed, body', found, named⟩
    rw [described?_single known] at found
    split at found
    · rename_i same
      cases found
      exact ⟨same ▸ listed, named⟩
    · cases found
  · rintro ⟨listed, named⟩
    exact ⟨kind, listed, body, by rw [described?_single known, if_pos rfl], named⟩

/-- An object that names a set names no other one. -/
theorem names_members {s : MatchSet} {ms : List (String × Json)} (once : (ms.map Prod.fst).Nodup)
    (family : stringAt? "family" (.object ms) = some s.table.family.nftName)
    (table : stringAt? "table" (.object ms) = some s.table.name)
    (name : stringAt? "name" (.object ms) = some s.name) :
    (stringAt? "family" (Json.object ms).canonical = some set.table.family.nftName ∧
      stringAt? "table" (Json.object ms).canonical = some set.table.name ∧
      stringAt? "name" (Json.object ms).canonical = some set.name) ↔
      (s.table, s.name) = (set.table, set.name) := by
  rw [stringAt?_canonical once, stringAt?_canonical once, stringAt?_canonical once, family, table, name]
  simp only [Option.some.injEq, Prod.mk.injEq, table_eq_iff, and_assoc]

/-- A command is about a set by its name exactly if its declaration is. -/
theorem namesSet_command (written : command sets d = .ok (some j)) :
    NamesSet set j.canonical ↔ d.setKey? = some (set.table, set.name) := by
  have other : ∀ {verb kind body}, verb ∈ verbs → kind ∉ ["set", "element"] →
      ¬ NamesSet set (single verb (single kind body)).canonical := by
    intro verb kind body known absent named
    exact absent ((namesSet_single known kind body.canonical).mp named).1
  have elements : ∀ (verb : String) (s : MatchSet) (es : List Element), verb ∈ verbs →
      (NamesSet set (single verb (single "element" (elementsBody s es))).canonical ↔
        some (s.table, s.name) = some (set.table, set.name)) := by
    intro verb s es known
    rw [Option.some.injEq]
    refine (namesSet_single known "element" (elementsBody s es).canonical).trans ?_
    rw [elementsBody, names_members (s := s) (by simp) rfl rfl rfl]
    exact and_iff_right (by decide)
  cases d with
  | flushRuleset =>
    cases written
    exact iff_of_false (by rintro ⟨kind, -, body, found, -⟩; cases found) (by rintro ⟨⟩)
  | addTable t =>
    cases written
    exact iff_of_false (other (by decide) (by decide)) (by rintro ⟨⟩)
  | addChain c =>
    cases written
    exact iff_of_false (other (by decide) (by decide)) (by rintro ⟨⟩)
  | addSet s es =>
    rw [command] at written
    split at written
    · cases written
    · cases written
      obtain ⟨ms, body, once, -⟩ := setBody_members s es
      refine (namesSet_single (by decide) "set" (setBody s es).canonical).trans ?_
      have family : stringAt? "family" (setBody s es) = some s.table.family.nftName := rfl
      have table : stringAt? "table" (setBody s es) = some s.table.name := rfl
      have name : stringAt? "name" (setBody s es) = some s.name := rfl
      rw [body] at family table name ⊢
      rw [names_members once family table name, Declaration.setKey?, Option.some.injEq]
      exact and_iff_right (by decide)
  | addElements s es =>
    cases written
    exact elements "add" s es (by decide)
  | deleteElements s es =>
    cases written
    exact elements "delete" s es (by decide)
  | addRule | insertRule =>
    obtain ⟨verb, known, more, body, -, -, same⟩ := command_rule rfl written
    cases same
    exact iff_of_false (other known (by decide)) (by rintro ⟨⟩)
  | deleteRule t chain handle =>
    cases written
    exact iff_of_false (other (by decide) (by decide)) (by rintro ⟨⟩)

/-- Only what introduces an anonymous set has no command. -/
theorem command_none {o : Option Json} (written : command sets d = .ok o) :
    o = none ↔ d.introducesAnonymous = true := by
  cases d with
  | addSet s es =>
    rw [command] at written
    split at written
    · rename_i anonymous
      cases written
      exact iff_of_true rfl anonymous
    · rename_i named
      cases written
      exact iff_of_false (by rintro ⟨⟩) named
  | addRule | insertRule =>
    obtain ⟨verb, -, more, body, -, -, rfl⟩ := command_rule rfl written
    exact iff_of_false (by rintro ⟨⟩) Bool.false_ne_true
  | flushRuleset | addTable | addChain | addElements | deleteElements | deleteRule =>
    cases written
    exact iff_of_false (by rintro ⟨⟩) Bool.false_ne_true

end Names

section Rules

variable {sets : List AnonymousSet} {d : Declaration} {j : Json} {t : Table} {statements : List Json}

/-- The members of a rule's body have names of their own, and the statements of its program are among them. -/
theorem ruleBody_members {rule : Rule} {more : List (String × Json)} {body : Json}
    (handle : more = [] ∨ more.map Prod.fst = ["handle"]) (written : ruleBody sets rule more = .ok body) :
    ∃ js ms, renderProgram rule.table sets rule.data.program = .ok js ∧ body = .object ms ∧
      (ms.map Prod.fst).Nodup ∧ stringAt? "family" (.object ms) = some rule.table.family.nftName ∧
      stringAt? "table" (.object ms) = some rule.table.name ∧
      (Json.object ms).get? "expr" = some (.array js) := by
  rw [ruleBody] at written
  split at written
  · cases written
  · rename_i js rendered
    cases written
    refine ⟨js, _, rendered, rfl, ?_, rfl, rfl, rfl⟩
    cases rule.data.id <;> rcases handle with e | e <;> simp [e]

/-- The statements of a rule stand in its command, in the order of its program. -/
theorem ruleStatements?_rule {verb : String} {rule : Rule} {more : List (String × Json)} {body : Json}
    (known : verb ∈ verbs) (handle : more = [] ∨ more.map Prod.fst = ["handle"])
    (written : ruleBody sets rule more = .ok body) :
    ∃ js, renderProgram rule.table sets rule.data.program = .ok js ∧
      ruleStatements? t (single verb (single "rule" body)).canonical =
        if rule.table = t then some (js.map canonical) else none := by
  obtain ⟨js, ms, rendered, rfl, once, family, table, exprs⟩ := ruleBody_members handle written
  refine ⟨js, rendered, ?_⟩
  have found : described? "rule" (single verb (single "rule" (.object ms))).canonical =
      some (Json.object ms).canonical :=
    (described?_single known "rule" "rule" (Json.object ms).canonical).trans (if_pos rfl)
  have items : ((Json.object ms).canonical.get? "expr").bind Json.items? = some (js.map canonical) := by
    rw [get?_canonical once, exprs]
    exact congrArg some (canonicalItems_eq js)
  rw [ruleStatements?, found, Option.bind_some, items, stringAt?_canonical once, stringAt?_canonical once,
    family, table]
  simp only [Option.some.injEq, ← table_eq_iff]

/-- The commands with statements of a table are those of the rules that are placed in it. -/
theorem ruleStatements?_command (written : command sets d = .ok (some j)) :
    ruleStatements? t j.canonical = some statements ↔ ∃ rule js, d.rule? = some rule ∧ rule.table = t ∧
      renderProgram rule.table sets rule.data.program = .ok js ∧ statements = js.map canonical := by
  have placed : ∀ {rule}, d.rule? = some rule →
      (ruleStatements? t j.canonical = some statements ↔ ∃ rule js, d.rule? = some rule ∧ rule.table = t ∧
        renderProgram rule.table sets rule.data.program = .ok js ∧ statements = js.map canonical) := by
    intro rule places
    obtain ⟨verb, known, more, body, handle, made, same⟩ := command_rule places written
    cases same
    obtain ⟨js, rendered, found⟩ := ruleStatements?_rule (t := t) known handle made
    rw [found]
    constructor
    · intro here
      split at here
      · cases here
        exact ⟨rule, js, places, ‹_›, rendered, rfl⟩
      · cases here
    · rintro ⟨rule', js', same, rfl, rendered', rfl⟩
      cases places.symm.trans same
      cases rendered.symm.trans rendered'
      rw [if_pos rfl]
  have other : d.rule? = none → ruleStatements? t j.canonical = none →
      (ruleStatements? t j.canonical = some statements ↔ ∃ rule js, d.rule? = some rule ∧ rule.table = t ∧
        renderProgram rule.table sets rule.data.program = .ok js ∧ statements = js.map canonical) := by
    intro nothing absent
    rw [absent, nothing]
    exact iff_of_false (by rintro ⟨⟩) (by rintro ⟨_, _, ⟨⟩, _⟩)
  cases d with
  | flushRuleset | addTable | addChain | addElements | deleteElements =>
    cases written
    exact other rfl rfl
  | addSet s es =>
    rw [command] at written
    split at written
    · cases written
    · cases written
      exact other rfl rfl
  | addRule | insertRule => exact placed rfl
  | deleteRule table chain handle =>
    cases written
    refine other rfl ?_
    rw [ruleStatements?, Option.bind_eq_none_iff]
    intro body found
    cases found
    exact ite_eq_right_iff.mpr fun _ => rfl

end Rules

section References

variable {table : Table} {sets : List AnonymousSet} {s s' : Slots} {op : Op} {program : Program} {pos : Nat}
  {js : List Json} {j left right : Json} {text : String}

/-- A number is written without an at sign. -/
theorem bigEndian_plain {data : List UInt8} (h : bigEndian data = .string text) : isReference text = false := by
  unfold bigEndian at h
  split at h
  · cases h
  · cases h
    rw [isReference, String.toList_ofList]
    rfl

/-- Only the name of an interface can read like the name of a set. -/
theorem value_plain {m : Meaning} {data : List UInt8} (h : m.value data = .string text) :
    isReference text = false ∨ m = .metaKey .inputInterface ∨ m = .metaKey .outputInterface := by
  cases m with
  | metaKey key =>
    cases key with
    | inputInterface => exact .inr (.inl rfl)
    | outputInterface => exact .inr (.inr rfl)
    | protocol => exact .inl (bigEndian_plain h)
    | netfilterFamily =>
      unfold Meaning.value at h
      dsimp only at h
      split at h
      · cases h
        exact .inl rfl
      · cases h
        exact .inl rfl
      · exact .inl (bigEndian_plain h)
  | ctState =>
    rw [Meaning.value, ctNames] at h
    split at h <;> cases h
  | address dir =>
    rw [Meaning.value, addressValue] at h
    split at h
    · cases h
      exact .inl (isReference_address _)
    · exact .inl (bigEndian_plain h)
  | protocol | port | icmpType | raw => exact .inl (bigEndian_plain h)

theorem side?_match (op : String) (left right : Json) :
    side? "left" (matchStatement op left right).canonical = some left.canonical ∧
      side? "right" (matchStatement op left right).canonical = some right.canonical := by
  have once : ([("op", Json.string op), ("left", left), ("right", right)].map Prod.fst).Nodup := by simp
  exact ⟨get?_canonical once, get?_canonical once⟩

theorem mem_renderOps (rendered : renderOps table sets pos s program = .ok js) (hj : j ∈ js) :
    ∃ op ∈ program, ∃ s₁ s₂ here, renderOp table sets s₁ op = .ok (here, s₂) ∧ j ∈ here := by
  induction program generalizing pos s js with
  | nil =>
    cases rendered
    cases hj
  | cons op ops ih =>
    rw [renderOps] at rendered
    split at rendered
    · cases rendered
    · rename_i here s₁ stepped
      split at rendered
      · rename_i rest later
        cases rendered
        rcases List.mem_append.mp hj with now | behind
        · exact ⟨op, List.mem_cons_self, s, s₁, here, stepped, now⟩
        · obtain ⟨op', hop, found⟩ := ih later behind
          exact ⟨op', List.mem_cons_of_mem op hop, found⟩
      · cases rendered

/-- A comparison with what reads like the name of a set is one of the name of an interface. -/
theorem compareStatement_reference {c : Comparison} {m : Meaning} {mask : Option (List UInt8)}
    {data : List UInt8} (read : isReference text = true)
    (right : side? "right" (compareStatement table.family.profile c m mask data).canonical =
      some (.string text)) :
    ∃ left, side? "left" (compareStatement table.family.profile c m mask data).canonical = some left ∧
      (fieldOf? table.family left = some (.metaKey .inputInterface) ∨
        fieldOf? table.family left = some (.metaKey .outputInterface)) := by
  have plain : ∀ {value : Json}, value = .string text → (value = .string text → isReference text = false) →
      False := by
    intro value same reads
    rw [reads same] at read
    cases read
  unfold compareStatement at right ⊢
  split at right
  · rw [(side?_match _ _ _).2, Option.some.injEq] at right
    refine ⟨_, (side?_match _ _ _).1, ?_⟩
    rcases value_plain (canonical_eq_string right) with other | rfl | rfl
    · rw [other] at read
      cases read
    · exact .inl (fieldOf?_expr table.family (m := .metaKey .inputInterface) rfl)
    · exact .inr (fieldOf?_expr table.family (m := .metaKey .outputInterface) rfl)
  · rw [(side?_match _ _ _).2, Option.some.injEq] at right
    cases canonical_eq_string right
  · split at right
    · rw [(side?_match _ _ _).2, Option.some.injEq] at right
      have value := canonical_eq_string right
      unfold ctNames at value
      split at value <;> cases value
    · rw [(side?_match _ _ _).2, Option.some.injEq] at right
      exact (plain (canonical_eq_string right) bigEndian_plain).elim
  · rw [(side?_match _ _ _).2, Option.some.injEq] at right
    exact (plain (canonical_eq_string right) bigEndian_plain).elim

/-- What reads like the name of a set stands in the statement of a lookup, or is the name of an interface. -/
theorem renderOp_reference (rendered : renderOp table sets s op = .ok (js, s')) (hj : j ∈ js)
    (read : isReference text = true) (right : side? "right" j.canonical = some (.string text)) :
    (∃ reg set invert, op = .lookup reg set invert ∧ lookupTarget sets table set.name = .string text) ∨
      ∃ left, side? "left" j.canonical = some left ∧
        (fieldOf? table.family left = some (.metaKey .inputInterface) ∨
          fieldOf? table.family left = some (.metaKey .outputInterface)) := by
  cases op with
  | load field reg =>
    cases rendered
    cases hj
  | immediate reg data =>
    cases rendered
    cases hj
  | bitwise source target length mask xor =>
    rw [renderOp] at rendered
    split at rendered
    · cases rendered
    · split at rendered <;> cases rendered
      cases hj
  | compare c reg data =>
    rw [renderOp] at rendered
    split at rendered <;> cases rendered
    cases List.mem_singleton.mp hj
    exact .inr (compareStatement_reference read right)
  | lookup reg set invert =>
    rw [renderOp] at rendered
    split at rendered <;> cases rendered
    cases List.mem_singleton.mp hj
    rw [(side?_match _ _ _).2, Option.some.injEq] at right
    exact .inl ⟨reg, set, invert, rfl, canonical_eq_string right⟩
  | nat kind family address port =>
    rw [renderOp, natStatement] at rendered
    split at rendered
    · cases rendered
    · split at rendered <;> cases rendered
      cases List.mem_singleton.mp hj
      cases kind <;> cases right
  | limit l =>
    cases rendered
    cases List.mem_singleton.mp hj
    cases right
  | counter =>
    cases rendered
    cases List.mem_singleton.mp hj
    cases right
  | verdict v =>
    cases rendered
    cases List.mem_singleton.mp hj
    cases v with
    | reject kind code => cases kind <;> cases family : table.family <;> rw [family] at right <;> cases right
    | accept | drop | jump | goto | ret | cont => cases right

end References

section Targets

variable {front back : Batch} {set : MatchSet} {elements : List Element}

/-- What a rule looks up is the anonymous set that was introduced last under the name. -/
theorem lookupTarget_last (anonymous : set.flags.anonymous = true)
    (last : ∀ d ∈ back, d.introducesAnonymous = true → d.setKey? ≠ some (set.table, set.name)) :
    lookupTarget (anonymousSets (front ++ .addSet set elements :: back)) set.table set.name =
      single "set" (elementValues set.keyType elements) := by
  have behind : (anonymousSets back).reverse.find? (fun s => s.table = set.table ∧ s.name = set.name) =
      none := by
    rw [List.find?_eq_none]
    intro s hs found
    obtain ⟨d, hd, introduced⟩ := List.mem_filterMap.mp (List.mem_reverse.mp hs)
    cases d with
    | addSet other es =>
      dsimp only at introduced
      split at introduced
      · rename_i hidden
        cases introduced
        obtain ⟨table, name⟩ := of_decide_eq_true found
        exact last _ hd hidden (congrArg some (Prod.ext table name))
      · cases introduced
    | flushRuleset | addTable | addChain | addElements | deleteElements | addRule | insertRule | deleteRule =>
      cases introduced
  have introduced : anonymousSets (.addSet set elements :: back) =
      ⟨set.table, set.name, set.keyType, elements⟩ :: anonymousSets back :=
    List.filterMap_cons_some (if_pos anonymous)
  have sets : anonymousSets (front ++ .addSet set elements :: back) =
      anonymousSets front ++ anonymousSets (.addSet set elements :: back) := List.filterMap_append
  have found : findAnonymous? (anonymousSets (front ++ .addSet set elements :: back)) set.table set.name =
      some ⟨set.table, set.name, set.keyType, elements⟩ := by
    rw [sets, introduced, findAnonymous?, List.reverse_append, List.reverse_cons, List.append_assoc,
      List.find?_append, behind]
    simp
  rw [lookupTarget, found]

end Targets

end Nft

section Holdings

/-- What an empty kernel has of a set when it has taken the declarations of a transaction. -/
theorem Pending.flush_set? {p p' : Pending Kernel} (empty : p.sink = .empty)
    (handed : flush p = (.ok (), p')) (t : Table) (name : String) :
    p'.sink.ruleset.set? t name = Ruleset.onSet t name p.transaction.batch none := by
  unfold flush at handed
  split at handed
  · rename_i nothing
    cases handed
    rw [List.isEmpty_iff.mp nothing, empty]
    rfl
  · cases taken : p.sink.commit p.transaction.batch with
    | mk result k =>
      have committed : Sink.commit p.transaction.batch p.sink = (result, k) := taken
      rw [committed] at handed
      cases handed
      have applied := Kernel.commit_ok taken
      rw [empty] at applied
      exact Ruleset.applyAll_set? Ruleset.ordered_empty applied t name

/-- A set that a batch names once holds what it was declared with, without repetitions. -/
theorem Kernel.elements_declared {k : Kernel} {front back : Batch} {set : MatchSet} {elements : List Element}
    (held : k.ruleset.set? set.table set.name =
      Ruleset.onSet set.table set.name (front ++ .addSet set elements :: back) none)
    (alone : ∀ d ∈ front ++ back, d.setKey? ≠ some (set.table, set.name))
    (kept : .flushRuleset ∉ back) : k.elements set = .ok (elements.eraseDupsBy Element.sameKey) := by
  have unnamed : ∀ {ds : Batch}, (∀ d ∈ ds, d.setKey? ≠ some (set.table, set.name)) →
      (set.table, set.name) ∉ ds.filterMap Declaration.setKey? := by
    intro ds other named
    obtain ⟨d, hd, same⟩ := List.mem_filterMap.mp named
    exact other d hd same
  have before := unnamed fun d hd => alone d (List.mem_append_left back hd)
  have behind := unnamed fun d hd => alone d (List.mem_append_right front hd)
  rw [Kernel.elements, held, Ruleset.onSet_introduced before behind kept, addElements_first]

end Holdings

/-- Wherever a rule of the batch looks up the set, the document has the elements in the place of its name; the
statements of the rule stand there in the order of its program. -/
def Nft.Inlines (doc : Json) (batch : Batch) (set : MatchSet) (elements : List Element) : Prop :=
  ∀ d ∈ batch, ∀ rule, d.rule? = some rule → rule.table = set.table →
    ∃ entry ∈ objects doc, ∃ statements, ruleStatements? set.table entry = some statements ∧
      ∀ f reg ref invert rest, rule.data.program = f ++ .lookup reg ref invert :: rest →
        ref.name = set.name → ∃ before behind x,
          renderProgram set.table (anonymousSets batch) f = .ok before ∧ Program.origin? f reg = some x ∧
          statements = before.map Json.canonical ++
            (matchStatement (Comparison.equal invert).symbol
              (Meaning.expr set.table.family.profile (.of set.table.family.profile x.field))
              (single "set" (elementValues set.keyType elements))).canonical :: behind

namespace Nft

variable {front back : Batch} {set : MatchSet} {elements : List Element} {doc : Json}
  (rendered : document (front ++ .addSet set elements :: back) = .ok doc)
  (anonymous : set.flags.anonymous = true)
  (last : ∀ d ∈ back, d.introducesAnonymous = true → d.setKey? ≠ some (set.table, set.name))
include rendered anonymous

/-- A set is named by the declarations that do not introduce it as an anonymous one, and by no others. -/
theorem document_namesSet : (∃ entry ∈ objects doc, NamesSet set entry) ↔
    ∃ d ∈ front ++ back, d.setKey? = some (set.table, set.name) ∧ d.introducesAnonymous = false := by
  obtain ⟨written, entries⟩ := mem_objects rendered
  constructor
  · rintro ⟨entry, listed, named⟩
    rcases (entries entry).mp listed with rfl | ⟨d, hd, j, here, rfl⟩
    · obtain ⟨kind, -, body, found, -⟩ := named
      cases found
    · have key := (namesSet_command here).mp named
      have shown : d.introducesAnonymous = false := by
        rw [← Bool.not_eq_true, ← command_none here]
        rintro ⟨⟩
      refine ⟨d, ?_, key, shown⟩
      rcases List.mem_append.mp hd with before | at'
      · exact List.mem_append_left back before
      · rcases List.mem_cons.mp at' with rfl | behind
        · cases shown.symm.trans anonymous
        · exact List.mem_append_right front behind
  · rintro ⟨d, hd, key, shown⟩
    have placed : d ∈ front ++ .addSet set elements :: back := by
      rcases List.mem_append.mp hd with before | behind
      · exact List.mem_append_left _ before
      · exact List.mem_append_right front (List.mem_cons_of_mem _ behind)
    obtain ⟨o, here⟩ := written d placed
    cases o with
    | none => cases shown.symm.trans ((command_none here).mp rfl)
    | some j =>
      exact ⟨j.canonical, (entries _).mpr (.inr ⟨d, placed, j, here, rfl⟩),
        (namesSet_command here).mpr key⟩

include last

theorem document_inlines : Inlines doc (front ++ .addSet set elements :: back) set elements := by
  obtain ⟨written, entries⟩ := mem_objects rendered
  intro d hd rule placed table
  obtain ⟨o, here⟩ := written d hd
  obtain ⟨verb, known, more, body, handle, made, rfl⟩ := command_rule placed here
  obtain ⟨js, program, -⟩ := ruleStatements?_rule (t := set.table) known handle made
  refine ⟨_, (entries _).mpr (.inr ⟨d, hd, _, here, rfl⟩), js.map Json.canonical,
    (ruleStatements?_command here).mpr ⟨rule, js, placed, table, program, rfl⟩, ?_⟩
  intro f reg ref invert rest split named
  rw [table] at program
  obtain ⟨before, behind, x, first, rfl, origin, -⟩ := renders_membership program split
  refine ⟨before, behind.map Json.canonical, x, first, origin, ?_⟩
  rw [named, lookupTarget_last anonymous last, List.map_append, List.map_cons]

/-- No rule refers to the set by its name, unless it names an interface like that. -/
theorem document_references {entry statement : Json} {statements : List Json} (listed : entry ∈ objects doc)
    (ruled : ruleStatements? set.table entry = some statements) (stands : statement ∈ statements)
    (right : side? "right" statement = some (.string ("@" ++ set.name))) :
    ∃ left, side? "left" statement = some left ∧
      (fieldOf? set.table.family left = some (.metaKey .inputInterface) ∨
        fieldOf? set.table.family left = some (.metaKey .outputInterface)) := by
  obtain ⟨-, entries⟩ := mem_objects rendered
  rcases (entries entry).mp listed with rfl | ⟨d, -, j, here, rfl⟩
  · cases ruled
  · obtain ⟨rule, js, -, table, program, rfl⟩ := (ruleStatements?_command here).mp ruled
    obtain ⟨j', hj, rfl⟩ := List.mem_map.mp stands
    obtain ⟨op, -, s₁, s₂, ops, stepped, inside⟩ := mem_renderOps program hj
    have read : isReference ("@" ++ set.name) = true := by
      rw [isReference, String.toList_append]
      rfl
    rcases renderOp_reference stepped inside read right with ⟨reg, ref, invert, -, target⟩ | named
    · -- A lookup of the set under its name has found its elements.
      rw [table] at target
      have same : ref.name = set.name := by
        rw [lookupTarget] at target
        split at target
        · cases target
        · exact (String.append_right_inj "@").mp (Json.string.inj target)
      rw [same, lookupTarget_last anonymous last] at target
      cases target
    · rwa [table] at named

end Nft

namespace TransactionRequest

/-- The anonymous sets of a transaction over an empty kernel, when its first flush has been accepted and its batch
can be written. Every lookup of such a set is written with the elements that it was introduced with last. These
are the elements that the kernel holds behind the batch, apart from repetitions, unless another declaration
names the set or the ruleset is flushed later. A command is about the set by its name exactly if there is such
a declaration that does not introduce an anonymous set; no statement refers to the set by its name, unless it
compares an interface with that text. -/
theorem anonymous_inlined {reqs : List TransactionRequest} {p' : Pending Kernel} {doc : Json}
    {front back : Batch} {set : MatchSet} {elements : List Element} (first : .flush ∉ reqs)
    (handed : Pending.flush (runAll reqs (.begin .empty)) = (.ok (), p'))
    (rendered : Nft.document (runAll reqs (.begin .empty)).transaction.batch = .ok doc)
    (declared : (runAll reqs (.begin .empty)).transaction.batch = front ++ .addSet set elements :: back)
    (anonymous : set.flags.anonymous = true)
    (last : ∀ d ∈ back, d.introducesAnonymous = true → d.setKey? ≠ some (set.table, set.name)) :
    Nft.Inlines doc (front ++ .addSet set elements :: back) set elements ∧
    ((∀ d ∈ front ++ back, d.setKey? ≠ some (set.table, set.name)) → .flushRuleset ∉ back →
      p'.sink.elements set = .ok (elements.eraseDupsBy Element.sameKey) ∧
      (Element.Distinct elements → p'.sink.elements set = .ok elements)) ∧
    ((∃ entry ∈ Nft.objects doc, Nft.NamesSet set entry) ↔
      ∃ d ∈ front ++ back, d.setKey? = some (set.table, set.name) ∧ d.introducesAnonymous = false) ∧
    ∀ entry ∈ Nft.objects doc, ∀ statements, Nft.ruleStatements? set.table entry = some statements →
      ∀ statement ∈ statements, Nft.side? "right" statement = some (.string ("@" ++ set.name)) →
        ∃ left, Nft.side? "left" statement = some left ∧
          (Nft.fieldOf? set.table.family left = some (.metaKey .inputInterface) ∨
            Nft.fieldOf? set.table.family left = some (.metaKey .outputInterface)) := by
  have held := Pending.flush_set? (runAll_sink first _) handed set.table set.name
  rw [declared] at rendered held
  refine ⟨Nft.document_inlines rendered anonymous last, fun alone kept => ?_,
    Nft.document_namesSet rendered anonymous, fun entry listed statements ruled statement stands right =>
      Nft.document_references rendered anonymous last listed ruled stands right⟩
  have holds := Kernel.elements_declared held alone kept
  exact ⟨holds, fun distinct => by rw [holds, eraseDups_distinct distinct]⟩

def webPorts : MatchSet :=
  { MatchSet.anonymous ⟨.ipv4, "filter"⟩ .inetService with id := 1, name := "__set1" }

def webElements : List Element := [.single (portBytes 80), .single (portBytes 443)]

def webRule : RuleData :=
  ⟨none, [.load (.payload .transport (portOffset .destination) portLength) ⟨1⟩, .lookup ⟨1⟩ webPorts.ref false,
    .verdict .accept], none, none⟩

def webRequests : List TransactionRequest :=
  let input : Chain := .filter webPorts.table .input .drop
  [.addTable webPorts.table, .addChain input, .addSet (.anonymous webPorts.table .inetService) webElements,
    .addRule input webRule]

theorem anonymous_inlined_web : ∃ p' doc,
    Pending.flush (runAll webRequests (.begin .empty)) = (.ok (), p') ∧
    Nft.document (runAll webRequests (.begin .empty)).transaction.batch = .ok doc ∧
    Nft.Inlines doc (runAll webRequests (.begin .empty)).transaction.batch webPorts webElements ∧
    p'.sink.elements webPorts = .ok webElements ∧
    ¬ ∃ entry ∈ Nft.objects doc, Nft.NamesSet webPorts entry := by
  have declared : (runAll webRequests (.begin .empty)).transaction.batch =
      [.addTable webPorts.table, .addChain (.filter webPorts.table .input .drop)] ++
        .addSet webPorts webElements :: [.addRule ⟨webPorts.table, "input", webRule⟩] := by
    decide +kernel
  have accepted : (Pending.flush (runAll webRequests (.begin .empty))).1 = .ok () := by decide +kernel
  have written : (Nft.document (runAll webRequests (.begin .empty)).transaction.batch).toOption.isSome = true :=
    by decide +kernel
  cases handed : Pending.flush (runAll webRequests (.begin .empty)) with
  | mk result p' =>
    rw [handed] at accepted
    cases accepted
    cases rendered : Nft.document (runAll webRequests (.begin .empty)).transaction.batch with
    | error e =>
      rw [rendered] at written
      cases written
    | ok doc =>
      obtain ⟨inline, held, named, -⟩ := anonymous_inlined (by decide) handed rendered declared rfl
        (by simp [Declaration.introducesAnonymous])
      have alone : ∀ d ∈ ([.addTable webPorts.table, .addChain (.filter webPorts.table .input .drop)] ++
          [.addRule ⟨webPorts.table, "input", webRule⟩] : Batch),
          d.setKey? ≠ some (webPorts.table, webPorts.name) := by
        simp [Declaration.setKey?]
      have distinct : (webElements.map Element.bounds).Nodup := by decide
      refine ⟨p', doc, rfl, rfl, declared ▸ inline, (held alone (by simp)).2 distinct, fun found => ?_⟩
      obtain ⟨d, hd, key, -⟩ := named.mp found
      exact alone d hd key

end TransactionRequest

end Firewall
