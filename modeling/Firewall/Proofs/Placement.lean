import Firewall.Proofs.Ruleset

namespace Firewall

/-- A list behind one change: some entries are gone, or a new one has come between the others. -/
inductive Shifts {α : Type} (new : α → Prop) (as : List α) : List α → Prop where
  | gone {bs : List α} (left : bs.Sublist as) : Shifts new as bs
  | come {front back : List α} {a : α} (split : as = front ++ back) (fresh : new a) :
    Shifts new as (front ++ a :: back)

namespace Shifts

variable {α β ε : Type} {new : α → Prop} {as bs : List α}

theorem refl (as : List α) : Shifts new as as := .gone (List.Sublist.refl as)

theorem first {a : α} (fresh : new a) : Shifts new as (a :: as) :=
  (.come rfl fresh : Shifts new as ([] ++ a :: as))

theorem behind (front : List α) (h : Shifts new as bs) : Shifts new (front ++ as) (front ++ bs) := by
  cases h with
  | gone left => exact .gone (left.append_left front)
  | come split fresh =>
    rw [split, ← List.append_assoc, ← List.append_assoc]
    exact .come rfl fresh

theorem before (back : List α) (h : Shifts new as bs) : Shifts new (as ++ back) (bs ++ back) := by
  cases h with
  | gone left => exact .gone (left.append_right back)
  | come split fresh =>
    rw [split, List.append_assoc, List.append_assoc]
    exact .come rfl fresh

theorem map {new' : β → Prop} (f : α → β) (hf : ∀ a, new a → new' (f a)) (h : Shifts new as bs) :
    Shifts new' (as.map f) (bs.map f) := by
  cases h with
  | gone left => exact .gone (left.map f)
  | come split fresh =>
    rw [split, List.map_append, List.map_append]
    exact .come rfl (hf _ fresh)

theorem imp {new' : α → Prop} (hn : ∀ a, new a → new' a) (h : Shifts new as bs) : Shifts new' as bs := by
  cases h with
  | gone left => exact .gone left
  | come split fresh => exact .come split (hn _ fresh)

theorem mem (h : Shifts new as bs) {b : α} (hb : b ∈ bs) : b ∈ as ∨ new b := by
  cases h with
  | gone left => exact .inl (left.mem hb)
  | come split fresh =>
    rw [split, List.mem_append]
    rcases List.mem_append.mp hb with early | late
    · exact .inl (.inl early)
    · rcases List.mem_cons.mp late with rfl | late
      · exact .inr fresh
      · exact .inl (.inr late)

/-- Keys stay apart if a new entry has a new key. -/
theorem nodup {key : α → β} (h : Shifts new as bs) (apart : (as.map key).Nodup)
    (other : ∀ a, new a → key a ∉ as.map key) : (bs.map key).Nodup := by
  cases h with
  | gone left => exact apart.sublist (left.map key)
  | come split fresh =>
    have absent := other _ fresh
    rw [split, List.map_append] at apart absent
    rw [List.map_append, List.map_cons]
    exact List.perm_middle.nodup_iff.mpr (List.nodup_cons.mpr ⟨absent, apart⟩)

/-- A change of one entry changes what all entries hold together as it changes what that entry holds. -/
theorem changeFirst {κ : Type} [DecidableEq κ] {key : α → κ} {k : κ} {missing : ε} {f : α → Except ε α}
    {held : α → List β} {new : β → Prop} (h : changeFirst (fun a => key a = k) missing f as = .ok bs)
    (step : ∀ a b, as.find? (fun a => key a = k) = some a → f a = .ok b → Shifts new (held a) (held b)) :
    Shifts new (as.flatMap held) (bs.flatMap held) := by
  induction as generalizing bs with
  | nil => cases h
  | cons a as ih =>
    rw [List.flatMap_cons]
    rcases changeFirst_cons h with ⟨here, b, made, rfl⟩ | ⟨elsewhere, cs, changed, rfl⟩
    · have found : (a :: as).find? (fun a => key a = k) = some a := List.find?_cons_of_pos here
      rw [List.flatMap_cons]
      exact (step a b found made).before _
    · have later : (a :: as).find? (fun a => key a = k) = as.find? fun a => key a = k :=
        List.find?_cons_of_neg (Bool.not_eq_true _ ▸ elsewhere)
      rw [List.flatMap_cons]
      exact (ih changed fun a' b found made => step a' b (later.trans found) made).behind _

end Shifts

def InstalledChain.placed (table : Table) (c : InstalledChain) : List Rule :=
  c.rules.map fun data => ⟨table, c.chain.name, data⟩

def InstalledTable.placed (t : InstalledTable) : List Rule :=
  t.chains.flatMap (InstalledChain.placed t.table)

def Ruleset.placed (r : Ruleset) : List Rule := r.tables.flatMap InstalledTable.placed

theorem insertBefore_shifts {handle : Nat} {rule : RuleData} {rules rules' : List RuleData}
    (h : insertBefore handle rule rules = .ok rules') : Shifts (· = rule) rules rules' := by
  induction rules generalizing rules' with
  | nil => cases h
  | cons first rest ih =>
    unfold insertBefore at h
    split at h
    · cases h
      exact .first rfl
    · split at h
      · rename_i behind inserted
        cases h
        exact (ih inserted).behind [first]
      · cases h

theorem deleteHandle_shifts {handle : Nat} {rules rules' : List RuleData} {new : RuleData → Prop}
    (h : deleteHandle handle rules = .ok rules') : Shifts new rules rules' := by
  unfold deleteHandle at h
  dsimp only at h
  split at h
  · cases h
  · cases h
    exact .gone List.filter_sublist

namespace InstalledTable

variable {t t' : InstalledTable} {name : String}

theorem changeRules_shifts {new : RuleData → Prop} {put : List RuleData → Except Rejection (List RuleData)}
    (shifts : ∀ rules rules', put rules = .ok rules' → Shifts new rules rules')
    (h : t.changeRules name put = .ok t') :
    Shifts (fun rule => ∃ data, new data ∧ rule = ⟨t.table, name, data⟩) t.placed t'.placed := by
  unfold changeRules at h
  split at h
  · rename_i chains changed
    cases h
    refine Shifts.changeFirst changed fun c c' found made => ?_
    have named : c.chain.name = name := by simpa using List.find?_some found
    split at made
    · rename_i rules done
      cases made
      exact (shifts c.rules rules done).map _ fun data fresh => ⟨data, fresh, by rw [named]⟩
    · cases made
  · cases h

theorem addChain_shifts {new : Rule → Prop} (chain : Chain) :
    Shifts new t.placed (t.addChain chain).placed := by
  unfold addChain
  split
  · rename_i chains changed
    refine Shifts.changeFirst changed fun c c' found made => ?_
    have named : c.chain.name = chain.name := by simpa using List.find?_some found
    cases made
    rw [InstalledChain.placed, InstalledChain.placed, named]
    exact .refl _
  · have same : ({ t with chains := t.chains ++ [⟨chain, []⟩] } : InstalledTable).placed = t.placed := by
      simp [placed, InstalledChain.placed]
    rw [same]
    exact .refl _

theorem missingSet?_none {sets : List SetRef} (h : t.missingSet? sets = none) :
    ∀ s ∈ sets, (t.set? s.name).isSome := by
  intro s hs
  have there := List.find?_eq_none.mp h s hs
  rw [Option.isSome_iff_ne_none]
  intro none
  exact there (by rw [none]; rfl)

end InstalledTable

namespace Ruleset

variable {r r' : Ruleset} {t : Table} {f : InstalledTable → Except Rejection InstalledTable}

/-- A rule that a change of the ruleset brings: its handle is the next one, its position is left open, and its
sets are there. -/
structure Brings (r r' : Ruleset) (rule : Rule) : Prop where
  handle : rule.data.handle = some r'.lastHandle
  next : r.lastHandle < r'.lastHandle
  position : rule.data.position = none
  sets : ∀ s ∈ rule.data.program.sets, (r.set? rule.table s.name).isSome

theorem table?_table {i : InstalledTable} (found : r.table? t = some i) : i.table = t := by
  unfold table? at found
  simpa using List.find?_some found

theorem changeTable_shifts {new : Rule → Prop} (h : r.changeTable t f = .ok r')
    (step : ∀ i j, r.table? t = some i → f i = .ok j → Shifts new i.placed j.placed) :
    Shifts new r.placed r'.placed := by
  unfold changeTable at h
  split at h
  · rename_i tables changed
    cases h
    exact Shifts.changeFirst changed step
  · cases h

theorem addTable_placed (t : Table) (is : List InstalledTable) :
    (addTable t is).flatMap InstalledTable.placed = is.flatMap InstalledTable.placed := by
  induction is with
  | nil => rfl
  | cons i is ih =>
    unfold addTable
    split
    · rfl
    · split
      · rfl
      · rw [List.flatMap_cons, List.flatMap_cons, ih]

theorem placeRule_shifts {rule : Rule} {put : RuleData → List RuleData → Except Rejection (List RuleData)}
    (shifts : ∀ data rules rules', put data rules = .ok rules' → Shifts (· = data) rules rules')
    (h : r.placeRule rule put = .ok r') : Shifts (r.Brings r') r.placed r'.placed := by
  unfold placeRule at h
  dsimp only at h
  split at h
  · rename_i r₁ placed
    cases h
    refine (changeTable_shifts placed fun i j found made => ?_ : Shifts _ r.placed r₁.placed)
    split at made
    · cases made
    · rename_i complete
      have table : i.table = rule.table := table?_table found
      refine (InstalledTable.changeRules_shifts (shifts _) made).imp fun new here => ?_
      obtain ⟨data, rfl, rfl⟩ := here
      rw [table]
      refine ⟨rfl, Nat.lt_succ_self _, rfl, fun s hs => ?_⟩
      rw [set?, found]
      exact InstalledTable.missingSet?_none complete s hs
  · cases h

/-- What a declaration makes of the installed rules. -/
theorem apply_shifts {d : Declaration} (h : r.apply d = .ok r') :
    Shifts (r.Brings r') r.placed r'.placed := by
  cases d with
  | flushRuleset =>
    cases h
    exact .gone (List.nil_sublist _)
  | addTable t =>
    cases h
    rw [placed, placed, addTable_placed]
    exact .refl _
  | addChain chain =>
    refine changeTable_shifts h fun i j _ made => ?_
    cases made
    exact InstalledTable.addChain_shifts chain
  | addSet set elements =>
    refine changeTable_shifts h fun i j _ made => ?_
    split at made
    · cases made
      exact .refl _
    · cases made
  | addElements | deleteElements =>
    refine changeTable_shifts h fun i j _ made => ?_
    obtain ⟨table, chains, -⟩ := InstalledTable.changeElements_ok made
    rw [InstalledTable.placed, InstalledTable.placed, table, chains]
    exact .refl _
  | addRule rule =>
    unfold apply at h
    refine placeRule_shifts (fun data rules rules' made => ?_) h
    cases made
    exact .come (List.append_nil rules).symm rfl
  | insertRule rule before =>
    cases before with
    | none =>
      unfold apply at h
      refine placeRule_shifts (fun data rules rules' made => ?_) h
      cases made
      exact .first rfl
    | some handle =>
      unfold apply at h
      exact placeRule_shifts (fun data rules rules' => insertBefore_shifts) h
  | deleteRule table chain handle =>
    refine changeTable_shifts h fun i j _ made => ?_
    have gone : Shifts (fun rule => ∃ data, False ∧ rule = ⟨i.table, chain, data⟩) i.placed j.placed :=
      InstalledTable.changeRules_shifts (fun _ _ => deleteHandle_shifts) made
    exact gone.imp fun rule ⟨_, never, _⟩ => never.elim

end Ruleset
end Firewall
