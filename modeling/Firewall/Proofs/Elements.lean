import Firewall.Proofs.Ruleset

namespace Firewall

namespace Element

/-- What two elements of a set cannot share. -/
def bounds (e : Element) : List UInt8 × Option (List UInt8) := (e.key, e.keyEnd)

theorem sameKey_iff {a b : Element} : a.sameKey b = true ↔ a.bounds = b.bounds := by
  simp [sameKey, bounds]

theorem any_sameKey {es : List Element} {e : Element} :
    es.any e.sameKey = true ↔ e.bounds ∈ es.map bounds := by
  rw [List.any_eq_true, List.mem_map]
  exact exists_congr fun d => and_congr_right fun _ => sameKey_iff.trans eq_comm

/-- No two elements have the same bounds. -/
def Distinct (es : List Element) : Prop := (es.map bounds).Nodup

theorem distinct_nil : Distinct [] := List.nodup_nil

end Element

open Element

variable {current new gone es : List Element} {e : Element}

theorem addElements_cons (current : List Element) (e : Element) (es : List Element) :
    addElements current (e :: es) =
      addElements (if e.bounds ∈ current.map bounds then current else current ++ [e]) es := by
  rw [addElements]
  congr 1
  exact ite_congr (propext any_sameKey) (fun _ => rfl) fun _ => rfl

theorem addElements_distinct (distinct : Distinct current) (new : List Element) :
    Distinct (addElements current new) := by
  induction new generalizing current with
  | nil => exact distinct
  | cons e es ih =>
    rw [addElements_cons]
    apply ih
    split
    · exact distinct
    · rename_i fresh
      have apart : ∀ b ∈ current.map bounds, ∀ b' ∈ [e].map bounds, b ≠ b' := by
        intro b hb b' hb'
        rw [List.mem_singleton.mp hb']
        exact fun same => fresh (same ▸ hb)
      rw [Distinct, List.map_append]
      exact List.nodup_append.mpr ⟨distinct, List.nodup_cons.mpr ⟨List.not_mem_nil, .nil⟩, apart⟩

/-- Behind what is there stands the first of the new elements under each of the other bounds. -/
theorem addElements_eq (current new : List Element) : addElements current new =
    current ++ (new.filter fun e => e.bounds ∉ current.map bounds).eraseDupsBy sameKey := by
  induction new generalizing current with
  | nil => simp [addElements]
  | cons e es ih =>
    rw [addElements_cons]
    by_cases there : e.bounds ∈ current.map bounds
    · rw [if_pos there, ih, List.filter_cons_of_neg (by simpa using there)]
    · have fresh : (es.filter fun d => d.bounds ∉ (current ++ [e]).map bounds) =
          (es.filter fun d => d.bounds ∉ current.map bounds).filter fun d => d.sameKey e = false := by
        rw [List.filter_filter]
        refine List.filter_congr fun d _ => ?_
        have same : d.sameKey e = decide (d.bounds = e.bounds) := by
          rw [Bool.eq_iff_iff, sameKey_iff, decide_eq_true_iff]
        simp [same, and_comm]
      rw [if_neg there, ih, List.filter_cons_of_pos (by simpa using there), List.eraseDupsBy_cons, fresh]
      simp

/-- Elements that are all new are added in order. -/
theorem addElements_fresh (distinct : Distinct (current ++ new)) :
    addElements current new = current ++ new := by
  induction new generalizing current with
  | nil => exact (List.append_nil current).symm
  | cons e es ih =>
    have fresh : e.bounds ∉ current.map bounds := by
      intro there
      rw [Distinct, List.map_append] at distinct
      exact (List.nodup_append.mp distinct).2.2 _ there _ List.mem_cons_self rfl
    have behind : current ++ e :: es = (current ++ [e]) ++ es := List.append_cons current e es
    rw [addElements_cons, if_neg fresh, behind]
    exact ih (behind ▸ distinct)

theorem addElements_nil (distinct : Distinct es) : addElements [] es = es := addElements_fresh distinct

theorem addElements_first (es : List Element) : addElements [] es = es.eraseDupsBy sameKey := by
  rw [addElements_eq, List.nil_append, List.filter_eq_self.mpr (by simp)]

theorem eraseDups_distinct (distinct : Distinct es) : es.eraseDupsBy sameKey = es := by
  rw [← addElements_first, addElements_nil distinct]

theorem removeElements_eq (current gone : List Element) :
    removeElements current gone = current.filter fun e => e.bounds ∉ gone.map bounds := by
  refine List.filter_congr fun e _ => ?_
  have there : (gone.any fun d => d.sameKey e) = decide (e.bounds ∈ gone.map bounds) := by
    rw [Bool.eq_iff_iff, List.any_eq_true, decide_eq_true_iff, List.mem_map]
    exact exists_congr fun d => and_congr_right fun _ => sameKey_iff
  rw [there, decide_not]

theorem removeElements_bounds (current gone : List Element) :
    (removeElements current gone).map bounds =
      (current.map bounds).filter fun b => decide (b ∉ gone.map bounds) := by
  rw [removeElements_eq, List.filter_map]
  rfl

theorem removeElements_distinct (distinct : Distinct current) (gone : List Element) :
    Distinct (removeElements current gone) :=
  List.Nodup.sublist (List.filter_sublist.map _) distinct

/-- Elements can be removed one after the other. -/
theorem removeElements_cons (current : List Element) (e : Element) (es : List Element) :
    removeElements current (e :: es) = removeElements (removeElements current [e]) es := by
  simp only [removeElements, List.filter_filter]
  refine List.filter_congr fun c _ => ?_
  simp [Bool.and_comm]

/-- What is not there is removed without a trace. -/
theorem removeElements_absent (absent : ∀ e ∈ gone, e.bounds ∉ current.map bounds) :
    removeElements current gone = current := by
  refine List.filter_eq_self.mpr fun c hc => ?_
  have kept : ∀ e ∈ gone, ¬ e.sameKey c = true := by
    intro e he same
    exact absent e he (sameKey_iff.mp same ▸ List.mem_map_of_mem hc)
  simpa using kept

namespace Ruleset

variable {r r' : Ruleset}

/-- No set of the ruleset holds two elements with the same bounds. -/
def Distinct (r : Ruleset) : Prop :=
  ∀ t name s, r.set? t name = some s → Element.Distinct s.elements

theorem apply_distinct {d : Declaration} (ordered : r.Ordered) (distinct : r.Distinct)
    (h : r.apply d = .ok r') : r'.Distinct := by
  intro t name s found
  rw [(apply_step ordered h).set?] at found
  -- A declaration of another set, or of none, has left this one alone.
  have changed : ∀ {f : List Element → List Element}, (∀ es, Element.Distinct es → Element.Distinct (f es)) →
      (r.set? t name).map (fun s => { s with elements := f s.elements }) = some s →
        Element.Distinct s.elements := by
    intro f keeps made
    obtain ⟨before, there, rfl⟩ := Option.map_eq_some_iff.mp made
    exact keeps _ (distinct t name before there)
  cases d with
  | flushRuleset => cases found
  | addTable | addChain | addRule | insertRule | deleteRule => exact distinct t name s found
  | addSet set elements =>
    rw [Declaration.onSet] at found
    split at found
    · cases found
      cases before : r.set? t name with
      | none => exact addElements_distinct distinct_nil elements
      | some s => exact addElements_distinct (distinct t name s before) elements
    · exact distinct t name s found
  | addElements set elements =>
    rw [Declaration.onSet] at found
    split at found
    · exact changed (fun _ once => addElements_distinct once elements) found
    · exact distinct t name s found
  | deleteElements set elements =>
    rw [Declaration.onSet] at found
    split at found
    · exact changed (fun _ once => removeElements_distinct once elements) found
    · exact distinct t name s found

theorem applyAll_distinct {index : Nat} {batch : Batch} (ordered : r.Ordered) (distinct : r.Distinct)
    (h : r.applyAll index batch = .ok r') : r'.Distinct :=
  (applyAll_keeps (I := fun r => r.Ordered ∧ r.Distinct)
    (fun _ ⟨ordered, distinct⟩ h => ⟨(apply_step ordered h).ordered, apply_distinct ordered distinct h⟩)
    ⟨ordered, distinct⟩ h).2

end Ruleset

end Firewall
