import Firewall.Proofs.SetUpdate

namespace Firewall

open Element

/-- The element with a time to expire, or with none. -/
def Element.lasting (timeout : Option Duration) (e : Element) : Element := { e with timeout }

section Elements

variable {current new old parsed : List Element} {e d : Element} {timeout : Option Duration}

@[simp] theorem Element.lasting_bounds (timeout : Option Duration) (e : Element) :
    (e.lasting timeout).bounds = e.bounds := rfl

/-- Where the bounds tell new elements apart, those whose bounds are not there yet are added. -/
theorem mem_addElements_iff (one : ∀ a ∈ new, ∀ b ∈ new, a.bounds = b.bounds → a = b) :
    e ∈ addElements current new ↔ e ∈ current ∨ e ∈ new ∧ e.bounds ∉ current.map bounds := by
  induction new generalizing current with
  | nil => simp [addElements]
  | cons d ds ih =>
    have rest : ∀ a ∈ ds, ∀ b ∈ ds, a.bounds = b.bounds → a = b := fun a ha b hb =>
      one a (List.mem_cons_of_mem d ha) b (List.mem_cons_of_mem d hb)
    have head : e ∈ ds → e.bounds = d.bounds → e = d := fun he =>
      one e (List.mem_cons_of_mem d he) d List.mem_cons_self
    rw [addElements_cons, ih rest]
    by_cases there : d.bounds ∈ current.map bounds
    · rw [if_pos there]
      have absent : e = d → e.bounds ∈ current.map bounds := fun same => same ▸ there
      grind
    · rw [if_neg there]
      have absent : e = d → e.bounds ∉ current.map bounds := fun same => same ▸ there
      simp only [List.map_append, List.mem_append, List.map_cons, List.map_nil, List.mem_cons]
      grind

/-- The blacklist behind a ban. -/
def bannedElements (timeout : Option Duration) (old parsed : List Element) : List Element :=
  changedElements old [] (parsed.map (lasting timeout))

theorem mem_bannedElements : d ∈ bannedElements timeout old parsed ↔
    d ∈ old ∨ (∃ e ∈ parsed, e.lasting timeout = d) ∧ d.bounds ∉ old.map bounds := by
  have all : removeElements old [] = old := removeElements_absent fun e he => absurd he List.not_mem_nil
  rw [bannedElements, changedElements_eq, all, mem_addElements_iff, List.mem_map]
  -- Bans of one call last equally long.
  intro a ha b hb same
  obtain ⟨a, -, rfl⟩ := List.mem_map.mp ha
  obtain ⟨b, -, rfl⟩ := List.mem_map.mp hb
  obtain ⟨key, last⟩ := Prod.mk.inj same
  exact Element.mk.injEq .. |>.mpr ⟨key, last, rfl⟩

/-- A source that is to be banned is on the blacklist then, and for the time that was asked for unless it was
there for another one. -/
theorem bannedElements_lasts (he : e ∈ parsed) :
    (∃ d ∈ bannedElements timeout old parsed, d.bounds = e.bounds) ∧
      (e.lasting timeout ∈ bannedElements timeout old parsed ↔
        (e.bounds ∈ old.map bounds → e.lasting timeout ∈ old)) := by
  have asked : ∃ d ∈ parsed, d.lasting timeout = e.lasting timeout := ⟨e, he, rfl⟩
  constructor
  · by_cases there : e.bounds ∈ old.map bounds
    · obtain ⟨d, hd, same⟩ := List.mem_map.mp there
      exact ⟨d, mem_bannedElements.mpr (.inl hd), same⟩
    · exact ⟨e.lasting timeout, mem_bannedElements.mpr (.inr ⟨asked, there⟩), rfl⟩
  · rw [mem_bannedElements, lasting_bounds]
    constructor
    · rintro (before | ⟨-, fresh⟩) there
      · exact before
      · exact absurd there fresh
    · intro kept
      by_cases there : e.bounds ∈ old.map bounds
      · exact .inl (kept there)
      · exact .inr ⟨asked, there⟩

end Elements

/-- What specifications spell does not expire by itself. -/
theorem Spec.elements_lasting {keyType : KeyType} {interval : Bool} {specs : List String} {es : List Element}
    (read : Spec.elements keyType interval specs = .ok es) : es.map (lasting none) = es := by
  refine (List.map_congr_left fun e he => ?_).trans (List.map_id es)
  obtain ⟨first, last, rfl, -, -, -⟩ := (Spec.elements_spells read e he).bounds
  unfold Element.range
  split <;> rfl

/-- Elements of a set with timeouts pass its check however long they last. -/
theorem MatchSet.checkElements_lasting {set : MatchSet} {es : List Element} (expires : set.flags.timeout = true)
    (checked : set.checkElements es = .ok ()) (timeout : Option Duration) :
    set.checkElements (es.map (lasting timeout)) = .ok () := by
  refine checkElements_ok.mpr fun d hd => ?_
  obtain ⟨e, he, rfl⟩ := List.mem_map.mp hd
  obtain ⟨width, range, -⟩ := checkElement_ok.mp (checkElements_ok.mp checked e he)
  exact checkElement_ok.mpr ⟨width, range, by simp [expires]⟩

/-- Only on the blacklist elements can expire. -/
theorem Layout.Of.expires {config : Config} {l : Layout} (of : Layout.Of config l) :
    l.blacklist.flags.timeout = true := by
  cases of <;> rfl

namespace Controller

variable {config : Config} {c c' : Controller Kernel} {specs : List String} {timeout : Option Duration}
  {parsed : List Element}

/-- A ban that gets as far as the kernel. -/
theorem ban_eq (applied : c.applied = true)
    (entered : Namespace.Entered c.host.namespaces c.config.networkNamespace)
    (left : Namespace.Left c.host.namespaces c.config.networkNamespace)
    (there : ∃ s, c.sink.ruleset.set? c.layout.blacklist.table c.layout.blacklist.name = some s)
    (expires : c.layout.blacklist.flags.timeout = true)
    (checked : checkSpecs .blacklist c.config.family specs = .ok ())
    (read : c.layout.blacklist.elementsOfSpecs specs = .ok parsed) :
    ban specs timeout c = ((c.sink.change c.layout.blacklist [] (parsed.map (lasting timeout))).1,
      { c with sink := (c.sink.change c.layout.blacklist [] (parsed.map (lasting timeout))).2 }) := by
  have first : Action.ofExcept (c.layout.blacklist.elementsOfSpecs specs) c = (.ok parsed, c) := by
    rw [read]
    rfl
  have present : ¬ (!c.applied) = true := by simp [applied]
  have nothing : c.layout.blacklist.checkElements [] = .ok () := rfl
  have taken := transact_change there nothing
    (MatchSet.checkElements_lasting expires (MatchSet.specs_checked read) timeout)
  unfold ban
  rw [if_neg present, checked]
  dsimp only
  rw [inNamespace, Namespace.run_of_left entered left, Action.bind_eq first]
  cases timeout with
  | some d => exact taken
  | none =>
    rw [Spec.elements_lasting read] at taken ⊢
    exact taken

/-- A ban that is done has got there. -/
theorem ban_done (applied : c.applied = true) (done : ban specs timeout c = (.ok (), c')) :
    Namespace.Entered c.host.namespaces c.config.networkNamespace ∧
      Namespace.Left c.host.namespaces c.config.networkNamespace ∧
      checkSpecs .blacklist c.config.family specs = .ok () ∧
      ∃ parsed, c.layout.blacklist.elementsOfSpecs specs = .ok parsed := by
  unfold ban at done
  rw [applied, Bool.not_true, if_neg Bool.false_ne_true] at done
  split at done
  · cases done
  · rename_i checked
    obtain ⟨inside, entered, left⟩ := Namespace.run_ok done
    obtain ⟨parsed, c₁, first, -⟩ := Action.bind_ok inside
    exact ⟨entered, left, checked, parsed, (Action.ofExcept_ok first).1⟩

/-- A ban that is done puts every source on the blacklist, with the time that was asked for exactly if the
source was not there for another time: then it stays for that one. All others stay as they are, and so does
everything else. -/
theorem ban_effect (reached : Reached config c) (applied : c.applied = true)
    (done : ban specs timeout c = (.ok (), c')) :
    ∃ old parsed, Spec.elements config.family.keyType true specs = .ok parsed ∧
      c.sink.elements c.layout.blacklist = .ok old ∧
      c'.sink.elements c.layout.blacklist = .ok (bannedElements timeout old parsed) ∧
      (∀ d, d ∈ bannedElements timeout old parsed ↔
        d ∈ old ∨ (∃ e ∈ parsed, e.lasting timeout = d) ∧ d.bounds ∉ old.map bounds) ∧
      (∀ e ∈ parsed, (∃ d ∈ bannedElements timeout old parsed, d.bounds = e.bounds) ∧
        (e.lasting timeout ∈ bannedElements timeout old parsed ↔
          (e.bounds ∈ old.map bounds → e.lasting timeout ∈ old))) ∧
      c' = { c with sink := if specs = [] then c.sink else { c.sink with
        ruleset := c.sink.ruleset.mapElements c.layout.blacklist fun es => bannedElements timeout es parsed
        commits := c.sink.commits + 1
        lastBatch := changeBatch c.layout.blacklist [] (parsed.map (lasting timeout)) } } := by
  obtain ⟨s, there⟩ := reached.address_found applied .blacklist
  have found : c.sink.ruleset.set? c.layout.blacklist.table c.layout.blacklist.name = some s := there
  have ordered := reached.equipped.ordered
  obtain ⟨rfl, -, layout, -⟩ := reached.kept
  obtain ⟨entered, left, checked, parsed, read⟩ := ban_done applied done
  rw [ban_eq applied entered left ⟨s, found⟩ layout.expires checked read] at done
  obtain ⟨ok, state⟩ := Prod.mk.inj done
  have change : c.sink.change c.layout.blacklist [] (parsed.map (lasting timeout)) = (.ok (), c'.sink) :=
    Prod.ext ok (by rw [← state])
  have spelled : Spec.elements c.config.family.keyType true specs = .ok parsed :=
    (layout.elementsOfSpecs .blacklist specs).symm.trans read
  have nothing : ([] : List Element) = [] ∧ parsed.map (lasting timeout) = [] ↔ specs = [] := by
    rw [List.map_eq_nil_iff, Spec.elements_eq_nil spelled]
    simp
  refine ⟨s.elements, parsed, spelled, by rw [Kernel.elements, found],
    Kernel.change_elements ordered found change, fun d => mem_bannedElements,
    fun e he => bannedElements_lasts he, ?_⟩
  have made := Kernel.change_ok ordered found change
  rw [if_congr nothing rfl rfl] at made
  have whole : c' = { c with sink := c'.sink } := by rw [← state]
  refine whole.trans ?_
  rw [made]
  rfl

def warned : Controller Kernel :=
  Event.runAll [.run .apply, .run (.ban ["198.51.100.7"] (some (.ofSeconds 60)))] gateway

theorem warned_reached : Reached gateway.config warned := (Reached.first (start_fresh gateway_started)).runAll _

/-- A ban without end adds the one source and leaves the other on the blacklist for its minute. -/
theorem ban_effect_warned :
    warned.applied = true ∧ Reached gateway.config warned ∧
      ∃ c', ban ["198.51.100.7", "198.51.100.9"] none warned = (.ok (), c') ∧
        c'.sink.elements warned.layout.blacklist =
          .ok [(Element.single [198, 51, 100, 7]).lasting (some (.ofSeconds 60)), .single [198, 51, 100, 9]] := by
  have facts : warned.applied = true ∧
      warned.sink.elements warned.layout.blacklist =
        .ok [(Element.single [198, 51, 100, 7]).lasting (some (.ofSeconds 60))] ∧
      (ban ["198.51.100.7", "198.51.100.9"] none warned).1 = .ok () := by decide +kernel
  obtain ⟨applied, held, ok⟩ := facts
  have read : Spec.elements gateway.config.family.keyType true ["198.51.100.7", "198.51.100.9"] =
      .ok [.single [198, 51, 100, 7], .single [198, 51, 100, 9]] := by decide +kernel
  cases done : ban ["198.51.100.7", "198.51.100.9"] none warned with
  | mk r c' =>
    rw [done] at ok
    cases ok
    obtain ⟨old, parsed, spelled, before, after, -⟩ := ban_effect warned_reached applied done
    cases held.symm.trans before
    cases read.symm.trans spelled
    exact ⟨applied, warned_reached, c', rfl, after.trans (by decide)⟩

end Controller

end Firewall
