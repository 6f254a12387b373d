import Firewall.Proofs.Ruleset
import Firewall.Proofs.Transaction

namespace Firewall

/-- The elements of the sets of ports. -/
structure PortElements where
  trusted : List Element
  manager : List Element
  http : List Element
  smtp : List Element

namespace Layout

section Names

variable (c : Config)

@[simp] theorem ofConfig_trusted_name : (ofConfig c).trusted.name = "trust_ipset" := rfl

@[simp] theorem ofConfig_manager_name : (ofConfig c).manager.name = "manager_ipset" := rfl

@[simp] theorem ofConfig_forwarded_name : (ofConfig c).forwarded.name = "forward_ipset" := rfl

@[simp] theorem ofConfig_blacklist_name : (ofConfig c).blacklist.name = "blacklist_ipset" := rfl

@[simp] theorem ofConfig_trustedPorts_name : (ofConfig c).trustedPorts.name = "trust_ports" := rfl

@[simp] theorem ofConfig_managerPorts_name : (ofConfig c).managerPorts.name = "manager_ports" := rfl

theorem anonymousName_three : anonymousName 3 = "__set3" := by decide +kernel

theorem anonymousName_four : anonymousName 4 = "__set4" := by decide +kernel

end Names

/-- The elements that a configuration spells. -/
structure Spells (c : Config) (ports : PortElements) : Prop where
  trusted : Spec.elements .inetService true c.trustedPorts = .ok ports.trusted
  manager : Spec.elements .inetService true c.managerPorts = .ok ports.manager
  http : c.services.http = true → Spec.elements .inetService false httpSpecs = .ok ports.http
  smtp : c.services.smtp = true → Spec.elements .inetService false smtpSpecs = .ok ports.smtp

def number (n : Nat) (set : MatchSet) : MatchSet := { set with id := n, name := anonymousName n }

/-- The layout of a configuration with the sets of the filter table that stay after a cleanup
numbered. -/
def numberedFilter (c : Config) : Layout :=
  let l := ofConfig c
  { l with
    trusted := { l.trusted with id := 1 }
    trustedPorts := { l.trustedPorts with id := 2 }
    httpPorts := if c.services.http then number 3 l.httpPorts else l.httpPorts
    smtpPorts := if c.services.smtp then number (3 + c.services.http.toNat) l.smtpPorts
      else l.smtpPorts }

/-- The number of the first set that has none in the filter part of the layout. -/
def firstFree (c : Config) : Nat := 3 + c.services.http.toNat + c.services.smtp.toNat

/-- The layout of a configuration with all sets numbered in the order of their declaration. -/
def numbered (c : Config) : Layout :=
  let l := numberedFilter c
  let n := firstFree c
  { l with
    manager := { l.manager with id := n }
    forwarded := { l.forwarded with id := n + 1 }
    blacklist := { l.blacklist with id := n + 2 }
    managerPorts := { l.managerPorts with id := n + 3 } }

def filterDeclarations (l : Layout) (c : Config) (trusted : List Element) (ports : PortElements) :
    Batch :=
  [.addTable l.filter, .addChain l.input, .addChain l.forward, .addChain l.output,
    .addSet l.trusted trusted, .addSet l.trustedPorts ports.trusted] ++
  (if c.services.http then [.addSet l.httpPorts ports.http] else []) ++
  (if c.services.smtp then [.addSet l.smtpPorts ports.smtp] else [])

def declarations (l : Layout) (c : Config) (ports : PortElements) : Batch :=
  l.filterDeclarations c [] ports ++
  [.addSet l.manager [], .addSet l.forwarded [], .addSet l.blacklist [],
    .addSet l.managerPorts ports.manager, .addTable l.nat, .addChain l.postrouting]

section Declare

variable {σ : Type} [Sink σ] {p p' : Pending σ} {set set' : MatchSet} {specs : List String}

theorem declareSpecs_ok (named : set.name ≠ "") (h : declareSpecs set specs p = (.ok set', p')) :
    ∃ elements, set.elementsOfSpecs specs = .ok elements ∧
      set' = { set with id := p.transaction.nextSetId } ∧
      p' = { p with transaction := p.transaction.declare set' elements } := by
  unfold declareSpecs at h
  obtain ⟨elements, p₁, hread, rest⟩ := Action.bind_ok h
  obtain ⟨read, e⟩ := Action.ofExcept_ok hread
  rw [e] at rest
  obtain ⟨number, -, collected⟩ := Pending.addSet_ok named rest
  exact ⟨elements, read, number, collected⟩

theorem declareService_ok (reset : p.transaction.reset = true)
    (anonymous : set.flags.anonymous = true ∧ set.name = "")
    (fresh : (set.table, anonymousName p.transaction.nextSetId) ∉ p.transaction.declared)
    {wanted : Bool} (h : declareService wanted set specs p = (.ok set', p')) :
    ∃ elements, (wanted = true → set.elementsOfSpecs specs = .ok elements) ∧
      set' = (if wanted then number p.transaction.nextSetId set else set) ∧
      p' = { p with transaction := p.transaction.declareIf wanted set' elements } := by
  cases wanted with
  | false =>
    cases h
    exact ⟨[], fun wanted => absurd wanted Bool.false_ne_true, rfl, rfl⟩
  | true =>
    unfold declareService declareSpecs at h
    rw [if_pos rfl] at h
    obtain ⟨elements, p₁, hread, rest⟩ := Action.bind_ok h
    obtain ⟨read, e⟩ := Action.ofExcept_ok hread
    rw [e] at rest
    obtain ⟨number, -, collected⟩ := Pending.addSet_anonymous_ok reset anonymous fresh rest
    exact ⟨elements, fun _ => read, number, collected⟩

/-- The filter table behind a flush of the ruleset. -/
theorem declareFilter_ok {c : Config} {l : Layout} {trusted : List Element}
    (start : p.transaction.nextSetId = 1) (none : p.transaction.declared = [])
    (reset : p.transaction.reset = true)
    (h : (ofConfig c).declareFilter c trusted p = (.ok l, p')) :
    l = numberedFilter c ∧ l.trusted.checkElements trusted = .ok () ∧ p'.sink = p.sink ∧
      p'.transaction.reset = true ∧ p'.transaction.nextSetId = firstFree c ∧
      ∃ ports : PortElements,
        Spec.elements .inetService true c.trustedPorts = .ok ports.trusted ∧
        (c.services.http = true → Spec.elements .inetService false httpSpecs = .ok ports.http) ∧
        (c.services.smtp = true → Spec.elements .inetService false smtpSpecs = .ok ports.smtp) ∧
        p'.transaction.batch = p.transaction.batch ++ l.filterDeclarations c trusted ports ∧
        p'.transaction.declared =
          ((l.filterDeclarations c trusted ports).filterMap Declaration.setKey?).reverse := by
  obtain ⟨⟨batch, next, declared, flushed⟩, sink⟩ := p
  cases start
  cases none
  cases reset
  unfold declareFilter at h
  obtain ⟨_, p₁, hcollect, rest₁⟩ := Action.bind_ok h
  obtain rfl := Pending.collect_ok hcollect
  obtain ⟨trustedSet, p₂, htrusted, rest₂⟩ := Action.bind_ok rest₁
  obtain ⟨rfl, checked, rfl⟩ := Pending.addSet_ok (by simp) htrusted
  obtain ⟨trustedPorts, p₃, hports, rest₃⟩ := Action.bind_ok rest₂
  obtain ⟨portElements, readPorts, rfl, rfl⟩ := declareSpecs_ok (by simp) hports
  obtain ⟨httpPorts, p₄, hhttp, rest₄⟩ := Action.bind_ok rest₃
  obtain ⟨httpElements, readHttp, isHttp, rfl⟩ := declareService_ok rfl ⟨rfl, rfl⟩ (by
    simp [Transaction.push, Transaction.addTable, Transaction.addChain, anonymousName_three]) hhttp
  obtain ⟨smtpPorts, p₅, hsmtp, rest₅⟩ := Action.bind_ok rest₄
  obtain ⟨smtpElements, readSmtp, isSmtp, rfl⟩ := declareService_ok (by simp; rfl) ⟨rfl, rfl⟩ (by
    rw [isHttp]
    cases c.services.http <;> simp [Transaction.push, Transaction.addTable, Transaction.addChain,
      anonymousName_three, anonymousName_four, number]) hsmtp
  cases rest₅
  refine ⟨?_, checked, rfl, ?_, ?_, ⟨portElements, [], httpElements, smtpElements⟩, readPorts, readHttp,
    readSmtp, ?_, ?_⟩
  · rw [isHttp, isSmtp]
    simp [numberedFilter, Transaction.addTable, Transaction.addChain, Transaction.push]
  · simp [Transaction.addTable, Transaction.addChain, Transaction.push]
  · simp [firstFree, Transaction.addTable, Transaction.addChain, Transaction.push]
  · simp [filterDeclarations, Transaction.addTable, Transaction.addChain, Transaction.push]
  · unfold filterDeclarations
    cases c.services.http <;> cases c.services.smtp <;> rfl

/-- What declaring the whole policy collects. -/
theorem declareAll_ok {c : Config} {l : Layout} {sink : σ}
    (h : (ofConfig c).declareAll c (Pending.begin sink) = (.ok l, p')) :
    l = numbered c ∧ p'.sink = sink ∧ p'.transaction.reset = true ∧
      ∃ ports, Spells c ports ∧ p'.transaction.batch = .flushRuleset :: l.declarations c ports ∧
        p'.transaction.declared = ((l.declarations c ports).filterMap Declaration.setKey?).reverse := by
  unfold declareAll at h
  obtain ⟨_, p₁, hflush, rest₁⟩ := Action.bind_ok h
  obtain rfl := Pending.collect_ok hflush
  obtain ⟨declared, p₂, hfilter, rest₂⟩ := Action.bind_ok rest₁
  obtain ⟨isFilter, -, keeps, reset, next, ports, readTrusted, readHttp, readSmtp, batch, keys⟩ :=
    declareFilter_ok rfl rfl rfl hfilter
  obtain ⟨manager, p₃, hmanager, rest₃⟩ := Action.bind_ok rest₂
  obtain ⟨rfl, -, rfl⟩ := Pending.addSet_ok (by simp) hmanager
  obtain ⟨forwarded, p₄, hforwarded, rest₄⟩ := Action.bind_ok rest₃
  obtain ⟨rfl, -, rfl⟩ := Pending.addSet_ok (by simp) hforwarded
  obtain ⟨blacklist, p₅, hblacklist, rest₅⟩ := Action.bind_ok rest₄
  obtain ⟨rfl, -, rfl⟩ := Pending.addSet_ok (by simp) hblacklist
  obtain ⟨managerPorts, p₆, hports, rest₆⟩ := Action.bind_ok rest₅
  obtain ⟨elements, readManager, rfl, rfl⟩ := declareSpecs_ok (by simp) hports
  obtain ⟨_, p₇, hnat, rest₇⟩ := Action.bind_ok rest₆
  obtain rfl := Pending.collect_ok hnat
  cases rest₇
  refine ⟨?_, keeps, ?_, ⟨ports.trusted, elements, ports.http, ports.smtp⟩,
    ⟨readTrusted, readManager, readHttp, readSmtp⟩, ?_, ?_⟩
  · rw [isFilter]
    simp only [Transaction.declare_nextSetId, next]
    rfl
  · simp [reset, Transaction.addTable, Transaction.addChain, Transaction.push]
  · rw [isFilter] at batch ⊢
    simp [declarations, filterDeclarations, batch, Transaction.addTable, Transaction.addChain,
      Transaction.push]
    rfl
  · rw [declarations, List.filterMap_append, List.reverse_append]
    have filter : p₂.transaction.declared = _ := keys
    simp only [Transaction.addTable, Transaction.addChain, Transaction.push, Transaction.declare_declared,
      filter]
    rw [isFilter]
    rfl

theorem filterDeclarations_spelled {c : Config} {ports ports' : PortElements} (spells : Spells c ports)
    (readTrusted : Spec.elements .inetService true c.trustedPorts = .ok ports'.trusted)
    (readHttp : c.services.http = true → Spec.elements .inetService false httpSpecs = .ok ports'.http)
    (readSmtp : c.services.smtp = true → Spec.elements .inetService false smtpSpecs = .ok ports'.smtp)
    (l : Layout) (trusted : List Element) :
    l.filterDeclarations c trusted ports' = l.filterDeclarations c trusted ports := by
  have sameTrusted := Except.ok.inj (readTrusted.symm.trans spells.trusted)
  have sameHttp : (if c.services.http then [Declaration.addSet l.httpPorts ports'.http] else []) =
      if c.services.http then [.addSet l.httpPorts ports.http] else [] := by
    split
    · rename_i wanted
      rw [Except.ok.inj ((readHttp wanted).symm.trans (spells.http wanted))]
    · rfl
  have sameSmtp : (if c.services.smtp then [Declaration.addSet l.smtpPorts ports'.smtp] else []) =
      if c.services.smtp then [.addSet l.smtpPorts ports.smtp] else [] := by
    split
    · rename_i wanted
      rw [Except.ok.inj ((readSmtp wanted).symm.trans (spells.smtp wanted))]
    · rfl
  rw [filterDeclarations, filterDeclarations, sameTrusted, sameHttp, sameSmtp]

/-- What declaring the reduced policy collects. -/
theorem declareReduced_ok {c : Config} {l : Layout} {trusted : List Element} {sink : σ}
    {ports : PortElements} (spells : Spells c ports)
    (h : (ofConfig c).declareReduced c trusted (Pending.begin sink) = (.ok l, p')) :
    l = numberedFilter c ∧ l.trusted.checkElements trusted = .ok () ∧ p'.sink = sink ∧
      p'.transaction.reset = true ∧
      p'.transaction.batch = .flushRuleset :: l.filterDeclarations c trusted ports ∧
      p'.transaction.declared =
        ((l.filterDeclarations c trusted ports).filterMap Declaration.setKey?).reverse := by
  unfold declareReduced at h
  obtain ⟨_, p₁, hflush, rest⟩ := Action.bind_ok h
  obtain rfl := Pending.collect_ok hflush
  obtain ⟨isFilter, checked, keeps, reset, -, ports', readTrusted, readHttp, readSmtp, batch, keys⟩ :=
    declareFilter_ok rfl rfl rfl rest
  have same := filterDeclarations_spelled spells readTrusted readHttp readSmtp l trusted
  rw [same] at batch keys
  exact ⟨isFilter, checked, keeps, reset, batch, keys⟩

end Declare

section Views

variable {c : Config} {ports : PortElements}

theorem declarations_noFlush : .flushRuleset ∉ (numbered c).declarations c ports := by
  unfold declarations filterDeclarations
  cases c.services.http <;> cases c.services.smtp <;> simp

theorem numbered_httpPorts (wanted : c.services.http = true) :
    ((numbered c).httpPorts.table, (numbered c).httpPorts.name) = (c.filterTable, "__set3") := by
  simp [numbered, numberedFilter, wanted, number, anonymousName_three, ofConfig,
    MatchSet.anonymous, MatchSet.ofKeyType]

theorem numbered_smtpPorts (wanted : c.services.smtp = true) :
    ((numbered c).smtpPorts.table, (numbered c).smtpPorts.name) =
      (c.filterTable, if c.services.http then "__set4" else "__set3") := by
  cases h : c.services.http <;>
    simp [numbered, numberedFilter, wanted, h, number, anonymousName_three, anonymousName_four,
      ofConfig, MatchSet.anonymous, MatchSet.ofKeyType]

/-- Every set is declared once. -/
theorem declarations_setKeys :
    (((numbered c).declarations c ports).filterMap Declaration.setKey?).Nodup := by
  have keys : ((numbered c).declarations c ports).filterMap Declaration.setKey? =
      [(c.filterTable, "trust_ipset"), (c.filterTable, "trust_ports")] ++
      (if c.services.http then [(c.filterTable, "__set3")] else []) ++
      (if c.services.smtp then [(c.filterTable, if c.services.http then "__set4" else "__set3")]
        else []) ++
      [(c.filterTable, "manager_ipset"), (c.filterTable, "forward_ipset"),
        (c.filterTable, "blacklist_ipset"), (c.filterTable, "manager_ports")] := by
    unfold declarations filterDeclarations
    simp only [List.filterMap_append]
    congr 1
    · congr 1
      · congr 1
        · split
          · rename_i wanted
            rw [← numbered_httpPorts wanted]
            rfl
          · rfl
      · split
        · rename_i wanted
          rw [← numbered_smtpPorts wanted]
          rfl
        · rfl
  rw [keys]
  cases c.services.http <;> cases c.services.smtp <;> simp

/-- Every chain is declared once. -/
theorem declarations_chainKeys :
    (((numbered c).declarations c ports).filterMap Declaration.chainKey?).Nodup := by
  have keys : ((numbered c).declarations c ports).filterMap Declaration.chainKey? =
      [(c.filterTable, "input"), (c.filterTable, "forward"), (c.filterTable, "output"),
        (c.natTable, "postrouting")] := by
    unfold declarations filterDeclarations
    cases c.services.http <;> cases c.services.smtp <;> rfl
  rw [keys]
  simp

end Views

end Layout
end Firewall
