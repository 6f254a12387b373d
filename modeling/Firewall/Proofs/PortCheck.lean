import Firewall.Proofs.Runs
import Firewall.Proofs.SpecMeaning

namespace Firewall

open Text

theorem Element.port?_portBytes (p : UInt16) : port? (portBytes p) = some p := by
  have number : Bytes.toNat (portBytes p) = p.toNat := Bytes.toNat_ofNat_of_lt p.toNat_lt
  rw [port?, if_pos (portBytes_length p), number, UInt16.ofNat_toNat]

/-- The bounds of a range of ports are read back. -/
theorem Element.portBounds?_range (low high : UInt16) :
    (range (portBytes low) (portBytes high)).portBounds? = some (low, high) := by
  unfold range
  split
  · rename_i same
    simp [portBounds?, single, port?_portBytes, portBytes_inj.mp same]
  · simp [portBounds?, port?_portBytes]

namespace Input

open Spec

theorem one_le_iff {p : UInt16} : 1 ≤ p ↔ p ≠ 0 := by
  rw [UInt16.le_iff_toNat_le, ← UInt16.toNat_inj.ne]
  exact Nat.one_le_iff_ne_zero

/-- An element is the range that a specification has been checked as. -/
def Validated (spec : String) (e : Element) : Prop := ∃ ports, portSpec spec = .ok ports ∧ e.portBounds? = some ports

theorem readPort_iff {spec : String} {es : List Element} :
    elements .inetService true [spec] = .ok es ↔ ∃ low high, ends? port? spec.toList = some (low, high) ∧ low ≤ high ∧
      es = [.range (portBytes low) (portBytes high)] := by
  constructor
  · intro read
    obtain ⟨e, rest, first, last, rfl⟩ := readAll_cons read
    cases last
    obtain ⟨low, high, named, ordered, rfl⟩ := portElement_ok_iff.mp first
    exact ⟨low, high, named, ordered, rfl⟩
  · rintro ⟨low, high, named, ordered, rfl⟩
    have first : portElement true spec = .ok (.range (portBytes low) (portBytes high)) :=
      portElement_ok_iff.mpr ⟨low, high, named, ordered, rfl⟩
    rw [elements, readAll, element_ports, first]
    rfl

/-- Elements of specifications that have passed the check are the ranges they were checked as. -/
theorem elements_validated {specs : List String} {es : List Element}
    (valid : ∀ s ∈ specs, ∃ ports, portSpec s = .ok ports) (read : elements .inetService true specs = .ok es) :
    List.Forall₂ Validated specs es := by
  induction specs generalizing es with
  | nil =>
    cases read
    exact .nil
  | cons spec specs ih =>
    obtain ⟨e, rest, first, later, rfl⟩ := readAll_cons read
    obtain ⟨⟨ports, taken⟩, others⟩ := List.forall_mem_cons.mp valid
    rw [element_ports, portElement_of_portSpec taken] at first
    cases first
    exact .cons ⟨ports, taken, Element.portBounds?_range ports.1 ports.2⟩ (ih others later)

/-- A specification passes the check as the ports from `low` to `high` exactly if a set of ports with the
interval flag reads it as one element with these bounds and `low` is not zero; what such a set reads is refused
by the check for port zero only. The sets of a policy read the ports of a valid configuration, each as the range
that it was checked as. -/
theorem portSpec_agrees :
    (∀ (spec : String) (low high : UInt16), portSpec spec = .ok (low, high) ↔
      ∃ e, elements .inetService true [spec] = .ok [e] ∧ e.portBounds? = some (low, high) ∧ 1 ≤ low) ∧
    (∀ (spec : String) (es : List Element), elements .inetService true [spec] = .ok es →
      ∃ e low high, es = [e] ∧ e.portBounds? = some (low, high) ∧
        portSpec spec = if low = 0 then .error .portZero else .ok (low, high)) ∧
    ∀ config : Config, config.validate = .ok () → ∃ trusted manager,
      (Layout.ofConfig config).trustedPorts.elementsOfSpecs config.trustedPorts = .ok trusted ∧
      List.Forall₂ Validated config.trustedPorts trusted ∧
      (Layout.ofConfig config).managerPorts.elementsOfSpecs config.managerPorts = .ok manager ∧
      List.Forall₂ Validated config.managerPorts manager := by
  refine ⟨fun spec low high => ⟨fun taken => ?_, ?_⟩, fun spec es read => ?_, fun config valid => ?_⟩
  · obtain ⟨named, ordered, positive⟩ := portSpec_ok_iff.mp taken
    exact ⟨_, readPort_iff.mpr ⟨low, high, named, ordered, rfl⟩, Element.portBounds?_range low high,
      one_le_iff.mpr positive⟩
  · rintro ⟨e, read, bounds, positive⟩
    obtain ⟨low', high', named, ordered, same⟩ := readPort_iff.mp read
    cases same
    rw [Element.portBounds?_range] at bounds
    cases bounds
    exact portSpec_ok_iff.mpr ⟨named, ordered, one_le_iff.mp positive⟩
  · obtain ⟨low, high, named, ordered, rfl⟩ := readPort_iff.mp read
    refine ⟨_, low, high, rfl, Element.portBounds?_range low high, ?_⟩
    split
    · rename_i zero
      exact portSpec_zero (zero ▸ named)
    · rename_i positive
      exact portSpec_ok_iff.mpr ⟨named, ordered, positive⟩
  · have fields := Config.validate_ok valid
    obtain ⟨ports, spells⟩ := Layout.spelled fields
    exact ⟨ports.trusted, ports.manager, spells.trusted, elements_validated fields.trustedPorts spells.trusted,
      spells.manager, elements_validated fields.managerPorts spells.manager⟩

def loosely : Config :=
  { Config.default with
    overlayInterface := "wg0"
    trustedPorts := ["22", "\u2003+60001 - 060005\n"]
    managerPorts := ["8443-8443"] }

theorem portSpec_agrees_loosely :
    portSpec "\u2003+60001 - 060005\n" = .ok (60001, 60005) ∧ portSpec "0-5" = .error .portZero ∧
    loosely.validate = .ok () ∧ ∃ trusted manager,
      (Layout.ofConfig loosely).trustedPorts.elementsOfSpecs loosely.trustedPorts = .ok trusted ∧
      List.Forall₂ Validated loosely.trustedPorts trusted ∧
      (Layout.ofConfig loosely).managerPorts.elementsOfSpecs loosely.managerPorts = .ok manager ∧
      List.Forall₂ Validated loosely.managerPorts manager := by
  obtain ⟨exact, zero, installs⟩ := portSpec_agrees
  have valid : loosely.validate = .ok () := by decide
  have read : elements .inetService true ["0-5"] = .ok [.range [0, 0] [0, 5]] := by decide
  obtain ⟨e, low, high, same, bounds, refused⟩ := zero "0-5" _ read
  cases same
  cases bounds
  refine ⟨(exact _ 60001 60005).mpr ⟨.range [234, 97] [234, 101], by decide, by decide, by decide⟩, refused, valid,
    installs loosely valid⟩

end Input

end Firewall
