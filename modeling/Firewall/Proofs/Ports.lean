import Firewall.Config.Basic
import Firewall.Proofs.Bytes
import Firewall.Proofs.HostPolicy
import Firewall.Proofs.Plan
import Firewall.Proofs.PortText

namespace Firewall

theorem Element.range_contains (first last value : List UInt8) :
    (Element.range first last).contains value =
      if first = last then first == value
      else Bytes.le first value && Bytes.le value last := by
  unfold range
  split <;> rfl

/-- A range of ports holds the ports between its bounds. -/
theorem Element.range_contains_port {low high : UInt16} (port : UInt16) :
    (Element.range (portBytes low) (portBytes high)).contains (portBytes port) =
      (decide (low ≤ port) && decide (port ≤ high)) := by
  have bound : ∀ p : UInt16, p.toNat < 256 ^ 2 := fun p => p.toNat_lt
  rw [range_contains]
  unfold portBytes
  rw [Bytes.le_ofNat (bound low) (bound port), Bytes.le_ofNat (bound port) (bound high)]
  split
  · rename_i same
    rw [Bytes.ofNat_inj (bound low) (bound high)] at same
    rw [Bool.eq_iff_iff, beq_iff_eq, Bytes.ofNat_inj (bound low) (bound port)]
    simp only [Bool.and_eq_true, decide_eq_true_eq, UInt16.le_iff_toNat_le]
    omega
  · simp only [UInt16.le_iff_toNat_le]

theorem Element.sameKey_contains {a b : Element} (h : a.sameKey b = true) (value : List UInt8) :
    a.contains value = b.contains value := by
  unfold sameKey at h
  obtain ⟨key, keyEnd⟩ := Bool.and_eq_true_iff.mp h
  unfold contains
  rw [eq_of_beq key, eq_of_beq keyEnd]

/-- Elements that are there already add no keys. -/
theorem addElements_contains (current new : List Element) (value : List UInt8) :
    (addElements current new).any (·.contains value) =
      (current.any (·.contains value) || new.any (·.contains value)) := by
  induction new generalizing current with
  | nil => simp [addElements]
  | cons e es ih =>
    unfold addElements
    rw [ih]
    split
    · rename_i known
      obtain ⟨a, ha, same⟩ := List.any_eq_true.mp known
      rw [List.any_cons]
      cases he : e.contains value with
      | false => simp
      | true =>
        have held : current.any (·.contains value) = true := by
          refine List.any_eq_true.mpr ⟨a, ha, ?_⟩
          rw [← he]
          exact (Element.sameKey_contains same value).symm
        simp [held]
    · simp [Bool.or_assoc]

/-- A specification that the configuration accepts is the element of its ports. -/
theorem Spec.portElement_of_portSpec {spec : String} {low high : UInt16}
    (h : Input.portSpec spec = .ok (low, high)) :
    portElement true spec = .ok (.range (portBytes low) (portBytes high)) := by
  obtain ⟨named, ordered, -⟩ := Input.portSpec_ok_iff.mp h
  exact portElement_ok_iff.mpr ⟨low, high, named, ordered, rfl⟩

/-- The elements of accepted specifications hold the listed ports. -/
theorem elements_listed {specs : List String} {elements : List Element}
    (valid : ∀ s ∈ specs, ∃ ports, Input.portSpec s = .ok ports)
    (read : Spec.elements .inetService true specs = .ok elements) (port : UInt16) :
    elements.any (·.contains (portBytes port)) = listed specs port := by
  induction specs generalizing elements with
  | nil =>
    cases read
    rfl
  | cons spec specs ih =>
    obtain ⟨e, rest, he, hrest, rfl⟩ := Spec.readAll_cons read
    obtain ⟨⟨low, high⟩, ports⟩ := valid spec List.mem_cons_self
    have element : Spec.portElement true spec = .ok e := he
    rw [Spec.portElement_of_portSpec ports] at element
    cases element
    have later := ih (fun s hs => valid s (List.mem_cons_of_mem spec hs)) hrest
    unfold listed at later ⊢
    rw [List.any_cons, List.any_cons, later, ports, Element.range_contains_port]

end Firewall
