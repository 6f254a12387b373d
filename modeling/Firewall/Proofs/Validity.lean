import Firewall.Config.Basic
import Firewall.Proofs.Packet

namespace Firewall

theorem Input.interfaceChar_zero : isInterfaceChar (Char.ofNat 0) = false := by decide

/-- A name that passes the check is one that a kernel can give, unless there is none. -/
theorem Input.interface_ok {name text : String} (named : name ≠ "") (h : interface name = .ok text) :
    IsInterfaceName name := by
  unfold interface at h
  rw [if_neg named] at h
  split at h
  · cases h
  · rename_i short
    split at h
    · cases h
    · split at h
      · rename_i allowed
        refine ⟨?_, Nat.le_of_not_lt short, ?_⟩
        · apply List.length_pos_iff.mpr
          intro empty
          have bytes : Bytes.ofString name = Bytes.ofString "" := empty
          exact named (Utf8.ofString_inj.mp bytes)
        · intro zero
          have char := List.all_eq_true.mp allowed _ zero
          rw [interfaceChar_zero] at char
          cases char
      · cases h

namespace Config

/-- The fields of a valid configuration. -/
structure Valid (c : Config) : Prop where
  overlayInterface : c.hasOverlay = true → IsInterfaceName c.overlayInterface
  interfaces : ∀ i ∈ c.interfaces, IsInterfaceName i
  trustedPorts : ∀ s ∈ c.trustedPorts, ∃ ports, Input.portSpec s = .ok ports
  managerPorts : ∀ s ∈ c.managerPorts, ∃ ports, Input.portSpec s = .ok ports

section Checks

variable {α : Type} {field : String}

theorem checkField_ok {check : Except InputFault α} (h : checkField field check = .ok ()) :
    ∃ a, check = .ok a := by
  unfold checkField at h
  cases check with
  | error fault => cases h
  | ok a => exact ⟨a, rfl⟩

theorem checkEach_ok {check : String → Except InputFault α} {specs : List String}
    (h : checkEach field check specs = .ok ()) : ∀ s ∈ specs, ∃ a, check s = .ok a := by
  induction specs with
  | nil => exact fun s hs => absurd hs List.not_mem_nil
  | cons spec specs ih =>
    unfold checkEach at h
    split at h
    · rename_i first
      intro s hs
      rcases List.mem_cons.mp hs with rfl | later
      · exact checkField_ok first
      · exact ih h s later
    · cases h

theorem checkEach_iff {check : String → Except InputFault α} {specs : List String} :
    checkEach field check specs = .ok () ↔ ∀ s ∈ specs, ∃ a, check s = .ok a := by
  refine ⟨checkEach_ok, fun h => ?_⟩
  induction specs with
  | nil => rfl
  | cons spec specs ih =>
    obtain ⟨⟨a, first⟩, rest⟩ := List.forall_mem_cons.mp h
    rw [checkEach, first, checkField]
    exact ih rest

end Checks

theorem bind_ok {x : Except Error Unit} {f : Unit → Except Error Unit}
    (h : (x >>= f) = .ok ()) : x = .ok () ∧ f () = .ok () := by
  cases x with
  | error e => cases h
  | ok u => exact ⟨rfl, h⟩

theorem namedInterface_ok {name text : String} (h : namedInterface name = .ok text) :
    IsInterfaceName name := by
  unfold namedInterface at h
  split at h
  · cases h
  · rename_i named
    exact Input.interface_ok named h

/-- A configuration is valid if it passes all checks. -/
theorem validate_iff {c : Config} : c.validate = .ok () ↔ Namespace.checkName c.networkNamespace = .ok () ∧
    checkField "table_prefix" (Input.tablePrefix c.tablePrefix) = .ok () ∧
    checkField "overlay_iface" (Input.interface c.overlayInterface) = .ok () ∧
    checkEach "ifaces" namedInterface c.interfaces = .ok () ∧
    checkEach "trusted_ports" Input.portSpec c.trustedPorts = .ok () ∧
    checkEach "manager_ports" Input.portSpec c.managerPorts = .ok () := by
  constructor
  · intro valid
    obtain ⟨space, valid⟩ := bind_ok valid
    obtain ⟨tables, valid⟩ := bind_ok valid
    obtain ⟨overlay, valid⟩ := bind_ok valid
    obtain ⟨interfaces, valid⟩ := bind_ok valid
    obtain ⟨trusted, manager⟩ := bind_ok valid
    exact ⟨space, tables, overlay, interfaces, trusted, manager⟩
  · rintro ⟨space, tables, overlay, interfaces, trusted, manager⟩
    unfold validate
    rw [space, tables, overlay, interfaces, trusted]
    exact manager

theorem validate_ok {c : Config} (h : c.validate = .ok ()) : c.Valid := by
  obtain ⟨-, -, overlay, interfaces, trusted, manager⟩ := validate_iff.mp h
  constructor
  · intro has
    obtain ⟨_, named⟩ := checkField_ok overlay
    exact Input.interface_ok (bne_iff_ne.mp has) named
  · intro i member
    obtain ⟨_, named⟩ := checkEach_ok interfaces i member
    exact namedInterface_ok named
  · exact checkEach_ok trusted
  · exact checkEach_ok manager

end Config
end Firewall
