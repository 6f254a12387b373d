import Firewall.Config.File
import Firewall.Proofs.JsonRecord
import Firewall.Proofs.JsonText
import Firewall.Proofs.Validity

namespace Firewall

namespace Json.Tree

theorem list?_strings (ss : List String) : list? string? (.array (ss.map fun s => .string (some s))) = some ss := by
  show (ss.map fun s => Tree.string (some s)).mapM string? = some ss
  induction ss with
  | nil => rfl
  | cons s ss ih =>
    rw [List.map_cons, List.mapM_cons, ih]
    rfl

end Json.Tree

open Json Tree

def Services.fields (s : Services) : List (String × Tree) :=
  [("dns", .bool s.dns), ("http", .bool s.http), ("smtp", .bool s.smtp)]

/-- The default services, except for the chosen ones. -/
def Services.overriding (chosen : String → Bool) (s : Services) : Services where
  dns := if chosen "dns" then s.dns else Services.default.dns
  http := if chosen "http" then s.http else Services.default.http
  smtp := if chosen "smtp" then s.smtp else Services.default.smtp

theorem Services.ofTree?_chosen {s : Services} {chosen : String → Bool} {ms : List (Option String × Tree)}
    (holds : Holds ["dns", "http", "smtp"] (s.fields.filter fun v => chosen v.1) ms) :
    ofTree? (.object ms) = some (s.overriding chosen) := by
  obtain ⟨f, read, chooses⟩ := fields?_chosen holds (by simp [fields]) true
  rw [ofTree?, read, Option.bind_eq_bind, Option.bind_some]
  dsimp only
  rw [chooses.getD? (.bool s.dns) bool? rfl (by simp [fields]),
    chooses.getD? (.bool s.http) bool? rfl (by simp [fields]),
    chooses.getD? (.bool s.smtp) bool? rfl (by simp [fields])]
  rfl

namespace Config

/-- The fields that a file can have for a configuration, with what it has for the services. -/
def fields (c : Config) (services : Tree) : List (String × Tree) := [
  ("enabled", .bool c.enabled),
  ("network_namespace", .string (some c.networkNamespace)),
  ("default_policy", .string (some c.defaultPolicy.name)),
  ("table_prefix", .string (some c.tablePrefix)),
  ("family", .string (some c.family.name)),
  ("overlay_iface", .string (some c.overlayInterface)),
  ("overlay_port", .number (some (.int c.overlayPort.toNat))),
  ("ifaces", .array (c.interfaces.map fun s => .string (some s))),
  ("trusted_ports", .array (c.trustedPorts.map fun s => .string (some s))),
  ("manager_ports", .array (c.managerPorts.map fun s => .string (some s))),
  ("services", services)]

/-- The default configuration, except for the chosen fields and of these, in the services, the chosen ones. -/
def overriding (chosen offered : String → Bool) (c : Config) : Config where
  enabled := if chosen "enabled" then c.enabled else default.enabled
  networkNamespace := if chosen "network_namespace" then c.networkNamespace else default.networkNamespace
  defaultPolicy := if chosen "default_policy" then c.defaultPolicy else default.defaultPolicy
  tablePrefix := if chosen "table_prefix" then c.tablePrefix else default.tablePrefix
  family := if chosen "family" then c.family else default.family
  overlayInterface := if chosen "overlay_iface" then c.overlayInterface else default.overlayInterface
  overlayPort := if chosen "overlay_port" then c.overlayPort else default.overlayPort
  interfaces := if chosen "ifaces" then c.interfaces else default.interfaces
  trustedPorts := if chosen "trusted_ports" then c.trustedPorts else default.trustedPorts
  managerPorts := if chosen "manager_ports" then c.managerPorts else default.managerPorts
  services := if chosen "services" then c.services.overriding offered else default.services

/-- The members of a file that holds the chosen fields of a configuration, and of its services the chosen ones. -/
def Describes (c : Config) (chosen offered : String → Bool) (ms : List (Option String × Tree)) : Prop :=
  ∃ services, Holds ["dns", "http", "smtp"] (c.services.fields.filter fun v => offered v.1) services ∧
    Holds fieldNames ((c.fields (.object services)).filter fun v => chosen v.1) ms

section Describes

variable {c : Config} {chosen offered : String → Bool}

theorem ofTree?_describes {ms : List (Option String × Tree)} (describes : c.Describes chosen offered ms) :
    ofTree? (.object ms) = some (c.overriding chosen offered) := by
  obtain ⟨services, held, holds⟩ := describes
  obtain ⟨f, read, chooses⟩ := fields?_chosen holds (by simp [fields]) true
  have policy : Policy.ofTree? (.string (some c.defaultPolicy.name)) = some c.defaultPolicy := by
    cases c.defaultPolicy <;> rfl
  have family : Family.ofTree? (.string (some c.family.name)) = some c.family := by
    cases c.family <;> rfl
  have port : ((Tree.number (some (.int c.overlayPort.toNat))).nat? 16).map UInt16.ofNat = some c.overlayPort := by
    have small : (0 : Int) ≤ c.overlayPort.toNat ∧ (c.overlayPort.toNat : Int) ≤ Nat.pow 2 16 - 1 := by
      have := c.overlayPort.toNat_lt
      exact ⟨Int.natCast_nonneg _, by simp; omega⟩
    rw [Tree.nat?, int?, if_pos small, Option.map_some, Option.map_some, Int.toNat_natCast, UInt16.ofNat_toNat]
  rw [ofTree?, read, Option.bind_eq_bind, Option.bind_some]
  dsimp only
  rw [chooses.getD? (.bool c.enabled) bool? rfl (by simp [fields]),
    chooses.getD? (.string c.networkNamespace) string? rfl (by simp [fields]),
    chooses.getD? _ Policy.ofTree? policy (by simp [fields]),
    chooses.getD? (.string c.tablePrefix) string? rfl (by simp [fields]),
    chooses.getD? _ Family.ofTree? family (by simp [fields]),
    chooses.getD? (.string c.overlayInterface) string? rfl (by simp [fields]),
    chooses.getD? _ (fun t => (t.nat? 16).map UInt16.ofNat) port (by simp [fields]),
    chooses.getD? _ (list? string?) (list?_strings c.interfaces) (by simp [fields]),
    chooses.getD? _ (list? string?) (list?_strings c.trustedPorts) (by simp [fields]),
    chooses.getD? _ (list? string?) (list?_strings c.managerPorts) (by simp [fields]),
    chooses.getD? _ Services.ofTree? (Services.ofTree?_chosen held) (by simp [fields])]
  rfl

theorem default_valid : default.validate = .ok () := by decide

/-- The checks look at one field each, so fields of a valid configuration are valid beside those of the default. -/
theorem overriding_valid (valid : c.validate = .ok ()) : (c.overriding chosen offered).validate = .ok () := by
  obtain ⟨space, tables, overlay, interfaces, trusted, manager⟩ := validate_iff.mp valid
  obtain ⟨space', tables', overlay', interfaces', trusted', manager'⟩ := validate_iff.mp default_valid
  refine validate_iff.mpr ⟨?_, ?_, ?_, ?_, ?_, ?_⟩
  all_goals
    dsimp only [overriding]
    split
    · assumption
    · assumption

theorem load_describes (valid : c.validate = .ok ()) {text : String} {ms : List (Option String × Tree)}
    (parsed : Json.Tree.parse? text.toList = some (.object ms)) (describes : c.Describes chosen offered ms) :
    load text = .ok (c.overriding chosen offered) := by
  rw [load, parsed, Option.bind_some, ofTree?_describes describes]
  dsimp only
  rw [overriding_valid valid]

end Describes

theorem overriding_all (c : Config) : c.overriding (fun _ => true) (fun _ => true) = c := rfl

theorem toJson_readBack (c : Config) : c.toJson.NumbersReadBack := by
  have strings : ∀ ss : List String, ItemsReadBack (ss.map Json.string) := by
    intro ss
    induction ss with
    | nil => trivial
    | cons s ss ih => exact ⟨trivial, ih⟩
  have port : (Number.int c.overlayPort.toNat).ReadsBack := by
    have := c.overlayPort.toNat_lt
    exact Number.readsBack_int (by omega) (by omega)
  exact ⟨trivial, trivial, trivial, trivial, trivial, trivial, port, strings _, strings _, strings _,
    ⟨trivial, trivial, trivial, trivial⟩, trivial⟩

/-- The file of a configuration holds all its fields. -/
theorem toJson_describes (c : Config) :
    ∃ ms, ofJson c.toJson = .object ms ∧ c.Describes (fun _ => true) (fun _ => true) ms := by
  have strings : ∀ ss : List String, ofItems (ss.map Json.string) = ss.map fun s => .string (some s) := by
    intro ss
    induction ss with
    | nil => rfl
    | cons s ss ih => rw [List.map_cons, ofItems, ih]; rfl
  let services := c.services.fields.map fun m => (some m.1, m.2)
  let ms := (c.fields (.object services)).map fun m => (some m.1, m.2)
  refine ⟨ms, ?_, services, ⟨_, rfl, .refl _⟩, _, rfl, .refl _⟩
  show ofJson (.object _) = _
  simp only [ofJson, ofMembers, Json.strings, strings]
  rfl

/-- A valid configuration is read from its file as it was written. A file that holds any of its fields, in any order
and among any unknown members, is read as the default configuration with exactly these fields changed; of the
services, too, exactly the ones it holds are changed. -/
theorem file_overrides_default {c : Config} (valid : c.validate = .ok ()) :
    load c.save = .ok c ∧
      ∀ (chosen offered : String → Bool) (text : String) (ms : List (Option String × Tree)),
        Json.Tree.parse? text.toList = some (.object ms) → c.Describes chosen offered ms →
          ofTree? (.object ms) = some (c.overriding chosen offered) ∧
            load text = .ok (c.overriding chosen offered) := by
  refine ⟨?_, fun chosen offered text ms parsed describes =>
    ⟨ofTree?_describes describes, load_describes valid parsed describes⟩⟩
  obtain ⟨ms, tree, describes⟩ := toJson_describes c
  have parsed := Json.Tree.parse?_pretty (toJson_readBack c)
  rw [tree] at parsed
  rw [save, load_describes valid parsed describes, overriding_all]

def foreign : Config :=
  { default with
    networkNamespace := "büro", tablePrefix := "lan_", overlayPort := 51820, trustedPorts := ["\u2003 80 - 90"],
    services := ⟨false, true, true⟩ }

def foreignPart : Json :=
  .object [("zone", .array [.nat 1, .object [("enabled", .null)]]),
    ("services", .object [("smtp", .bool true), ("note", .string "\"\n\x07")]), ("zone", .null),
    ("table_prefix", .string "lan_")]

theorem file_overrides_default_foreign : foreign.validate = .ok () ∧ load foreign.save = .ok foreign ∧
    load foreignPart.prettyText = .ok { default with tablePrefix := "lan_", services := ⟨true, false, true⟩ } := by
  have valid : foreign.validate = .ok () := by rfl
  obtain ⟨whole, parts⟩ := file_overrides_default valid
  have readBack : foreignPart.NumbersReadBack :=
    ⟨⟨Number.readsBack_int (by decide) (by decide), ⟨trivial, trivial⟩, trivial⟩, ⟨trivial, trivial, trivial⟩,
      trivial, trivial, trivial⟩
  let chosen name := name = "services" || name = "table_prefix"
  let services : List (Option String × Tree) :=
    [(some "smtp", .bool true), (some "note", .string (some "\"\n\x07"))]
  have held : Holds ["dns", "http", "smtp"] (foreign.services.fields.filter fun v => v.1 = "smtp") services :=
    ⟨[("smtp", .bool true), ("note", .string (some "\"\n\x07"))], rfl, .refl _⟩
  have holds : Holds fieldNames ((foreign.fields (.object services)).filter fun v => chosen v.1)
      [(some "zone", ofJson (.array [.nat 1, .object [("enabled", .null)]])), (some "services", .object services),
        (some "zone", .null), (some "table_prefix", .string (some "lan_"))] :=
    ⟨[("zone", ofJson (.array [.nat 1, .object [("enabled", .null)]])), ("services", .object services),
      ("zone", .null), ("table_prefix", .string (some "lan_"))], rfl, .swap _ _ _⟩
  have part := parts chosen (fun name => name = "smtp") foreignPart.prettyText _ (Json.Tree.parse?_pretty readBack)
    ⟨services, held, holds⟩
  exact ⟨valid, whole, part.2⟩

end Config
end Firewall
