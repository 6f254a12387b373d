import Firewall.Predicate
import Firewall.Program.Machine
import Firewall.Proofs.Packet

namespace Firewall

namespace Comparison

theorem equal_holds (invert : Bool) (as bs : List UInt8) :
    (equal invert).holds as bs = ((as == bs) != invert) := by
  have same : (Bytes.order as bs == .eq) = (as == bs) := by
    rw [Bool.eq_iff_iff, beq_iff_eq, beq_iff_eq, Bytes.order_eq_iff]
  cases invert with
  | false => simp [equal, holds, ofOrder, same]
  | true => simp [equal, holds, ofOrder, bne, same]

theorem eq_holds (as bs : List UInt8) : eq.holds as bs = (as == bs) := by
  rw [← Bool.bne_false (as == bs)]
  exact equal_holds false as bs

theorem ne_holds (as bs : List UInt8) : ne.holds as bs = (as != bs) := by
  have h := equal_holds true as bs
  rwa [Bool.bne_true] at h

end Comparison

namespace Program

variable {members : Members} {p : Packet}

/-- A fragment lets exactly those runs go on in which `b` holds. -/
structure Tests (members : Members) (p : Packet) (fragment : Program) (b : Bool) : Prop where
  passes : b = true → ∀ r rest, ∃ r', run members p r (fragment ++ rest) = run members p r' rest
  fails : b = false → ∀ r rest, run members p r (fragment ++ rest) = .noMatch

theorem Tests.nil : Tests members p [] true :=
  ⟨fun _ r _ => ⟨r, rfl⟩, fun h => absurd h (by decide)⟩

theorem Tests.append {f g : Program} {a b : Bool} (hf : Tests members p f a)
    (hg : Tests members p g b) : Tests members p (f ++ g) (a && b) := by
  constructor
  · intro h r rest
    obtain ⟨ha, hb⟩ := Bool.and_eq_true_iff.mp h
    obtain ⟨r', first⟩ := hf.passes ha r (g ++ rest)
    obtain ⟨r'', second⟩ := hg.passes hb r' rest
    exact ⟨r'', by rw [List.append_assoc, first, second]⟩
  · intro h r rest
    rw [List.append_assoc]
    cases ha : a with
    | false => exact hf.fails ha r (g ++ rest)
    | true =>
      obtain ⟨r', first⟩ := hf.passes ha r (g ++ rest)
      rw [first]
      exact hg.fails (by simpa [ha] using h) r' rest

/-- An operation that only lets runs go on or ends them. -/
theorem tests_guard {op : Op} {b : Bool} (h : ∀ r, op.step members p r = .guard b r) :
    Tests members p [op] b := by
  constructor
  · intro hb r rest
    exact ⟨r, by simp [run, h, Step.guard, hb]⟩
  · intro hb r rest
    simp [run, h, Step.guard, hb]

/-- A value is loaded and looked at. -/
theorem tests_load {field : Field} {reg : Register} {value : List UInt8} {op : Op} {b : Bool}
    (load : p.field? field = some value)
    (h : ∀ r : Registers, r reg = value → op.step members p r = .guard b r) :
    Tests members p [.load field reg, op] b := by
  have step : ∀ r : Registers, op.step members p (r.set reg value) = .guard b (r.set reg value) :=
    fun r => h _ (if_pos rfl)
  constructor
  · intro hb r rest
    exact ⟨r.set reg value, by simp [run, Op.step.eq_1, load, step, Step.guard, hb]⟩
  · intro hb r rest
    simp [run, Op.step.eq_1, load, step, Step.guard, hb]

/-- A value is loaded, masked and looked at. -/
theorem tests_masked {field : Field} {reg : Register} {value mask xor : List UInt8} {op : Op}
    {length : UInt32} {b : Bool} (load : p.field? field = some value)
    (h : ∀ r : Registers, r reg = maskBytes value mask xor → op.step members p r = .guard b r) :
    Tests members p [.load field reg, .bitwise reg reg length mask xor, op] b := by
  have loaded : ∀ r : Registers, r.set reg value reg = value := fun r => if_pos rfl
  have step : ∀ r : Registers, op.step members p ((r.set reg value).set reg (maskBytes value mask xor))
      = .guard b ((r.set reg value).set reg (maskBytes value mask xor)) :=
    fun r => h _ (if_pos rfl)
  constructor
  · intro hb r rest
    exact ⟨(r.set reg value).set reg (maskBytes value mask xor),
      by simp [run, Op.step.eq_1, Op.step.eq_2, load, loaded, step, Step.guard, hb]⟩
  · intro hb r rest
    simp [run, Op.step.eq_1, Op.step.eq_2, load, loaded, step, Step.guard, hb]

theorem tests_compare {field : Field} {value : List UInt8} (load : p.field? field = some value)
    (reg : Register) (c : Comparison) (data : List UInt8) :
    Tests members p [.load field reg, .compare c reg data] (c.holds value data) :=
  tests_load load fun r h => by rw [Op.step, h]

theorem tests_lookup {field : Field} {value : List UInt8} (load : p.field? field = some value)
    (reg : Register) (set : SetRef) (invert : Bool) :
    Tests members p [.load field reg, .lookup reg set invert]
      (members set.name value != invert) :=
  tests_load load fun r h => by rw [Op.step, h]

/-- A value is loaded and compared twice. -/
theorem tests_between {field : Field} {value : List UInt8} (load : p.field? field = some value)
    (reg : Register) (c d : Comparison) (low high : List UInt8) :
    Tests members p [.load field reg, .compare c reg low, .compare d reg high]
      (c.holds value low && d.holds value high) := by
  have loaded : ∀ r : Registers, r.set reg value reg = value := fun r => if_pos rfl
  constructor
  · intro h r rest
    obtain ⟨first, second⟩ := Bool.and_eq_true_iff.mp h
    exact ⟨r.set reg value, by simp [run, Op.step, load, loaded, Step.guard, first, second]⟩
  · intro h r rest
    cases first : c.holds value low with
    | false => simp [run, Op.step, load, loaded, Step.guard, first]
    | true =>
      have second : d.holds value high = false := by simpa [first] using h
      simp [run, Op.step, load, loaded, Step.guard, first, second]

/-- The outcome of a rule whose tests are followed by a verdict. -/
theorem run_verdict {f : Program} {b : Bool} (h : Tests members p f b) (r : Registers) (v : Verdict) :
    run members p r (f ++ [.verdict v]) = if b then .verdict v else .noMatch := by
  cases hb : b with
  | false => exact h.fails hb r _
  | true =>
    obtain ⟨r', e⟩ := h.passes hb r [.verdict v]
    rw [e]
    rfl

end Program

end Firewall
