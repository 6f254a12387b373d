import Firewall.Input
import Firewall.MatchSet.Spec
import Firewall.Proofs.Text

namespace Firewall

open Text

namespace Spec

theorem port?_trim (cs : List Char) : port? (trim cs) = port? cs := by
  rw [port?, trim_trim]
  rfl

theorem port_ok_iff {cs spec : List Char} {p : UInt16} : port cs spec = .ok p ↔ port? cs = some p := by
  unfold port
  cases port? cs with
  | none => exact ⟨nofun, nofun⟩
  | some q => simp

/-- A set with the interval flag takes the ports of a text unless they stand in the wrong order. -/
theorem portElement_ok_iff {text : String} {e : Element} : portElement true text = .ok e ↔
    ∃ low high, ends? port? text.toList = some (low, high) ∧ low ≤ high ∧
      e = .range (portBytes low) (portBytes high) := by
  rw [← ends?_trim port?_trim, portElement]
  generalize trim text.toList = spec
  constructor
  · intro read
    split at read
    · rename_i front back cut
      split at read
      · cases read
      · rename_i low hlow
        split at read
        · cases read
        · rename_i high hhigh
          split at read
          · cases read
          · rename_i ordered
            cases read
            refine ⟨low, high, ?_, UInt16.not_lt.mp ordered, rfl⟩
            rw [ends?_parts cut, port_ok_iff.mp hlow, port_ok_iff.mp hhigh]
            rfl
    · rename_i whole
      split at read
      · rename_i p hp
        cases read
        refine ⟨p, p, ?_, UInt16.le_refl p, (if_pos rfl).symm⟩
        rw [ends?_whole whole, port_ok_iff.mp hp]
        rfl
      · cases read
  · rintro ⟨low, high, named, ordered, rfl⟩
    cases cut : splitOnce '-' spec with
    | none =>
      rw [ends?_whole cut] at named
      obtain ⟨p, number, same⟩ := Option.map_eq_some_iff.mp named
      cases same
      simp only [port_ok_iff.mpr number, Element.range, if_pos]
    | some parts =>
      rw [ends?_parts cut] at named
      obtain ⟨p, first, named⟩ := Option.bind_eq_some_iff.mp named
      obtain ⟨q, second, same⟩ := Option.map_eq_some_iff.mp named
      cases same
      simp only [port_ok_iff.mpr first, port_ok_iff.mpr second, if_neg (UInt16.not_lt.mpr ordered),
        Bool.not_true, Bool.false_eq_true, false_and, if_false]

end Spec

namespace Input

open Spec

/-- A port within a specification is read as the sets read it, but for port zero. -/
theorem portText_eq (spec : String) (cs : List Char) : portText spec cs =
    match port? cs with
    | none => .error (.notPort spec)
    | some p => if p = 0 then .error .portZero else .ok p := by
  unfold portText port?
  cases number? 65535 (trim cs) <;> rfl

theorem portText_ok_iff {spec : String} {cs : List Char} {p : UInt16} :
    portText spec cs = .ok p ↔ port? cs = some p ∧ p ≠ 0 := by
  rw [portText_eq]
  cases port? cs with
  | none => exact ⟨nofun, fun h => nomatch h.1⟩
  | some q =>
    dsimp only
    split
    · rename_i zero
      refine ⟨nofun, fun ⟨same, positive⟩ => ?_⟩
      cases same
      exact absurd zero positive
    · rename_i positive
      constructor
      · intro same
        cases same
        exact ⟨rfl, positive⟩
      · rintro ⟨same, -⟩
        cases same
        rfl

/-- The check takes the ports of a text unless one is zero or they stand in the wrong order. -/
theorem portSpec_ok_iff {spec : String} {low high : UInt16} : portSpec spec = .ok (low, high) ↔
    ends? port? spec.toList = some (low, high) ∧ low ≤ high ∧ low ≠ 0 := by
  unfold portSpec
  cases cut : splitOnce '-' spec.toList with
  | none =>
    rw [ends?_whole cut]
    constructor
    · intro taken
      dsimp only at taken
      split at taken
      · rename_i p hp
        cases taken
        obtain ⟨number, positive⟩ := portText_ok_iff.mp hp
        exact ⟨by rw [number]; rfl, UInt16.le_refl _, positive⟩
      · cases taken
    · rintro ⟨named, -, positive⟩
      obtain ⟨p, number, same⟩ := Option.map_eq_some_iff.mp named
      cases same
      simp only [portText_ok_iff.mpr ⟨number, positive⟩]
  | some parts =>
    rw [ends?_parts cut]
    constructor
    · intro taken
      dsimp only at taken
      split at taken
      · cases taken
      · rename_i p hp
        split at taken
        · cases taken
        · rename_i q hq
          split at taken
          · cases taken
          · rename_i ordered
            cases taken
            obtain ⟨first, positive⟩ := portText_ok_iff.mp hp
            obtain ⟨second, -⟩ := portText_ok_iff.mp hq
            exact ⟨by rw [first, second]; rfl, UInt16.not_lt.mp ordered, positive⟩
    · rintro ⟨named, ordered, positive⟩
      obtain ⟨p, first, named⟩ := Option.bind_eq_some_iff.mp named
      obtain ⟨q, second, same⟩ := Option.map_eq_some_iff.mp named
      cases same
      have last : high ≠ 0 := by
        rintro rfl
        exact positive (UInt16.le_zero_iff.mp ordered)
      simp only [portText_ok_iff.mpr ⟨first, positive⟩, portText_ok_iff.mpr ⟨second, last⟩,
        if_neg (UInt16.not_lt.mpr ordered)]

/-- A text whose first port is zero is refused for that. -/
theorem portSpec_zero {spec : String} {high : UInt16} (named : ends? port? spec.toList = some (0, high)) :
    portSpec spec = .error .portZero := by
  have zero : ∀ {cs : List Char}, port? cs = some 0 → portText spec cs = .error .portZero := by
    intro cs number
    rw [portText_eq, number]
    rfl
  unfold portSpec
  cases cut : splitOnce '-' spec.toList with
  | none =>
    rw [ends?_whole cut] at named
    obtain ⟨p, number, same⟩ := Option.map_eq_some_iff.mp named
    cases same
    simp only [zero number]
  | some parts =>
    rw [ends?_parts cut] at named
    obtain ⟨p, first, named⟩ := Option.bind_eq_some_iff.mp named
    obtain ⟨q, second, same⟩ := Option.map_eq_some_iff.mp named
    cases same
    simp only [zero first]

end Input

end Firewall
