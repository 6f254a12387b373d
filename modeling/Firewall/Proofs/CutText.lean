import Firewall.Proofs.JsonText

namespace Firewall.Json

/-- A text that goes on like an object with a member whose name starts with a letter. -/
def Opens (x : List Char) : Prop := ∃ y, x = '\x7b' :: '"' :: 'i' :: y

/-- What is left of a text in front and an object behind it: some of the text and the object, or what the object has
behind its first quote. -/
def Leaves (x r : List Char) : Prop := (∃ r', r = r' ++ x) ∨ ∃ r', r = 'i' :: r'

theorem digitsFrom_foreign {c : Char} {cs : List Char} (member : c ∈ cs) (foreign : Text.hexDigit? c = none)
    (acc : Nat) : Text.digitsFrom Text.hexDigit? 16 acc cs = none := by
  induction cs generalizing acc with
  | nil => cases member
  | cons d ds ih =>
    rw [Text.digitsFrom]
    rcases List.mem_cons.mp member with rfl | later
    · rw [foreign]
    · split
      · exact ih later _
      · rfl

/-- Four digits that name a character are digits. -/
theorem takePieces?_foreign {a b c d : Char} (foreign : ∃ e ∈ [a, b, c, d], Text.hexDigit? e = none)
    (cs : List Char) : takePieces? ('\\' :: 'u' :: a :: b :: c :: d :: cs) = none := by
  obtain ⟨e, member, foreign⟩ := foreign
  rw [takePieces?, show Text.digits? Text.hexDigit? 16 [a, b, c, d] = none from digitsFrom_foreign member foreign 0]

section Opens

variable {x : List Char} (opens : Opens x)
include opens

/-- A unit of which the digits are cut off is none. -/
theorem takePieces?_cutUnit {cs : List Char} (short : cs.length < 4) :
    takePieces? ('\\' :: 'u' :: (cs ++ x)) = none := by
  obtain ⟨y, rfl⟩ := opens
  have foreign : Text.hexDigit? '\x7b' = none := by decide
  rcases cs with _ | ⟨a, _ | ⟨b, _ | ⟨c, _ | ⟨d, cs⟩⟩⟩⟩
  case nil =>
    cases y with
    | nil => rfl
    | cons d y => exact takePieces?_foreign ⟨_, by simp, foreign⟩ _
  case cons.cons.cons.cons =>
    simp only [List.length_cons] at short
    omega
  all_goals exact takePieces?_foreign ⟨_, by simp, foreign⟩ _

/-- A string ends in the text in front or at the first quote of the object. -/
theorem takePieces?_behind {cs r : List Char} {ps : List Piece} (taken : takePieces? (cs ++ x) = some (ps, r)) :
    Leaves x r := by
  -- A piece that is whole in the text in front leaves the rest to the hypothesis. Only where the text ends, which is
  -- possibly in the middle of an escape, the object is looked at.
  induction cs using takePieces?.induct generalizing ps with
  | case1 =>
    obtain ⟨y, rfl⟩ := opens
    rw [List.nil_append, takePieces?_cons (by decide), if_neg (by decide), if_neg (by decide),
      takePieces?_cons (by decide), if_pos rfl] at taken
    cases taken
    exact .inr ⟨y, rfl⟩
  | case2 a b c d cs u unit ih =>
    rw [show '\\' :: 'u' :: a :: b :: c :: d :: cs ++ x = '\\' :: 'u' :: a :: b :: c :: d :: (cs ++ x) from rfl,
      takePieces?, unit] at taken
    obtain ⟨⟨ps', r'⟩, later, same⟩ := Option.map_eq_some_iff.mp taken
    cases same
    exact ih later
  | case3 a b c d cs noUnit =>
    rw [show '\\' :: 'u' :: a :: b :: c :: d :: cs ++ x = '\\' :: 'u' :: a :: b :: c :: d :: (cs ++ x) from rfl,
      takePieces?, noUnit] at taken
    cases taken
  | case4 e cs noUnit c letter ih =>
    have noUnit : e ≠ 'u' := by
      rintro rfl
      cases letter
    rw [show '\\' :: e :: cs ++ x = '\\' :: e :: (cs ++ x) from rfl, takePieces?_letter noUnit, letter] at taken
    obtain ⟨⟨ps', r'⟩, later, same⟩ := Option.map_eq_some_iff.mp taken
    cases same
    exact ih later
  | case5 e cs short noLetter =>
    by_cases unit : e = 'u'
    · subst unit
      have short : cs.length < 4 := by
        rcases cs with _ | ⟨a, _ | ⟨b, _ | ⟨c, _ | ⟨d, cs⟩⟩⟩⟩
        case cons.cons.cons.cons => exact (short a b c d cs rfl rfl).elim
        all_goals simp
      rw [show '\\' :: 'u' :: cs ++ x = '\\' :: 'u' :: (cs ++ x) from rfl, takePieces?_cutUnit opens short] at taken
      cases taken
    · rw [show '\\' :: e :: cs ++ x = '\\' :: e :: (cs ++ x) from rfl, takePieces?_letter unit, noLetter] at taken
      cases taken
  | case6 cs =>
    rw [List.cons_append, takePieces?_cons (by decide), if_pos rfl] at taken
    cases taken
    exact .inl ⟨cs, rfl⟩
  | case7 c cs noUnit noLetter noQuote foreign =>
    by_cases escape : c = '\\'
    · subst escape
      cases cs with
      | nil =>
        obtain ⟨y, rfl⟩ := opens
        cases taken
      | cons e cs => exact (noLetter e cs rfl rfl).elim
    · rw [List.cons_append, takePieces?_cons escape, if_neg noQuote, if_pos (foreign.resolve_right escape)] at taken
      cases taken
  | case8 c cs noUnit noLetter noQuote plain ih =>
    obtain ⟨printed, noEscape⟩ := not_or.mp plain
    rw [List.cons_append, takePieces?_cons noEscape, if_neg noQuote, if_neg printed] at taken
    obtain ⟨⟨ps', r'⟩, later, same⟩ := Option.map_eq_some_iff.mp taken
    cases same
    exact ih later

theorem Opens.endsNumeral : EndsNumeral x := by
  obtain ⟨y, rfl⟩ := opens
  intro c first
  cases first
  rfl

/-- A word that holds no brace is not continued by the object. -/
theorem word_behind {w cs r : List Char} (noBrace : '\x7b' ∉ w) (same : cs ++ x = w ++ r) : ∃ r', r = r' ++ x := by
  obtain ⟨y, rfl⟩ := opens
  rcases List.append_eq_append_iff.mp same with ⟨front, rfl, cut⟩ | ⟨back, rfl, cut⟩
  · cases front with
    | nil => exact ⟨[], cut.symm⟩
    | cons c front =>
      rw [List.cons_append] at cut
      rw [← (List.cons.inj cut).1] at noBrace
      simp at noBrace
  · exact ⟨back, cut⟩

/-- A token that starts in the text in front ends there, or it is a string that goes on to the quote. -/
theorem scanToken?_behind {c : Char} {cs r : List Char} {t : Token}
    (scanned : scanToken? (c :: cs ++ x) = some (t, r)) : Leaves x r := by
  have word : ∀ w : List Char, '\x7b' ∉ w → c :: cs ++ x = w ++ r → Leaves x r := fun w noBrace same =>
    .inl (word_behind opens noBrace same)
  generalize whole : c :: cs ++ x = text at scanned word
  unfold scanToken? at scanned
  split at scanned
  case h_3 inner =>
    cases scanned
    exact .inl ⟨cs, (List.cons.inj whole).2.symm⟩
  case h_10 inner =>
    obtain ⟨⟨ps, rest⟩, taken, same⟩ := Option.map_eq_some_iff.mp scanned
    cases same
    rw [← (List.cons.inj whole).2] at taken
    exact takePieces?_behind opens taken
  case h_11 inner =>
    rw [← whole, Numeral.scan?_append (Opens.endsNumeral opens)] at scanned
    obtain ⟨⟨n, rest⟩, found, same⟩ := Option.map_eq_some_iff.mp scanned
    cases same
    obtain ⟨⟨m, r'⟩, -, same⟩ := Option.map_eq_some_iff.mp found
    cases same
    exact .inl ⟨r', rfl⟩
  all_goals
    cases scanned
    first
    | exact word [_] (by decide) rfl
    | exact word [_, _, _, _] (by decide) rfl
    | exact word [_, _, _, _, _] (by decide) rfl

/-- The tokens of the whole are those in front, of which there are some unless there are only blanks, and those of
the object. -/
theorem tokens?_behind {cs : List Char} {ts : List Token} (found : tokens? (cs ++ x) = some ts) :
    ∃ us xs, tokens? x = some xs ∧ ts = us ++ xs ∧ (us = [] → ∀ c ∈ cs, isSpace c = true) := by
  induction length : cs.length using Nat.strongRecOn generalizing cs ts with
  | ind n ih =>
    subst length
    cases cs with
    | nil => exact ⟨[], ts, found, rfl, fun _ _ member => absurd member List.not_mem_nil⟩
    | cons c cs =>
      by_cases space : isSpace c = true
      · rw [List.cons_append, tokens?_space space] at found
        obtain ⟨us, xs, behind, rfl, blank⟩ := ih cs.length (by simp) found rfl
        exact ⟨us, xs, behind, rfl, fun none => List.forall_mem_cons.mpr ⟨space, blank none⟩⟩
      · cases scanned : scanToken? (c :: cs ++ x) with
        | none =>
          rw [List.cons_append] at found scanned
          rw [tokens?_none space scanned] at found
          cases found
        | some first =>
          obtain ⟨t, r⟩ := first
          rw [tokens?_token scanned] at found
          obtain ⟨vs, later, rfl⟩ := Option.map_eq_some_iff.mp found
          rcases scanToken?_behind opens scanned with ⟨r', rfl⟩ | ⟨r', rfl⟩
          · have shorter : r'.length < (c :: cs).length := by
              have := scanToken?_length scanned
              simp only [List.length_append] at this
              omega
            obtain ⟨us, xs, behind, rfl, -⟩ := ih r'.length shorter later rfl
            exact ⟨t :: us, xs, behind, rfl, fun none => by cases none⟩
          · rw [tokens?_none (by decide) rfl] at later
            cases later

end Opens

namespace Tree

def State.within (outer : List Frame) : State → State
  | .value stack => .value (stack ++ outer)
  | .firstItem stack => .firstItem (stack ++ outer)
  | .firstName stack => .firstName (stack ++ outer)
  | .nextName members stack => .nextName members (stack ++ outer)
  | .colon members name stack => .colon members name (stack ++ outer)
  | .complete v stack => .complete v (stack ++ outer)

theorem State.start_within (outer stack : List Frame) (t : Token) :
    State.start (stack ++ outer) t = (State.start stack t).map (within outer) := by
  cases t <;> rfl

/-- A step that is possible does not look at the containers around. -/
theorem State.step_within (outer : List Frame) {s s' : State} {t : Token} (stepped : s.step t = some s') :
    (s.within outer).step t = some (s'.within outer) := by
  have started : ∀ stack, State.start stack t = some s' →
      State.start (stack ++ outer) t = some (s'.within outer) := by
    intro stack started
    rw [start_within, started]
    rfl
  cases s with
  | value stack => exact started stack stepped
  | firstItem stack =>
    cases t with
    | rightBracket =>
      cases stepped
      rfl
    | _ => exact started (.array [] :: stack) stepped
  | firstName stack | nextName members stack | colon members name stack =>
    cases t
    all_goals cases stepped
    all_goals rfl
  | complete v stack =>
    rcases stack with _ | ⟨_ | _, stack⟩ <;> cases t
    all_goals cases stepped
    all_goals rfl

theorem State.run_within (outer : List Frame) {s s' : State} {ts : List Token} (reached : s.run ts = some s') :
    (s.within outer).run ts = some (s'.within outer) := by
  induction ts generalizing s with
  | nil =>
    cases reached
    rfl
  | cons t ts ih =>
    rw [run_cons] at reached
    obtain ⟨next, stepped, reached⟩ := Option.bind_eq_some_iff.mp reached
    rw [run_cons, step_within outer stepped]
    exact ih reached

theorem State.run_append (s : State) (ts us : List Token) : s.run (ts ++ us) = (s.run ts).bind (·.run us) := by
  induction ts generalizing s with
  | nil => rfl
  | cons t ts ih =>
    rw [List.cons_append, run_cons, run_cons, Option.bind_assoc]
    exact congrArg _ (funext fun s => ih s)

/-- Behind a token, a further value is read inside a container only. -/
theorem State.run_inside {s : State} {t : Token} {ts : List Token} {stack : List Frame}
    (reached : s.run (t :: ts) = some (.value stack)) : stack ≠ [] := by
  have one : ∀ {s : State} {t : Token}, s.step t = some (.value stack) → stack ≠ [] := by
    intro s t stepped
    cases s with
    | complete v below =>
      rcases below with _ | ⟨_ | _, below⟩ <;> cases t
      all_goals cases stepped
      exact List.cons_ne_nil _ _
    | value | firstItem | firstName | nextName =>
      cases t
      all_goals cases stepped
    | colon =>
      cases t
      all_goals cases stepped
      exact List.cons_ne_nil _ _
  induction ts generalizing s t with
  | nil =>
    rw [run_cons] at reached
    obtain ⟨next, stepped, same⟩ := Option.bind_eq_some_iff.mp reached
    cases same
    exact one stepped
  | cons u ts ih =>
    rw [run_cons] at reached
    obtain ⟨next, -, reached⟩ := Option.bind_eq_some_iff.mp reached
    exact ih reached

/-- Behind tokens that belong to it, an object is not the last thing of a text. -/
theorem run_behind {t : Token} {us xs : List Token} {v w : Tree}
    (alone : (State.value []).run (.leftBrace :: xs) = some (.complete w [])) :
    (State.value []).run (t :: us ++ .leftBrace :: xs) ≠ some (.complete v []) := by
  intro whole
  rw [State.run_append] at whole
  obtain ⟨s, front, back⟩ := Option.bind_eq_some_iff.mp whole
  have inner : (State.firstName []).run xs = some (.complete w []) := alone
  -- What is open in front of the object is still open behind it.
  have inside : ∀ stack, stack ≠ [] → (State.firstName stack).run xs ≠ some (.complete v []) := by
    intro stack some same
    have around := State.run_within stack inner
    rw [show (State.firstName []).within stack = .firstName stack from rfl, same] at around
    cases around
    exact some rfl
  rw [State.run_cons] at back
  cases s with
  | value stack => exact inside stack (State.run_inside front) back
  | firstItem stack => exact inside _ (List.cons_ne_nil _ stack) back
  | firstName | nextName | colon => cases back
  | complete _ stack => rcases stack with _ | ⟨_ | _, stack⟩ <;> cases back

/-- Behind anything but blanks, the text of an object is not read, and neither is what stands there. -/
theorem parse?_behind {cs x : List Char} {w : Tree} (opens : Opens x) (alone : parse? x = some w)
    (cut : ¬∀ c ∈ cs, isSpace c = true) : parse? (cs ++ x) = none := by
  rw [Option.eq_none_iff_forall_ne_some]
  intro v whole
  obtain ⟨ts, found, reached⟩ := parse?_iff.mp whole
  obtain ⟨us, xs, behind, rfl, blank⟩ := tokens?_behind opens found
  obtain ⟨xs', same, alone⟩ := parse?_iff.mp alone
  rw [behind] at same
  cases same
  obtain ⟨y, rfl⟩ := opens
  rw [tokens?_token (show scanToken? _ = some (.leftBrace, _) from rfl)] at behind
  obtain ⟨ys, -, rfl⟩ := Option.map_eq_some_iff.mp behind
  cases us with
  | nil => exact cut (blank rfl)
  | cons t us => exact run_behind alone reached

/-- Blanks in front of a text say nothing. -/
theorem parse?_blank {cs : List Char} (blank : ∀ c ∈ cs, isSpace c = true) (x : List Char) :
    parse? (cs ++ x) = parse? x := by
  have same : tokens? (cs ++ x) = tokens? x := by
    induction cs with
    | nil => rfl
    | cons c cs ih =>
      obtain ⟨space, blank⟩ := List.forall_mem_cons.mp blank
      rw [List.cons_append, tokens?_space space, ih blank]
  rw [parse?, same, parse?]

end Tree
end Firewall.Json
