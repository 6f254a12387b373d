import Firewall.Text.Blank
import Mathlib.Data.List.DropRight

namespace Firewall.Text

theorem dropWhileEnd_cons (p : Char → Bool) (c : Char) (cs : List Char) :
    dropWhileEnd p (c :: cs) =
      if dropWhileEnd p cs = [] ∧ p c = true then [] else c :: dropWhileEnd p cs := by
  unfold dropWhileEnd
  rw [List.reverse_cons, List.dropWhile_append]
  by_cases h : cs.reverse.dropWhile p = []
  · cases hc : p c <;> simp [h, hc]
  · simp [h]

/-- Both ends may be cut in either order. -/
theorem dropWhile_dropWhileEnd (p : Char → Bool) (cs : List Char) :
    (dropWhileEnd p cs).dropWhile p = dropWhileEnd p (cs.dropWhile p) := by
  induction cs with
  | nil => rfl
  | cons c cs ih =>
    rw [dropWhileEnd_cons]
    cases hc : p c with
    | true =>
      rw [List.dropWhile_cons_of_pos hc, ← ih]
      split
      · rename_i h
        rw [h.1]
      · rw [List.dropWhile_cons_of_pos hc]
    | false =>
      have stays : ¬ p c = true := by simp [hc]
      rw [if_neg (fun h => Bool.false_ne_true h.2), List.dropWhile_cons_of_neg stays,
        List.dropWhile_cons_of_neg stays, dropWhileEnd_cons, if_neg (fun h => stays h.2)]

theorem dropWhileEnd_dropWhileEnd (p : Char → Bool) (cs : List Char) :
    dropWhileEnd p (dropWhileEnd p cs) = dropWhileEnd p cs :=
  List.rdropWhile_idempotent p cs

theorem trim_dropWhile (cs : List Char) : trim (cs.dropWhile isBlank) = trim cs := by
  rw [trim, List.dropWhile_idempotent]
  rfl

theorem trim_dropWhileEnd (cs : List Char) : trim (dropWhileEnd isBlank cs) = trim cs := by
  rw [trim, dropWhile_dropWhileEnd, dropWhileEnd_dropWhileEnd]
  rfl

theorem trim_trim (cs : List Char) : trim (trim cs) = trim cs := by
  have outer : trim (trim cs) = trim (cs.dropWhile isBlank) := trim_dropWhileEnd _
  rw [outer, trim_dropWhile]

variable {sep : Char} {cs a b : List Char}

theorem splitOnce_none : splitOnce sep cs = none ↔ sep ∉ cs := by
  induction cs with
  | nil => simp [splitOnce]
  | cons c cs ih =>
    unfold splitOnce
    by_cases h : c = sep
    · simp [h]
    · have h' : ¬ sep = c := fun e => h e.symm
      simp [h, h', ih]

/-- The text is cut at the first separator. -/
theorem splitOnce_some : splitOnce sep cs = some (a, b) ↔ cs = a ++ sep :: b ∧ sep ∉ a := by
  induction cs generalizing a with
  | nil => simp [splitOnce]
  | cons c cs ih =>
    unfold splitOnce
    by_cases h : c = sep
    · rw [if_pos h]
      constructor
      · intro e
        cases e
        exact ⟨by rw [h]; rfl, List.not_mem_nil⟩
      · rintro ⟨e, absent⟩
        cases a with
        | nil =>
          cases e
          rfl
        | cons a₀ a =>
          cases e
          exact absurd (h ▸ List.mem_cons_self) absent
    · rw [if_neg h]
      constructor
      · intro e
        obtain ⟨⟨a', b'⟩, he, e⟩ := Option.map_eq_some_iff.mp e
        cases e
        obtain ⟨rfl, absent⟩ := ih.mp he
        refine ⟨rfl, ?_⟩
        intro member
        rcases List.mem_cons.mp member with here | later
        · exact h here.symm
        · exact absent later
      · rintro ⟨e, absent⟩
        cases a with
        | nil =>
          cases e
          exact absurd rfl h
        | cons a₀ a =>
          cases e
          have rest := ih.mpr ⟨rfl, fun m => absent (List.mem_cons_of_mem _ m)⟩
          rw [rest]
          rfl

/-- A separator that is no blank cuts the trimmed text where it cuts the text. -/
theorem splitOnce_trim (h : isBlank sep = false) (cut : splitOnce sep cs = some (a, b)) :
    splitOnce sep (trim cs) = some (a.dropWhile isBlank, dropWhileEnd isBlank b) := by
  obtain ⟨rfl, absent⟩ := splitOnce_some.mp cut
  have stays : ¬ isBlank sep = true := by simp [h]
  have front : (a ++ sep :: b).dropWhile isBlank = a.dropWhile isBlank ++ sep :: b := by
    rw [List.dropWhile_append]
    split
    · rename_i empty
      rw [List.isEmpty_iff.mp empty, List.dropWhile_cons_of_neg stays]
      rfl
    · rfl
  have back : ∀ as : List Char, dropWhileEnd isBlank (as ++ sep :: b) =
      as ++ sep :: dropWhileEnd isBlank b := by
    intro as
    induction as with
    | nil =>
      rw [List.nil_append, List.nil_append, dropWhileEnd_cons, if_neg (fun e => stays e.2)]
    | cons c as ih =>
      rw [List.cons_append, dropWhileEnd_cons, ih, if_neg (by simp)]
      rfl
  rw [splitOnce_some, trim, front, back]
  exact ⟨rfl, fun m => absent (List.dropWhile_suffix _ |>.subset m)⟩

theorem splitOnce_trim_none (cut : splitOnce sep cs = none) : splitOnce sep (trim cs) = none := by
  rw [splitOnce_none] at cut ⊢
  intro m
  apply cut
  have inner : sep ∈ cs.dropWhile isBlank := (List.rdropWhile_prefix isBlank _).subset m
  exact (List.dropWhile_suffix _).subset inner

section Ends

variable {α : Type} {read : List Char → Option α}

/-- What a text names: one thing, which is then both ends, or two with a hyphen between them. -/
def ends? (read : List Char → Option α) (cs : List Char) : Option (α × α) :=
  match splitOnce '-' cs with
  | none => (read cs).map fun a => (a, a)
  | some (low, high) => (read low).bind fun a => (read high).map fun b => (a, b)

theorem ends?_whole (whole : splitOnce '-' cs = none) : ends? read cs = (read cs).map fun a => (a, a) := by
  rw [ends?, whole]

theorem ends?_parts (cut : splitOnce '-' cs = some (a, b)) :
    ends? read cs = (read a).bind fun x => (read b).map fun y => (x, y) := by
  rw [ends?, cut]

/-- Blanks around a text do not change what it names, if they do not around its parts. -/
theorem ends?_trim (blanks : ∀ cs, read (trim cs) = read cs) (cs : List Char) :
    ends? read (trim cs) = ends? read cs := by
  cases cut : splitOnce '-' cs with
  | none => rw [ends?_whole cut, ends?_whole (splitOnce_trim_none cut), blanks]
  | some parts =>
    obtain ⟨low, high⟩ := parts
    have front : read (low.dropWhile isBlank) = read low := by
      rw [← blanks, trim_dropWhile, blanks]
    have back : read (dropWhileEnd isBlank high) = read high := by
      rw [← blanks, trim_dropWhileEnd, blanks]
    rw [ends?_parts cut, ends?_parts (splitOnce_trim (by decide) cut), front, back]

end Ends

theorem dropWhile_eq_self {p : Char → Bool} (h : ∀ c ∈ cs, p c = false) : cs.dropWhile p = cs := by
  cases cs with
  | nil => rfl
  | cons c cs =>
    have stays : ¬ p c = true := by simp [h c List.mem_cons_self]
    exact List.dropWhile_cons_of_neg stays

/-- Trimming keeps every character that is no blank. -/
theorem mem_trim (h : isBlank sep = false) : sep ∈ trim cs ↔ sep ∈ cs := by
  constructor
  · intro inside
    by_contra absent
    exact splitOnce_none.mp (splitOnce_trim_none (splitOnce_none.mpr absent)) inside
  · intro inside
    by_contra absent
    cases cut : splitOnce sep cs with
    | none => exact splitOnce_none.mp cut inside
    | some ab =>
      have kept := splitOnce_trim h cut
      rw [splitOnce_none.mpr absent] at kept
      cases kept

/-- A text without blanks is its own trimmed form. -/
theorem trim_eq_self (h : ∀ c ∈ cs, isBlank c = false) : trim cs = cs := by
  have reversed : ∀ c ∈ cs.reverse, isBlank c = false := fun c hc => h c (List.mem_reverse.mp hc)
  rw [trim, dropWhile_eq_self h, dropWhileEnd, dropWhile_eq_self reversed, List.reverse_reverse]

section Pieces

variable {p : Char → Bool} {w : List Char}

/-- A piece goes up to the first character that cuts. -/
theorem pieces_append (h : ∀ c ∈ w, p c = false) (cut : p sep = true) :
    pieces p (w ++ sep :: cs) = w :: pieces p cs := by
  induction w with
  | nil =>
    rw [List.nil_append, pieces, if_pos cut]
  | cons c w ih =>
    have rest := ih fun d hd => h d (List.mem_cons_of_mem c hd)
    rw [List.cons_append, pieces, h c List.mem_cons_self, if_neg Bool.false_ne_true, rest]

theorem pieces_single (h : ∀ c ∈ w, p c = false) : pieces p w = [w] := by
  induction w with
  | nil => rfl
  | cons c w ih =>
    have rest := ih fun d hd => h d (List.mem_cons_of_mem c hd)
    rw [pieces, h c List.mem_cons_self, if_neg Bool.false_ne_true, rest]

/-- Every character that does not cut is in a piece. -/
theorem mem_pieces {c : Char} (h : c ∈ cs) (stays : p c = false) : ∃ w ∈ pieces p cs, c ∈ w := by
  induction cs with
  | nil => cases h
  | cons d cs ih =>
    unfold pieces
    rcases List.mem_cons.mp h with rfl | later
    · rw [stays, if_neg Bool.false_ne_true]
      cases pieces p cs with
      | nil => exact ⟨[c], List.mem_cons_self, List.mem_cons_self⟩
      | cons w ws => exact ⟨c :: w, List.mem_cons_self, List.mem_cons_self⟩
    · obtain ⟨w, hw, hc⟩ := ih later
      split
      · exact ⟨w, List.mem_cons_of_mem _ hw, hc⟩
      · cases hp : pieces p cs with
        | nil =>
          rw [hp] at hw
          cases hw
        | cons v vs =>
          rw [hp] at hw
          rcases List.mem_cons.mp hw with rfl | later
          · exact ⟨d :: w, List.mem_cons_self, List.mem_cons_of_mem d hc⟩
          · exact ⟨w, List.mem_cons_of_mem _ later, hc⟩

theorem beq_of_not_mem (h : sep ∉ cs) : ∀ c ∈ cs, (c == sep) = false := by
  intro c hc
  rw [beq_eq_false_iff_ne]
  rintro rfl
  exact h hc

theorem pieces_ne_nil (p : Char → Bool) (cs : List Char) : pieces p cs ≠ [] := by
  cases cs with
  | nil => exact List.cons_ne_nil _ _
  | cons c cs =>
    unfold pieces
    split
    · exact List.cons_ne_nil _ _
    · split <;> exact List.cons_ne_nil _ _

/-- A text is in one piece if nothing cuts it. -/
theorem pieces_one (h : pieces (· == sep) cs = [w]) : cs = w ∧ sep ∉ cs := by
  cases cut : splitOnce sep cs with
  | none =>
    have absent := splitOnce_none.mp cut
    rw [pieces_single (beq_of_not_mem absent)] at h
    exact ⟨(List.cons.inj h).1, absent⟩
  | some ab =>
    obtain ⟨rfl, absent⟩ := splitOnce_some.mp cut
    rw [pieces_append (beq_of_not_mem absent) (beq_self_eq_true sep)] at h
    exact absurd (List.cons.inj h).2 (pieces_ne_nil _ _)

/-- A text in two pieces is cut once. -/
theorem pieces_two (h : pieces (· == sep) cs = [a, b]) : cs = a ++ sep :: b ∧ sep ∉ a ∧ sep ∉ b := by
  cases cut : splitOnce sep cs with
  | none =>
    rw [pieces_single (beq_of_not_mem (splitOnce_none.mp cut))] at h
    cases h
  | some ab =>
    obtain ⟨rfl, absent⟩ := splitOnce_some.mp cut
    rw [pieces_append (beq_of_not_mem absent) (beq_self_eq_true sep)] at h
    obtain ⟨rfl, rest⟩ := List.cons.inj h
    obtain ⟨whole, last⟩ := pieces_one rest
    exact ⟨by rw [whole], absent, whole ▸ last⟩

end Pieces

end Firewall.Text
