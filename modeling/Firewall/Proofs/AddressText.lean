import Firewall.Address.Text
import Firewall.Proofs.Numeral
import Firewall.Proofs.Text

namespace Firewall.Address

open Text

theorem octet?_decimal {n : Nat} (h : n < 256) : octet? (decimal n) = some n := by
  have short : (decimal n).length ≤ 3 :=
    decimal_numerals.length_le (Nat.lt_of_lt_of_le h (by decide))
  unfold octet?
  split
  · rename_i c cs e
    have zero : n = 0 := decimal_numerals.head_zero e
    rw [zero, decimal_numerals.small 0 (by decide)] at e
    cases e
  · rw [if_pos short, decimal_numerals.digits?_numeral, Option.filter_some,
      if_pos (decide_eq_true h)]

theorem group?_hex {n : Nat} (h : n < 65536) : group? (hex n) = some n := by
  have short : (hex n).length ≤ 4 := hex_numerals.length_le (Nat.lt_of_lt_of_le h (by decide))
  rw [group?, if_pos short, hex_numerals.digits?_numeral]

/-- Characters that are no digits are in no numeral. -/
theorem digits?_none {digit? : Char → Option Nat} {base : Nat} {c : Char} {cs : List Char}
    (h : c ∈ cs) (other : digit? c = none) : digits? digit? base cs = none := by
  have from_none : ∀ acc, digitsFrom digit? base acc cs = none := by
    induction cs with
    | nil => cases h
    | cons d cs ih =>
      intro acc
      unfold digitsFrom
      rcases List.mem_cons.mp h with rfl | later
      · rw [other]
      · cases digit? d with
        | none => rfl
        | some n => exact ih later _
  cases cs with
  | nil => cases h
  | cons d cs => exact from_none 0

section Dotted

theorem dot_not_mem (n : Nat) : ∀ c ∈ decimal n, (c == '.') = false := by
  intro c hc
  rw [beq_eq_false_iff_ne]
  rintro rfl
  exact decimal_numerals.not_mem (by decide) n hc

theorem dotted?_dotted (b : BitVec 32) : dotted? (dotted b) = some b := by
  have bound : b.toNat < 0x100000000 := b.isLt
  unfold dotted? dotted
  dsimp only
  rw [pieces_append (dot_not_mem _) rfl, pieces_append (dot_not_mem _) rfl,
    pieces_append (dot_not_mem _) rfl, pieces_single (dot_not_mem _)]
  simp only [List.map_cons, List.map_nil]
  rw [octet?_decimal (by omega), octet?_decimal (by omega), octet?_decimal (by omega),
    octet?_decimal (by omega)]
  have value : ((b.toNat / 0x1000000 * 256 + b.toNat / 0x10000 % 256) * 256 +
      b.toNat / 0x100 % 256) * 256 + b.toNat % 256 = b.toNat := by omega
  dsimp only
  rw [ofOctets, value, BitVec.ofNat_toNat, BitVec.setWidth_eq]

/-- A text with a character that is neither a digit nor a dot is no IPv4 address. -/
theorem dotted?_foreign {c : Char} {cs : List Char} (h : c ∈ cs) (digit : decimalDigit? c = none)
    (dot : (c == '.') = false) : dotted? cs = none := by
  obtain ⟨w, hw, hc⟩ := mem_pieces h (p := (· == '.')) dot
  have unread : octet? w = none := by
    unfold octet?
    split
    · rfl
    · rw [digits?_none hc digit]
      simp
  unfold dotted?
  split
  · rename_i e
    have member : octet? w ∈ (pieces (· == '.') cs).map octet? := List.mem_map_of_mem hw
    rw [e, unread] at member
    simp at member
  · rfl

/-- A text with a colon is no IPv4 address. -/
theorem dotted?_colon {cs : List Char} (h : ':' ∈ cs) : dotted? cs = none :=
  dotted?_foreign h (by decide) (by decide)

/-- A text without a dot is no IPv4 address. -/
theorem dotted?_plain {cs : List Char} (h : ∀ c ∈ cs, (c == '.') = false) : dotted? cs = none := by
  rw [dotted?, pieces_single h, List.map_cons, List.map_nil]
  cases octet? cs <;> rfl

end Dotted

section Groups

theorem colon_not_mem (n : Nat) : ∀ c ∈ hex n, (c == ':') = false := by
  intro c hc
  rw [beq_eq_false_iff_ne]
  rintro rfl
  exact hex_numerals.not_mem (by decide) n hc

theorem joinGroups_cons (g : Nat) (g' : Nat) (gs : List Nat) :
    joinGroups (g :: g' :: gs) = hex g ++ ':' :: joinGroups (g' :: gs) := by
  simp [joinGroups]

theorem joinGroups_single (g : Nat) : joinGroups [g] = hex g := by
  simp [joinGroups]

theorem pieces_joinGroups (g : Nat) (gs : List Nat) :
    pieces (· == ':') (joinGroups (g :: gs)) = (g :: gs).map hex := by
  induction gs generalizing g with
  | nil =>
    rw [joinGroups_single, pieces_single (colon_not_mem g)]
    rfl
  | cons g' gs ih =>
    rw [joinGroups_cons, pieces_append (colon_not_mem g) rfl, ih]
    rfl

theorem groups?_hex {gs : List Nat} (h : ∀ g ∈ gs, g < 65536) : groups? (gs.map hex) = some gs := by
  induction gs with
  | nil => rfl
  | cons g gs ih =>
    have here := group?_hex (h g List.mem_cons_self)
    have rest := ih fun g' hg => h g' (List.mem_cons_of_mem g hg)
    cases gs with
    | nil =>
      rw [List.map_cons, List.map_nil, groups?, here]
    | cons g' gs =>
      rw [List.map_cons] at rest
      rw [List.map_cons, List.map_cons, groups?.eq_3 _ _ (List.cons_ne_nil _ _), here, rest]
      rfl

theorem joinGroups_ne_nil (g : Nat) (gs : List Nat) : joinGroups (g :: gs) ≠ [] := by
  intro e
  have pieces := pieces_joinGroups g gs
  rw [e] at pieces
  have empty : hex g = [] := (List.cons.inj pieces).1.symm
  exact hex_numerals.ne_nil g empty

theorem groupsOf?_join {gs : List Nat} (h : ∀ g ∈ gs, g < 65536) :
    groupsOf? (joinGroups gs) = some gs := by
  cases gs with
  | nil => rfl
  | cons g gs =>
    have some : (joinGroups (g :: gs)).isEmpty = false := by
      rw [List.isEmpty_eq_false_iff]
      exact joinGroups_ne_nil g gs
    rw [groupsOf?, some, if_neg Bool.false_ne_true, pieces_joinGroups, groups?_hex h]

/-- Before the first colon there is no gap. -/
theorem splitAtGap_append {w cs : List Char} (h : ∀ c ∈ w, (c == ':') = false) :
    splitAtGap (w ++ cs) = (splitAtGap cs).map fun (a, b) => (w ++ a, b) := by
  induction w with
  | nil =>
    rw [List.nil_append]
    cases splitAtGap cs with
    | none => rfl
    | some split => rfl
  | cons c w ih =>
    have rest := ih fun d hd => h d (List.mem_cons_of_mem c hd)
    have plain : c ≠ ':' := beq_eq_false_iff_ne.mp (h c List.mem_cons_self)
    rw [List.cons_append, splitAtGap.eq_2 _ _ (fun _ e _ => plain e), rest]
    cases splitAtGap cs with
    | none => rfl
    | some split => rfl

/-- A colon in front of a group is no gap. -/
theorem splitAtGap_colon (g : Nat) (gs : List Nat) (cs : List Char) :
    splitAtGap (':' :: (joinGroups (g :: gs) ++ cs)) =
      (splitAtGap (joinGroups (g :: gs) ++ cs)).map fun (a, b) => (':' :: a, b) := by
  apply splitAtGap.eq_2
  intro _ rest e
  have first : ∃ c w, joinGroups (g :: gs) = c :: w ∧ c ≠ ':' := by
    have start : ∃ c w, hex g = c :: w := List.exists_cons_of_ne_nil (hex_numerals.ne_nil g)
    obtain ⟨c, w, hw⟩ := start
    have plain : c ≠ ':' :=
      beq_eq_false_iff_ne.mp (colon_not_mem g c (by rw [hw]; exact List.mem_cons_self))
    cases gs with
    | nil => exact ⟨c, w, by rw [joinGroups_single, hw], plain⟩
    | cons g' gs => exact ⟨c, _, by rw [joinGroups_cons, hw]; rfl, plain⟩
  obtain ⟨c, w, hw, plain⟩ := first
  rw [hw] at e
  exact plain (List.cons.inj e).1

theorem splitAtGap_join (fs : List Nat) (back : List Char) :
    splitAtGap (joinGroups fs ++ ':' :: ':' :: back) = some (joinGroups fs, back) := by
  induction fs with
  | nil => rfl
  | cons f fs ih =>
    cases fs with
    | nil =>
      rw [joinGroups_single, splitAtGap_append (colon_not_mem f)]
      show some (hex f ++ [], back) = _
      rw [List.append_nil]
    | cons f' fs =>
      rw [joinGroups_cons, List.append_assoc, splitAtGap_append (colon_not_mem f), List.cons_append,
        splitAtGap_colon, ih]
      rfl

theorem splitAtGap_joined (gs : List Nat) : splitAtGap (joinGroups gs) = none := by
  induction gs with
  | nil => rfl
  | cons g gs ih =>
    cases gs with
    | nil =>
      have whole : splitAtGap (hex g ++ []) = _ := splitAtGap_append (colon_not_mem g)
      rw [List.append_nil] at whole
      rw [joinGroups_single, whole]
      rfl
    | cons g' gs =>
      have colon := splitAtGap_colon g' gs []
      rw [List.append_nil, ih] at colon
      rw [joinGroups_cons, splitAtGap_append (colon_not_mem g), colon]
      rfl

end Groups

section Runs

theorem leadingZeros_spec (gs : List Nat) :
    leadingZeros gs ≤ gs.length ∧
      gs = List.replicate (leadingZeros gs) 0 ++ gs.drop (leadingZeros gs) := by
  induction gs with
  | nil => exact ⟨Nat.le_refl 0, rfl⟩
  | cons g gs ih =>
    cases g with
    | zero =>
      refine ⟨Nat.succ_le_succ ih.1, ?_⟩
      show 0 :: gs = 0 :: (List.replicate (leadingZeros gs) 0 ++ gs.drop (leadingZeros gs))
      rw [← ih.2]
    | succ g => exact ⟨Nat.zero_le _, rfl⟩

/-- The longest run lies within the list and holds zeros only. -/
theorem longestRun_spec (gs : List Nat) (pos : Nat) :
    ∃ start, (longestRun pos gs).1 = pos + start ∧ start + (longestRun pos gs).2 ≤ gs.length ∧
      gs = gs.take start ++
        (List.replicate (longestRun pos gs).2 0 ++ gs.drop (start + (longestRun pos gs).2)) := by
  induction gs generalizing pos with
  | nil => exact ⟨0, rfl, Nat.le_refl 0, rfl⟩
  | cons g gs ih =>
    unfold longestRun
    dsimp only
    split
    · obtain ⟨bound, zeros⟩ := leadingZeros_spec (g :: gs)
      refine ⟨0, rfl, ?_, ?_⟩
      · rw [Nat.zero_add]
        exact bound
      · rw [Nat.zero_add]
        exact zeros
    · obtain ⟨start, first, bound, whole⟩ := ih (pos + 1)
      refine ⟨start + 1, ?_, ?_, ?_⟩
      · rw [first]
        omega
      · rw [List.length_cons]
        omega
      · have later : start + 1 + (longestRun (pos + 1) gs).2 =
            start + (longestRun (pos + 1) gs).2 + 1 := by omega
        rw [later, List.take_succ_cons, List.drop_succ_cons, List.cons_append, ← whole]

theorem groups_length (b : BitVec 128) : (groups b).length = 8 := by simp [groups]

theorem groups_lt (b : BitVec 128) : ∀ g ∈ groups b, g < 65536 := by
  intro g hg
  obtain ⟨i, -, rfl⟩ := List.mem_map.mp hg
  exact Nat.mod_lt _ (by decide)

/-- Groups of sixteen bits spell the lower part of a number behind what they are appended to. -/
theorem foldl_groups (n k acc : Nat) :
    ((List.range k).map fun i => (n >>> (16 * (k - 1 - i))) % 65536).foldl
      (fun acc g => acc * 65536 + g) acc = acc * 65536 ^ k + n % 65536 ^ k := by
  induction k generalizing acc with
  | zero => simp [Nat.mod_one]
  | succ k ih =>
    have rest : ((List.range k).map Nat.succ).map
        (fun i => (n >>> (16 * (k + 1 - 1 - i))) % 65536) =
          (List.range k).map fun i => (n >>> (16 * (k - 1 - i))) % 65536 := by
      rw [List.map_map]
      apply List.map_congr_left
      intro i hi
      have inside : k + 1 - 1 - (i + 1) = k - 1 - i := by omega
      show (n >>> (16 * (k + 1 - 1 - (i + 1)))) % 65536 = _
      rw [inside]
    have first : n >>> (16 * (k + 1 - 1 - 0)) = n / 65536 ^ k := by
      rw [Nat.shiftRight_eq_div_pow, Nat.add_sub_cancel, Nat.sub_zero, Nat.pow_mul]
    rw [List.range_succ_eq_map, List.map_cons, List.foldl_cons, rest, ih, first, Nat.pow_succ,
      Nat.mod_mul]
    rw [Nat.add_mul, Nat.mul_assoc, Nat.mul_comm 65536, Nat.mul_comm (n / 65536 ^ k % 65536),
      Nat.add_assoc, Nat.add_comm (65536 ^ k * _)]

/-- The groups of an address spell it. -/
theorem ofGroups_groups (b : BitVec 128) : ofGroups (groups b) = b := by
  have value : (groups b).foldl (fun acc g => acc * 65536 + g) 0 = b.toNat := by
    have spelled := foldl_groups b.toNat 8 0
    have bound : b.toNat < 65536 ^ 8 := b.isLt
    rw [Nat.zero_mul, Nat.zero_add, Nat.mod_eq_of_lt bound] at spelled
    exact spelled
  rw [ofGroups, value, BitVec.ofNat_toNat, BitVec.setWidth_eq]

end Runs

section Parse

variable {fs bs : List Nat} {back : List Char}

/-- Two colons stand for the groups that are missing. -/
theorem colons?_gap (front : ∀ g ∈ fs, g < 65536) (read : groupsOf? back = some bs)
    (few : fs.length + bs.length ≤ 7) :
    colons? (joinGroups fs ++ ':' :: ':' :: back) =
      some (ofGroups (fs ++ List.replicate (8 - fs.length - bs.length) 0 ++ bs)) := by
  have noDot : (joinGroups fs).contains '.' = false := by
    rw [List.contains_eq_mem, decide_eq_false_iff_not]
    induction fs with
    | nil => exact List.not_mem_nil
    | cons f fs ih =>
      have tail := ih (fun g hg => front g (List.mem_cons_of_mem f hg))
        (by rw [List.length_cons] at few; omega)
      intro dot
      cases fs with
      | nil =>
        rw [joinGroups_single] at dot
        exact hex_numerals.not_mem (by decide) f dot
      | cons f' fs =>
        rw [joinGroups_cons, List.mem_append] at dot
        rcases dot with here | later
        · exact hex_numerals.not_mem (by decide) f here
        · rcases List.mem_cons.mp later with colon | later
          · cases colon
          · exact tail later
  rw [colons?, splitAtGap_join]
  dsimp only
  rw [groupsOf?_join front, read]
  dsimp only
  rw [noDot, if_pos ⟨few, rfl⟩]

/-- An address that stands for an IPv4 address ends in the dotted form. -/
theorem groupsOf?_mapped (v : BitVec 32) :
    groupsOf? ('f' :: 'f' :: 'f' :: 'f' :: ':' :: dotted v) =
      some [0xFFFF, v.toNat / 65536, v.toNat % 65536] := by
  have notGroup : group? (dotted v) = none := by
    have dot : '.' ∈ dotted v := by simp [dotted]
    rw [group?, digits?_none dot (by decide), ite_self]
  have noColon : ∀ c ∈ dotted v, (c == ':') = false := by
    intro c hc
    rw [beq_eq_false_iff_ne]
    rintro rfl
    have unread := dotted?_colon hc
    rw [dotted?_dotted] at unread
    cases unread
  have ones : ∀ c ∈ ['f', 'f', 'f', 'f'], (c == ':') = false := by simp
  have cut : pieces (· == ':') (['f', 'f', 'f', 'f'] ++ ':' :: dotted v) =
      [['f', 'f', 'f', 'f'], dotted v] := by
    rw [pieces_append ones rfl, pieces_single noColon]
  have first : group? ['f', 'f', 'f', 'f'] = some 0xFFFF := by decide
  show (if (['f', 'f', 'f', 'f'] ++ ':' :: dotted v).isEmpty then some []
    else groups? (pieces (· == ':') (['f', 'f', 'f', 'f'] ++ ':' :: dotted v))) = _
  rw [cut, groups?.eq_3 _ _ (List.cons_ne_nil _ _), first]
  dsimp only
  rw [groups?, notGroup]
  dsimp only
  rw [dotted?_dotted]
  rfl

theorem colons?_mapped {b : BitVec 128} (h : isMapped b = true) :
    colons? (':' :: ':' :: 'f' :: 'f' :: 'f' :: 'f' :: ':' :: dotted (b.setWidth 32)) = some b := by
  have high : b.toNat >>> 32 = 0xFFFF := eq_of_beq h
  rw [Nat.shiftRight_eq_div_pow] at high
  have low : (b.setWidth 32).toNat = b.toNat % 2 ^ 32 := BitVec.toNat_setWidth 32 b
  have gap : colons? (joinGroups [] ++
      ':' :: ':' :: ('f' :: 'f' :: 'f' :: 'f' :: ':' :: dotted (b.setWidth 32))) = some (ofGroups _) :=
    colons?_gap (fun g hg => absurd hg List.not_mem_nil) (groupsOf?_mapped _)
      (Nat.le_of_ble_eq_true rfl)
  have spelled : ([0, 0, 0, 0, 0, 0xFFFF, b.toNat % 2 ^ 32 / 65536, b.toNat % 2 ^ 32 % 65536]).foldl
      (fun acc g => acc * 65536 + g) 0 = b.toNat := by
    simp only [List.foldl_cons, List.foldl_nil]
    omega
  have whole : ofGroups ([0, 0, 0, 0, 0, 0xFFFF, b.toNat % 2 ^ 32 / 65536,
      b.toNat % 2 ^ 32 % 65536]) = b := by
    rw [ofGroups, spelled, BitVec.ofNat_toNat, BitVec.setWidth_eq]
  rw [low] at gap
  exact gap.trans (congrArg some whole)

theorem colons?_colons (b : BitVec 128) : colons? (colons b) = some b := by
  unfold colons
  split
  · rename_i mapped
    exact colons?_mapped mapped
  · obtain ⟨start, first, bound, whole⟩ := longestRun_spec (groups b) 0
    rw [Nat.zero_add] at first
    rw [groups_length] at bound
    dsimp only
    rw [first]
    split
    · rename_i two
      have front : ∀ g ∈ (groups b).take start, g < 65536 :=
        fun g hg => groups_lt b g (List.mem_of_mem_take hg)
      have back : ∀ g ∈ (groups b).drop (start + (longestRun 0 (groups b)).2), g < 65536 :=
        fun g hg => groups_lt b g (List.mem_of_mem_drop hg)
      have few : ((groups b).take start).length +
          ((groups b).drop (start + (longestRun 0 (groups b)).2)).length ≤ 7 := by
        rw [List.length_take, List.length_drop, groups_length]
        omega
      have missing : 8 - ((groups b).take start).length -
          ((groups b).drop (start + (longestRun 0 (groups b)).2)).length =
            (longestRun 0 (groups b)).2 := by
        rw [List.length_take, List.length_drop, groups_length]
        omega
      rw [colons?_gap front (groupsOf?_join back) few, missing, List.append_assoc, ← whole,
        ofGroups_groups]
    · rw [colons?, splitAtGap_joined]
      dsimp only
      rw [groupsOf?_join (groups_lt b)]
      dsimp only
      rw [if_pos (groups_length b), ofGroups_groups]

theorem colon_mem_colons (b : BitVec 128) : ':' ∈ colons b := by
  unfold colons
  split
  · exact List.mem_cons_self
  · dsimp only
    split
    · simp
    · have long : 2 ≤ (groups b).length := by
        rw [groups_length]
        decide
      match groups b, long with
      | g :: g' :: gs, _ =>
        rw [joinGroups_cons]
        simp

def isAddressChar (c : Char) : Bool := (hexDigit? c).isSome || c == '.' || c == ':'

theorem decimalDigit_hex {c : Char} (h : (decimalDigit? c).isSome = true) :
    (hexDigit? c).isSome = true := by
  unfold decimalDigit? at h
  unfold hexDigit?
  split at h
  · rename_i digit
    rw [if_pos digit]
    rfl
  · cases h

theorem dotted_chars (b : BitVec 32) : ∀ c ∈ dotted b, isAddressChar c = true := by
  have digits : ∀ n, ∀ c ∈ decimal n, isAddressChar c = true := by
    intro n c hc
    rw [isAddressChar, decimalDigit_hex (decimal_numerals.isSome_digit n c hc)]
    rfl
  intro c hc
  simp only [dotted, List.mem_append, List.mem_cons] at hc
  rcases hc with a | rfl | b | rfl | c | rfl | d
  · exact digits _ _ a
  · rfl
  · exact digits _ _ b
  · rfl
  · exact digits _ _ c
  · rfl
  · exact digits _ _ d

theorem joinGroups_chars (gs : List Nat) : ∀ c ∈ joinGroups gs, isAddressChar c = true := by
  have digits : ∀ n, ∀ c ∈ hex n, isAddressChar c = true := by
    intro n c hc
    rw [isAddressChar, hex_numerals.isSome_digit n c hc]
    rfl
  induction gs with
  | nil => exact fun c hc => absurd hc List.not_mem_nil
  | cons g gs ih =>
    intro c hc
    cases gs with
    | nil =>
      rw [joinGroups_single] at hc
      exact digits g c hc
    | cons g' gs =>
      rw [joinGroups_cons, List.mem_append, List.mem_cons] at hc
      rcases hc with here | rfl | later
      · exact digits g c here
      · rfl
      · exact ih c later

theorem chars_address (a : Address) : ∀ c ∈ a.chars, isAddressChar c = true := by
  cases a with
  | v4 b => exact dotted_chars b
  | v6 b =>
    intro c hc
    have text : c ∈ colons b := hc
    unfold colons at text
    split at text
    · simp only [List.mem_cons] at text
      rcases text with rfl | rfl | rfl | rfl | rfl | rfl | rfl | rest
      · rfl
      · rfl
      · decide
      · decide
      · decide
      · decide
      · rfl
      · exact dotted_chars _ c rest
    · dsimp only at text
      split at text
      · simp only [List.mem_append, List.mem_cons] at text
        rcases text with front | rfl | rfl | back
        · exact joinGroups_chars _ c front
        · rfl
        · rfl
        · exact joinGroups_chars _ c back
      · exact joinGroups_chars _ c text

/-- A character that is in no address text. -/
theorem not_mem_chars {c : Char} (h : isAddressChar c = false) (a : Address) : c ∉ a.chars := by
  intro member
  rw [chars_address a c member] at h
  cases h

theorem isAddressChar_blank {c : Char} (h : isAddressChar c = true) : isBlank c = false := by
  have codes : (48 ≤ c.toNat ∧ c.toNat ≤ 57) ∨ (97 ≤ c.toNat ∧ c.toNat ≤ 102) ∨
      (65 ≤ c.toNat ∧ c.toNat ≤ 70) ∨ c.toNat = 46 ∨ c.toNat = 58 := by
    unfold isAddressChar hexDigit? at h
    simp only [Bool.or_eq_true, beq_iff_eq, Bool.and_eq_true, decide_eq_true_eq, Char.le_def] at h
    rcases h with (digit | rfl) | rfl
    · split at digit
      · rename_i range
        exact .inl range
      · split at digit
        · rename_i range
          exact .inr (.inl range)
        · split at digit
          · rename_i range
            exact .inr (.inr (.inl range))
          · cases digit
    · decide
    · decide
  rw [Bool.eq_false_iff]
  intro blank
  simp only [isBlank, Bool.or_eq_true, Bool.and_eq_true, decide_eq_true_eq, beq_iff_eq] at blank
  omega

/-- There are no blanks to be trimmed off an address. -/
theorem trim_chars (a : Address) : trim a.chars = a.chars :=
  trim_eq_self fun c hc => isAddressChar_blank (chars_address a c hc)

/-- Every address is read back from its text. -/
theorem parse?_chars (a : Address) : parse? a.chars = some a := by
  cases a with
  | v4 b =>
    show parse? (dotted b) = _
    rw [parse?, dotted?_dotted]
  | v6 b =>
    show parse? (colons b) = _
    rw [parse?, dotted?_colon (colon_mem_colons b)]
    dsimp only
    rw [colons?_colons]
    rfl

theorem splitAtGap_some {cs front back : List Char} (h : splitAtGap cs = some (front, back)) :
    cs = front ++ ':' :: ':' :: back := by
  induction cs generalizing front with
  | nil => cases h
  | cons c cs ih =>
    unfold splitAtGap at h
    split at h
    · cases h
      assumption
    · rename_i c' cs' _ same
      cases same
      obtain ⟨⟨a, b⟩, found, same⟩ := Option.map_eq_some_iff.mp h
      cases same
      rw [ih found, List.cons_append]
    · rename_i same
      cases same

section Foreign

variable {c : Char} {cs : List Char}

theorem isAddressChar_false (foreign : isAddressChar c = false) :
    hexDigit? c = none ∧ decimalDigit? c = none ∧ (c == '.') = false ∧ (c == ':') = false := by
  have hex : hexDigit? c = none := by
    cases digit : hexDigit? c with
    | none => rfl
    | some n =>
      rw [isAddressChar, digit] at foreign
      cases foreign
  rw [isAddressChar, hex] at foreign
  obtain ⟨dot, colon⟩ := Bool.or_eq_false_iff.mp foreign
  refine ⟨hex, ?_, dot, colon⟩
  cases digit : decimalDigit? c with
  | none => rfl
  | some n =>
    have known := decimalDigit_hex (Option.isSome_iff_exists.mpr ⟨n, digit⟩)
    rw [hex] at known
    cases known

theorem group?_foreign (hc : c ∈ cs) (foreign : isAddressChar c = false) : group? cs = none := by
  obtain ⟨hex, -, -, -⟩ := isAddressChar_false foreign
  rw [group?, digits?_none hc hex, ite_self]

theorem groups?_foreign {ws : List (List Char)} {w : List Char} (member : w ∈ ws) (hc : c ∈ w)
    (foreign : isAddressChar c = false) : groups? ws = none := by
  obtain ⟨-, digit, dot, -⟩ := isAddressChar_false foreign
  induction ws with
  | nil => cases member
  | cons v ws ih =>
    cases ws with
    | nil =>
      cases List.mem_singleton.mp member
      simp only [groups?, group?_foreign hc foreign, dotted?_foreign hc digit dot, Option.map_none]
    | cons v' ws =>
      rcases List.mem_cons.mp member with rfl | later
      · simp only [groups?, group?_foreign hc foreign]
      · rw [groups?.eq_3 _ _ (List.cons_ne_nil _ _), ih later]
        cases group? v <;> rfl

theorem groupsOf?_foreign (hc : c ∈ cs) (foreign : isAddressChar c = false) : groupsOf? cs = none := by
  obtain ⟨-, -, -, colon⟩ := isAddressChar_false foreign
  obtain ⟨w, hw, inside⟩ := mem_pieces hc (p := (· == ':')) colon
  rw [groupsOf?, if_neg, groups?_foreign hw inside foreign]
  rw [List.isEmpty_iff]
  exact List.ne_nil_of_mem hc

theorem colons?_foreign (hc : c ∈ cs) (foreign : isAddressChar c = false) : colons? cs = none := by
  obtain ⟨-, -, -, colon⟩ := isAddressChar_false foreign
  unfold colons?
  cases gap : splitAtGap cs with
  | none =>
    dsimp only
    rw [groupsOf?_foreign hc foreign]
  | some parts =>
    obtain ⟨front, back⟩ := parts
    have stays : c ≠ ':' := beq_eq_false_iff_ne.mp colon
    rw [splitAtGap_some gap, List.mem_append, List.mem_cons, List.mem_cons] at hc
    dsimp only
    rcases hc with first | here | here | last
    · rw [groupsOf?_foreign first foreign]
    · exact absurd here stays
    · exact absurd here stays
    · rw [groupsOf?_foreign last foreign]
      cases groupsOf? front <;> rfl

/-- A text with a character that is in no address is no address. -/
theorem parse?_foreign (hc : c ∈ cs) (foreign : isAddressChar c = false) : parse? cs = none := by
  obtain ⟨-, digit, dot, -⟩ := isAddressChar_false foreign
  rw [parse?, dotted?_foreign hc digit dot, colons?_foreign hc foreign]
  rfl

end Foreign

end Parse

end Firewall.Address

namespace Firewall.Network

open Text

/-- A network is read back from its address and its length. -/
theorem parse?_chars (n : Network) : parse? n.chars = some n := by
  obtain ⟨a, length, le⟩ := n
  have front : ∀ c ∈ a.chars, (c == '/') = false := by
    intro c hc
    rw [beq_eq_false_iff_ne]
    rintro rfl
    exact Address.not_mem_chars (by decide) a hc
  have back : ∀ c ∈ decimal length, (c == '/') = false := by
    intro c hc
    rw [beq_eq_false_iff_ne]
    rintro rfl
    exact decimal_numerals.not_mem (by decide) length hc
  have made : mk? a length = some ⟨a, length, le⟩ := dif_pos le
  rw [parse?, chars, pieces_append front rfl, pieces_single back]
  dsimp only
  rw [Address.parse?_chars]
  cases a with
  | v4 b =>
    have short : length ≤ 32 := le
    dsimp only
    rw [length4?, Address.dotted?_plain (Address.dot_not_mem length)]
    dsimp only
    rw [number?_decimal short]
    exact made
  | v6 b =>
    have short : length ≤ 128 := le
    dsimp only
    rw [number?_decimal short]
    exact made

end Firewall.Network
