import Firewall.Discovery
import Firewall.Proofs.NumberText
import Mathlib.Data.Char
import Mathlib.Data.List.Lex
import Mathlib.Data.Prod.Lex
import Mathlib.Logic.Relation
import Mathlib.Order.Bounds.Basic

namespace Firewall

namespace Text

def hexDigits : List Char := "0123456789abcdef".toList

def hexValue (c : Char) : Nat := hexDigits.idxOf c.toLower

/-- The number that hexadecimal digits spell. -/
def hexSpelled (ds : List Char) : Nat := Nat.ofDigits 16 (ds.reverse.map hexValue)

/-- The hexadecimal texts of a number. -/
inductive IsHexNumber (n : Nat) : List Char → Prop where
  | bare {ds : List Char} (some : ds ≠ []) (digits : ∀ c ∈ ds, c.toLower ∈ hexDigits)
    (value : hexSpelled ds = n) : IsHexNumber n ds
  | signed {ds : List Char} (some : ds ≠ []) (digits : ∀ c ∈ ds, c.toLower ∈ hexDigits)
    (value : hexSpelled ds = n) : IsHexNumber n ('+' :: ds)

theorem hexDigit?_ascii : ∀ n < 128, hexDigit? (Char.ofNat n) =
    if (Char.ofNat n).toLower ∈ hexDigits then some (hexValue (Char.ofNat n)) else none := by
  decide +kernel

theorem hexDigits_ascii : ∀ c ∈ hexDigits, c.toNat < 128 := by
  have all : hexDigits.all (fun c => c.toNat < 128) = true := by decide
  exact fun c member => of_decide_eq_true (List.all_eq_true.mp all c member)

theorem toLower_beyond {c : Char} (beyond : ¬c.toNat < 128) : c.toLower = c := by
  unfold Char.toLower
  split
  · rename_i upper
    have low := UInt32.le_iff_toNat_le.mp upper.2
    exact absurd (Nat.lt_of_le_of_lt low (by decide)) beyond
  · rfl

theorem hexDigit?_beyond {c : Char} (beyond : ¬c.toNat < 128) : hexDigit? c = none := by
  have above : ∀ d : Char, d.toNat < 128 → ¬c ≤ d := fun d small le =>
    beyond (Nat.lt_of_le_of_lt (UInt32.le_iff_toNat_le.mp le) small)
  simp [hexDigit?, above '9' (by decide), above 'f' (by decide), above 'F' (by decide)]

theorem hexDigit?_eq (c : Char) :
    hexDigit? c = if c.toLower ∈ hexDigits then some (hexValue c) else none := by
  by_cases ascii : c.toNat < 128
  · have read := hexDigit?_ascii c.toNat ascii
    rwa [Char.ofNat_toNat] at read
  · have none : c ∉ hexDigits := fun member => ascii (hexDigits_ascii c member)
    rw [hexDigit?_beyond ascii, toLower_beyond ascii, if_neg none]

theorem hexNumber?_iff {max n : Nat} {cs : List Char} :
    hexNumber? max cs = some n ↔ IsHexNumber n cs ∧ n ≤ max := by
  rw [hexNumber?, Option.filter_eq_some_iff, decide_eq_true_iff,
    digits?_dropPlus_iff hexDigit?_eq (by decide)]
  simp only [digits?_iff hexDigit?_eq]
  refine and_congr_left fun _ => ⟨?_, fun number => ?_⟩
  · rintro (⟨some, digits, value⟩ | ⟨ds, rfl, some, digits, value⟩)
    · exact .bare some digits value
    · exact .signed some digits value
  · cases number with
    | bare some digits value => exact .inl ⟨some, digits, value⟩
    | signed some digits value => exact .inr ⟨_, rfl, some, digits, value⟩

end Text

namespace Discovery

namespace Route

def key (r : Route) : Nat ×ₗ List Char := toLex (r.metric, r.interface)

theorem key_inj {a b : Route} (same : a.key = b.key) : a = b := by
  obtain ⟨m, i⟩ := a
  obtain ⟨m', i'⟩ := b
  cases toLex.injective same
  rfl

theorem before_iff {a b : Route} : a.before b = true ↔ a.key < b.key := by
  rw [key, key, Prod.Lex.toLex_lt_toLex]
  simp [before]

end Route

theorem best?_none {rs : List Route} : best? rs = none ↔ rs = [] := by
  cases rs with
  | nil => exact ⟨fun _ => rfl, fun _ => rfl⟩
  | cons r rs =>
    refine ⟨fun h => ?_, nofun⟩
    unfold best? at h
    split at h
    · cases h
    · split at h <;> cases h

theorem best?_some {rs : List Route} {b : Route} (h : best? rs = some b) :
    b ∈ rs ∧ ∀ r ∈ rs, b.key ≤ r.key := by
  induction rs generalizing b with
  | nil => cases h
  | cons r rs ih =>
    unfold best? at h
    split at h
    · rename_i last
      cases h
      rw [best?_none.mp last]
      simp
    · rename_i later found
      obtain ⟨there, least⟩ := ih found
      split at h
      · rename_i before
        cases h
        have less := Route.before_iff.mp before
        exact ⟨List.mem_cons_of_mem r there, List.forall_mem_cons.mpr ⟨less.le, least⟩⟩
      · rename_i before
        cases h
        have more := not_lt.mp (mt Route.before_iff.mpr before)
        exact ⟨List.mem_cons_self, List.forall_mem_cons.mpr ⟨le_refl _, fun s hs => more.trans (least s hs)⟩⟩

/-- Exactly the route with the least key is chosen. -/
theorem best?_iff {rs : List Route} {b : Route} :
    best? rs = some b ↔ b ∈ rs ∧ ∀ r ∈ rs, b.key ≤ r.key := by
  refine ⟨best?_some, fun ⟨there, least⟩ => ?_⟩
  cases found : best? rs with
  | none =>
    rw [best?_none.mp found] at there
    cases there
  | some c =>
    obtain ⟨there', least'⟩ := best?_some found
    rw [Route.key_inj (le_antisymm (least' b there) (least c there'))]

/-- A line of the IPv4 table that describes a route: at least eight fields, with the interface, destination and
mask zero, flags that say the route is up, and the metric. -/
structure Describes4 (line : List Char) (r : Route) : Prop where
  enough : 8 ≤ (Text.fields line).length
  interface : (Text.fields line)[0]? = some r.interface
  destination : (Text.fields line)[1]? = some "00000000".toList
  up : ∃ text flags, (Text.fields line)[3]? = some text ∧ Text.IsHexNumber flags text ∧ flags < 2 ^ 32 ∧
    flags.testBit 0 = true
  metric : ∃ text, (Text.fields line)[6]? = some text ∧ Text.IsNumber r.metric text ∧ r.metric < 2 ^ 32
  mask : (Text.fields line)[7]? = some "00000000".toList

/-- A line of the IPv6 table that describes a route: at least ten fields, with destination and its length zero,
the metric in hexadecimal, and an interface other than the loopback interface. -/
structure Describes6 (line : List Char) (r : Route) : Prop where
  enough : 10 ≤ (Text.fields line).length
  destination : (Text.fields line)[0]? = some "00000000000000000000000000000000".toList
  length : (Text.fields line)[1]? = some "00".toList
  metric : ∃ text, (Text.fields line)[5]? = some text ∧ Text.IsHexNumber r.metric text ∧ r.metric < 2 ^ 32
  interface : (Text.fields line)[9]? = some r.interface
  reachable : r.interface ≠ "lo".toList

theorem odd_iff {n : Nat} : n % 2 = 1 ↔ n.testBit 0 = true := by
  rw [Nat.testBit_zero, decide_eq_true_iff]

theorem route4?_iff {line : List Char} {r : Route} : route4? line = some r ↔ Describes4 line r := by
  obtain ⟨metric, interface⟩ := r
  constructor
  · intro h
    unfold route4? at h
    split at h
    · rename_i i destination _ flags _ _ number mask _ parts
      split at h
      · rename_i zero
        split at h
        · rename_i bits value readFlags readMetric
          split at h
          · rename_i odd
            cases h
            obtain ⟨up, boundFlags⟩ := Text.hexNumber?_iff.mp readFlags
            obtain ⟨amount, bound⟩ := Text.number?_iff.mp readMetric
            exact
              { enough := by simp [parts]
                interface := by rw [parts]; rfl
                destination := by rw [parts, zero.1]; rfl
                up := ⟨flags, bits, by rw [parts]; rfl, up, Nat.lt_succ_of_le boundFlags, odd_iff.mp odd⟩
                metric := ⟨number, by rw [parts]; rfl, amount, Nat.lt_succ_of_le bound⟩
                mask := by rw [parts, zero.2]; rfl }
          · cases h
        · cases h
      · cases h
    · cases h
  · rintro ⟨enough, interface, destination, ⟨flags, bits, third, up, boundFlags, odd⟩,
      ⟨number, sixth, amount, bound⟩, mask⟩
    unfold route4?
    match parts : Text.fields line with
    | i :: d :: a :: f :: b :: c :: m :: k :: more =>
      simp only [parts, List.getElem?_cons_succ, List.getElem?_cons_zero, Option.some.injEq] at *
      subst i d f m k
      rw [Text.hexNumber?_iff.mpr ⟨up, Nat.le_of_lt_succ boundFlags⟩,
        Text.number?_iff.mpr ⟨amount, Nat.le_of_lt_succ bound⟩]
      simp [odd_iff.mpr odd]
    | [] | [_] | [_, _] | [_, _, _] | [_, _, _, _] | [_, _, _, _, _] | [_, _, _, _, _, _] | [_, _, _, _, _, _, _] =>
      simp [parts] at enough

theorem route6?_iff {line : List Char} {r : Route} : route6? line = some r ↔ Describes6 line r := by
  obtain ⟨metric, interface⟩ := r
  constructor
  · intro h
    unfold route6? at h
    split at h
    · rename_i destination length _ _ _ number _ _ _ i _ parts
      split at h
      · rename_i zero
        obtain ⟨value, read, same⟩ := Option.map_eq_some_iff.mp h
        cases same
        obtain ⟨amount, bound⟩ := Text.hexNumber?_iff.mp read
        exact
          { enough := by simp [parts]
            destination := by rw [parts, zero.1]; rfl
            length := by rw [parts, zero.2.1]; rfl
            metric := ⟨number, by rw [parts]; rfl, amount, Nat.lt_succ_of_le bound⟩
            interface := by rw [parts]; rfl
            reachable := zero.2.2 }
      · cases h
    · cases h
  · rintro ⟨enough, destination, length, ⟨number, fifth, amount, bound⟩, interface, reachable⟩
    unfold route6?
    match parts : Text.fields line with
    | d :: l :: a :: b :: c :: m :: e :: f :: g :: i :: more =>
      simp only [parts, List.getElem?_cons_succ, List.getElem?_cons_zero, Option.some.injEq] at *
      subst d l m i
      rw [Text.hexNumber?_iff.mpr ⟨amount, Nat.le_of_lt_succ bound⟩]
      exact if_pos ⟨rfl, rfl, reachable⟩
    | [] | [_] | [_, _] | [_, _, _] | [_, _, _, _] | [_, _, _, _, _] | [_, _, _, _, _, _] | [_, _, _, _, _, _, _]
    | [_, _, _, _, _, _, _, _] | [_, _, _, _, _, _, _, _, _] =>
      simp [parts] at enough

/-- What the routes that rows describe are compared by. -/
def routes (describes : List Char → Route → Prop) (rows : List (List Char)) : Set (Nat ×ₗ List Char) :=
  {k | ∃ line ∈ rows, ∃ r, describes line r ∧ r.key = k}

/-- A change of rows that leaves the routes they describe: another order, a row once more, or a row that
describes none. -/
inductive Reworks (describes : List Char → Route → Prop) : List (List Char) → List (List Char) → Prop where
  | reordered {rows rows' : List (List Char)} (same : rows.Perm rows') : Reworks describes rows rows'
  | repeated {front back : List (List Char)} {line : List Char} (there : line ∈ front ++ back) :
    Reworks describes (front ++ back) (front ++ line :: back)
  | inserted {front back : List (List Char)} {line : List Char} (idle : ∀ r, ¬describes line r) :
    Reworks describes (front ++ back) (front ++ line :: back)

section Choice

variable {describes : List Char → Route → Prop} {rows rows' : List (List Char)}

/-- The rows that describe a route are the same. -/
theorem Reworks.described (reworks : Reworks describes rows rows') {line : List Char} {r : Route}
    (described : describes line r) : line ∈ rows ↔ line ∈ rows' := by
  cases reworks with
  | reordered same => exact same.mem_iff
  | @repeated front back line' there =>
    rw [List.mem_append, List.mem_append, List.mem_cons]
    constructor
    · exact Or.imp_right .inr
    · rintro (before | rfl | behind)
      · exact .inl before
      · exact List.mem_append.mp there
      · exact .inr behind
  | @inserted front back line' idle =>
    rw [List.mem_append, List.mem_append, List.mem_cons]
    constructor
    · exact Or.imp_right .inr
    · rintro (before | rfl | behind)
      · exact .inl before
      · exact absurd described (idle r)
      · exact .inr behind

/-- So they are after any number of changes, made or taken back. -/
theorem described_of_reworked (reworked : Relation.EqvGen (Reworks describes) rows rows') {line : List Char}
    {r : Route} (described : describes line r) : line ∈ rows ↔ line ∈ rows' := by
  induction reworked with
  | rel _ _ reworks => exact reworks.described described
  | refl _ => rfl
  | symm _ _ _ ih => exact ih.symm
  | trans _ _ _ _ _ first second => exact first.trans second

variable {route? : List Char → Option Route} (reads : ∀ {line r}, route? line = some r ↔ describes line r)
include reads

theorem mem_routes {k : Nat ×ₗ List Char} :
    k ∈ routes describes rows ↔ ∃ r ∈ rows.filterMap route?, r.key = k := by
  simp only [routes, Set.mem_ofPred_eq, List.mem_filterMap, reads]
  constructor
  · rintro ⟨line, there, r, described, same⟩
    exact ⟨r, ⟨line, there, described⟩, same⟩
  · rintro ⟨r, ⟨line, there, described⟩, same⟩
    exact ⟨line, there, r, described, same⟩

theorem best?_isLeast {b : Route} :
    best? (rows.filterMap route?) = some b ↔ IsLeast (routes describes rows) b.key := by
  rw [best?_iff]
  constructor
  · rintro ⟨there, least⟩
    refine ⟨(mem_routes reads).mpr ⟨b, there, rfl⟩, fun k hk => ?_⟩
    obtain ⟨r, hr, rfl⟩ := (mem_routes reads).mp hk
    exact least r hr
  · rintro ⟨there, least⟩
    obtain ⟨r, hr, same⟩ := (mem_routes reads).mp there
    exact ⟨Route.key_inj same ▸ hr, fun r hr => least ((mem_routes reads).mpr ⟨r, hr, rfl⟩)⟩

theorem best?_empty :
    best? (rows.filterMap route?) = none ↔ ∀ line ∈ rows, ∀ r, ¬describes line r := by
  rw [best?_none, List.filterMap_eq_nil_iff]
  refine forall₂_congr fun line _ => ?_
  rw [Option.eq_none_iff_forall_ne_some]
  exact forall_congr' fun r => not_congr reads

theorem best?_congr (same : ∀ {line r}, describes line r → (line ∈ rows ↔ line ∈ rows')) :
    best? (rows.filterMap route?) = best? (rows'.filterMap route?) := by
  have routes_eq : routes describes rows = routes describes rows' := by
    ext k
    refine exists_congr fun line => ?_
    constructor
    · rintro ⟨there, r, described, key⟩
      exact ⟨(same described).mp there, r, described, key⟩
    · rintro ⟨there, r, described, key⟩
      exact ⟨(same described).mpr there, r, described, key⟩
  refine Option.ext fun b => ?_
  rw [best?_isLeast reads, best?_isLeast reads, routes_eq]

end Choice

/-- The choice of the interface of the least route among those that the rows of a table describe. -/
structure ChoosesLeast (describes : List Char → Route → Prop) (rows : String → List (List Char))
    (interface? : String → Option String) : Prop where
  chosen : ∀ table name, interface? table = some name ↔
    ∃ metric, IsLeast (routes describes (rows table)) (toLex (metric, name.toList))
  absent : ∀ table, interface? table = none ↔ ∀ line ∈ rows table, ∀ r, ¬describes line r
  reworked : ∀ table table', Relation.EqvGen (Reworks describes) (rows table) (rows table') →
    interface? table = interface? table'

theorem choosesLeast {describes : List Char → Route → Prop} {route? : List Char → Option Route}
    (reads : ∀ {line r}, route? line = some r ↔ describes line r) (rows : String → List (List Char)) :
    ChoosesLeast describes rows fun table =>
      (best? ((rows table).filterMap route?)).map fun r => String.ofList r.interface where
  chosen table name := by
    rw [Option.map_eq_some_iff]
    constructor
    · rintro ⟨r, best, rfl⟩
      exact ⟨r.metric, by rw [String.toList_ofList]; exact (best?_isLeast reads).mp best⟩
    · rintro ⟨metric, least⟩
      exact ⟨⟨metric, name.toList⟩, (best?_isLeast reads).mpr least, String.ofList_toList⟩
  absent table := by rw [Option.map_eq_none_iff, best?_empty reads]
  reworked table table' reworked := by
    rw [best?_congr reads (described_of_reworked reworked)]

def rows4 (table : String) : List (List Char) := (Text.lines table.toList).drop 1

theorem rows4_ofList (cs : List Char) : rows4 (String.ofList cs) = (Text.lines cs).drop 1 := by
  rw [rows4, String.toList_ofList]

def rows6 (table : String) : List (List Char) := Text.lines table.toList

/-- In every text, the interface that is read as that of the default route is the one of the least metric and, of
these, of the least name, and there is none exactly if no line describes a route. Lines may change their order, be
repeated or be joined by lines that describe no route. -/
theorem default_route_least :
    ChoosesLeast Describes4 rows4 defaultInterface4? ∧ ChoosesLeast Describes6 rows6 defaultInterface6? :=
  ⟨choosesLeast route4?_iff rows4, choosesLeast route6?_iff rows6⟩

def wirelessRow : List Char := "wlan0\t00000000\t0\t0003\t0\t0\t600\t00000000".toList

def wiredRow : List Char := "eth0\t00000000\t0\t0003\t0\t0\t+100\t00000000\t0".toList

def downRow : List Char := "eth9\t00000000\t0\t2\t0\t0\t1\t00000000".toList

def plainTable : String := String.ofList ("Iface\n".toList ++ wirelessRow ++ '\n' :: wiredRow)

def reworkedTable : String :=
  String.ofList ('\n' :: wiredRow ++ '\n' :: downRow ++ '\n' :: wirelessRow ++ '\n' :: wirelessRow ++ ['\n'])

theorem default_route_least_reworked :
    defaultInterface4? plainTable = some "eth0" ∧ defaultInterface4? reworkedTable = some "eth0" ∧
      ∃ metric, IsLeast (routes Describes4 (rows4 reworkedTable)) (toLex (metric, "eth0".toList)) := by
  have plain : rows4 plainTable = [wirelessRow, wiredRow] := (rows4_ofList _).trans (by decide +kernel)
  have reworked : rows4 reworkedTable = [wiredRow, downRow, wirelessRow, wirelessRow] :=
    (rows4_ofList _).trans (by decide +kernel)
  have down : route4? downRow = none := by decide +kernel
  have wireless : route4? wirelessRow = some ⟨600, "wlan0".toList⟩ := by decide +kernel
  have wired : route4? wiredRow = some ⟨100, "eth0".toList⟩ := by decide +kernel
  have swap : Reworks Describes4 [wirelessRow, wiredRow] [wiredRow, wirelessRow] := .reordered (.swap _ _ [])
  have insert : Reworks Describes4 ([wiredRow] ++ [wirelessRow]) ([wiredRow] ++ downRow :: [wirelessRow]) :=
    .inserted fun r described => by
      rw [route4?_iff.mpr described] at down
      cases down
  have repeated : Reworks Describes4 ([wiredRow, downRow] ++ [wirelessRow])
      ([wiredRow, downRow] ++ wirelessRow :: [wirelessRow]) := .repeated (by simp)
  have changes : Relation.EqvGen (Reworks Describes4) (rows4 plainTable) (rows4 reworkedTable) := by
    rw [plain, reworked]
    exact .trans _ _ _ (.rel _ _ swap) (.trans _ _ _ (.rel _ _ insert) (.rel _ _ repeated))
  obtain ⟨least, -⟩ := default_route_least
  have answer : defaultInterface4? plainTable = some "eth0" := by
    show (best? ((rows4 plainTable).filterMap route4?)).map _ = _
    rw [plain, List.filterMap_cons_some wireless, List.filterMap_cons_some wired]
    decide +kernel
  have same := least.reworked plainTable reworkedTable changes
  rw [answer] at same
  exact ⟨answer, same.symm, (least.chosen reworkedTable "eth0").mp same.symm⟩

end Discovery
end Firewall
