import Firewall.Proofs.RegisterSafety
import Firewall.Proofs.Rendering

namespace Firewall

/-- A loaded field and the masks that were applied to it, each with the bits that it flips, the last first. -/
structure Origin where
  field : Field
  masks : List (List UInt8 × List UInt8)
  deriving DecidableEq, Repr

namespace Origin

/-- What the masks make of a value of the field. -/
def value (x : Origin) (bs : List UInt8) : List UInt8 :=
  x.masks.foldr (fun m bs => maskBytes bs m.1 m.2) bs

/-- Field and masks have `width` bytes. -/
def Wide (x : Origin) (width : Nat) : Prop :=
  x.field.length.toNat = width ∧ ∀ m ∈ x.masks, m.1.length = width ∧ m.2.length = width

/-- The masks flip no bits. -/
def Plain (x : Origin) : Prop := ∀ m ∈ x.masks, ∀ b ∈ m.2, b = 0

end Origin

/-- Where the bytes of each register come from; `none` if not from a packet. -/
abbrev Origins := Register → Option Origin

def Origins.set (o : Origins) (reg : Register) (x : Option Origin) : Origins :=
  fun q => if q = reg then x else o q

/-- Where the bytes come from behind an operation. -/
def Op.origins (o : Origins) : Op → Origins
  | .load field reg => o.set reg (some ⟨field, []⟩)
  | .bitwise source target _ mask xor =>
    o.set target ((o source).map fun x => { x with masks := (mask, xor) :: x.masks })
  | .immediate reg _ => o.set reg none
  | .compare _ _ _ | .lookup _ _ _ | .nat _ _ _ _ | .limit _ | .counter | .verdict _ => o

namespace Program

/-- Where the bytes come from behind a fragment. -/
def originsFrom (o : Origins) : Program → Origins
  | [] => o
  | op :: ops => originsFrom (op.origins o) ops

/-- Where the bytes of a register come from behind a fragment that starts a program. -/
def origin? (f : Program) (reg : Register) : Option Origin := originsFrom (fun _ => none) f reg

section Runs

variable {members : Members} {p : Packet} {o : Origins} {r r' : Registers} {op : Op} {f : Program}

/-- The registers hold what a packet has of the fields that they come from, under the masks. -/
def Traced (p : Packet) (o : Origins) (r : Registers) : Prop :=
  ∀ reg x, o reg = some x → (p.field? x.field).map x.value = some (r reg)

theorem Traced.set (traced : Traced p o r) {reg : Register} {x : Option Origin} {bs : List UInt8}
    (h : ∀ y, x = some y → (p.field? y.field).map y.value = some bs) :
    Traced p (o.set reg x) (r.set reg bs) := by
  intro q y found
  unfold Origins.set at found
  unfold Registers.set
  split at found
  · rename_i here
    rw [if_pos here]
    exact h y found
  · rename_i elsewhere
    rw [if_neg elsewhere]
    exact traced q y found

theorem Traced.step (traced : Traced p o r) (stepped : op.step members p r = .next r') :
    Traced p (op.origins o) r' := by
  have guarded : ∀ {b : Bool}, Step.guard b r = .next r' → Traced p o r' := by
    intro b passed
    cases b with
    | true =>
      cases passed
      exact traced
    | false => cases passed
  cases op with
  | load field reg =>
    rw [Op.step] at stepped
    split at stepped
    · rename_i value found
      cases stepped
      refine traced.set fun y loaded => ?_
      cases loaded
      rw [found]
      rfl
    · cases stepped
  | bitwise source target length mask xor =>
    cases stepped
    refine traced.set fun y masked => ?_
    obtain ⟨x, held, rfl⟩ := Option.map_eq_some_iff.mp masked
    obtain ⟨bs, found, same⟩ := Option.map_eq_some_iff.mp (traced source x held)
    rw [found, ← same]
    rfl
  | immediate reg data =>
    cases stepped
    refine traced.set fun y absent => ?_
    cases absent
  | compare | lookup | limit => exact guarded stepped
  | counter =>
    cases stepped
    exact traced
  | nat | verdict => cases stepped

theorem Traced.pass (traced : Traced p o r) (passed : pass members p r f = some r') :
    Traced p (originsFrom o f) r' := by
  induction f generalizing o r with
  | nil =>
    cases passed
    exact traced
  | cons op f ih =>
    rw [Program.pass] at passed
    split at passed
    · rename_i r₁ stepped
      exact ih (traced.step stepped) passed
    · cases passed

/-- A run that gets past a fragment holds in each register what the packet has of its origin. -/
theorem pass_origin {reg : Register} {x : Origin} (passed : pass members p r f = some r')
    (held : origin? f reg = some x) : (p.field? x.field).map x.value = some (r' reg) := by
  have nothing : Traced p (fun _ => none) r := by
    intro q y found
    cases found
  exact nothing.pass passed reg x held

end Runs

section Widths

variable {family : Family} {pos : Nat} {s s' : Slots} {o : Origins} {op : Op} {f : Program}

def Slots.sample (s : Slots) : Registers := fun reg => List.replicate ((s reg).elim 0 Slot.length) 0

theorem Slots.sample_length {reg : Register} {slot : Slot} (known : s reg = some slot) :
    (s.sample reg).length = slot.length := by
  rw [sample, known, List.length_replicate]
  rfl

theorem Checked.sample_fits (checked : Checked s op s') : op.Fits s.sample :=
  checked.operands s.sample fun _ _ known => Slots.sample_length known

/-- The check knows the width of the fields that the registers come from, and of their masks. -/
def Sized (o : Origins) (s : Slots) : Prop :=
  ∀ reg x, o reg = some x → ∀ slot, s reg = some slot → x.Wide slot.length ∧ slot.length ≤ Register.width

theorem Sized.step (sized : Sized o s) (checked : Checked s op s') : Sized (op.origins o) s' := by
  have kept : ∀ reg x slot, o reg = some x → s' reg = some slot →
      (∀ width, op.write? ≠ some (reg, width)) → x.Wide slot.length ∧ slot.length ≤ Register.width := by
    intro reg x slot held found unwritten
    rcases checked.known reg slot found with written | ⟨-, before, there, same⟩
    · exact absurd written (unwritten _)
    · rw [← same]
      exact sized reg x held before there
  have silent : op.write? = none → Sized o s' := by
    intro none reg x held slot found
    refine kept reg x slot held found fun width written => ?_
    rw [none] at written
    cases written
  -- What an operation has written is as wide as it says; all else is as before.
  have written : ∀ {target width y}, op.write? = some (target, width) →
      (∀ x, y = some x → x.Wide width) → Sized (o.set target y) s' := by
    intro target width y writes wide reg x held slot found
    unfold Origins.set at held
    split at held
    · rename_i here
      subst here
      rcases checked.known reg slot found with same | ⟨unwritten, -⟩
      · cases writes.symm.trans same
        exact ⟨wide x held, checked.fits _ _ same⟩
      · exact absurd writes (unwritten width)
    · rename_i elsewhere
      refine kept reg x slot held found fun width' same => ?_
      cases writes.symm.trans same
      exact elsewhere rfl
  cases op with
  | load field reg =>
    refine written rfl fun x loaded => ?_
    cases loaded
    exact ⟨rfl, fun m member => absurd member List.not_mem_nil⟩
  | bitwise source target length mask xor =>
    refine written rfl fun y masked => ?_
    obtain ⟨x, held, rfl⟩ := Option.map_eq_some_iff.mp masked
    obtain ⟨slot, known⟩ := checked.reads source List.mem_cons_self
    obtain ⟨⟨field, masks⟩, -⟩ := sized source x held slot known
    obtain ⟨all, here, flipped, -⟩ := checked.sample_fits
    rw [Slots.sample_length known] at all here flipped
    rw [all]
    refine ⟨field, fun m member => ?_⟩
    rcases List.mem_cons.mp member with rfl | earlier
    · exact ⟨here, flipped⟩
    · exact masks m earlier
  | immediate reg data =>
    refine written rfl fun x absent => ?_
    cases absent
  | compare | lookup | nat | limit | counter | verdict => exact silent rfl

theorem Sized.follow (sized : Sized o s) (followed : checkOps family pos s f = .ok s') :
    Sized (originsFrom o f) s' := by
  induction f generalizing pos s o with
  | nil =>
    cases followed
    exact sized
  | cons op f ih =>
    obtain ⟨s₁, checked, rest⟩ := checkOps_cons followed
    exact ih (sized.step checked) rest

/-- Where a checked program comes to a comparison, the data are as wide as the field, and so are the masks. -/
theorem compare_wide {program front rest : Program} {c : Comparison} {reg : Register} {data : List UInt8}
    {x : Origin} (checked : program.validate family = .ok ())
    (split : program = front ++ .compare c reg data :: rest) (held : origin? front reg = some x) :
    x.Wide data.length ∧ data.length ≤ Register.width := by
  obtain ⟨body, last, s, whole, -, -, followed⟩ := validate_ok checked
  rw [split] at followed
  obtain ⟨s₁, before, behind⟩ := checkOps_split followed
  obtain ⟨s₂, here, -⟩ := checkOps_cons behind
  obtain ⟨slot, known⟩ := here.reads reg List.mem_cons_self
  have nothing : Sized (fun _ => none) (fun _ => none) := by
    intro q y found
    cases found
  have fits : data.length = (s₁.sample reg).length := here.sample_fits
  rw [fits, Slots.sample_length known]
  exact nothing.follow before reg x held slot known

end Widths

end Program

namespace Nft

open Program

section Rendering

variable {table : Table} {sets : List AnonymousSet} {o : Origins} {s s' : Slots} {op : Op} {f : Program}
  {pos : Nat} {js : List Json}

/-- The renderer knows what the fields mean that the registers come from, and the last mask of each. -/
def Shows (table : Table) (o : Origins) (s : Slots) : Prop :=
  ∀ reg m mask, s reg = some (.field m mask) → ∃ x, o reg = some x ∧ x.Plain ∧
    m = .of table.family.profile x.field ∧ mask = x.masks.head?.map Prod.fst

theorem Shows.set (shows : Shows table o s) {reg : Register} {slot : Option Slot} {x : Option Origin}
    (h : ∀ m mask, slot = some (.field m mask) → ∃ y, x = some y ∧ y.Plain ∧
      m = .of table.family.profile y.field ∧ mask = y.masks.head?.map Prod.fst) :
    Shows table (o.set reg x) (s.set reg slot) := by
  intro q m mask found
  unfold Slots.set at found
  unfold Origins.set
  split at found
  · rename_i here
    rw [if_pos here]
    exact h m mask found
  · rename_i elsewhere
    rw [if_neg elsewhere]
    exact shows q m mask found

/-- What is taken out of a register is not there any more. -/
theorem Shows.taken (shows : Shows table o s) (reg : Register) : Shows table o (s.set reg none) := by
  intro q m mask found
  unfold Slots.set at found
  split at found
  · cases found
  · exact shows q m mask found

theorem natStatement_shows {kind : NatKind} {address port : Option Register} (shows : Shows table o s)
    (h : natStatement s kind address port = .ok (js, s')) : Shows table o s' := by
  have addressed : ∀ {members s₁}, natAddress s address = .ok (members, s₁) → Shows table o s₁ := by
    intro members s₁ taken
    cases address with
    | none =>
      cases taken
      exact shows
    | some reg =>
      rw [natAddress] at taken
      split at taken
      · cases taken
      · split at taken
        · cases taken
          exact shows.taken reg
        · cases taken
  have ported : ∀ {s₁ members s₂}, Shows table o s₁ → natPort s₁ port = .ok (members, s₂) →
      Shows table o s₂ := by
    intro s₁ members s₂ before taken
    cases port with
    | none =>
      cases taken
      exact before
    | some reg =>
      rw [natPort] at taken
      split at taken
      · cases taken
      · cases taken
        exact before.taken reg
  rw [natStatement] at h
  split at h
  · cases h
  · rename_i first
    split at h
    · cases h
    · rename_i second
      cases h
      exact ported (addressed first) second

theorem Shows.step (shows : Shows table o s) (rendered : renderOp table sets s op = .ok (js, s')) :
    Shows table (op.origins o) s' := by
  cases op with
  | load field reg =>
    cases rendered
    refine shows.set fun m mask loaded => ?_
    cases loaded
    exact ⟨_, rfl, fun m member => absurd member List.not_mem_nil, rfl, rfl⟩
  | bitwise source target length mask xor =>
    rw [renderOp] at rendered
    split at rendered
    · cases rendered
    · rename_i plain
      have zero : ∀ b ∈ xor, b = 0 := by simpa using plain
      split at rendered
      · cases rendered
      · cases rendered
      · rename_i m previous held
        cases rendered
        obtain ⟨x, known, before, rfl, -⟩ := shows source m previous held
        refine (shows.taken source).set fun m mask masked => ?_
        cases masked
        refine ⟨{ x with masks := (mask, xor) :: x.masks }, ?_, fun m member => ?_, rfl, rfl⟩
        · rw [known]
          rfl
        rcases List.mem_cons.mp member with rfl | earlier
        · exact zero
        · exact before m earlier
  | compare c reg data =>
    rw [renderOp] at rendered
    split at rendered
    · cases rendered
    · cases rendered
    · cases rendered
      exact shows.taken reg
  | lookup reg set invert =>
    rw [renderOp] at rendered
    split at rendered
    · cases rendered
    · cases rendered
      exact shows.taken reg
    · cases rendered
  | immediate reg data =>
    cases rendered
    refine shows.set fun m mask absent => ?_
    cases absent
  | nat kind family address port => exact natStatement_shows shows rendered
  | limit | counter | verdict =>
    cases rendered
    exact shows

/-- The statements of a program are those of its beginning, of an operation and of what is behind it. -/
theorem renderOps_split {rest : Program} (shows : Shows table o s)
    (rendered : renderOps table sets pos s (f ++ op :: rest) = .ok js) :
    ∃ front here behind s₁ s₂, renderOps table sets pos s f = .ok front ∧
      renderOp table sets s₁ op = .ok (here, s₂) ∧ js = front ++ here ++ behind ∧
      Shows table (originsFrom o f) s₁ := by
  induction f generalizing pos s o js with
  | nil =>
    rw [List.nil_append, renderOps] at rendered
    split at rendered
    · cases rendered
    · rename_i here s₂ stepped
      split at rendered
      · rename_i behind later
        cases rendered
        exact ⟨[], here, behind, s, s₂, rfl, stepped, rfl, shows⟩
      · cases rendered
  | cons first f ih =>
    rw [List.cons_append, renderOps] at rendered
    split at rendered
    · cases rendered
    · rename_i start s₁ stepped
      split at rendered
      · rename_i back later
        cases rendered
        obtain ⟨front, here, behind, s₂, s₃, before, now, rfl, known⟩ := ih (shows.step stepped) later
        refine ⟨start ++ front, here, behind, s₂, s₃, ?_, now, ?_, known⟩
        · rw [renderOps_cons stepped, before]
          rfl
        · simp only [List.append_assoc]
      · cases rendered

/-- What is known of the registers where a rendered program comes to an operation. -/
theorem renderProgram_split {program front rest : Program}
    (rendered : renderProgram table sets program = .ok js) (split : program = front ++ op :: rest) :
    ∃ before here behind s₁ s₂, renderProgram table sets front = .ok before ∧
      renderOp table sets s₁ op = .ok (here, s₂) ∧ js = before ++ here ++ behind ∧
      Shows table (origin? front) s₁ := by
  have nothing : Shows table (fun _ => none) fun _ => none := by
    intro q m mask found
    cases found
  rw [split] at rendered
  exact renderOps_split nothing rendered

/-- A comparison is one statement, about the field that its register comes from under the last of its masks.
None of the masks flips bits. -/
theorem renders_comparison {program front rest : Program} {c : Comparison} {reg : Register} {data : List UInt8}
    (rendered : renderProgram table sets program = .ok js)
    (split : program = front ++ .compare c reg data :: rest) :
    ∃ before behind x, renderProgram table sets front = .ok before ∧
      js = before ++ compareStatement table.family.profile c (.of table.family.profile x.field)
        (x.masks.head?.map Prod.fst) data :: behind ∧ origin? front reg = some x ∧ x.Plain := by
  obtain ⟨before, here, behind, s₁, s₂, first, stepped, rfl, shows⟩ := renderProgram_split rendered split
  rw [renderOp] at stepped
  split at stepped
  · cases stepped
  · cases stepped
  · rename_i m mask held
    cases stepped
    obtain ⟨x, known, plain, rfl, rfl⟩ := shows reg m mask held
    exact ⟨before, behind, x, first, (List.append_cons before _ behind).symm, known, plain⟩

/-- A lookup is one statement, about the field that its register comes from without a mask. -/
theorem renders_membership {program front rest : Program} {reg : Register} {set : SetRef} {invert : Bool}
    (rendered : renderProgram table sets program = .ok js)
    (split : program = front ++ .lookup reg set invert :: rest) :
    ∃ before behind x, renderProgram table sets front = .ok before ∧
      js = before ++ matchStatement (Comparison.equal invert).symbol
        (Meaning.expr table.family.profile (.of table.family.profile x.field))
        (lookupTarget sets table set.name) :: behind ∧ origin? front reg = some x ∧ x.masks = [] := by
  obtain ⟨before, here, behind, s₁, s₂, first, stepped, rfl, shows⟩ := renderProgram_split rendered split
  rw [renderOp] at stepped
  split at stepped
  · cases stepped
  · rename_i m held
    cases stepped
    obtain ⟨x, known, -, rfl, unmasked⟩ := shows reg m none held
    have bare : x.masks = [] := by simpa using unmasked
    exact ⟨before, behind, x, first, (List.append_cons before _ behind).symm, known, bare⟩
  · cases stepped

end Rendering

end Nft
end Firewall
