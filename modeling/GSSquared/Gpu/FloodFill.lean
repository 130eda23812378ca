/-
What `FLOOD_FILL` fills. A turn of its loop takes a place off the stack and fills the run of its
row.
-/
import GSSquared.Gpu.DrawSafe
import GSSquared.Lib.Flood

set_option linter.all false

namespace GSSquared.Gpu

open Bits Signed Flood

namespace Frame

/-! ## Places -/

def Beside (p q : Int × Int) : Prop :=
  p.2 = q.2 ∧ (p.1 = q.1 + 1 ∨ q.1 = p.1 + 1) ∨ p.1 = q.1 ∧ (p.2 = q.2 + 1 ∨ q.2 = p.2 + 1)

theorem beside_symm (p q : Int × Int) (h : Beside p q) : Beside q p := by
  unfold Beside at *
  omega

/-- Where a pixel is in `uhr_fb`. -/
def place (p : Int × Int) : Int := p.2 * uhrW + p.1

def Open (border color : Byte) (f : Frame) (p : Int × Int) : Prop :=
  OnScreen p ∧ f.fillable border color p.1 p.2 = true

/-! ## The loop -/

abbrev Flooding : Type := List (Int × Int) × Frame

def floodTurn (border color : Byte) (s : Flooding) : Flooding :=
  match s with
  | ([], f) => ([], f)
  | ((x, y) :: stack, f) =>
    if f.fillable border color x y then
      let (lx, g) := scanLeft border color y x.toNat (f.look (y * uhrW + x))
      fillRight border color y (uhrW - lx) lx false false stack g
    else (stack, f.look (y * uhrW + x))

def floodTurns (border color : Byte) : Nat → Flooding → Flooding
  | 0, s => s
  | turns + 1, s => floodTurns border color turns (floodTurn border color s)

def floodStart (border color : Byte) (sx sy : Int) (f : Frame) : Flooding :=
  let sx := i16 sx
  let sy := i16 sy
  if sx < 0 ∨ uhrW ≤ sx ∨ sy < 0 ∨ uhrH ≤ sy then ([], f)
  else
    let f := f.look (sy * uhrW + sx)
    if f.fillable border color sx sy then ([(sx, sy)], f) else ([], f)

/-- The stack at a test of a neighbour: whether a push is wanted, and how many places it holds. -/
structure Ask where
  wanted : Bool
  depth : Nat

def rightAsks (border color : Byte) (y : Int) : Nat → Int → Bool → Bool → List (Int × Int) → Frame → List Ask
  | 0, _, _, _, stack, _ => [⟨false, stack.length⟩]
  | n + 1, rx, above, below, stack, f =>
    if f.fillable border color rx y then
      let f := (f.look (y * uhrW + rx)).store (y * uhrW + rx) color
      let ask : Ask := ⟨decide (0 < y) && f.fillable border color rx (y - 1) && !above, stack.length⟩
      let (above, stack, f) :=
        if 0 < y then f.seedRow border color rx (y - 1) above stack else (above, stack, f)
      let ask' : Ask := ⟨decide (y < uhrH - 1) && f.fillable border color rx (y + 1) && !below, stack.length⟩
      let (below, stack, f) :=
        if y < uhrH - 1 then f.seedRow border color rx (y + 1) below stack else (below, stack, f)
      ask :: ask' :: rightAsks border color y n (rx + 1) above below stack f
    else [⟨false, stack.length⟩]

def turnAsks (border color : Byte) (s : Flooding) : List Ask :=
  match s with
  | ([], _) => [⟨false, 0⟩]
  | ((x, y) :: stack, f) =>
    ⟨false, stack.length + 1⟩ ::
      if f.fillable border color x y then
        let (lx, g) := scanLeft border color y x.toNat (f.look (y * uhrW + x))
        rightAsks border color y (uhrW - lx) lx false false stack g
      else [⟨false, stack.length⟩]

variable {border color : Byte} {f g h : Frame} {x y v lx rx : Int} {rest l : List (Int × Int)} {a b : Bool}

theorem floodLoop_turns (turns : Nat) (s : Flooding) :
    floodLoop border color turns s.1 s.2 = (floodTurns border color turns s).2 := by
  induction turns generalizing s with
  | zero => rfl
  | succ turns ih =>
    obtain ⟨stack, f⟩ := s
    show _ = (floodTurns border color turns (floodTurn border color (stack, f))).2
    rw [← ih]
    cases stack with
    | nil =>
      cases turns with
      | zero => rfl
      | succ turns => rfl
    | cons p stack =>
      obtain ⟨x, y⟩ := p
      unfold floodTurn
      rw [floodLoop]
      dsimp only
      split
      · rfl
      · rfl

theorem floodFill_turns (turns : Nat) (border color : Byte) (sx sy : Int) (f : Frame) :
    floodFill turns border color sx sy f = (floodTurns border color turns (floodStart border color sx sy f)).2 := by
  rw [← floodLoop_turns]
  have hnone : ∀ g, floodLoop border color turns [] g = g := by
    intro g
    cases turns with
    | zero => rfl
    | succ turns => rfl
  unfold floodFill floodStart
  dsimp only
  split
  · exact (hnone f).symm
  · split
    · rfl
    · exact (hnone _).symm

/-! ## Pixels -/

theorem fillable_congr (hbytes : g.bytes (y * uhrW + x) = f.bytes (y * uhrW + x)) :
    g.fillable border color x y = f.fillable border color x y := by
  unfold fillable
  rw [hbytes]

theorem fillable_color (hbytes : g.bytes (y * uhrW + x) = color) : g.fillable border color x y = false := by
  unfold fillable
  rw [hbytes, bne_self_eq_false, Bool.and_false]

theorem open_congr (hbytes : ∀ i, g.bytes i = f.bytes i) : Open border color g = Open border color f := by
  funext p
  unfold Open
  rw [fillable_congr (hbytes _)]

theorem place_row {p : Int × Int} (hp : OnScreen p) (hlx : 0 ≤ lx) (hrx : rx ≤ uhrW) :
    y * uhrW + lx ≤ place p ∧ place p < y * uhrW + rx ↔ p.2 = y ∧ lx ≤ p.1 ∧ p.1 < rx := by
  obtain ⟨px, py⟩ := p
  obtain ⟨hp1, hp2, hp3, hp4⟩ := hp
  unfold place
  unfold uhrW at *
  constructor
  · intro h
    have hrow : py = y := by omega
    subst hrow
    omega
  · rintro ⟨rfl, hlo, hhi⟩
    omega

theorem row_joined {U : Int × Int → Prop} {j : Int} (n : Nat) (hrow : ∀ i, j ≤ i → i ≤ j + n → U (i, v)) :
    Flood.Joined Beside U (j, v) (j + n, v) := by
  induction n with
  | zero =>
    rw [Int.natCast_zero, Int.add_zero]
    exact Flood.Joined.refl (hrow j (Int.le_refl j) (by omega))
  | succ n ih =>
    have hbefore := ih fun i hlo hhi => hrow i hlo (by omega)
    apply hbefore.tail
    · exact .inl ⟨rfl, .inr (by push_cast; omega)⟩
    · exact hrow _ (by omega) (Int.le_refl _)

theorem joined_row {U : Int × Int → Prop} {j c : Int} (hle : j ≤ c) (hrow : ∀ i, j ≤ i → i ≤ c → U (i, v)) :
    Flood.Joined Beside U (j, v) (c, v) := by
  obtain ⟨n, rfl⟩ := Int.le.dest hle
  exact row_joined n hrow

/-! ## The run to the left -/

theorem scanLeft_run (n : Nat) (f : Frame) :
    (∀ i, (scanLeft border color y n f).2.bytes i = f.bytes i) ∧ (scanLeft border color y n f).1 ≤ n ∧
      (∀ c : Int, (scanLeft border color y n f).1 ≤ c → c < n → f.fillable border color c y = true) ∧
        ((scanLeft border color y n f).1 = 0 ∨
          ¬ f.fillable border color ((scanLeft border color y n f).1 - 1) y = true) := by
  induction n generalizing f with
  | zero => exact ⟨fun _ => rfl, Nat.le_refl 0, fun c hlo hhi => absurd hhi (Int.not_lt.mpr hlo), .inl rfl⟩
  | succ n ih =>
    unfold scanLeft
    split
    · rename_i hopen
      obtain ⟨hbytes, hle, hrun, hstop⟩ := ih (f.look (y * uhrW + n))
      refine ⟨hbytes, Nat.le_succ_of_le hle, ?_, hstop⟩
      intro c hlo hhi
      rcases Int.lt_or_eq_of_le (Int.lt_add_one_iff.mp (by push_cast at hhi; exact hhi)) with hlt | rfl
      · exact hrun c hlo hlt
      · exact hopen
    · rename_i hclosed
      refine ⟨fun _ => rfl, Nat.le_refl _, ?_, ?_⟩
      · intro c hlo hhi
        exact absurd hhi (Int.not_lt.mpr hlo)
      · right
        rw [Int.natCast_succ, Int.add_sub_cancel]
        exact hclosed

/-! ## A neighbour -/

/-- What a neighbour leaves that is looked at where there is a row for it. -/
structure Seeded (border color : Byte) (P : Prop) (g : Frame) (x v : Int) (l : List (Int × Int))
    (r : Bool × List (Int × Int) × Frame) : Prop where
  bytes : ∀ i, r.2.2.bytes i = g.bytes i
  kept : ∀ p ∈ l, p ∈ r.2.1
  pushed : ∀ p ∈ r.2.1, p ∈ l ∨ P ∧ p = (x, v) ∧ g.fillable border color x v = true
  room : l.length ≤ 1024 → r.2.1.length ≤ 1024

theorem seeded_same {P : Prop} {flag : Bool} {e : Frame} (hbytes : ∀ i, e.bytes i = g.bytes i) :
    Seeded border color P g x v l (flag, l, e) :=
  ⟨hbytes, fun _ hp => hp, fun _ hp => .inl hp, id⟩

theorem seedRow_seeded {P : Prop} (hP : P) : Seeded border color P g x v l (g.seedRow border color x v a l) := by
  unfold seedRow
  split
  · rename_i hopen
    split
    · rename_i hpush
      constructor
      · exact fun _ => rfl
      · exact fun p hp => List.mem_cons_of_mem _ hp
      · intro p hp
        rcases List.mem_cons.mp hp with rfl | hp
        · exact .inr ⟨hP, rfl, hopen⟩
        · exact .inl hp
      · exact fun _ => hpush.2
    · exact seeded_same fun _ => rfl
  · exact seeded_same fun _ => rfl

theorem seedIf_seeded {P : Prop} [Decidable P] {r : Bool × List (Int × Int) × Frame}
    (hr : (if P then g.seedRow border color x v a l else (a, l, g)) = r) : Seeded border color P g x v l r := by
  rw [← hr]
  split
  · rename_i hP
    exact seedRow_seeded hP
  · exact seeded_same fun _ => rfl

/-- Along the run so far, each open place of the neighbour row is in a stretch whose left end is pending.  The
flag says that the last one is open. -/
structure Led (border color : Byte) (f : Frame) (v lx rx : Int) (flag : Bool) (l : List (Int × Int)) : Prop where
  stretch : ∀ c, lx ≤ c → c < rx → f.fillable border color c v = true →
    ∃ j, (j, v) ∈ l ∧ j ≤ c ∧ ∀ i, j ≤ i → i ≤ c → f.fillable border color i v = true
  flag : flag = true → lx < rx ∧ f.fillable border color (rx - 1) v = true

theorem Led.grow {flag : Bool} {l' : List (Int × Int)} (hled : Led border color f v lx rx flag l) (hkept : ∀ p ∈ l, p ∈ l') :
    Led border color f v lx rx flag l' := by
  constructor
  · intro c hlo hhi hopen
    obtain ⟨j, hj, hrest⟩ := hled.stretch c hlo hhi hopen
    exact ⟨j, hkept _ hj, hrest⟩
  · exact hled.flag

theorem Led.open {l' : List (Int × Int)} (hlx : lx ≤ rx) (hled : Led border color f v lx rx a l)
    (hopen : f.fillable border color rx v = true) (hkept : ∀ p ∈ l, p ∈ l') (hhere : a = false → (rx, v) ∈ l') :
    Led border color f v lx (rx + 1) true l' := by
  constructor
  · intro c hlo hhi hc
    rcases Int.lt_or_eq_of_le (Int.lt_add_one_iff.mp hhi) with hlt | rfl
    · exact (hled.grow hkept).stretch c hlo hlt hc
    · cases a with
      | false =>
        refine ⟨c, hhere rfl, Int.le_refl c, ?_⟩
        intro i hlo hhi
        rw [Int.le_antisymm hhi hlo]
        exact hopen
      | true =>
        obtain ⟨hlt, hbefore⟩ := hled.flag rfl
        obtain ⟨j, hj, hjc, hrow⟩ := hled.stretch (c - 1) (by omega) (by omega) hbefore
        refine ⟨j, hkept _ hj, by omega, ?_⟩
        intro i hlo hhi
        rcases Int.lt_or_eq_of_le hhi with hlt | rfl
        · exact hrow i hlo (by omega)
        · exact hopen
  · intro _
    rw [Int.add_sub_cancel]
    exact ⟨by omega, hopen⟩

theorem Led.closed (hled : Led border color f v lx rx a l) (hclosed : ¬ f.fillable border color rx v = true) :
    Led border color f v lx (rx + 1) false l := by
  constructor
  · intro c hlo hhi hc
    rcases Int.lt_or_eq_of_le (Int.lt_add_one_iff.mp hhi) with hlt | rfl
    · exact hled.stretch c hlo hlt hc
    · exact absurd hc hclosed
  · intro hflag
    cases hflag

theorem Led.seed (hlx : lx ≤ rx) (hled : Led border color f v lx rx a l)
    (hsame : g.fillable border color rx v = f.fillable border color rx v)
    (hroom : g.fillable border color rx v = true → a = false → l.length < 1024) :
    Led border color f v lx (rx + 1) (g.seedRow border color rx v a l).1 (g.seedRow border color rx v a l).2.1 := by
  unfold seedRow
  split
  · rename_i hopen
    rw [hsame] at hopen
    split
    · exact hled.open hlx hopen (fun p hp => List.mem_cons_of_mem _ hp) (fun _ => List.mem_cons_self)
    · rename_i hpush
      cases a with
      | false =>
        have hfree := hroom (by rw [hsame]; exact hopen) rfl
        exact absurd ⟨rfl, hfree⟩ hpush
      | true =>
        exact hled.open hlx hopen (fun _ hp => hp) (fun hflag => absurd hflag Bool.true_eq_false_eq_False)
  · rename_i hclosed
    rw [hsame] at hclosed
    exact hled.closed hclosed

/-! ## The run to the right -/

/-- The row of `f` is filled from `lx` up to `rx`, and the places that were pushed lie along it. -/
structure Painted (border color : Byte) (f : Frame) (y lx rx : Int) (rest l : List (Int × Int)) (g : Frame) : Prop where
  bytes : ∀ i, g.bytes i = if y * uhrW + lx ≤ i ∧ i < y * uhrW + rx then color else f.bytes i
  run : ∀ c, lx ≤ c → c < rx → f.fillable border color c y = true
  kept : ∀ p ∈ rest, p ∈ l
  pushed : ∀ p ∈ l, p ∈ rest ∨
    Open border color f p ∧ (p.2 = y - 1 ∨ p.2 = y + 1) ∧ lx ≤ p.1 ∧ p.1 < rx

theorem Painted.row (hpainted : Painted border color f y lx rx rest l g) (hlx : 0 ≤ lx) (hrx : rx ≤ uhrW)
    {p : Int × Int} (hp : OnScreen p) (hout : ¬ (p.2 = y ∧ lx ≤ p.1 ∧ p.1 < rx)) :
    g.fillable border color p.1 p.2 = f.fillable border color p.1 p.2 := by
  apply fillable_congr
  rw [hpainted.bytes, if_neg]
  intro hin
  exact hout ((place_row hp hlx hrx).mp hin)

theorem Painted.start (hempty : ∀ i, g.bytes i = f.bytes i) : Painted border color f y lx lx rest rest g := by
  constructor
  · intro i
    rw [hempty, if_neg]
    omega
  · exact fun c hlo hhi => absurd hhi (Int.not_lt.mpr hlo)
  · exact fun p hp => hp
  · exact fun p hp => .inl hp

theorem Painted.store (hpainted : Painted border color f y lx rx rest l g) (hle : lx ≤ rx)
    (hopen : f.fillable border color rx y = true) :
    Painted border color f y lx (rx + 1) rest l ((g.look (y * uhrW + rx)).store (y * uhrW + rx) color) := by
  constructor
  · intro i
    show (if i = y * uhrW + rx then color else g.bytes i) = _
    by_cases hi : i = y * uhrW + rx
    · rw [if_pos hi, if_pos (by omega)]
    · rw [if_neg hi, hpainted.bytes]
      by_cases hin : y * uhrW + lx ≤ i ∧ i < y * uhrW + rx
      · rw [if_pos hin, if_pos (by omega)]
      · rw [if_neg hin, if_neg (by omega)]
  · intro c hlo hhi
    rcases Int.lt_or_eq_of_le (Int.lt_add_one_iff.mp hhi) with hlt | rfl
    · exact hpainted.run c hlo hlt
    · exact hopen
  · exact hpainted.kept
  · intro p hp
    rcases hpainted.pushed p hp with hold | ⟨hp, hrow, hlo, hhi⟩
    · exact .inl hold
    · exact .inr ⟨hp, hrow, hlo, by omega⟩

theorem Painted.seed {P : Prop} {r : Bool × List (Int × Int) × Frame} (hpainted : Painted border color f y lx (rx + 1) rest l g)
    (hlx : 0 ≤ lx) (hle : lx ≤ rx) (hrx : rx < uhrW) (hv : v = y - 1 ∨ v = y + 1) (hP : P → OnScreen (rx, v))
    (hr : Seeded border color P g rx v l r) : Painted border color f y lx (rx + 1) rest r.2.1 r.2.2 := by
  constructor
  · intro i
    rw [hr.bytes, hpainted.bytes]
  · exact hpainted.run
  · exact fun p hp => hr.kept p (hpainted.kept p hp)
  · intro p hp
    rcases hr.pushed p hp with hold | ⟨hrow, rfl, hopen⟩
    · exact hpainted.pushed p hold
    · right
      have hsame := hpainted.row hlx (by omega) (hP hrow) (fun hin => by rcases hv with rfl | rfl <;> exact absurd hin.1 (by omega))
      refine ⟨⟨hP hrow, ?_⟩, hv, hle, Int.lt_succ rx⟩
      rw [← hsame]
      exact hopen

structure Leads (border color : Byte) (f : Frame) (y lx rx : Int) (a b : Bool) (l : List (Int × Int)) : Prop where
  above : 0 < y → Led border color f (y - 1) lx rx a l
  below : y < uhrH - 1 → Led border color f (y + 1) lx rx b l

def Roomy (asks : List Ask) : Prop := ∀ ask ∈ asks, ask.wanted = true → ask.depth < 1024

theorem Leads.start (l : List (Int × Int)) : Leads border color f y lx lx false false l := by
  have hstart : ∀ v, Led border color f v lx lx false l := by
    intro v
    constructor
    · exact fun c hlo hhi => absurd hhi (Int.not_lt.mpr hlo)
    · intro hflag
      cases hflag
  exact ⟨fun _ => hstart _, fun _ => hstart _⟩

/-- What a run of a row leaves: it ends at the right edge or at a pixel that is not open. -/
structure Ran (border color : Byte) (f : Frame) (y lx rx : Int) (rest : List (Int × Int)) (asks : List Ask) (start : Prop)
    (out : List (Int × Int) × Frame) : Prop where
  deep : (∀ ask ∈ asks, ask.depth ≤ 1024) ∧ out.1.length ≤ 1024
  ends : ∃ e, rx ≤ e ∧ e ≤ uhrW ∧ Painted border color f y lx e rest out.1 out.2 ∧
    (e = uhrW ∨ ¬ f.fillable border color e y = true) ∧
      (start → Roomy asks → ∃ a b, Leads border color f y lx e a b out.1)

theorem rightAsks_succ {n : Nat} {r q : Bool × List (Int × Int) × Frame} (hfill : f.fillable border color rx y = true)
    (hr : (if 0 < y then ((f.look (y * uhrW + rx)).store (y * uhrW + rx) color).seedRow border color rx (y - 1) a l
      else (a, l, (f.look (y * uhrW + rx)).store (y * uhrW + rx) color)) = r)
    (hq : (if y < uhrH - 1 then r.2.2.seedRow border color rx (y + 1) b r.2.1 else (b, r.2.1, r.2.2)) = q) :
    rightAsks border color y (n + 1) rx a b l f =
      ⟨decide (0 < y) && ((f.look (y * uhrW + rx)).store (y * uhrW + rx) color).fillable border color rx (y - 1) && !a,
        l.length⟩ ::
      ⟨decide (y < uhrH - 1) && r.2.2.fillable border color rx (y + 1) && !b, r.2.1.length⟩ ::
      rightAsks border color y n (rx + 1) r.1 q.1 q.2.1 q.2.2 := by
  rw [← hq, ← hr, rightAsks, if_pos hfill]

theorem Led.seedIf {P : Prop} [Decidable P] {r : Bool × List (Int × Int) × Frame} {asks : List Ask} (hlx : lx ≤ rx)
    (hled : Led border color f v lx rx a l) (hP : P)
    (hsame : g.fillable border color rx v = f.fillable border color rx v)
    (hask : (⟨decide P && g.fillable border color rx v && !a, l.length⟩ : Ask) ∈ asks) (hroomy : Roomy asks)
    (hr : (if P then g.seedRow border color rx v a l else (a, l, g)) = r) : Led border color f v lx (rx + 1) r.1 r.2.1 := by
  rw [if_pos hP] at hr
  rw [← hr]
  apply hled.seed hlx hsame
  intro hopen hflag
  apply hroomy _ hask
  show (decide P && g.fillable border color rx v && !a) = true
  rw [decide_eq_true hP, hopen, hflag]
  rfl

theorem fillRight_ran (hy : 0 ≤ y) (hy' : y < uhrH) (hlx : 0 ≤ lx) (n : Nat) (hle : lx ≤ rx) (hn : rx + n = uhrW)
    (hpainted : Painted border color f y lx rx rest l g) (hroom : l.length ≤ 1024) :
    Ran border color f y lx rx rest (rightAsks border color y n rx a b l g) (Leads border color f y lx rx a b l)
      (fillRight border color y n rx a b l g) := by
  induction n generalizing rx a b l g with
  | zero =>
    constructor
    · constructor
      · intro ask hask
        rw [List.mem_singleton.mp hask]
        exact hroom
      · exact hroom
    · exact ⟨rx, Int.le_refl rx, by omega, hpainted, .inl (by omega), fun hleads _ => ⟨a, b, hleads⟩⟩
  | succ n ih =>
    have hrx : rx < uhrW := by omega
    have hin : OnScreen (rx, y) := ⟨by show 0 ≤ rx; omega, hrx, hy, hy'⟩
    have hhere : g.fillable border color rx y = f.fillable border color rx y :=
      hpainted.row hlx (Int.le_of_lt hrx) hin (fun hrow => Int.lt_irrefl rx hrow.2.2)
    by_cases hopen : g.fillable border color rx y = true
    · obtain ⟨r, hr⟩ : ∃ r, (if 0 < y then ((g.look (y * uhrW + rx)).store (y * uhrW + rx) color).seedRow border color rx
        (y - 1) a l else (a, l, (g.look (y * uhrW + rx)).store (y * uhrW + rx) color)) = r := ⟨_, rfl⟩
      obtain ⟨q, hq⟩ : ∃ q, (if y < uhrH - 1 then r.2.2.seedRow border color rx (y + 1) b r.2.1
        else (b, r.2.1, r.2.2)) = q := ⟨_, rfl⟩
      have habove : 0 < y → OnScreen (rx, y - 1) := fun h => ⟨hin.1, hrx, by show 0 ≤ y - 1; omega, by show y - 1 < uhrH; omega⟩
      have hbelow : y < uhrH - 1 → OnScreen (rx, y + 1) := fun h => ⟨hin.1, hrx, by show 0 ≤ y + 1; omega, by show y + 1 < uhrH; omega⟩
      have hstored := hpainted.store hle (by rw [← hhere]; exact hopen)
      have hr' := seedIf_seeded hr
      have hq' := seedIf_seeded hq
      have hfirst := hstored.seed hlx hle hrx (.inl rfl) habove hr'
      have hboth := hfirst.seed hlx hle hrx (.inr rfl) hbelow hq'
      have hroom' := hr'.room hroom
      have hran : Ran border color f y lx (rx + 1) rest (rightAsks border color y n (rx + 1) r.1 q.1 q.2.1 q.2.2)
          (Leads border color f y lx (rx + 1) r.1 q.1 q.2.1)
            (fillRight border color y n (rx + 1) r.1 q.1 q.2.1 q.2.2) :=
        ih (by omega) (by omega) hboth (hq'.room hroom')
      rw [fillRight_succ hopen hr hq, rightAsks_succ hopen hr hq]
      obtain ⟨⟨hdeep, hlast⟩, e, hrxe, he, hpaint, hstop, hleads⟩ := hran
      constructor
      · refine ⟨?_, hlast⟩
        intro ask hask
        rcases List.mem_cons.mp hask with rfl | hask
        · exact hroom
        rcases List.mem_cons.mp hask with rfl | hask
        · exact hroom'
        · exact hdeep ask hask
      · refine ⟨e, by omega, he, hpaint, hstop, ?_⟩
        intro hstart hroomy
        apply hleads
        · constructor
          · intro hup
            have hsame := hstored.row hlx (by omega) (habove hup) (fun hrow => absurd hrow.1 (by show ¬ y - 1 = y; omega))
            exact ((hstart.above hup).seedIf hle hup hsame List.mem_cons_self hroomy hr).grow hq'.kept
          · intro hdown
            have hsame := hfirst.row hlx (by omega) (hbelow hdown) (fun hrow => absurd hrow.1 (by show ¬ y + 1 = y; omega))
            exact ((hstart.below hdown).grow hr'.kept).seedIf hle hdown hsame
              (List.mem_cons_of_mem _ List.mem_cons_self) hroomy hq
        · exact fun ask hask => hroomy ask (List.mem_cons_of_mem _ (List.mem_cons_of_mem _ hask))
    · have hout : fillRight border color y (n + 1) rx a b l g = (l, g.look (y * uhrW + rx)) := by
        rw [fillRight, if_neg hopen]
      have hasks : rightAsks border color y (n + 1) rx a b l g = [⟨false, l.length⟩] := by
        rw [rightAsks, if_neg hopen]
      rw [hout, hasks]
      constructor
      · constructor
        · intro ask hask
          rw [List.mem_singleton.mp hask]
          exact hroom
        · exact hroom
      · refine ⟨rx, Int.le_refl rx, Int.le_of_lt hrx, ?_, .inr (by rw [← hhere]; exact hopen), fun hleads _ => ⟨a, b, hleads⟩⟩
        exact { hpainted with bytes := hpainted.bytes }

/-! ## A turn of the loop -/

theorem Painted.open_iff (hpainted : Painted border color f y lx rx rest l g) (hlx : 0 ≤ lx) (hrx : rx ≤ uhrW) (p : Int × Int) :
    Open border color g p ↔ Open border color f p ∧ ¬ (p.2 = y ∧ lx ≤ p.1 ∧ p.1 < rx) := by
  constructor
  · rintro ⟨hp, hopen⟩
    have hout : ¬ (p.2 = y ∧ lx ≤ p.1 ∧ p.1 < rx) := by
      intro hin
      have hcolor : g.bytes (place p) = color := by
        rw [hpainted.bytes, if_pos ((place_row hp hlx hrx).mpr hin)]
      rw [fillable_color hcolor] at hopen
      cases hopen
    rw [hpainted.row hlx hrx hp hout] at hopen
    exact ⟨⟨hp, hopen⟩, hout⟩
  · rintro ⟨⟨hp, hopen⟩, hout⟩
    refine ⟨hp, ?_⟩
    rw [hpainted.row hlx hrx hp hout]
    exact hopen

theorem Painted.joined (hpainted : Painted border color f y lx rx rest l g) (hy : 0 ≤ y) (hy' : y < uhrH) (hlx : 0 ≤ lx)
    (hrx : rx ≤ uhrW) {c d : Int} (hc : lx ≤ c ∧ c < rx) (hd : lx ≤ d ∧ d < rx) :
    Flood.Joined Beside (Open border color f) (c, y) (d, y) := by
  have hrow : ∀ i, lx ≤ i → i < rx → Open border color f (i, y) := fun i hlo hhi =>
    ⟨⟨by show 0 ≤ i; omega, by show i < uhrW; omega, hy, hy'⟩, hpainted.run i hlo hhi⟩
  rcases Int.le_total c d with hle | hle
  · exact joined_row hle fun i hlo hhi => hrow i (by omega) (by omega)
  · exact (joined_row hle fun i hlo hhi => hrow i (by omega) (by omega)).symm beside_symm

theorem Painted.piece (hpainted : Painted border color f y lx rx rest l g) (hy : 0 ≤ y) (hy' : y < uhrH) (hlx : 0 ≤ lx)
    (hrx : rx ≤ uhrW) (hx : lx ≤ x ∧ x < rx) : Piece Beside (Open border color f) (Open border color g) (x, y) rest l := by
  have hiff := hpainted.open_iff hlx hrx
  constructor
  · exact fun p hp => ((hiff p).mp hp).1
  · intro p hp hnot
    have hin : p.2 = y ∧ lx ≤ p.1 ∧ p.1 < rx := by
      by_contra hout
      exact hnot ((hiff p).mpr ⟨hp, hout⟩)
    obtain ⟨c, row⟩ := p
    obtain ⟨rfl, hc⟩ := hin
    exact hpainted.joined hy hy' hlx hrx hx hc
  · intro hgone
    exact ((hiff _).mp hgone).2 ⟨rfl, hx⟩
  · exact hpainted.kept
  · intro p hp
    rcases hpainted.pushed p hp with hold | ⟨hopen, hrow, hc⟩
    · exact .inl hold
    · right
      apply (hpainted.joined hy hy' hlx hrx hx hc).tail _ hopen
      obtain ⟨c, row⟩ := p
      exact .inr ⟨rfl, by show y = row + 1 ∨ row = y + 1; change row = y - 1 ∨ row = y + 1 at hrow; omega⟩

theorem Painted.stretch (hpainted : Painted border color f y lx rx rest l g) (hlx : 0 ≤ lx) (hrx : rx ≤ uhrW)
    (hl : ∀ p ∈ l, OnScreen p) (hv : v ≠ y) (hled : Led border color f v lx rx a l) {c : Int} (hc : lx ≤ c ∧ c < rx)
    (hopen : Open border color f (c, v)) : ∃ e ∈ l, Flood.Joined Beside (Open border color g) (c, v) e := by
  obtain ⟨j, hj, hjc, hrow⟩ := hled.stretch c hc.1 hc.2 hopen.2
  obtain ⟨hj0, -, hv0, hv1⟩ := hl _ hj
  refine ⟨(j, v), hj, ?_⟩
  apply Flood.Joined.symm beside_symm
  apply joined_row hjc
  intro i hlo hhi
  apply (hpainted.open_iff hlx hrx _).mpr
  refine ⟨⟨⟨?_, ?_, hv0, hv1⟩, hrow i hlo hhi⟩, fun hin => hv hin.1⟩
  · exact Int.le_trans hj0 hlo
  · exact Int.lt_of_le_of_lt hhi hopen.1.2.1

theorem Painted.edged (hpainted : Painted border color f y lx rx rest l g) (hlx : 0 ≤ lx) (hrx : rx ≤ uhrW)
    (hl : ∀ p ∈ l, OnScreen p) (hleft : lx = 0 ∨ ¬ f.fillable border color (lx - 1) y = true)
    (hright : rx = uhrW ∨ ¬ f.fillable border color rx y = true) (hleads : Leads border color f y lx rx a b l) :
    Edged Beside (Open border color f) (Open border color g) l := by
  have hiff := hpainted.open_iff hlx hrx
  intro p q hp hnot hbeside hq
  have hin : p.2 = y ∧ lx ≤ p.1 ∧ p.1 < rx := by
    by_contra hout
    exact hnot ((hiff p).mpr ⟨hp, hout⟩)
  obtain ⟨hqf, hout⟩ := (hiff q).mp hq
  obtain ⟨c, row⟩ := p
  obtain ⟨d, row'⟩ := q
  obtain ⟨rfl, hlo, hhi⟩ := hin
  obtain ⟨⟨hd0, hd1, hr0, hr1⟩, hopen⟩ := hqf
  rcases hbeside with ⟨hrow, hcolumn⟩ | ⟨hcolumn, hrow⟩
  · subst hrow
    rcases Int.lt_or_le d lx with hless | hmore
    · have hd : d = lx - 1 := by omega
      rw [hd] at hopen
      rcases hleft with hzero | hclosed
      · omega
      · exact absurd hopen hclosed
    · have hd : d = rx := by omega
      rw [hd] at hopen
      rcases hright with hlast | hclosed
      · omega
      · exact absurd hopen hclosed
  · subst hcolumn
    have hqf : Open border color f (c, row') := ⟨⟨hd0, hd1, hr0, hr1⟩, hopen⟩
    rcases hrow with hup | hdown
    · have hrow' : row' = row - 1 := by omega
      subst hrow'
      exact hpainted.stretch hlx hrx hl (by omega) (hleads.above (by omega)) ⟨hlo, hhi⟩ hqf
    · subst hdown
      exact hpainted.stretch hlx hrx hl (by omega) (hleads.below (by omega)) ⟨hlo, hhi⟩ hqf

theorem floodTurn_skip (hclosed : ¬ f.fillable border color x y = true) :
    floodTurn border color ((x, y) :: l, f) = (l, f.look (y * uhrW + x)) ∧
      turnAsks border color ((x, y) :: l, f) = [⟨false, l.length + 1⟩, ⟨false, l.length⟩] := by
  unfold floodTurn turnAsks
  dsimp only
  rw [if_neg hclosed, if_neg hclosed]
  exact ⟨rfl, rfl⟩

structure Turned (border color : Byte) (f : Frame) (x y lx rx : Int) (rest : List (Int × Int)) (asks : List Ask)
    (out : List (Int × Int) × Frame) : Prop where
  painted : Painted border color f y lx rx rest out.1 out.2
  sides : 0 ≤ lx ∧ lx ≤ x ∧ x < rx ∧ rx ≤ uhrW
  left : lx = 0 ∨ ¬ f.fillable border color (lx - 1) y = true
  right : rx = uhrW ∨ ¬ f.fillable border color rx y = true
  leads : Roomy asks → ∃ a b, Leads border color f y lx rx a b out.1
  deep : ∀ ask ∈ asks, ask.depth ≤ 1024
  room : out.1.length ≤ 1024

theorem floodTurn_run (hopen : Open border color f (x, y)) (hroom : l.length < 1024) : ∃ lx rx,
    Turned border color f x y lx rx l (turnAsks border color ((x, y) :: l, f)) (floodTurn border color ((x, y) :: l, f)) := by
  obtain ⟨⟨hx, hx', hy, hy'⟩, hfill⟩ := hopen
  obtain ⟨hbytes, hle, hrun, hleft⟩ := @scanLeft_run border color y x.toNat (f.look (y * uhrW + x))
  unfold floodTurn turnAsks
  dsimp only
  rw [if_pos hfill, if_pos hfill]
  generalize Frame.scanLeft border color y x.toNat (f.look (y * uhrW + x)) = scanned at hbytes hle hrun hleft ⊢
  obtain ⟨lx, g⟩ := scanned
  change x < 640 at hx'
  change 0 ≤ y at hy
  change y < uhrH at hy'
  have hstart : Painted border color f y lx lx l l g := Painted.start hbytes
  have hn : (lx : Int) + (uhrW - lx : Nat) = uhrW := by
    show (lx : Int) + (640 - lx : Nat) = (640 : Nat)
    omega
  obtain ⟨⟨hdeep, hlast⟩, rx, hrx, hrx', hpainted, hstop, hleads⟩ :=
    fillRight_ran (a := false) (b := false) hy hy' (Int.natCast_nonneg lx) (uhrW - lx) (Int.le_refl _) hn hstart
      (Nat.le_of_lt hroom)
  refine ⟨lx, rx, hpainted, ⟨Int.natCast_nonneg lx, by omega, ?_, hrx'⟩, ?_, hstop, ?_, ?_, hlast⟩
  · -- the run does not stop before the place itself
    by_contra hnot
    rcases hstop with hlast | hclosed
    · change rx = 640 at hlast
      omega
    · rcases Int.lt_or_eq_of_le (Int.not_lt.mp hnot) with hlt | rfl
      · exact hclosed (hrun rx hrx (by omega))
      · exact hclosed hfill
  · rcases hleft with hzero | hclosed
    · exact .inl (by omega)
    · exact .inr hclosed
  · intro hroomy
    exact hleads (Leads.start l) fun ask hask => hroomy ask (List.mem_cons_of_mem _ hask)
  · intro ask hask
    rcases List.mem_cons.mp hask with rfl | hask
    · exact hroom
    · exact hdeep ask hask

/-! ## The run -/

structure Filling (border color : Byte) (f : Frame) (seed : Int × Int) (s : Flooding) : Prop where
  sound : Sound Beside (Open border color f) seed (Open border color s.2) s.1
  colored : ∀ i, s.2.bytes i = f.bytes i ∨ s.2.bytes i = color ∧ ∃ p, i = place p ∧ Open border color f p
  room : s.1.length ≤ 1024

variable {seed : Int × Int} {s : Flooding}

theorem Filling.screen (hs : Filling border color f seed s) : ∀ p ∈ s.1, OnScreen p :=
  fun p hp => (hs.sound.pending p hp).inside.1

theorem Filling.turn (hs : Filling border color f seed s) : Filling border color f seed (floodTurn border color s) ∧
    ∀ ask ∈ turnAsks border color s, ask.depth ≤ 1024 := by
  obtain ⟨stack, g⟩ := s
  cases stack with
  | nil =>
    refine ⟨hs, ?_⟩
    intro ask hask
    rw [List.mem_singleton.mp hask]
    exact Nat.zero_le 1024
  | cons p l =>
    obtain ⟨x, y⟩ := p
    have hin := hs.screen (x, y) List.mem_cons_self
    have hroom : l.length + 1 ≤ 1024 := hs.room
    by_cases hopen : g.fillable border color x y = true
    · obtain ⟨lx, rx, hturned⟩ := floodTurn_run ⟨hin, hopen⟩ hroom
      have hsides := hturned.sides
      refine ⟨⟨?_, ?_, hturned.room⟩, hturned.deep⟩
      · exact hs.sound.take (hturned.painted.piece hin.2.2.1 hin.2.2.2 hsides.1 hsides.2.2.2 ⟨hsides.2.1, hsides.2.2.1⟩)
      · intro i
        rw [hturned.painted.bytes]
        by_cases hrun : y * uhrW + lx ≤ i ∧ i < y * uhrW + rx
        · rw [if_pos hrun]
          obtain ⟨hlo, hhi⟩ := hrun
          have hpixel : Open border color g (i - y * uhrW, y) :=
            ⟨⟨by show 0 ≤ i - y * uhrW; omega, by show i - y * uhrW < uhrW; omega, hin.2.2⟩,
              hturned.painted.run _ (by omega) (by omega)⟩
          refine .inr ⟨rfl, (i - y * uhrW, y), ?_, hs.sound.shrinks _ hpixel⟩
          show i = y * uhrW + (i - y * uhrW)
          omega
        · rw [if_neg hrun]
          exact hs.colored i
    · obtain ⟨hturn, hasks⟩ := floodTurn_skip (l := l) hopen
      rw [hturn, hasks]
      refine ⟨⟨?_, hs.colored, by show l.length ≤ 1024; omega⟩, ?_⟩
      · show Sound Beside _ seed (Open border color (g.look _)) l
        rw [open_congr (g := g.look (y * uhrW + x)) (f := g) fun _ => rfl]
        exact hs.sound.skip
      · intro ask hask
        rcases List.mem_cons.mp hask with rfl | hask
        · exact hroom
        · rw [List.mem_singleton.mp hask]
          show l.length ≤ 1024
          omega

theorem Filling.held (hs : Filling border color f seed s) (hroomy : Roomy (turnAsks border color s))
    (hheld : Held Beside (Open border color f) seed (Open border color s.2) s.1) :
    Held Beside (Open border color f) seed (Open border color (floodTurn border color s).2) (floodTurn border color s).1 := by
  have hnext := hs.turn.1
  obtain ⟨stack, g⟩ := s
  cases stack with
  | nil => exact hheld
  | cons p l =>
    obtain ⟨x, y⟩ := p
    have hin := hs.screen (x, y) List.mem_cons_self
    have hroom : l.length + 1 ≤ 1024 := hs.room
    by_cases hopen : g.fillable border color x y = true
    · obtain ⟨lx, rx, hturned⟩ := floodTurn_run ⟨hin, hopen⟩ hroom
      have hsides := hturned.sides
      obtain ⟨a, b, hleads⟩ := hturned.leads hroomy
      apply hheld.take beside_symm
        (hturned.painted.piece hin.2.2.1 hin.2.2.2 hsides.1 hsides.2.2.2 ⟨hsides.2.1, hsides.2.2.1⟩)
      exact hturned.painted.edged hsides.1 hsides.2.2.2 hnext.screen hturned.left hturned.right hleads
    · obtain ⟨hturn, -⟩ := floodTurn_skip (l := l) hopen
      rw [hturn]
      show Held Beside _ seed (Open border color (g.look _)) l
      rw [open_congr (g := g.look (y * uhrW + x)) (f := g) fun _ => rfl]
      exact hheld.skip fun htop => hopen htop.2

/-! ### Its end -/

/-- The places of `uhr_fb` that can be filled. -/
def fillables (border color : Byte) (f : Frame) : Finset Nat :=
  (Finset.range uhrSize).filter fun i => (f.bytes i != border && f.bytes i != color) = true

def turnsLeft (border color : Byte) (s : Flooding) : Nat := 1025 * (fillables border color s.2).card + s.1.length

def floodBound : Nat := 1025 * uhrSize + 1024

theorem turnsLeft_le (hroom : s.1.length ≤ 1024) : turnsLeft border color s ≤ floodBound := by
  have hcard := Finset.card_filter_le (Finset.range uhrSize) fun i => (s.2.bytes i != border && s.2.bytes i != color) = true
  rw [Finset.card_range] at hcard
  have hmul := Nat.mul_le_mul_left 1025 hcard
  exact Nat.add_le_add hmul hroom

theorem fillables_congr (hbytes : ∀ i, g.bytes i = f.bytes i) : fillables border color g = fillables border color f := by
  unfold fillables
  simp only [hbytes]

theorem Painted.fewer (hpainted : Painted border color f y lx rx rest l g) (hin : OnScreen (x, y)) (hx : lx ≤ x ∧ x < rx) :
    (fillables border color g).card < (fillables border color f).card := by
  apply Finset.card_lt_card
  have hplace : ((place (x, y)).toNat : Int) = y * uhrW + x := by
    have hinside := hin.inside.1
    change 0 ≤ y * uhrW + x at hinside
    show ((y * uhrW + x).toNat : Int) = _
    omega
  constructor
  · intro i hi
    obtain ⟨hrange, hopen⟩ := Finset.mem_filter.mp hi
    apply Finset.mem_filter.mpr
    refine ⟨hrange, ?_⟩
    rw [hpainted.bytes] at hopen
    by_cases hrun : y * uhrW + lx ≤ (i : Int) ∧ (i : Int) < y * uhrW + rx
    · rw [if_pos hrun, bne_self_eq_false, Bool.and_false] at hopen
      cases hopen
    · rw [if_neg hrun] at hopen
      exact hopen
  · intro hsub
    have hbefore : (place (x, y)).toNat ∈ fillables border color f := by
      apply Finset.mem_filter.mpr
      refine ⟨Finset.mem_range.mpr ?_, ?_⟩
      · have hinside := hin.inside.2.2
        change y * uhrW + x + 1 ≤ (uhrSize : Int) at hinside
        omega
      · rw [hplace]
        exact hpainted.run x hx.1 hx.2
    obtain ⟨-, hopen⟩ := Finset.mem_filter.mp (hsub hbefore)
    rw [hplace, hpainted.bytes, if_pos (by omega), bne_self_eq_false, Bool.and_false] at hopen
    cases hopen

theorem Filling.fewer (hs : Filling border color f seed s) (hsome : s.1 ≠ []) :
    turnsLeft border color (floodTurn border color s) < turnsLeft border color s := by
  have hafter := hs.turn.1.room
  obtain ⟨stack, g⟩ := s
  cases stack with
  | nil => exact absurd rfl hsome
  | cons p l =>
    obtain ⟨x, y⟩ := p
    have hin := hs.screen (x, y) List.mem_cons_self
    have hroom : l.length + 1 ≤ 1024 := hs.room
    unfold turnsLeft
    by_cases hopen : g.fillable border color x y = true
    · obtain ⟨lx, rx, hturned⟩ := floodTurn_run ⟨hin, hopen⟩ hroom
      have hcard := hturned.painted.fewer hin ⟨hturned.sides.2.1, hturned.sides.2.2.1⟩
      show _ < 1025 * (fillables border color g).card + (l.length + 1)
      omega
    · obtain ⟨hturn, -⟩ := floodTurn_skip (l := l) hopen
      rw [hturn]
      show 1025 * (fillables border color (g.look _)).card + l.length < 1025 * (fillables border color g).card + (l.length + 1)
      rw [fillables_congr (g := g.look (y * uhrW + x)) (f := g) fun _ => rfl]
      omega

/-! ### All turns -/

theorem floodTurns_succ (turns : Nat) (s : Flooding) :
    floodTurns border color (turns + 1) s = floodTurn border color (floodTurns border color turns s) := by
  induction turns generalizing s with
  | zero => rfl
  | succ turns ih => exact ih (floodTurn border color s)

theorem Filling.turns (hs : Filling border color f seed s) (turns : Nat) :
    Filling border color f seed (floodTurns border color turns s) := by
  induction turns with
  | zero => exact hs
  | succ turns ih =>
    rw [floodTurns_succ]
    exact ih.turn.1

theorem floodTurns_nil (turns : Nat) (g : Frame) : floodTurns border color turns ([], g) = ([], g) := by
  induction turns with
  | zero => rfl
  | succ turns ih => exact ih

theorem Filling.ends (hs : Filling border color f seed s) : ∀ {turns : Nat}, turnsLeft border color s ≤ turns →
    (floodTurns border color turns s).1 = [] := by
  intro turns
  induction turns generalizing s with
  | zero =>
    intro hle
    apply List.eq_nil_of_length_eq_zero
    unfold turnsLeft at hle
    show s.1.length = 0
    omega
  | succ turns ih =>
    intro hle
    by_cases hnone : s.1 = []
    · obtain ⟨stack, g⟩ := s
      change stack = [] at hnone
      subst hnone
      rw [floodTurns_nil]
    · have hless := hs.fewer hnone
      exact ih hs.turn.1 (by omega)

theorem Filling.held_turns (hs : Filling border color f seed s)
    (hroomy : ∀ turns, Roomy (turnAsks border color (floodTurns border color turns s)))
    (hheld : Held Beside (Open border color f) seed (Open border color s.2) s.1) (turns : Nat) :
    Held Beside (Open border color f) seed (Open border color (floodTurns border color turns s).2)
      (floodTurns border color turns s).1 := by
  induction turns with
  | zero => exact hheld
  | succ turns ih =>
    rw [floodTurns_succ]
    exact (hs.turns turns).held (hroomy turns) ih

theorem floodStart_filling (border color : Byte) (sx sy : Int) (f : Frame) :
    Filling border color f (i16 sx, i16 sy) (floodStart border color sx sy f) ∧
      Held Beside (Open border color f) (i16 sx, i16 sy) (Open border color (floodStart border color sx sy f).2)
        (floodStart border color sx sy f).1 := by
  have hof : ∀ (stack : List (Int × Int)) (g : Frame), (∀ i, g.bytes i = f.bytes i) →
      (∀ p ∈ stack, p = (i16 sx, i16 sy) ∧ Open border color f p) →
        (Open border color f (i16 sx, i16 sy) → (i16 sx, i16 sy) ∈ stack) → stack.length ≤ 1024 →
          Filling border color f (i16 sx, i16 sy) (stack, g) ∧
            Held Beside (Open border color f) (i16 sx, i16 sy) (Open border color g) stack := by
    intro stack g hbytes hstack hseed hroom
    refine ⟨⟨?_, fun i => .inl (hbytes i), hroom⟩, ?_⟩
    · rw [open_congr hbytes]
      exact Sound.start hstack
    · rw [open_congr hbytes]
      exact Held.start hseed
  unfold floodStart
  dsimp only
  split
  · rename_i hout
    apply hof [] f (fun _ => rfl) (fun p hp => absurd hp List.not_mem_nil) _ (Nat.zero_le _)
    rintro ⟨⟨h0, h1, h2, h3⟩, -⟩
    omega
  · rename_i hin
    have hscreen : OnScreen (i16 sx, i16 sy) :=
      ⟨by show 0 ≤ i16 sx; omega, by show i16 sx < uhrW; omega, by show 0 ≤ i16 sy; omega, by show i16 sy < uhrH; omega⟩
    split
    · rename_i hopen
      apply hof _ (f.look (i16 sy * uhrW + i16 sx)) (fun _ => rfl) _ (fun _ => List.mem_singleton_self _) (by decide : 1 ≤ 1024)
      intro p hp
      rw [List.mem_singleton.mp hp]
      exact ⟨rfl, hscreen, hopen⟩
    · rename_i hclosed
      apply hof [] (f.look (i16 sy * uhrW + i16 sx)) (fun _ => rfl) (fun p hp => absurd hp List.not_mem_nil) _ (Nat.zero_le _)
      exact fun hopen => absurd hopen.2 hclosed

/-! ## The fill -/

def Component (border color : Byte) (sx sy : Int) (f : Frame) (p : Int × Int) : Prop :=
  Flood.Joined Beside (Open border color f) (i16 sx, i16 sy) p

structure FloodFilled (border color : Byte) (sx sy : Int) (f : Frame) : Prop where
  ends : ∀ turns, floodBound ≤ turns → (floodTurns border color turns (floodStart border color sx sy f)).1 = []
  changes : ∀ turns i, (floodFill turns border color sx sy f).bytes i = f.bytes i ∨
    (floodFill turns border color sx sy f).bytes i = color ∧ ∃ p, i = place p ∧ Component border color sx sy f p
  deep : ∀ turns, ∀ ask ∈ turnAsks border color (floodTurns border color turns (floodStart border color sx sy f)),
    ask.depth ≤ 1024
  complete : (∀ turns, Roomy (turnAsks border color (floodTurns border color turns (floodStart border color sx sy f)))) →
    ∀ turns, floodBound ≤ turns → ∀ p, Component border color sx sy f p →
      (floodFill turns border color sx sy f).bytes (place p) = color

/-- The loop ends, fills nothing but the component, and all of it where the stack was never full for a push. -/
theorem floodFill_fills (border color : Byte) (sx sy : Int) (f : Frame) : FloodFilled border color sx sy f := by
  obtain ⟨hstart, hheld⟩ := floodStart_filling border color sx sy f
  have hends : ∀ turns, floodBound ≤ turns → (floodTurns border color turns (floodStart border color sx sy f)).1 = [] :=
    fun turns hle => hstart.ends (Nat.le_trans (turnsLeft_le hstart.room) hle)
  constructor
  · exact hends
  · intro turns i
    rw [floodFill_turns]
    have hs := hstart.turns turns
    rcases hs.colored i with hsame | ⟨hcolor, p, rfl, hopen⟩
    · exact .inl hsame
    · refine .inr ⟨hcolor, p, rfl, ?_⟩
      apply hs.sound.taken p hopen
      intro hstill
      have hfilled : fillable border color p.1 p.2 (floodTurns border color turns (floodStart border color sx sy f)).2 = false :=
        fillable_color hcolor
      rw [hstill.2] at hfilled
      cases hfilled
  · exact fun turns => (hstart.turns turns).turn.2
  · intro hroomy turns hle p hp
    rw [floodFill_turns]
    have hs := hstart.turns turns
    have hdone := hstart.held_turns hroomy hheld turns
    rw [hends turns hle] at hdone
    have htaken := hdone.done hp
    rcases hs.colored (place p) with hsame | ⟨hcolor, -⟩
    · have hbefore := hp.inside
      exact absurd ⟨hbefore.1, (fillable_congr hsame).trans hbefore.2⟩ htaken
    · exact hcolor

end Frame

end GSSquared.Gpu
