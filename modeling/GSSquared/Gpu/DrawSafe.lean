/-
Which drawing commands stay inside the framebuffer.
-/
import GSSquared.Gpu.Drawing

set_option linter.all false

namespace GSSquared.Gpu

open Bits Loops Signed

namespace Frame

def Within (f g : Frame) : Prop := ∃ extra, g.log = f.log ++ extra ∧ ∀ a ∈ extra, a.Inside

section

variable {f g e : Frame} {color : Byte}

theorem Within.refl (f : Frame) : Within f f := ⟨[], (List.append_nil _).symm, fun _ ha => absurd ha List.not_mem_nil⟩

theorem Within.trans (hfg : Within f g) (hge : Within g e) : Within f e := by
  obtain ⟨xs, hxs, hin⟩ := hfg
  obtain ⟨ys, hys, hin'⟩ := hge
  refine ⟨xs ++ ys, by rw [hys, hxs, List.append_assoc], fun a ha => ?_⟩
  rcases List.mem_append.mp ha with ha | ha
  · exact hin a ha
  · exact hin' a ha

theorem Within.one {a : Access} (hlog : g.log = f.log ++ [a]) (ha : a.Inside) : Within f g := by
  refine ⟨[a], hlog, fun b hb => ?_⟩
  rw [List.mem_singleton.mp hb]
  exact ha

theorem inside_pixel {x y : Int} (hx : 0 ≤ x) (hx' : x < uhrW) (hy : 0 ≤ y) (hy' : y < uhrH) :
    Access.Inside ⟨y * uhrW + x, 1⟩ := by
  unfold uhrW uhrH at *
  refine ⟨?_, ?_, ?_⟩
  · show 0 ≤ y * ((640 : Nat) : Int) + x
    omega
  · exact Int.one_nonneg
  · show y * ((640 : Nat) : Int) + x + 1 ≤ ((640 * 400 : Nat) : Int)
    omega

theorem Within.store {i : Int} (hi : Access.Inside ⟨i, 1⟩) (v : Byte) : Within f (f.store i v) := .one rfl hi

theorem Within.look {i : Int} (hi : Access.Inside ⟨i, 1⟩) : Within f (f.look i) := .one rfl hi

theorem Within.fill {start length : Int} (hi : Access.Inside ⟨start, length⟩) (v : Byte) :
    Within f (f.fill start length v) := .one rfl hi

theorem Within.move {dst src length : Int} (hsrc : Access.Inside ⟨src, length⟩) (hdst : Access.Inside ⟨dst, length⟩) :
    Within f (f.move dst src length) := by
  refine ⟨[⟨src, length⟩, ⟨dst, length⟩], rfl, fun a ha => ?_⟩
  rcases List.mem_cons.mp ha with rfl | ha
  · exact hsrc
  · rw [List.mem_singleton.mp ha]
    exact hdst

theorem Within.scroll {dy : Int} (hlo : -128 ≤ dy) (hhi : dy < 128) : Within f (f.scroll dy) := by
  have hinside : ∀ start length : Int, 0 ≤ start → 0 ≤ length → start + length ≤ 256000 → Access.Inside ⟨start, length⟩ :=
    fun _ _ hstart hlen hend => ⟨hstart, hlen, hend⟩
  unfold Frame.scroll uhrW uhrH
  split
  · exact (Within.move (hinside _ _ (by omega) (by omega) (by omega)) (hinside _ _ (by omega) (by omega) (by omega))).trans
      (.fill (hinside _ _ (by omega) (by omega) (by omega)) 0)
  split
  · exact (Within.move (hinside _ _ (by omega) (by omega) (by omega)) (hinside _ _ (by omega) (by omega) (by omega))).trans
      (.fill (hinside _ _ (by omega) (by omega) (by omega)) 0)
  · exact .refl f

theorem Within.span {x y width : Nat} (hy : y < uhrH) (hfits : x < uhrW → x + width < 65536) :
    Within f (f.span x y width color) := by
  unfold Frame.span
  dsimp only
  split
  · rename_i hx
    have hend := hfits hx
    unfold uhrW uhrH at *
    refine .fill ⟨?_, ?_, ?_⟩ color
    · show 0 ≤ (y : Int) * ((640 : Nat) : Int) + x
      omega
    · show 0 ≤ ((if 640 < (x + width) % 65536 then 640 else (x + width) % 65536 : Nat) : Int) - x
      split <;> omega
    · show (y : Int) * ((640 : Nat) : Int) + x + (((if 640 < (x + width) % 65536 then 640 else (x + width) % 65536 : Nat) : Int) - x) ≤
        ((640 * 400 : Nat) : Int)
      split <;> omega
  · exact .refl f

theorem hline_within {x y len : Nat} (hlen : len < 65536) :
    Within f (f.hline x y len color) ↔ (x < uhrW → y < uhrH → x + len < 65536) := by
  constructor
  · intro hwithin hx hy
    apply Nat.lt_of_not_le
    intro hover
    have hx' : x < 640 := hx
    have hpos : ¬ (len = 0 ∨ uhrH ≤ y) := by
      intro h
      rcases h with h | h
      · omega
      · exact Nat.not_lt_of_le h hy
    have hend : ¬ uhrW < (x + len) % 65536 := by
      show ¬ 640 < (x + len) % 65536
      omega
    obtain ⟨extra, hlog, hin⟩ := hwithin
    rw [Frame.hline, if_neg hpos] at hlog
    unfold Frame.span at hlog
    rw [if_pos hx] at hlog
    have hextra : extra = [⟨(y : Int) * uhrW + x, ((if uhrW < (x + len) % 65536 then uhrW else (x + len) % 65536 : Nat) : Int) - x⟩] :=
      (List.append_cancel_left hlog).symm
    rw [if_neg hend] at hextra
    obtain ⟨-, hneg, -⟩ := hin _ (by rw [hextra]; exact List.mem_singleton_self _)
    have : 0 ≤ (((x + len) % 65536 : Nat) : Int) - x := hneg
    omega
  · intro hfits
    unfold Frame.hline
    split
    · exact .refl f
    · rename_i hin
      have hy : y < uhrH := Nat.lt_of_not_le (fun h => hin (.inr h))
      exact .span hy (fun hx => hfits hx hy)

theorem Within.rectRows {x y w : Nat} (hw : w < 256) (n row : Nat) : Within f (rectRows x y w color row n f) := by
  induction n generalizing f row with
  | zero => exact .refl f
  | succ n ih =>
    unfold Frame.rectRows
    split
    · exact .refl f
    · rename_i hrow
      refine Within.trans (.span (Nat.lt_of_not_le hrow) (fun hx => ?_)) (ih (row + 1))
      unfold uhrW at hx
      omega

theorem Within.fillRect {x y w h : Nat} (hw : w < 256) : Within f (f.fillRect x y w h color) := by
  unfold Frame.fillRect
  split
  · exact .refl f
  · exact .rectRows hw h 0

theorem Within.vlineRows {x y : Nat} (hx : x < uhrW) (n i : Nat) : Within f (vlineRows x y color i n f) := by
  induction n generalizing f i with
  | zero => exact .refl f
  | succ n ih =>
    unfold Frame.vlineRows
    split
    · rename_i hrow
      refine Within.trans (.store (inside_pixel ?_ ?_ ?_ ?_) color) (ih (i + 1))
      · exact Int.natCast_nonneg x
      · exact Int.ofNat_lt.mpr hx
      · exact Int.natCast_nonneg _
      · exact Int.ofNat_lt.mpr hrow
    · exact .refl f

theorem Within.vline {x y len : Nat} : Within f (f.vline x y len color) := by
  unfold Frame.vline
  split
  · exact .refl f
  · rename_i hin
    exact .vlineRows (Nat.lt_of_not_le (fun hle => hin (.inr hle))) len 0

theorem Within.plot (x y : Int) : Within f (f.plot color x y) := by
  unfold Frame.plot
  split
  · rename_i hin
    exact .store (inside_pixel hin.1 hin.2.1 hin.2.2.1 hin.2.2.2) color
  · exact .refl f

theorem Within.px (x y : Int) : Within f (f.px color x y) := .plot _ _

theorem Within.hspan (sx sy len : Int) : Within f (f.hspan color sx sy len) := by
  unfold Frame.hspan
  dsimp only
  have hx := i16_range sx
  generalize i16 sx = x at hx
  generalize i16 sy = y
  generalize i16 len = n
  split
  · exact .refl f
  rename_i hin
  generalize hstart : (if x < 0 then (0 : Int) else x) = start
  generalize (if x < 0 then i16 (n + x) else n) = width
  generalize hcut : (if (uhrW : Int) < start + width then i16 ((uhrW : Int) - start) else width) = cut
  have hstart' : 0 ≤ start ∧ start < 32768 := by
    rw [← hstart]
    split <;> omega
  have hend : start + cut ≤ 640 := by
    rw [← hcut]
    unfold uhrW
    split
    · rw [i16_eq (by omega) (by omega)]
      omega
    · rename_i hle
      omega
  split
  · unfold uhrH at hin
    refine .fill ⟨?_, ?_, ?_⟩ color
    · show 0 ≤ y * ((640 : Nat) : Int) + start
      omega
    · show 0 ≤ cut
      omega
    · show y * ((640 : Nat) : Int) + start + cut ≤ ((640 * 400 : Nat) : Int)
      omega
  · exact .refl f

theorem Within.lineLoop (x1 y1 dx dy sx sy : Int) (turns : Nat) (p : Pencil) :
    Within f (lineLoop color x1 y1 dx dy sx sy turns p f) := by
  induction turns generalizing f p with
  | zero => exact .refl f
  | succ turns ih =>
    unfold Frame.lineLoop
    split
    · exact .plot _ _
    · exact Within.trans (.plot _ _) (ih _)

theorem Within.line (turns : Nat) (x0 y0 x1 y1 : Int) : Within f (f.line turns color x0 y0 x1 y1) := .lineLoop _ _ _ _ _ _ _ _

variable {draw : Int → Int → Frame → Frame}

theorem Within.circleLoop (hdraw : ∀ x y f, Within f (draw x y f)) (turns : Nat)
    (x y d : Int) : Within f (circleLoop draw turns x y d f) := by
  induction turns generalizing f x y d with
  | zero => exact .refl f
  | succ turns ih =>
    unfold Frame.circleLoop
    split
    · split <;> exact (hdraw _ _ _).trans (ih _ _ _)
    · exact .refl f

theorem Within.circle (hdraw : ∀ x y f, Within f (draw x y f)) (turns : Nat) (r : Int) :
    Within f (circle turns r draw f) := by
  unfold Frame.circle
  split
  · exact .refl f
  · exact .circleLoop hdraw _ _ _ _

theorem Within.ellipseFlat (hdraw : ∀ x y f, Within f (draw x y f)) (rx2 ry2 : Int)
    (turns : Nat) (x y d : Int) : Within f (ellipseFlat draw rx2 ry2 turns x y d f).2.2 := by
  induction turns generalizing f x y d with
  | zero => exact .refl f
  | succ turns ih =>
    unfold Frame.ellipseFlat
    split
    · split <;> exact (hdraw _ _ _).trans (ih _ _ _)
    · exact .refl f

theorem Within.ellipseSteep (hdraw : ∀ x y f, Within f (draw x y f)) (rx2 ry2 : Int)
    (turns : Nat) (x y d : Int) : Within f (ellipseSteep draw rx2 ry2 turns x y d f) := by
  induction turns generalizing f x y d with
  | zero => exact .refl f
  | succ turns ih =>
    unfold Frame.ellipseSteep
    split
    · split <;> exact (hdraw _ _ _).trans (ih _ _ _)
    · exact .refl f

theorem Within.ellipse (hdraw : ∀ x y f, Within f (draw x y f)) (turns rx ry : Nat) :
    Within f (ellipse turns rx ry draw f) := by
  unfold Frame.ellipse
  split
  · exact .refl f
  · exact Within.trans (.ellipseFlat hdraw _ _ _ _ _ _) (.ellipseSteep hdraw _ _ _ _ _ _)

variable (cx cy x y : Int)

theorem Within.octants (f : Frame) : Within f (f.octants color cx cy x y) :=
  ((((((((Within.px _ _).trans (.px _ _)).trans (.px _ _)).trans (.px _ _)).trans (.px _ _)).trans (.px _ _)).trans
    (.px _ _)).trans (.px _ _))

theorem Within.disc (f : Frame) : Within f (f.disc color cx cy x y) :=
  (((Within.hspan _ _ _).trans (.hspan _ _ _)).trans (.hspan _ _ _)).trans (.hspan _ _ _)

theorem Within.quadrants (f : Frame) : Within f (f.quadrants color cx cy x y) :=
  (((Within.px _ _).trans (.px _ _)).trans (.px _ _)).trans (.px _ _)

theorem Within.spans (f : Frame) : Within f (f.spans color cx cy x y) :=
  (Within.hspan _ _ _).trans (.hspan _ _ _)

theorem Within.arcPx (cx cy startDeg endDeg dx dy : Int) : Within f (f.arcPx color cx cy startDeg endDeg dx dy) := by
  unfold Frame.arcPx
  dsimp only
  split
  · exact .px _ _
  · exact .refl f

theorem Within.arcOctants (cx cy startDeg endDeg x y : Int) (f : Frame) :
    Within f (f.arcOctants color cx cy startDeg endDeg x y) :=
  ((((((((Within.arcPx _ _ _ _ _ _).trans (.arcPx _ _ _ _ _ _)).trans (.arcPx _ _ _ _ _ _)).trans
    (.arcPx _ _ _ _ _ _)).trans (.arcPx _ _ _ _ _ _)).trans (.arcPx _ _ _ _ _ _)).trans (.arcPx _ _ _ _ _ _)).trans
    (.arcPx _ _ _ _ _ _))

def OnScreen (p : Int × Int) : Prop := 0 ≤ p.1 ∧ p.1 < uhrW ∧ 0 ≤ p.2 ∧ p.2 < uhrH

theorem OnScreen.inside {x y : Int} (h : OnScreen (x, y)) : Access.Inside ⟨y * uhrW + x, 1⟩ :=
  inside_pixel h.1 h.2.1 h.2.2.1 h.2.2.2

theorem Within.scanLeft {d c : Byte} {y : Int} {x : Nat} (hx : x < uhrW) (hy : 0 ≤ y) (hy' : y < uhrH) :
    Within f (scanLeft d c y x f).2 ∧ (scanLeft d c y x f).1 ≤ x := by
  induction x generalizing f with
  | zero => exact ⟨.refl f, Nat.le_refl 0⟩
  | succ x ih =>
    have hin : OnScreen ((x : Int), y) := ⟨Int.natCast_nonneg x, Int.ofNat_lt.mpr (Nat.lt_of_succ_lt hx), hy, hy'⟩
    unfold Frame.scanLeft
    split
    · obtain ⟨hwithin, hle⟩ := ih (f := f.look (y * uhrW + x)) (Nat.lt_of_succ_lt hx)
      exact ⟨Within.trans (.look hin.inside) hwithin, Nat.le_succ_of_le hle⟩
    · exact ⟨.look hin.inside, Nat.le_refl _⟩

theorem Within.seedRow {border : Byte} {x y : Int} {started : Bool} {stack : List (Int × Int)} (hin : OnScreen (x, y))
    (hstack : ∀ p ∈ stack, OnScreen p) :
    Within f (f.seedRow border color x y started stack).2.2 ∧
      ∀ p ∈ (f.seedRow border color x y started stack).2.1, OnScreen p := by
  unfold Frame.seedRow
  split
  · split
    · refine ⟨.look hin.inside, fun p hp => ?_⟩
      rcases List.mem_cons.mp hp with rfl | hp
      · exact hin
      · exact hstack p hp
    · exact ⟨.look hin.inside, hstack⟩
  · exact ⟨.look hin.inside, hstack⟩

theorem Within.seedIf {d : Byte} {x y : Int} {s : Bool} {l : List (Int × Int)} {P : Prop} [Decidable P]
    {r : Bool × List (Int × Int) × Frame} (hr : (if P then f.seedRow d color x y s l else (s, l, f)) = r)
    (hin : P → OnScreen (x, y)) (hstack : ∀ p ∈ l, OnScreen p) : Within f r.2.2 ∧ ∀ p ∈ r.2.1, OnScreen p := by
  rw [← hr]
  split
  · rename_i h
    exact Within.seedRow (hin h) hstack
  · exact ⟨.refl f, hstack⟩

theorem fillRight_succ {d : Byte} {y : Int} {n : Nat} {rx : Int} {a b : Bool} {l : List (Int × Int)}
    {r q : Bool × List (Int × Int) × Frame} (hfill : f.fillable d color rx y = true)
    (hr : (if 0 < y then ((f.look (y * uhrW + rx)).store (y * uhrW + rx) color).seedRow d color rx (y - 1) a l
      else (a, l, (f.look (y * uhrW + rx)).store (y * uhrW + rx) color)) = r)
    (hq : (if y < uhrH - 1 then r.2.2.seedRow d color rx (y + 1) b r.2.1 else (b, r.2.1, r.2.2)) = q) :
    Frame.fillRight d color y (n + 1) rx a b l f = Frame.fillRight d color y n (rx + 1) r.1 q.1 q.2.1 q.2.2 := by
  rw [← hq, ← hr, Frame.fillRight, if_pos hfill]

theorem Within.fillRight {d : Byte} {y : Int} (hy : 0 ≤ y) (hy' : y < uhrH) (n : Nat) {rx : Int} {a b : Bool}
    {l : List (Int × Int)} (hrx : 0 ≤ rx) (hrx' : rx + n ≤ uhrW) (hstack : ∀ p ∈ l, OnScreen p) :
    Within f (fillRight d color y n rx a b l f).2 ∧ ∀ p ∈ (fillRight d color y n rx a b l f).1, OnScreen p := by
  induction n generalizing f rx a b l with
  | zero => exact ⟨.refl f, hstack⟩
  | succ n ih =>
    have hin : OnScreen (rx, y) := ⟨hrx, by show rx < uhrW; omega, hy, hy'⟩
    by_cases hfill : f.fillable d color rx y = true
    · obtain ⟨r, hr⟩ : ∃ r, (if 0 < y then ((f.look (y * uhrW + rx)).store (y * uhrW + rx) color).seedRow d color rx (y - 1) a l
        else (a, l, (f.look (y * uhrW + rx)).store (y * uhrW + rx) color)) = r := ⟨_, rfl⟩
      obtain ⟨q, hq⟩ : ∃ q, (if y < uhrH - 1 then r.2.2.seedRow d color rx (y + 1) b r.2.1 else (b, r.2.1, r.2.2)) = q := ⟨_, rfl⟩
      obtain ⟨habove, hstack'⟩ := Within.seedIf hr
        (fun hpos => ⟨hin.1, hin.2.1, by show 0 ≤ y - 1; omega, by show y - 1 < uhrH; omega⟩) hstack
      obtain ⟨hbelow, hstack''⟩ := Within.seedIf hq
        (fun hlast => ⟨hin.1, hin.2.1, by show 0 ≤ y + 1; omega, by show y + 1 < uhrH; omega⟩) hstack'
      rw [fillRight_succ hfill hr hq]
      have hnext : 0 ≤ rx + 1 ∧ rx + 1 + (n : Int) ≤ uhrW := by omega
      obtain ⟨hrest, hlast'⟩ := ih (f := q.2.2) (a := r.1) (b := q.1) (l := q.2.1) hnext.1 hnext.2 hstack''
      exact ⟨((Within.look hin.inside).trans (.store hin.inside color)).trans (habove.trans (hbelow.trans hrest)), hlast'⟩
    · unfold Frame.fillRight
      rw [if_neg hfill]
      exact ⟨.look hin.inside, hstack⟩

theorem Within.floodLoop {d : Byte} (turns : Nat) {stack : List (Int × Int)} (hstack : ∀ p ∈ stack, OnScreen p) :
    Within f (floodLoop d color turns stack f) := by
  induction turns generalizing f stack with
  | zero => exact .refl f
  | succ turns ih =>
    cases stack with
    | nil => exact .refl f
    | cons p stack =>
      obtain ⟨x, y⟩ := p
      have hin : OnScreen (x, y) := hstack _ List.mem_cons_self
      have hrest : ∀ p ∈ stack, OnScreen p := fun p hp => hstack p (List.mem_cons_of_mem _ hp)
      unfold Frame.floodLoop
      split
      · obtain ⟨hx, hx', hy, hy'⟩ := hin
        have hxn : x.toNat < uhrW := by
          show x.toNat < 640
          have : x < 640 := hx'
          omega
        obtain ⟨hleft, hle⟩ := Within.scanLeft (f := f.look (y * uhrW + x)) (d := d) (c := color) hxn hy hy'
        generalize Frame.scanLeft d color y x.toNat (f.look (y * uhrW + x)) = r at hleft hle ⊢
        obtain ⟨hright, hstack'⟩ := Within.fillRight (f := r.2) (d := d) hy hy' (uhrW - r.1) (a := false)
          (b := false) (Int.natCast_nonneg r.1) (by omega) hrest
        exact Within.trans (.look (OnScreen.inside ⟨hx, hx', hy, hy'⟩)) (hleft.trans (hright.trans (ih hstack')))
      · exact Within.trans (.look hin.inside) (ih hrest)

theorem Within.floodFill (turns : Nat) (border : Byte) (sx sy : Int) : Within f (f.floodFill turns border color sx sy) := by
  unfold Frame.floodFill
  dsimp only
  split
  · exact .refl f
  · rename_i hout
    have hin : OnScreen (i16 sx, i16 sy) := ⟨by show 0 ≤ i16 sx; omega, by show i16 sx < uhrW; omega, by show 0 ≤ i16 sy; omega,
      by show i16 sy < uhrH; omega⟩
    split
    · refine Within.trans (.look hin.inside) (.floodLoop turns (fun p hp => ?_))
      rw [List.mem_singleton.mp hp]
      exact hin
    · exact .look hin.inside

theorem Within.edgeRow (x y : Int) (n : Nat) (i : Int) : Within f (edgeRow color x y n i f) := by
  induction n generalizing f i with
  | zero => exact .refl f
  | succ n ih =>
    unfold Frame.edgeRow
    split
    · rename_i hx
      refine Within.trans ?_ (ih (i + 1))
      split
      · rename_i hin
        have hassoc : y * (uhrW : Int) + x + i = y * uhrW + (x + i) := Int.add_assoc _ _ _
        rw [hassoc]
        exact .store (inside_pixel hin.1 hx hin.2.1 hin.2.2) color
      · exact .refl f
    · exact .refl f

theorem Within.edgeCol (x y : Int) (n : Nat) (i : Int) : Within f (edgeCol color x y n i f) := by
  induction n generalizing f i with
  | zero => exact .refl f
  | succ n ih =>
    unfold Frame.edgeCol
    split
    · rename_i hy
      refine Within.trans ?_ (ih (i + 1))
      split
      · rename_i hin
        exact .store (inside_pixel hin.2.1 hin.2.2 hin.1 hy) color
      · exact .refl f
    · exact .refl f

theorem Within.drawRect (x y : Int) (w h : Nat) : Within f (f.drawRect color x y w h) := by
  unfold Frame.drawRect
  split
  · exact .refl f
  · exact (((Within.edgeRow _ _ _ _).trans (.edgeRow _ _ _ _)).trans (.edgeCol _ _ _ _)).trans (.edgeCol _ _ _ _)

end

end Frame

end GSSquared.Gpu
