/-
What a generator takes from the ring: whole cycles, up to a vertical sync.
-/
import GSSquared.Display.Pending

set_option linter.all false

namespace GSSquared.Display

variable {v : Variant} {i j : Nat}

theorem Drawn.ne_vsync {mode : VideoMode} (h : Drawn v i mode) : mode ≠ .vsync := by
  rintro rfl
  rcases h with h | ⟨h, _⟩ | ⟨h | h, _⟩
  · cases h
  · cases h
  · cases h
  · cases h

theorem Front.no_vsync {l : List VideoMode} (h : Front v i l) : VideoMode.vsync ∉ l := by
  rcases h with rfl | ⟨d, rfl, hd⟩ | ⟨x, d, rfl, hx, hd⟩
  · exact List.not_mem_nil
  · intro hmem
    exact hd.ne_vsync (List.mem_singleton.mp hmem).symm
  · intro hmem
    rcases List.mem_cons.mp hmem with rfl | hmem
    · rcases hx with hx | hx
      · cases hx
      · cases hx
    · exact hd.ne_vsync (List.mem_singleton.mp hmem).symm

def Variant.lastOfFrame (v : Variant) : Nat :=
  match v with
  | .iiePAL => 312 * 65 - 1
  | _ => 228 * 65 - 1

theorem vsync_index (h : (v.flags i).vsync = true) : i = v.lastOfFrame ∧ (v.flags i).hsync = false := by
  cases v with
  | ii =>
    simp only [Variant.flags, decide_eq_true_eq] at h
    simp only [Variant.flags, Variant.lastOfFrame, decide_eq_false_iff_not]
    omega
  | iie =>
    simp only [Variant.flags, decide_eq_true_eq] at h
    simp only [Variant.flags, Variant.lastOfFrame, decide_eq_false_iff_not]
    omega
  | iiePAL =>
    simp only [Variant.flags, decide_eq_true_eq] at h
    simp only [Variant.flags, Variant.lastOfFrame, decide_eq_false_iff_not]
    omega
  | iigs =>
    simp only [Variant.flags, decide_eq_true_eq] at h
    simp only [Variant.flags, Variant.lastOfFrame, decide_eq_false_iff_not]
    omega

theorem Cycle.ends {l : List VideoMode} (h : Cycle v i l) : .vsync ∉ l ∨
    ∃ front, l = front ++ [.vsync] ∧ .vsync ∉ front ∧ i = v.lastOfFrame := by
  obtain ⟨front, rfl, hfront⟩ := h
  unfold syncModes
  by_cases hvsync : (v.flags i).vsync = true
  · obtain ⟨hi, hhsync⟩ := vsync_index hvsync
    refine .inr ⟨front, ?_, hfront.no_vsync, hi⟩
    rw [hvsync, hhsync]
    rfl
  · rw [if_neg hvsync, List.nil_append]
    refine .inl (fun hmem => ?_)
    rcases List.mem_append.mp hmem with hmem | hmem
    · exact hfront.no_vsync hmem
    · split at hmem
      · cases List.mem_singleton.mp hmem
      · exact List.not_mem_nil hmem

variable {step : Scan → Generators → Generators} {g : Generators}

/-- `drain`, over a list: whether a vertical sync has been met, what is left, the generators. -/
def consume (step : Scan → Generators → Generators) : List Scan → Generators → Bool × List Scan × Generators
  | [], g => (false, [], g)
  | scan :: rest, g =>
    if scan.mode = .vsync then (true, rest, step scan g) else consume step rest (step scan g)

theorem drain_consume : ∀ (n : Nat) {b : ScanBuffer} {g : Generators}, b.Ring → b.count = n →
    (drain step n (b, g)).2.1.Ring ∧ (drain step n (b, g)).1 = (consume step b.pending g).1 ∧
      (drain step n (b, g)).2.1.pending = (consume step b.pending g).2.1 ∧
        (drain step n (b, g)).2.2 = (consume step b.pending g).2.2 := by
  intro n
  induction n with
  | zero =>
    intro b g h hcount
    rw [ScanBuffer.pending_of_count hcount]
    exact ⟨h, rfl, ScanBuffer.pending_of_count hcount, rfl⟩
  | succ n ih =>
    intro b g h hcount
    rw [ScanBuffer.pending_pull h hcount]
    unfold drain consume
    by_cases hmode : b.pull.1.mode = .vsync
    · rw [if_pos hmode, if_pos hmode]
      exact ⟨h.pull, rfl, rfl, rfl⟩
    · rw [if_neg hmode, if_neg hmode]
      exact ih h.pull (ScanBuffer.count_pull h hcount)

theorem consume_append : ∀ {scans rest : List Scan} {g : Generators}, .vsync ∉ scans.map Scan.mode →
    consume step (scans ++ rest) g = consume step rest (scans.foldl (fun g scan => step scan g) g) := by
  intro scans
  induction scans with
  | nil => exact fun _ => rfl
  | cons scan scans ih =>
    intro rest g h
    rw [List.map_cons, List.mem_cons, not_or] at h
    rw [List.cons_append, List.foldl_cons, consume, if_neg (Ne.symm h.1)]
    exact ih h.2

theorem consume_stop {scans rest : List Scan} {scan : Scan} (h : .vsync ∉ scans.map Scan.mode)
    (hscan : scan.mode = .vsync) : consume step (scans ++ scan :: rest) g =
      (true, rest, (scans ++ [scan]).foldl (fun g scan => step scan g) g) := by
  rw [consume_append h, consume, if_pos hscan, List.foldl_append]
  rfl

structure Keeps (v : Variant) (step : Scan → Generators → Generators) (P Q : Nat → Generators → Prop) : Prop where
  control {i : Nat} {scan : Scan} {g : Generators} :
    scan.mode = .shrMode ∨ scan.mode = .shrPalette → P i g → P i (step scan g)
  drawn {i : Nat} {scan : Scan} {g : Generators} : Drawn v i scan.mode → P i g → Q i (step scan g)
  blank {i : Nat} {g : Generators} : P i g → Q i g
  vsync {i : Nat} {scan : Scan} {g : Generators} : i < v.cyclesPerFrame → (v.flags i).vsync = true →
    (v.flags i).hsync = false → scan.mode = .vsync → Q i g → P (v.nextIndex i) (step scan g)
  hsync {i : Nat} {scan : Scan} {g : Generators} : i < v.cyclesPerFrame → (v.flags i).vsync = false →
    (v.flags i).hsync = true → scan.mode = .hsync → Q i g → P (v.nextIndex i) (step scan g)
  none {i : Nat} {g : Generators} : i < v.cyclesPerFrame → (v.flags i).vsync = false →
    (v.flags i).hsync = false → Q i g → P (v.nextIndex i) g

theorem map_eq_singleton {scans : List Scan} {mode : VideoMode} (h : scans.map Scan.mode = [mode]) :
    ∃ scan, scans = [scan] ∧ scan.mode = mode := by
  obtain ⟨scan, rest, rfl, hmode, hrest⟩ := List.map_eq_cons_iff.mp h
  rw [List.map_eq_nil_iff.mp hrest]
  exact ⟨scan, rfl, hmode⟩

namespace Keeps

variable {P Q : Nat → Generators → Prop}

theorem front (h : Keeps v step P Q) {scans : List Scan} (hfront : Front v i (scans.map Scan.mode)) (hP : P i g) :
    Q i (scans.foldl (fun g scan => step scan g) g) := by
  rcases hfront with hnil | ⟨d, hone, hd⟩ | ⟨x, d, htwo, hx, hd⟩
  · rw [List.map_eq_nil_iff.mp hnil]
    exact h.blank hP
  · obtain ⟨scan, rfl, rfl⟩ := map_eq_singleton hone
    exact h.drawn hd hP
  · obtain ⟨first, rest, rfl, rfl, hrest⟩ := List.map_eq_cons_iff.mp htwo
    obtain ⟨scan, rfl, rfl⟩ := map_eq_singleton hrest
    exact h.drawn hd (h.control hx hP)

theorem syncs (h : Keeps v step P Q) {scans : List Scan} (hi : i < v.cyclesPerFrame)
    (hsyncs : scans.map Scan.mode = syncModes (v.flags i)) (hQ : Q i g) :
    P (v.nextIndex i) (scans.foldl (fun g scan => step scan g) g) := by
  unfold syncModes at hsyncs
  by_cases hvsync : (v.flags i).vsync = true
  · have hhsync := (vsync_index hvsync).2
    rw [if_pos hvsync, hhsync, if_neg Bool.false_ne_true, List.append_nil] at hsyncs
    obtain ⟨scan, rfl, hmode⟩ := map_eq_singleton hsyncs
    exact h.vsync hi hvsync hhsync hmode hQ
  · rw [if_neg hvsync, List.nil_append] at hsyncs
    have hvsync := (Bool.not_eq_true _).mp hvsync
    by_cases hhsync : (v.flags i).hsync = true
    · rw [if_pos hhsync] at hsyncs
      obtain ⟨scan, rfl, hmode⟩ := map_eq_singleton hsyncs
      exact h.hsync hi hvsync hhsync hmode hQ
    · rw [if_neg hhsync] at hsyncs
      rw [List.map_eq_nil_iff.mp hsyncs]
      exact h.none hi hvsync ((Bool.not_eq_true _).mp hhsync) hQ

theorem cycle (h : Keeps v step P Q) {scans : List Scan} (hi : i < v.cyclesPerFrame)
    (hcycle : Cycle v i (scans.map Scan.mode)) (hP : P i g) :
    P (v.nextIndex i) (scans.foldl (fun g scan => step scan g) g) := by
  obtain ⟨front, hsplit, hfront⟩ := hcycle
  obtain ⟨first, others, rfl, rfl, hothers⟩ := List.map_eq_append_iff.mp hsplit
  rw [List.foldl_append]
  exact h.syncs hi hothers (h.front hfront hP)

end Keeps

def Variant.goesOn (v : Variant) (stopped : Bool) (j : Nat) : Nat := if stopped then v.nextIndex v.lastOfFrame else j

theorem consume_lined {P Q : Nat → Generators → Prop} (hkeeps : Keeps v step P Q) {modes : List VideoMode} (h : Lined v i modes j) : ∀ {scans : List Scan} {g : Generators},
      scans.map Scan.mode = modes → P i g →
        P (v.goesOn (consume step scans g).1 j) (consume step scans g).2.2 ∧
          Lined v (v.goesOn (consume step scans g).1 j) ((consume step scans g).2.1.map Scan.mode) j := by
  induction h with
  | nil i =>
    intro scans g hscans hP
    rw [List.map_eq_nil_iff.mp hscans]
    exact ⟨hP, .nil i⟩
  | @cycle i j l rest hi hl hrest ih =>
    intro scans g hscans hP
    obtain ⟨first, others, rfl, hfirst, hothers⟩ := List.map_eq_append_iff.mp hscans
    have hkept : P (v.nextIndex i) (first.foldl (fun g scan => step scan g) g) := by
      apply hkeeps.cycle hi _ hP
      rw [hfirst]
      exact hl
    rcases hl.ends with hno | ⟨front, hfront, hno, hlast⟩
    · rw [← hfirst] at hno
      rw [consume_append hno]
      exact ih hothers hkept
    · rw [← hfirst] at hfront
      obtain ⟨before, last, rfl, hbefore, hlastmode⟩ := List.map_eq_append_iff.mp hfront
      obtain ⟨scan, rfl, hmode⟩ := map_eq_singleton hlastmode
      rw [← hbefore] at hno
      rw [List.append_assoc, List.singleton_append, consume_stop hno hmode]
      rw [hlast] at hkept hrest
      refine ⟨hkept, ?_⟩
      show Lined v _ (others.map Scan.mode) j
      rw [hothers]
      exact hrest

end GSSquared.Display
