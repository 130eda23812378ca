/-
When a soft switch takes effect.
-/
import GSSquared.Lib.DelayLine
import GSSquared.Display.Pending

set_option linter.all false

namespace GSSquared.Display

open DelayLine

def Switches.get (sw : Switch) (s : Switches) : Bool :=
  match sw with
  | .textGraf => s.graf
  | .mixed => s.mixed
  | .page2 => s.page2
  | .hires => s.hires
  | .store80 => s.store80
  | .col80 => s.col80
  | .altChar => s.altCharset
  | .dblres => s.dblres
  | .shr => s.shr

namespace Scanner

inductive Event where
  | access (sw : Switch) (on : Bool)
  | cycle

def reset (s : Scanner) : Scanner :=
  { s with frameScan := { s.frameScan with writePos := 0, readPos := 0 }, scanIndex := 0, queue := [] }

def step (s : Scanner) : Event → Scanner
  | .access sw on => s.queueModeChange sw on
  | .cycle => s.videoCycle

def run (es : List Event) (s : Scanner) : Scanner := es.foldl step s

/-- `A2GSPU_snapshot`: the switches as they are once the queue has drained. -/
def saved (s : Scanner) : Switches := s.queue.foldl (fun switches c => switches.set c.sw c.value) s.switches

def signal (sw : Switch) (es : List Event) : List (DelayLine.Event Bool) :=
  es.filterMap (fun e => match e with
    | .access sw' on => if sw' = sw then some (.write on) else none
    | .cycle => some .cycle)

structure Exact (s : Scanner) (es : List Event) : Prop where
  inForce : ∀ pre, pre ++ [.cycle] <+: es → ∀ sw,
    (s.run pre).drainDue.switches.get sw = delayed (s.variant.delay sw) (s.switches.get sw) (signal sw pre)
  shown : s.setVideoMode = s → ∀ pre, pre ++ [.cycle] <+: es → (s.run pre).drainDue.setVideoMode = (s.run pre).drainDue
  single : ∀ pre, pre <+: es → (s.run pre).queue.Pairwise (fun c d => c.sw ≠ d.sw)
  bounded : ∀ pre, pre <+: es → (s.run pre).queue.length ≤ modeQueueSize
  saved : ∀ pre, pre <+: es → ∀ sw, (s.run pre).saved.get sw = delayed 0 (s.switches.get sw) (signal sw pre)

def Unbroken (s : Scanner) (es : List Event) : Prop :=
  ∀ pre, pre ++ [.cycle] <+: es → ∀ sw, s.variant.delay sw = 1 → touched (signal sw pre) = true →
    delayed 1 (s.switches.get sw) (signal sw pre) = delayed 2 (s.switches.get sw) (signal sw pre)

section

variable {s : Scanner} {sw : Switch} {q : List ModeChange} {due next : List ModeChange} {lines : Switch → Line Bool}

theorem get_set (sw sw' : Switch) (on : Bool) (s : Switches) :
    (s.set sw on).get sw' = if sw = sw' then on else s.get sw' := by
  cases sw <;> cases sw' <;> rfl

theorem delay_le (v : Variant) (sw : Switch) : v.delay sw = 0 ∨ v.delay sw = 1 := by
  cases sw <;> cases v <;> first | exact .inl rfl | exact .inr rfl

def waiting (sw : Switch) (q : List ModeChange) : Option Bool := (q.find? (fun c => c.sw == sw)).map ModeChange.value

theorem waiting_append (p q : List ModeChange) : waiting sw (p ++ q) = (waiting sw p).or (waiting sw q) := by
  unfold waiting
  rw [List.find?_append]
  cases p.find? (fun c => c.sw == sw) <;> rfl

theorem waiting_none (h : ∀ c ∈ q, c.sw ≠ sw) : waiting sw q = none := by
  unfold waiting
  rw [Option.map_eq_none_iff, List.find?_eq_none]
  intro c hc hsw
  exact h c hc (beq_iff_eq.mp hsw)

theorem waiting_filter (sw' : Switch) :
    waiting sw (q.filter (fun c => c.sw != sw')) = if sw' = sw then none else waiting sw q := by
  split
  · next h =>
    apply waiting_none
    intro c hc
    rw [← h]
    exact bne_iff_ne.mp (List.mem_filter.mp hc).2
  · next h =>
    unfold waiting
    rw [List.find?_filter]
    congr 2
    funext c
    by_cases hc : c.sw = sw
    · rw [hc]
      have hne : (sw != sw') = true := bne_iff_ne.mpr (Ne.symm h)
      rw [hne, beq_self_eq_true]
      rfl
    · rw [beq_eq_false_iff_ne.mpr hc]
      exact decide_eq_false (fun hno => Bool.false_ne_true hno.2)

theorem eraseP_eq (h : q.Pairwise (fun c d => c.sw ≠ d.sw)) (sw : Switch) :
    q.eraseP (fun c => c.sw == sw) = q.filter (fun c => c.sw != sw) := by
  induction q with
  | nil => rfl
  | cons c q ih =>
    obtain ⟨hc, hq⟩ := List.pairwise_cons.mp h
    by_cases hsw : c.sw = sw
    · rw [List.eraseP_cons_of_pos (p := fun c : ModeChange => c.sw == sw) (beq_iff_eq.mpr hsw),
        List.filter_cons_of_neg (p := fun c : ModeChange => c.sw != sw) (fun hne => bne_iff_ne.mp hne hsw)]
      symm
      apply List.filter_eq_self.mpr
      intro d hd
      rw [bne_iff_ne, ← hsw]
      exact (hc d hd).symm
    · rw [List.eraseP_cons_of_neg (p := fun c : ModeChange => c.sw == sw) (fun heq => hsw (beq_iff_eq.mp heq)),
        List.filter_cons_of_pos (p := fun c : ModeChange => c.sw != sw) (bne_iff_ne.mpr hsw), ih hq]

theorem get_changes (h : q.Pairwise (fun c d => c.sw ≠ d.sw)) (s : Switches) (sw : Switch) :
    (q.foldl (fun switches c => switches.set c.sw c.value) s).get sw = (waiting sw q).getD (s.get sw) := by
  induction q generalizing s with
  | nil => rfl
  | cons c q ih =>
    obtain ⟨hc, hq⟩ := List.pairwise_cons.mp h
    rw [List.foldl_cons, ih hq, get_set]
    unfold waiting
    by_cases hsw : c.sw = sw
    · have hnone : waiting sw q = none := waiting_none (fun d hd => by rw [← hsw]; exact (hc d hd).symm)
      unfold waiting at hnone
      rw [hnone, List.find?_cons_of_pos (p := fun c : ModeChange => c.sw == sw) (beq_iff_eq.mpr hsw), if_pos hsw]
      rfl
    · rw [List.find?_cons_of_neg (p := fun c : ModeChange => c.sw == sw) (fun heq => hsw (beq_iff_eq.mp heq)), if_neg hsw]

structure Holds (s : Scanner) (due next : List ModeChange) (lines : Switch → Line Bool) : Prop where
  index : s.scanIndex < s.variant.cyclesPerFrame
  value : ∀ sw, s.switches.get sw = (lines sw).value
  queue : s.queue = due ++ next
  dueAt : ∀ c ∈ due, c.applyAt = s.scanIndex
  nextAt : ∀ c ∈ next, c.applyAt = s.applyAt 1
  waits : ∀ sw, (lines sw).due = waiting sw due
  follows : ∀ sw, (lines sw).next = waiting sw next
  single : s.queue.Pairwise (fun c d => c.sw ≠ d.sw)
  delays : ∀ c ∈ s.queue, s.variant.delay c.sw = 1

theorem cyclesPerFrame_pos (v : Variant) : 2 ≤ v.cyclesPerFrame := by
  cases v <;> decide

theorem applyAt_ne (h : s.scanIndex < s.variant.cyclesPerFrame) : s.applyAt 1 ≠ s.scanIndex := by
  have hpos := cyclesPerFrame_pos s.variant
  unfold applyAt
  split
  · omega
  · omega

theorem applyAt_one (h : s.scanIndex < s.variant.cyclesPerFrame) : s.applyAt 1 = s.variant.nextIndex s.scanIndex := by
  unfold applyAt Variant.nextIndex
  split
  · rw [if_pos (by omega)]
    omega
  · rw [if_neg (by omega)]

theorem length_le (hsingle : q.Pairwise (fun c d => c.sw ≠ d.sw)) {v : Variant} (hdelays : ∀ c ∈ q, v.delay c.sw = 1) :
    q.length ≤ 7 := by
  have hnodup : (q.map ModeChange.sw).Nodup := List.pairwise_map.mpr hsingle
  have hsubset : q.map ModeChange.sw ⊆ [.textGraf, .mixed, .store80, .col80, .altChar, .dblres, .shr] := by
    intro sw hsw
    obtain ⟨c, hc, rfl⟩ := List.mem_map.mp hsw
    have hdelay := hdelays c hc
    generalize c.sw = sw at hdelay ⊢
    cases sw with
    | page2 => cases hdelay
    | hires => cases hdelay
    | _ => decide
  have hlength := hnodup.length_le_of_subset hsubset
  rw [List.length_map] at hlength
  exact hlength

theorem Holds.drained (h : Holds s due next lines) : s.drainDue.queue = next ∧
    ∀ sw, s.drainDue.switches.get sw = (lines sw).current := by
  have hdue : ∀ c ∈ due, (c.applyAt == s.scanIndex) = true := fun c hc => beq_iff_eq.mpr (h.dueAt c hc)
  have hnext : ∀ c ∈ next, ¬(c.applyAt == s.scanIndex) = true := by
    intro c hc heq
    exact applyAt_ne h.index ((h.nextAt c hc).symm.trans (beq_iff_eq.mp heq))
  have htake : s.queue.takeWhile (fun c => c.applyAt == s.scanIndex) = due := by
    rw [h.queue, List.takeWhile_append_of_pos hdue]
    cases next with
    | nil => exact List.append_nil due
    | cons c next =>
      rw [List.takeWhile_cons_of_neg (p := fun c : ModeChange => c.applyAt == s.scanIndex) (hnext c List.mem_cons_self)]
      exact List.append_nil due
  have hdrop : s.queue.dropWhile (fun c => c.applyAt == s.scanIndex) = next := by
    rw [h.queue, List.dropWhile_append_of_pos hdue]
    cases next with
    | nil => rfl
    | cons c next => exact List.dropWhile_cons_of_neg (hnext c List.mem_cons_self)
  have hsingle : due.Pairwise (fun c d => c.sw ≠ d.sw) := by
    have hsingle := h.single
    rw [h.queue] at hsingle
    exact (List.pairwise_append.mp hsingle).1
  have hget : ∀ sw, (due.foldl (fun switches c => switches.set c.sw c.value) s.switches).get sw = (lines sw).current := by
    intro sw
    rw [get_changes hsingle, h.value sw, ← h.waits sw]
    rfl
  unfold drainDue
  dsimp only
  rw [htake, hdrop]
  split
  · exact ⟨rfl, hget⟩
  · exact ⟨rfl, hget⟩

theorem Holds.saved (h : Holds s due next lines) (sw : Switch) : s.saved.get sw = (lines sw).latest := by
  unfold Scanner.saved
  rw [get_changes h.single, h.queue, waiting_append, ← h.waits, ← h.follows, h.value]
  have hdisjoint : (lines sw).due = none ∨ (lines sw).next = none := by
    have hsingle := h.single
    rw [h.queue] at hsingle
    have hacross := (List.pairwise_append.mp hsingle).2.2
    rw [h.waits, h.follows]
    by_cases hdue : ∃ c ∈ due, c.sw = sw
    · obtain ⟨c, hc, hsw⟩ := hdue
      exact .inr (waiting_none (fun d hd hd' => hacross c hc d hd (hsw.trans hd'.symm)))
    · exact .inl (waiting_none (fun c hc hsw => hdue ⟨c, hc, hsw⟩))
  unfold Line.latest Line.current
  rcases hdisjoint with hnone | hnone
  · rw [hnone]
    rfl
  · rw [hnone]
    cases (lines sw).due <;> rfl

theorem Holds.cycle (h : Holds s due next lines) (d : Switch → Nat) :
    Holds s.videoCycle next [] (fun sw => (lines sw).step (d sw) .cycle) := by
  obtain ⟨hqueue, hvalue⟩ := h.drained
  obtain ⟨hvariant, hindex, _⟩ := drainDue_same s
  have hnext : s.videoCycle.scanIndex = s.applyAt 1 := by
    rw [applyAt_one h.index, ← hvariant, ← hindex]
    rfl
  have hsingle := h.single
  have hdelays := h.delays
  rw [h.queue] at hsingle hdelays
  refine ⟨?_, hvalue, hqueue.trans (List.append_nil next).symm, ?_, nofun, h.follows, fun _ => rfl, ?_, ?_⟩
  · show s.videoCycle.scanIndex < s.drainDue.variant.cyclesPerFrame
    rw [hnext, hvariant, applyAt_one h.index]
    exact nextIndex_lt _ _ h.index
  · intro c hc
    rw [hnext]
    exact h.nextAt c hc
  · show s.drainDue.queue.Pairwise _
    rw [hqueue]
    exact (List.pairwise_append.mp hsingle).2.1
  · intro c hc
    change c ∈ s.drainDue.queue at hc
    rw [hqueue] at hc
    show s.drainDue.variant.delay c.sw = 1
    rw [hvariant]
    exact hdelays c (List.mem_append_right due hc)

theorem Holds.now (h : Holds s due next lines) {sw : Switch} {on : Bool} (hdelay : s.variant.delay sw = 0) :
    Holds (s.queueModeChange sw on) due next (fun sw' => if sw = sw' then (lines sw').step 0 (.write on) else lines sw') := by
  have habsent : ∀ c ∈ s.queue, c.sw ≠ sw := by
    intro c hc hsw
    have hone := h.delays c hc
    rw [hsw, hdelay] at hone
    cases hone
  have hqueue : (s.queueModeChange sw on).queue = s.queue := by
    unfold queueModeChange
    rw [if_pos hdelay]
    show s.queue.eraseP (fun c => c.sw == sw) = s.queue
    exact List.eraseP_of_forall_not (fun c hc heq => habsent c hc (beq_iff_eq.mp heq))
  have hrest : (s.queueModeChange sw on).variant = s.variant ∧ (s.queueModeChange sw on).scanIndex = s.scanIndex ∧
      (s.queueModeChange sw on).switches = s.switches.set sw on := by
    unfold queueModeChange
    rw [if_pos hdelay]
    exact ⟨rfl, rfl, rfl⟩
  obtain ⟨hvariant, hindex, hswitches⟩ := hrest
  have habsent' := habsent
  rw [h.queue] at habsent'
  refine ⟨?_, fun sw' => ?_, hqueue.trans h.queue, ?_, ?_, fun sw' => ?_, fun sw' => ?_, ?_, ?_⟩
  · rw [hvariant, hindex]
    exact h.index
  · rw [hswitches, get_set]
    split
    · rfl
    · exact h.value sw'
  · rw [hindex]
    exact h.dueAt
  · unfold applyAt
    rw [hvariant, hindex]
    exact h.nextAt
  · split
    · next hsw =>
      exact (waiting_none (fun c hc => hsw ▸ habsent' c (List.mem_append_left next hc))).symm
    · exact h.waits sw'
  · split
    · next hsw =>
      exact (waiting_none (fun c hc => hsw ▸ habsent' c (List.mem_append_right due hc))).symm
    · exact h.follows sw'
  · rw [hqueue]
    exact h.single
  · rw [hqueue, hvariant]
    exact h.delays

theorem Holds.later (h : Holds s due next lines) {sw : Switch} {on : Bool} (hdelay : s.variant.delay sw = 1) :
    Holds (s.queueModeChange sw on) (due.filter (fun c => c.sw != sw))
      (next.filter (fun c => c.sw != sw) ++ [{ applyAt := s.applyAt 1, sw := sw, value := on }])
      (fun sw' => if sw = sw' then (lines sw').step 1 (.write on) else lines sw') := by
  have hfilter : (s.cancelPending sw).queue = s.queue.filter (fun c => c.sw != sw) := eraseP_eq h.single sw
  have hsub : ∀ c ∈ (s.cancelPending sw).queue, c ∈ s.queue ∧ c.sw ≠ sw := by
    intro c hc
    rw [hfilter] at hc
    exact ⟨(List.mem_filter.mp hc).1, bne_iff_ne.mp (List.mem_filter.mp hc).2⟩
  have hsingle : (s.cancelPending sw).queue.Pairwise (fun c d => c.sw ≠ d.sw) := by
    rw [hfilter]
    exact h.single.filter _
  have hroom : (s.cancelPending sw).makeRoom = s.cancelPending sw := by
    have hle := length_le hsingle (fun c hc => h.delays c (hsub c hc).1)
    unfold makeRoom
    split
    · rfl
    · exact if_neg (by unfold modeQueueSize; omega)
  have hstep : s.queueModeChange sw on = { s.cancelPending sw with
      queue := (s.cancelPending sw).queue ++ [{ applyAt := s.applyAt 1, sw := sw, value := on }] } := by
    unfold queueModeChange
    rw [if_neg (by rw [hdelay]; decide), hroom, hdelay]
    rfl
  rw [hstep]
  refine ⟨h.index, fun sw' => ?_, ?_, fun c hc => ?_, fun c hc => ?_, fun sw' => ?_, fun sw' => ?_, ?_, fun c hc => ?_⟩
  · rw [show (s.cancelPending sw).switches = s.switches from rfl, h.value sw']
    split
    · rfl
    · rfl
  · rw [hfilter, h.queue, List.filter_append, List.append_assoc]
  · exact h.dueAt c (List.mem_filter.mp hc).1
  · rcases List.mem_append.mp hc with hc | hc
    · exact h.nextAt c (List.mem_filter.mp hc).1
    · rw [List.mem_singleton.mp hc]
      rfl
  · rw [waiting_filter]
    by_cases hsw : sw = sw'
    · rw [if_pos hsw, if_pos hsw]
      rfl
    · rw [if_neg hsw, if_neg hsw]
      exact h.waits sw'
  · rw [waiting_append, waiting_filter]
    by_cases hsw : sw = sw'
    · rw [if_pos hsw, if_pos hsw]
      unfold waiting
      rw [List.find?_cons_of_pos (p := fun c : ModeChange => c.sw == sw') (beq_iff_eq.mpr hsw)]
      rfl
    · rw [if_neg hsw, if_neg hsw, h.follows sw', waiting_none (q := [_]), Option.or_none]
      intro c hc
      rw [List.mem_singleton.mp hc]
      exact hsw
  · apply List.pairwise_append.mpr
    refine ⟨hsingle, List.pairwise_singleton _ _, fun c hc d hd => ?_⟩
    rw [List.mem_singleton.mp hd]
    exact (hsub c hc).2
  · rcases List.mem_append.mp hc with hc | hc
    · exact h.delays c (hsub c hc).1
    · rw [List.mem_singleton.mp hc]
      exact hdelay

theorem signal_append (sw : Switch) (es : List Event) (e : Event) :
    signal sw (es ++ [e]) = signal sw es ++ signal sw [e] := List.filterMap_append

theorem run_append (es : List Event) (e : Event) : s.run (es ++ [e]) = (s.run es).step e := by
  unfold run
  rw [List.foldl_append]
  rfl

theorem run_variant (es : List Event) : (s.run es).variant = s.variant := by
  induction es using List.reverseRecOn with
  | nil => rfl
  | append_singleton es e ih =>
    rw [run_append, ← ih]
    generalize s.run es = t
    cases e with
    | access sw on => exact (queueModeChange_same t sw on).variant
    | cycle => exact videoCycle_variant t

theorem holds_run (s : Scanner) (es : List Event) : ∃ due next, Holds (s.reset.run es) due next
    (fun sw => Line.run (s.variant.delay sw) (s.switches.get sw) (signal sw es)) := by
  induction es using List.reverseRecOn with
  | nil =>
    have hpos := cyclesPerFrame_pos s.variant
    refine ⟨[], [], ?_, fun _ => rfl, rfl, nofun, nofun, fun _ => rfl, fun _ => rfl, .nil, nofun⟩
    show 0 < s.variant.cyclesPerFrame
    omega
  | append_singleton es e ih =>
    obtain ⟨due, next, h⟩ := ih
    have hvariant : (s.reset.run es).variant = s.variant := run_variant es
    rw [run_append]
    cases e with
    | cycle =>
      refine ⟨next, [], ?_⟩
      have hstep := h.cycle s.variant.delay
      have hlines : (fun sw => Line.run (s.variant.delay sw) (s.switches.get sw) (signal sw (es ++ [.cycle]))) =
          fun sw => (Line.run (s.variant.delay sw) (s.switches.get sw) (signal sw es)).step (s.variant.delay sw) .cycle := by
        funext sw
        rw [signal_append]
        exact Line.run_append .cycle
      rw [hlines]
      exact hstep
    | access sw on =>
      have hlines : (fun sw' => Line.run (s.variant.delay sw') (s.switches.get sw') (signal sw' (es ++ [.access sw on]))) =
          fun sw' => if sw = sw' then
              (Line.run (s.variant.delay sw') (s.switches.get sw') (signal sw' es)).step (s.variant.delay sw) (.write on)
            else Line.run (s.variant.delay sw') (s.switches.get sw') (signal sw' es) := by
        funext sw'
        rw [signal_append]
        by_cases hsw : sw = sw'
        · have hsignal : signal sw' [.access sw on] = [.write on] := List.filterMap_cons_some (if_pos hsw)
          rw [hsignal, if_pos hsw, hsw]
          exact Line.run_append (.write on)
        · have hsignal : signal sw' [.access sw on] = [] := List.filterMap_cons_none (if_neg hsw)
          rw [hsignal, if_neg hsw, List.append_nil]
      rw [hlines]
      rcases delay_le s.variant sw with hdelay | hdelay
      · rw [hdelay]
        exact ⟨due, next, h.now (hvariant ▸ hdelay)⟩
      · rw [hdelay]
        exact ⟨_, _, h.later (hvariant ▸ hdelay)⟩

theorem signal_pre_iff {es : List Event} {past : List (DelayLine.Event Bool)} :
    past ++ [.cycle] <+: signal sw es ↔ ∃ pre, pre ++ [.cycle] <+: es ∧ signal sw pre = past := by
  constructor
  · rintro ⟨rest, hrest⟩
    obtain ⟨front, back, rfl, hfront, _⟩ := List.filterMap_eq_append_iff.mp hrest.symm
    obtain ⟨pre, tail, rfl, hpre, htail⟩ := List.filterMap_eq_append_iff.mp hfront
    obtain ⟨gap, e, after, rfl, hgap, he, _⟩ := List.filterMap_eq_cons_iff.mp htail
    cases e with
    | access sw' on =>
      dsimp only at he
      split at he
      · cases he
      · cases he
    | cycle =>
      refine ⟨pre ++ gap, ⟨after ++ back, ?_⟩, ?_⟩
      · rw [List.append_assoc, List.append_assoc, List.append_assoc, List.append_assoc]
        rfl
      · have hnone : signal sw gap = [] := List.filterMap_eq_nil_iff.mpr hgap
        show List.filterMap _ (pre ++ gap) = past
        rw [List.filterMap_append, hpre]
        change past ++ signal sw gap = past
        rw [hnone, List.append_nil]
  · rintro ⟨pre, ⟨rest, rfl⟩, rfl⟩
    refine ⟨signal sw rest, ?_⟩
    unfold signal
    rw [List.filterMap_append, List.filterMap_append]
    rfl

theorem shown_of {t : Scanner} (h : s.setVideoMode = s) (hvariant : t.variant = s.variant) (hswitches : t.switches = s.switches)
    (hmode : t.videoMode = s.videoMode) (htable : t.table = s.table) (hflags : t.modeFlags = s.modeFlags) :
    t.setVideoMode = t := by
  have hmode' : s.setVideoMode.videoMode = t.videoMode := (congrArg videoMode h).trans hmode.symm
  have htable' : s.setVideoMode.table = t.table := (congrArg table h).trans htable.symm
  have hflags' : s.setVideoMode.modeFlags = t.modeFlags := (congrArg modeFlags h).trans hflags.symm
  have hlike : t.setVideoMode = { t with
      videoMode := s.setVideoMode.videoMode, table := s.setVideoMode.table, modeFlags := s.setVideoMode.modeFlags } := by
    unfold setVideoMode
    rw [hvariant, hswitches]
  rw [hlike, hmode', htable', hflags']

theorem shown_drainDue (h : s.setVideoMode = s) : s.drainDue.setVideoMode = s.drainDue := by
  unfold drainDue
  dsimp only
  split
  · next hnone =>
    rw [List.isEmpty_iff.mp hnone]
    exact shown_of h rfl rfl rfl rfl rfl
  · rfl

theorem shown_step (h : s.setVideoMode = s) (e : Event) : (s.step e).setVideoMode = s.step e := by
  cases e with
  | access sw on =>
    show (s.queueModeChange sw on).setVideoMode = s.queueModeChange sw on
    unfold queueModeChange
    dsimp only
    split
    · rfl
    · have hroom : (s.cancelPending sw).makeRoom.setVideoMode = (s.cancelPending sw).makeRoom := by
        have hcancel : (s.cancelPending sw).setVideoMode = s.cancelPending sw := shown_of h rfl rfl rfl rfl rfl
        unfold makeRoom
        split
        · exact hcancel
        · split
          · rfl
          · exact hcancel
      exact shown_of hroom rfl rfl rfl rfl rfl
  | cycle => exact shown_of (shown_drainDue h) rfl rfl rfl rfl rfl

theorem shown_run (h : s.setVideoMode = s) (es : List Event) : (s.run es).setVideoMode = s.run es := by
  induction es using List.reverseRecOn with
  | nil => exact h
  | append_singleton es e ih =>
    rw [run_append]
    exact shown_step ih e

end

/-- Since a reset every switch is in force when it should be, just if no change comes in the gap after one of the
same switch that has left it at a new value. -/
theorem exact_iff_unbroken (s : Scanner) (es : List Event) : Exact s.reset es ↔ Unbroken s.reset es := by
  have hinForce : ∀ pre sw, (s.reset.run pre).drainDue.switches.get sw =
      (Line.run (s.variant.delay sw) (s.switches.get sw) (signal sw pre)).current := by
    intro pre sw
    obtain ⟨due, next, h⟩ := holds_run s pre
    exact h.drained.2 sw
  constructor
  · intro h pre hpre sw hdelay htouched
    change s.variant.delay sw = 1 at hdelay
    refine Line.exact_iff.mp ?_ _ (signal_pre_iff.mpr ⟨pre, hpre, rfl⟩) htouched
    intro past hpast
    obtain ⟨before, hbefore, rfl⟩ := signal_pre_iff.mp hpast
    have hforce := h.inForce before hbefore sw
    change _ = delayed (s.variant.delay sw) _ _ at hforce
    rw [hinForce, hdelay] at hforce
    exact hforce
  · intro h
    refine ⟨fun pre hpre sw => ?_, fun hshown pre _ => shown_drainDue (shown_run hshown pre), fun pre _ => ?_, fun pre _ => ?_,
      fun pre _ sw => ?_⟩
    · rw [hinForce]
      show _ = delayed (s.variant.delay sw) (s.switches.get sw) (signal sw pre)
      rcases delay_le s.variant sw with hdelay | hdelay
      · rw [hdelay]
        exact Line.current_zero
      · rw [hdelay]
        refine Line.exact_iff.mpr ?_ _ (signal_pre_iff.mpr ⟨pre, hpre, rfl⟩)
        intro past hpast htouched
        obtain ⟨before, hbefore, rfl⟩ := signal_pre_iff.mp hpast
        exact h before hbefore sw hdelay htouched
    · obtain ⟨due, next, hholds⟩ := holds_run s pre
      exact hholds.single
    · obtain ⟨due, next, hholds⟩ := holds_run s pre
      exact Nat.le_trans (length_le hholds.single hholds.delays) (by decide)
    · obtain ⟨due, next, hholds⟩ := holds_run s pre
      rw [hholds.saved]
      exact Line.latest_run

def pulse : List Event := [.access .textGraf true, .cycle, .access .textGraf false]

/-- It is never seen. -/
theorem pulse_lost : ¬Exact (reset { variant := .iie }) (pulse ++ [.cycle]) := by
  intro h
  have hforce := h.inForce pulse (List.prefix_refl _) .textGraf
  exact absurd hforce (by decide +kernel)

end Scanner

end GSSquared.Display
