/-
The event queue.
-/
import Mathlib
import GSSquared.Lib.Heap
import GSSquared.Lib.Trail

set_option linter.all false

namespace GSSquared.Clock

open Heap

/-- `EventTimer::Event`; the callback and its argument are passed on as they are. -/
structure Event (α : Type) where
  triggerCycles : Nat
  instanceID : Nat
  callback : α
deriving DecidableEq

def due {α : Type} (e : Event α) : Nat := e.triggerCycles

def uint64Max : Nat := 2 ^ 64 - 1

structure EventTimer (α : Type) where
  events : List (Event α) := []
  nextEventCycle : Nat := 0
deriving DecidableEq

inductive Call (α : Type) where
  | schedule (clock : Option Nat) (event : Event α)
  | cancel (instanceID : Nat)
deriving DecidableEq

section

variable {α : Type}

/-- `find_if` and the assignments to what it finds. -/
def replaceFirst (e : Event α) : List (Event α) → List (Event α)
  | [] => []
  | x :: xs => if x.instanceID = e.instanceID then e :: xs else x :: replaceFirst e xs

namespace EventTimer

variable (H : Ops (due (α := α)))

def updateNextEventCycle (q : EventTimer α) : EventTimer α :=
  { q with nextEventCycle := match q.events with | [] => uint64Max | e :: _ => e.triggerCycles }

def isPast (clock : Option Nat) (event : Event α) : Bool :=
  match clock with
  | none => false
  | some now => event.triggerCycles < now

def scheduleEvent (clock : Option Nat) (event : Event α) (q : EventTimer α) : EventTimer α :=
  if isPast clock event then q
  else
    let events := if q.events.any (fun e => e.instanceID == event.instanceID) then
        H.make (replaceFirst event q.events)
      else H.push (q.events ++ [event])
    updateNextEventCycle { q with events := events }

def cancelEvents (instanceID : Nat) (q : EventTimer α) : EventTimer α :=
  let kept := q.events.filter (fun e => e.instanceID != instanceID)
  updateNextEventCycle { q with events := if kept.length < q.events.length then H.make kept else q.events }

def call (q : EventTimer α) : Call α → EventTimer α
  | .schedule clock event => q.scheduleEvent H clock event
  | .cancel instanceID => q.cancelEvents H instanceID

def popped (q : EventTimer α) : EventTimer α := { q with events := (H.pop q.events).dropLast }

def accepted : Call α → List (Event α)
  | .schedule clock event => if isPast clock event then [] else [event]
  | .cancel _ => []

def withdrawn (q : EventTimer α) : Call α → List (Event α)
  | .schedule clock event =>
    if isPast clock event then [] else (q.events.find? (fun e => e.instanceID == event.instanceID)).toList
  | .cancel instanceID => q.events.filter (fun e => e.instanceID == instanceID)

def withdrawnBy (q : EventTimer α) : List (Call α) → List (Event α)
  | [] => []
  | c :: cs => q.withdrawn c ++ withdrawnBy (q.call H c) cs

theorem length_replaceFirst (e : Event α) (l : List (Event α)) : (replaceFirst e l).length = l.length := by
  induction l with
  | nil => rfl
  | cons x xs ih =>
    rw [replaceFirst]
    split
    · rfl
    · rw [List.length_cons, List.length_cons, ih]

theorem length_call (q : EventTimer α) (c : Call α) : (q.call H c).events.length ≤ q.events.length + 1 := by
  cases c with
  | schedule clock event =>
    rw [call, scheduleEvent]
    by_cases hpast : isPast clock event = true
    · rw [if_pos hpast]
      omega
    · rw [if_neg hpast, updateNextEventCycle]
      show (if _ then _ else _ : List (Event α)).length ≤ _
      split
      · rw [(H.make_perm _).length_eq, length_replaceFirst]
        omega
      · rw [(H.push_perm _).length_eq, List.length_append, List.length_singleton]
  | cancel instanceID =>
    rw [call, cancelEvents, updateNextEventCycle]
    show (if _ then _ else _ : List (Event α)).length ≤ _
    split
    · rw [(H.make_perm _).length_eq]
      omega
    · omega

theorem length_calls (cs : List (Call α)) (q : EventTimer α) :
    (cs.foldl (call H) q).events.length ≤ q.events.length + cs.length := by
  induction cs generalizing q with
  | nil => rfl
  | cons c cs ih =>
    have hone := length_call H q c
    have hrest := ih (q.call H c)
    rw [List.foldl_cons, List.length_cons]
    omega

theorem length_popped (q : EventTimer α) : (q.popped H).events.length = q.events.length - 1 := by
  rw [popped, List.length_dropLast, (H.pop_perm _).length_eq]

end EventTimer

/-- What a call of `processEvents` does: the queue after it, the events it fires, and what the
callbacks put in and take out meanwhile. -/
structure Pass (α : Type) where
  timer : EventTimer α
  fired : List (Event α) := []
  accepted : List (Event α) := []
  withdrawn : List (Event α) := []

namespace EventTimer

variable (H : Ops (due (α := α)))

/-- The loop: the front is fired as long as it is due, and `calls` are those of the callbacks. -/
def drain (now : Nat) (calls : List (List (Call α))) (q : EventTimer α) : Pass α :=
  match _h : q.events with
  | [] => { timer := q }
  | e :: _ =>
    if e.triggerCycles ≤ now then
      let cs := calls.headD []
      let rest := drain now calls.tail (cs.foldl (call H) (q.popped H))
      { timer := rest.timer
        fired := e :: rest.fired
        accepted := cs.flatMap accepted ++ rest.accepted
        withdrawn := (q.popped H).withdrawnBy H cs ++ rest.withdrawn }
    else { timer := q }
termination_by q.events.length + (calls.map List.length).sum
decreasing_by
  have hlength := length_calls H (calls.headD []) (q.popped H)
  have hpopped := length_popped H q
  rw [_h, List.length_cons, Nat.add_sub_cancel] at hpopped
  cases calls with
  | nil =>
    simp only [List.headD_nil, List.tail_nil, List.length_nil, List.length_cons, List.foldl_nil, _h] at hlength ⊢
    omega
  | cons cs calls =>
    simp only [List.headD_cons, List.tail_cons, List.map_cons, List.sum_cons, List.length_cons, _h] at hlength ⊢
    omega

def processEvents (now : Nat) (calls : List (List (Call α))) (q : EventTimer α) : Pass α :=
  let pass := drain H now calls q
  { pass with timer := pass.timer.updateNextEventCycle }

structure Ordered (q : EventTimer α) : Prop where
  heap : IsHeap due q.events
  ids : (q.events.map Event.instanceID).Nodup

theorem ids_replaceFirst (e : Event α) (l : List (Event α)) :
    (replaceFirst e l).map Event.instanceID = l.map Event.instanceID := by
  induction l with
  | nil => rfl
  | cons x xs ih =>
    rw [replaceFirst]
    split
    · rename_i hsame
      rw [List.map_cons, List.map_cons, hsame]
    · rw [List.map_cons, List.map_cons, ih]

theorem perm_replaceFirst {e : Event α} {l : List (Event α)} (h : l.any (fun x => x.instanceID == e.instanceID) = true) :
    (replaceFirst e l ++ (l.find? (fun x => x.instanceID == e.instanceID)).toList).Perm (l ++ [e]) := by
  induction l with
  | nil => cases h
  | cons x xs ih =>
    by_cases hsame : x.instanceID = e.instanceID
    · have hfind : (x :: xs).find? (fun x => x.instanceID == e.instanceID) = some x :=
        List.find?_cons_of_pos (by simpa using hsame)
      rw [replaceFirst, if_pos hsame, hfind]
      exact ((List.perm_append_singleton x xs).cons e).trans
        ((List.Perm.swap x e xs).trans ((List.perm_append_singleton e xs).symm.cons x))
    · have hfind : (x :: xs).find? (fun x => x.instanceID == e.instanceID) =
          xs.find? (fun x => x.instanceID == e.instanceID) := List.find?_cons_of_neg (by simpa using hsame)
      have hrest : xs.any (fun x => x.instanceID == e.instanceID) = true := by simpa [hsame] using h
      rw [replaceFirst, if_neg hsame, hfind]
      exact (ih hrest).cons x

theorem find_none {e : Event α} {l : List (Event α)} (h : ¬ l.any (fun x => x.instanceID == e.instanceID) = true) :
    l.find? (fun x => x.instanceID == e.instanceID) = none := by
  rw [List.find?_eq_none]
  intro x hx hsame
  exact h (List.any_eq_true.mpr ⟨x, hx, hsame⟩)

theorem ids_perm {l l' : List (Event α)} (h : l.Perm l') (hids : (l'.map Event.instanceID).Nodup) :
    (l.map Event.instanceID).Nodup := (h.map Event.instanceID).nodup_iff.mpr hids

theorem perm_account {first middle last into into' out out' : List (Event α)} (h : (middle ++ out).Perm (first ++ into))
    (h' : (last ++ out').Perm (middle ++ into')) : (last ++ (out ++ out')).Perm (first ++ (into ++ into')) := by
  classical
  rw [List.perm_iff_count] at h h' ⊢
  intro x
  have hx := h x
  have hx' := h' x
  simp only [List.count_append] at hx hx' ⊢
  omega

variable {H} {q : EventTimer α}

theorem Ordered.call (h : Ordered q) (c : Call α) :
    Ordered (q.call H c) ∧ ((q.call H c).events ++ q.withdrawn c).Perm (q.events ++ accepted c) := by
  cases c with
  | schedule clock event =>
    rw [EventTimer.call, scheduleEvent, withdrawn, accepted]
    by_cases hpast : isPast clock event = true
    · rw [if_pos hpast, if_pos hpast, if_pos hpast]
      exact ⟨h, .refl _⟩
    · rw [if_neg hpast, if_neg hpast, if_neg hpast]
      by_cases hthere : q.events.any (fun e => e.instanceID == event.instanceID) = true
      · have hperm := H.make_perm (replaceFirst event q.events)
        simp only [hthere, if_true]
        refine ⟨⟨H.make_isHeap _, ids_perm hperm ?_⟩, (hperm.append_right _).trans (perm_replaceFirst hthere)⟩
        rw [ids_replaceFirst]
        exact h.ids
      · have hperm := H.push_perm (q.events ++ [event])
        simp only [hthere, find_none hthere]
        refine ⟨⟨H.push_isHeap _ _ h.heap, ids_perm hperm ?_⟩, (hperm.append_right _).trans (.of_eq (List.append_nil _))⟩
        rw [List.map_append, List.nodup_append]
        refine ⟨h.ids, List.nodup_singleton _, ?_⟩
        intro i hi j hj hij
        obtain ⟨x, hx, rfl⟩ := List.mem_map.mp hi
        refine hthere (List.any_eq_true.mpr ⟨x, hx, ?_⟩)
        simpa [List.mem_singleton.mp hj] using hij
  | cancel instanceID =>
    have hsplit : (q.events.filter (fun e => e.instanceID != instanceID) ++
        q.events.filter (fun e => e.instanceID == instanceID)).Perm q.events :=
      List.perm_append_comm.trans (List.filter_append_perm (fun e : Event α => e.instanceID == instanceID) q.events)
    rw [EventTimer.call, cancelEvents, withdrawn, accepted, List.append_nil]
    by_cases hsome : (q.events.filter (fun e => e.instanceID != instanceID)).length < q.events.length
    · have hperm := H.make_perm (q.events.filter (fun e => e.instanceID != instanceID))
      simp only [hsome, if_true]
      refine ⟨⟨H.make_isHeap _, ids_perm hperm ?_⟩, (hperm.append_right _).trans hsplit⟩
      exact (List.filter_sublist.map Event.instanceID).nodup h.ids
    · have hnone : q.events.filter (fun e => e.instanceID == instanceID) = [] := by
        have hlength := hsplit.length_eq
        rw [List.length_append] at hlength
        exact List.length_eq_zero_iff.mp (by omega)
      simp only [hsome, if_false, hnone, List.append_nil]
      exact ⟨⟨h.heap, h.ids⟩, .refl _⟩

theorem Ordered.calls (h : Ordered q) (cs : List (Call α)) :
    Ordered (cs.foldl (EventTimer.call H) q) ∧
      ((cs.foldl (EventTimer.call H) q).events ++ q.withdrawnBy H cs).Perm (q.events ++ cs.flatMap accepted) := by
  induction cs generalizing q with
  | nil => exact ⟨h, .refl _⟩
  | cons c cs ih =>
    obtain ⟨hone, hperm⟩ := h.call (H := H) c
    obtain ⟨hrest, hperms⟩ := ih hone
    exact ⟨hrest, perm_account hperm hperms⟩

theorem Ordered.popped {e : Event α} {es : List (Event α)} (h : Ordered q) (hfront : q.events = e :: es) :
    Ordered (q.popped H) ∧ (q.popped H).events.Perm es := by
  have hheap := h.heap
  have hids := h.ids
  rw [hfront] at hheap hids
  obtain ⟨hperm, hpopped⟩ := H.pop_dropLast hheap
  rw [EventTimer.popped, hfront]
  exact ⟨⟨hpopped, ids_perm hperm (List.nodup_cons.mp hids).2⟩, hperm⟩

/-- What a pass owes: the queue stays in order, all that is fired is due and nothing due is
left, and every event that was there or came in is fired once, was taken out, or waits. -/
structure Drained (now : Nat) (q : EventTimer α) (pass : Pass α) : Prop where
  ordered : Ordered pass.timer
  fired : ∀ e ∈ pass.fired, e.triggerCycles ≤ now
  left : ∀ e ∈ pass.timer.events, now < e.triggerCycles
  account : (pass.timer.events ++ (pass.fired ++ pass.withdrawn)).Perm (q.events ++ pass.accepted)

theorem drain_empty {now : Nat} {calls : List (List (Call α))} (hempty : q.events = []) :
    drain H now calls q = { timer := q } := by
  unfold drain
  split
  · rfl
  · rename_i hfront
    exact absurd (hempty.symm.trans hfront) (List.cons_ne_nil _ _).symm

theorem drain_late {now : Nat} {calls : List (List (Call α))} {e : Event α} {es : List (Event α)}
    (hfront : q.events = e :: es) (hlate : ¬ e.triggerCycles ≤ now) : drain H now calls q = { timer := q } := by
  unfold drain
  split
  · rfl
  · rename_i hfront'
    cases hfront.symm.trans hfront'
    rw [if_neg hlate]

theorem drain_fire {now : Nat} {calls : List (List (Call α))} {e : Event α} {es : List (Event α)}
    (hfront : q.events = e :: es) (hdue : e.triggerCycles ≤ now) :
    drain H now calls q =
      let rest := drain H now calls.tail ((calls.headD []).foldl (EventTimer.call H) (q.popped H))
      { timer := rest.timer
        fired := e :: rest.fired
        accepted := (calls.headD []).flatMap accepted ++ rest.accepted
        withdrawn := (q.popped H).withdrawnBy H (calls.headD []) ++ rest.withdrawn } := by
  conv_lhs => unfold drain
  split
  · rename_i hempty
    exact absurd (hempty.symm.trans hfront) (List.cons_ne_nil _ _).symm
  · rename_i hfront'
    cases hfront.symm.trans hfront'
    rw [if_pos hdue]

theorem drained_drain (now : Nat) (calls : List (List (Call α))) (q : EventTimer α) (h : Ordered q) :
    Drained now q (drain H now calls q) := by
  induction calls, q using drain.induct H now with
  | case1 calls q hempty =>
    rw [drain_empty hempty]
    exact ⟨h, nofun, fun e he => (List.eq_nil_iff_forall_not_mem.mp hempty e he).elim, .of_eq rfl⟩
  | case2 calls q e es hfront hdue cs ih =>
    obtain ⟨hpopped, hrest⟩ := h.popped (H := H) hfront
    obtain ⟨hcalls, hperm⟩ := hpopped.calls (H := H) cs
    obtain ⟨hordered, hfired, hleft, haccount⟩ := ih hcalls
    rw [drain_fire hfront hdue]
    refine ⟨hordered, List.forall_mem_cons.mpr ⟨hdue, hfired⟩, hleft, ?_⟩
    have hfront' : ((q.popped H).events ++ [e]).Perm (q.events ++ []) := by
      rw [List.append_nil, hfront]
      exact (List.perm_append_singleton e _).trans (hrest.cons e)
    have hall := perm_account (perm_account hfront' hperm) haccount
    refine .trans (.append_left _ ?_) hall
    exact (List.perm_append_comm_assoc _ _ _).cons e
  | case3 calls q e es hfront hlate =>
    have hheap := h.heap
    rw [hfront] at hheap
    rw [drain_late hfront hlate]
    refine ⟨h, nofun, fun e' he' => ?_, .of_eq rfl⟩
    rw [hfront] at he'
    exact lt_of_lt_of_le (not_le.mp hlate) (hheap.front_le e' he')

def Forward (fired : List (Event α)) (calls : List (List (Call α))) : Prop :=
  ∀ x ∈ fired.zip calls, ∀ e ∈ x.2.flatMap accepted, x.1.triggerCycles ≤ e.triggerCycles

theorem mem_calls (h : Ordered q) {cs : List (Call α)} {e : Event α} (he : e ∈ (cs.foldl (EventTimer.call H) q).events) :
    e ∈ q.events ∨ e ∈ cs.flatMap accepted :=
  List.mem_append.mp ((h.calls cs).2.mem_iff.mp (List.mem_append_left _ he))

theorem drain_sorted (now : Nat) (calls : List (List (Call α))) (q : EventTimer α) (h : Ordered q)
    (hforward : Forward (drain H now calls q).fired calls) :
    (∀ b, (∀ e ∈ q.events, b ≤ e.triggerCycles) → ∀ e ∈ (drain H now calls q).fired, b ≤ e.triggerCycles) ∧
      (drain H now calls q).fired.Pairwise (fun e e' => e.triggerCycles ≤ e'.triggerCycles) := by
  induction calls, q using drain.induct H now with
  | case1 calls q hempty =>
    rw [drain_empty hempty]
    exact ⟨nofun, .nil⟩
  | case2 calls q e es hfront hdue cs ih =>
    obtain ⟨hpopped, hrest⟩ := h.popped (H := H) hfront
    have hheap := h.heap
    rw [hfront] at hheap
    rw [drain_fire hfront hdue] at hforward ⊢
    have hcs : ∀ x ∈ cs.flatMap accepted, e.triggerCycles ≤ x.triggerCycles := by
      cases calls with
      | nil => exact nofun
      | cons c calls => exact hforward (e, c) List.mem_cons_self
    have htail : Forward (drain H now calls.tail (cs.foldl (EventTimer.call H) (q.popped H))).fired calls.tail := by
      cases calls with
      | nil =>
        rw [Forward, List.tail_nil, List.zip_nil_right]
        exact nofun
      | cons c calls => exact fun x hx => hforward x (List.mem_cons_of_mem _ hx)
    obtain ⟨hlower, hsorted⟩ := ih (hpopped.calls cs).1 htail
    -- everything that waits when the callback is done is at or after the event fired
    have hwait : ∀ x ∈ (cs.foldl (EventTimer.call H) (q.popped H)).events, e.triggerCycles ≤ x.triggerCycles := by
      intro x hx
      rcases mem_calls hpopped hx with hold | hnew
      · exact hheap.front_le x (List.mem_cons_of_mem _ (hrest.mem_iff.mp hold))
      · exact hcs x hnew
    refine ⟨fun b hb => ?_, List.pairwise_cons.mpr ⟨hlower _ hwait, hsorted⟩⟩
    have hbe : b ≤ e.triggerCycles := hb e (hfront ▸ List.mem_cons_self)
    exact List.forall_mem_cons.mpr ⟨hbe, fun x hx => hbe.trans (hlower _ hwait x hx)⟩
  | case3 calls q e es hfront hlate =>
    rw [drain_late hfront hlate]
    exact ⟨nofun, .nil⟩

def earliest (q : EventTimer α) : Nat := ((q.events.map due).min?).getD uint64Max

theorem updated_earliest (h : IsHeap due q.events) : (updateNextEventCycle q).nextEventCycle = q.earliest := by
  unfold updateNextEventCycle earliest
  cases hevents : q.events with
  | nil => rfl
  | cons e es =>
    rw [hevents] at h
    have hmin : ((e :: es).map due).min? = some e.triggerCycles := by
      rw [List.min?_eq_some_iff]
      refine ⟨List.mem_cons_self, fun b hb => ?_⟩
      obtain ⟨x, hx, rfl⟩ := List.mem_map.mp hb
      exact h.front_le x hx
    rw [hmin]
    rfl

end EventTimer

inductive Op (α : Type) where
  | call (c : Call α)
  | processEvents (now : Nat) (calls : List (List (Call α)))

namespace EventTimer

variable (H : Ops (due (α := α)))

def step (q : EventTimer α) : Op α → EventTimer α
  | .call c => q.call H c
  | .processEvents now calls => (processEvents H now calls q).timer

def notices : Op α → Bool
  | .call (.schedule clock event) => !isPast clock event
  | .call (.cancel _) => true
  | .processEvents _ _ => true

variable {H} {q : EventTimer α}

theorem drained_processEvents (now : Nat) (calls : List (List (Call α))) (h : Ordered q) :
    Drained now q (processEvents H now calls q) := by
  obtain ⟨hordered, hfired, hleft, haccount⟩ := drained_drain (H := H) now calls q h
  exact ⟨⟨hordered.heap, hordered.ids⟩, hfired, hleft, haccount⟩

theorem ordered_step (q : EventTimer α) (op : Op α) (h : Ordered q) : Ordered (step H q op) := by
  cases op with
  | call c => exact (h.call c).1
  | processEvents now calls => exact (drained_processEvents now calls h).ordered

theorem fresh_step {op : Op α} (h : Ordered q) (hop : notices op = true) :
    (step H q op).nextEventCycle = (step H q op).earliest := by
  cases op with
  | call c =>
    have hheap := (h.call (H := H) c).1.heap
    cases c with
    | schedule clock event =>
      have hpast : ¬ isPast clock event = true := by simpa [notices] using hop
      have hcall : q.call H (.schedule clock event) = updateNextEventCycle _ := if_neg hpast
      show (q.call H (.schedule clock event)).nextEventCycle = (q.call H (.schedule clock event)).earliest
      rw [hcall] at hheap ⊢
      exact updated_earliest hheap
    | cancel instanceID => exact updated_earliest hheap
  | processEvents now calls => exact updated_earliest (drained_processEvents (H := H) now calls h).ordered.heap

theorem ignored_step {op : Op α} (hop : notices op = false) : step H q op = q := by
  match op with
  | .call (.schedule clock event) =>
    have hpast : isPast clock event = true := by simpa [notices] using hop
    exact if_pos hpast

structure Cached (noticed : Bool) (q : EventTimer α) : Prop where
  fresh : noticed = true → q.nextEventCycle = q.earliest
  idle : noticed = false → q = {}

theorem cached_run (ops : List (Op α)) :
    Ordered (Machine.run (step H) {} ops) ∧ Cached (ops.any notices) (Machine.run (step H) {} ops) := by
  induction ops using List.reverseRecOn with
  | nil => exact ⟨⟨isHeap_nil, .nil⟩, nofun, fun _ => rfl⟩
  | append_singleton ops op ih =>
    obtain ⟨hordered, hcached⟩ := ih
    rw [Machine.run_append, Machine.run_cons, Machine.run_nil, List.any_append, List.any_cons, List.any_nil, Bool.or_false]
    refine ⟨ordered_step _ op hordered, ?_⟩
    cases hop : notices op with
    | true => exact ⟨fun _ => fresh_step hordered hop, fun h => absurd h (by simp)⟩
    | false =>
      rw [ignored_step hop, Bool.or_false]
      exact hcached

/-- An instance has one event at most, and the cached cycle is that of the earliest. A call to process leaves nothing
due and fires in order unless a callback reaches back; each event has been fired once, has been taken out, or waits.
-/
theorem event_queue (H : Ops (due (α := α))) (ops : List (Op α)) :
    let q := Machine.run (step H) {} ops
    (q.events.map Event.instanceID).Nodup ∧ Cached (ops.any notices) q ∧
      ∀ now calls, Drained now q (processEvents H now calls q) ∧
        (Forward (processEvents H now calls q).fired calls →
          (processEvents H now calls q).fired.Pairwise (fun e e' => e.triggerCycles ≤ e'.triggerCycles)) := by
  intro q
  obtain ⟨hordered, hcached⟩ := cached_run (H := H) ops
  refine ⟨hordered.ids, hcached, fun now calls => ⟨drained_processEvents now calls hordered, fun hforward => ?_⟩⟩
  exact (drain_sorted now calls q hordered hforward).2

/-- A callback that reaches back: the event it brings in is fired after its own. -/
theorem fired_out_of_order :
    ¬ ((processEvents (sorted due) 100 [[.schedule none ⟨60, 2, ()⟩]]
      (Machine.run (step (sorted due)) {} [.call (.schedule none ⟨90, 1, ()⟩)])).fired.Pairwise
        (fun e e' => e.triggerCycles ≤ e'.triggerCycles)) := by
  have hfired : (processEvents (sorted due) 100 [[.schedule none ⟨60, 2, ()⟩]]
      (Machine.run (step (sorted due)) {} [.call (.schedule none ⟨90, 1, ()⟩)])).fired =
        [⟨90, 1, ()⟩, ⟨60, 2, ()⟩] := by
    rw [processEvents, drain_fire (show _ = (⟨90, 1, ()⟩ : Event Unit) :: [] from rfl) (by decide)]
    simp only [List.headD_cons, List.tail_cons]
    rw [drain_fire (e := ⟨60, 2, ()⟩) rfl (by decide)]
    simp only [List.headD_nil, List.tail_nil]
    rw [drain_empty rfl]
  rw [hfired]
  decide

end EventTimer

end

end GSSquared.Clock
