/-
The ring between the chip and its worker, load by load and store by store. `SpscRing` has one
producer and one consumer.
-/
import GSSquared.Lib.Channel
import GSSquared.Lib.Circular
import GSSquared.Lib.Trail

set_option linter.all false

namespace GSSquared.Uthernet

open Channel Circular Machine

namespace SpscRing

section

variable {α : Type}

inductive Producer (α : Type) where
  | idle
  | sending (item : α)
  | loadedHead (item : α) (h : Nat)
  | writing (item : α) (h : Nat)
  | publishing (item : α) (h : Nat)
  | asking
  | asked (h : Nat)

inductive Consumer (α : Type) where
  | idle
  | getting
  | loadedTail (t : Nat)
  | taking (t : Nat)
  | advancing (t : Nat) (out : α)

/-- `SpscRing`, its two parties, and what their calls have returned. -/
structure State (α : Type) where
  slots : Nat → α
  head : Nat := 0
  tail : Nat := 0
  producer : Producer α := .idle
  consumer : Consumer α := .idle
  log : List (Ret α) := []

inductive Turn (α : Type) where
  | send (item : α)
  | canSend
  | get
  | producer
  | consumer

variable (depth : Nat) (moved : α → α)

def next (i : Nat) : Nat := (i + 1) &&& (depth - 1)

/-- The next load or store of `send` or `can_send`. -/
def produce (s : State α) : State α :=
  match s.producer with
  | .idle => s
  | .sending item => { s with producer := .loadedHead item s.head }
  | .loadedHead item h =>
    if next depth h = s.tail then { s with producer := .idle, log := s.log ++ [.send item false] }
    else { s with producer := .writing item h }
  | .writing item h => { s with slots := fun i => if i = h then item else s.slots i, producer := .publishing item h }
  | .publishing item h => { s with head := next depth h, producer := .idle, log := s.log ++ [.send item true] }
  | .asking => { s with producer := .asked s.head }
  | .asked h => { s with producer := .idle, log := s.log ++ [.canSend (decide (next depth h ≠ s.tail))] }

/-- The next load or store of `get`; `moved` is what a move leaves in the slot. -/
def consume (s : State α) : State α :=
  match s.consumer with
  | .idle => s
  | .getting => { s with consumer := .loadedTail s.tail }
  | .loadedTail t =>
    if t = s.head then { s with consumer := .idle, log := s.log ++ [.get none] } else { s with consumer := .taking t }
  | .taking t =>
    { s with slots := fun i => if i = t then moved (s.slots t) else s.slots i, consumer := .advancing t (s.slots t) }
  | .advancing t out => { s with tail := next depth t, consumer := .idle, log := s.log ++ [.get (some out)] }

def step (s : State α) : Turn α → State α
  | .send item =>
    match s.producer with
    | .idle => { s with producer := .sending item }
    | _ => s
  | .canSend =>
    match s.producer with
    | .idle => { s with producer := .asking }
    | _ => s
  | .get =>
    match s.consumer with
    | .idle => { s with consumer := .getting }
    | _ => s
  | .producer => produce depth s
  | .consumer => consume depth moved s

variable {depth moved} {s : State α} {held : List α}

def Consumer.took : Consumer α → Bool
  | .advancing _ _ => true
  | _ => false

def Producer.Ready (depth : Nat) (s : State α) (held : List α) : Producer α → Prop
  | .idle | .sending _ | .asking => True
  | .loadedHead _ h | .asked h => h = s.head
  | .writing _ h => h = s.head ∧ held.length + 1 < depth
  | .publishing item h => h = s.head ∧ held.length + 1 < depth ∧ s.slots s.head = item

def Consumer.Ready (s : State α) (held : List α) : Consumer α → Prop
  | .idle | .getting => True
  | .loadedTail t => t = s.tail
  | .taking t => t = s.tail ∧ held ≠ []
  | .advancing t out => t = s.tail ∧ held.head? = some out

structure Holds (depth : Nat) (s : State α) (held : List α) : Prop where
  calls : Calls (depth - 1) [] s.log held
  tail : s.tail < depth
  head : s.head = (s.tail + held.length) % depth
  room : held.length < depth
  slots : ∀ k (hk : k < held.length), (s.consumer.took = true → 0 < k) → s.slots ((s.tail + k) % depth) = held[k]
  producer : s.producer.Ready depth s held
  consumer : s.consumer.Ready s held

theorem next_eq (hpos : 0 < depth) (hdepth : depth &&& (depth - 1) = 0) (i : Nat) : next depth i = (i + 1) % depth := by
  obtain ⟨k, hk⟩ := (Nat.and_sub_one_eq_zero_iff_isPowerOfTwo (Nat.ne_of_gt hpos)).mp hdepth
  rw [next, hk, Nat.and_two_pow_sub_one_eq_mod]

section

variable (h : Holds depth s held)
include h

theorem Holds.full_iff : (s.head + 1) % depth = s.tail ↔ held.length + 1 = depth := by
  have htail := h.tail
  have hroom := h.room
  rw [h.head, Nat.mod_add_mod, Nat.add_assoc]
  constructor
  · intro heq
    by_contra hne
    have hother : s.tail % depth ≠ (s.tail + (held.length + 1)) % depth := mod_ne_mod (by omega) (by omega)
    exact hother (by rw [heq, Nat.mod_eq_of_lt htail])
  · intro heq
    rw [heq, Nat.add_mod_right, Nat.mod_eq_of_lt htail]

theorem Holds.empty_iff : s.tail = s.head ↔ held = [] := by
  have htail := h.tail
  have hroom := h.room
  rw [h.head]
  constructor
  · intro heq
    by_contra hne
    have hlen := List.length_pos_iff.mpr hne
    have hother : s.tail % depth ≠ (s.tail + held.length) % depth := mod_ne_mod (by omega) (by omega)
    exact hother (by rw [← heq, Nat.mod_eq_of_lt htail])
  · intro heq
    rw [heq, List.length_nil, Nat.add_zero, Nat.mod_eq_of_lt htail]

theorem Holds.apart {k : Nat} (hk : k < held.length) : (s.tail + k) % depth ≠ s.head := by
  have hroom := h.room
  rw [h.head]
  exact mod_ne_mod (by omega) (by omega)

variable (hnext : ∀ i, next depth i = (i + 1) % depth)
include hnext

theorem Holds.produce : ∃ held', Holds depth (produce depth s) held' := by
  have hready := h.producer
  have hroom := h.room
  unfold SpscRing.produce
  cases hp : s.producer with
  | idle => exact ⟨held, h⟩
  | sending item => exact ⟨held, h.calls, h.tail, h.head, h.room, h.slots, rfl, h.consumer⟩
  | asking => exact ⟨held, h.calls, h.tail, h.head, h.room, h.slots, rfl, h.consumer⟩
  | loadedHead item i =>
    rw [hp] at hready
    obtain rfl : i = s.head := hready
    dsimp only
    rw [hnext]
    by_cases hfull : (s.head + 1) % depth = s.tail
    · have hlen := h.full_iff.mp hfull
      rw [if_pos hfull]
      exact ⟨held, h.calls.snoc (.refused (by omega)), h.tail, h.head, h.room, h.slots, trivial, h.consumer⟩
    · have hlen : ¬ held.length + 1 = depth := fun heq => hfull (h.full_iff.mpr heq)
      rw [if_neg hfull]
      exact ⟨held, h.calls, h.tail, h.head, h.room, h.slots, ⟨rfl, by omega⟩, h.consumer⟩
  | writing item i =>
    rw [hp] at hready
    obtain ⟨rfl, hlen⟩ := hready
    refine ⟨held, h.calls, h.tail, h.head, h.room, fun k hk htook => ?_, ⟨rfl, hlen, if_pos rfl⟩, h.consumer⟩
    exact (if_neg (h.apart hk)).trans (h.slots k hk htook)
  | publishing item i =>
    rw [hp] at hready
    obtain ⟨rfl, hlen, hitem⟩ := hready
    have hlength : (held ++ [item]).length = held.length + 1 := List.length_append
    refine ⟨held ++ [item], h.calls.snoc (.sent (by omega)), h.tail, ?_, by omega, fun k hk htook => ?_, trivial, ?_⟩
    · show next depth s.head = _
      rw [hnext, h.head, Nat.mod_add_mod, hlength, Nat.add_assoc]
    · rcases Nat.lt_or_ge k held.length with hlt | hge
      · rw [List.getElem_append_left hlt]
        exact h.slots k hlt htook
      · obtain rfl : k = held.length := by omega
        rw [List.getElem_append_right (Nat.le_refl _), ← h.head]
        simpa using hitem
    · have hcons := h.consumer
      revert hcons
      show s.consumer.Ready s held → s.consumer.Ready { s with head := _, producer := _, log := _ } (held ++ [item])
      cases s.consumer with
      | idle => exact id
      | getting => exact id
      | loadedTail t => exact id
      | taking t => exact fun hc => ⟨hc.1, by simp⟩
      | advancing t out =>
        intro hc
        refine ⟨hc.1, ?_⟩
        rw [List.head?_append, hc.2]
        rfl
  | asked i =>
    rw [hp] at hready
    obtain rfl : i = s.head := hready
    have hanswer : decide (next depth s.head ≠ s.tail) = canSend (depth - 1) held := by
      rw [hnext]
      exact decide_eq_decide.mpr ((not_congr h.full_iff).trans (by omega))
    refine ⟨held, ?_, h.tail, h.head, h.room, h.slots, trivial, h.consumer⟩
    dsimp only
    rw [hanswer]
    exact h.calls.snoc (.asked held)

theorem Holds.consume : ∃ held', Holds depth (consume depth moved s) held' := by
  have hready := h.consumer
  have hroom := h.room
  have htail := h.tail
  unfold SpscRing.consume
  cases hc : s.consumer with
  | idle => exact ⟨held, h⟩
  | getting =>
    exact ⟨held, h.calls, h.tail, h.head, h.room, fun k hk _ => h.slots k hk (by simp [hc, Consumer.took]),
      h.producer, rfl⟩
  | loadedTail t =>
    rw [hc] at hready
    obtain rfl : t = s.tail := hready
    have hslots : ∀ k (hk : k < held.length), s.slots ((s.tail + k) % depth) = held[k] :=
      fun k hk => h.slots k hk (by simp [hc, Consumer.took])
    dsimp only
    by_cases hempty : s.tail = s.head
    · obtain rfl := h.empty_iff.mp hempty
      rw [if_pos hempty]
      exact ⟨[], h.calls.snoc .empty, h.tail, h.head, h.room, fun k hk _ => hslots k hk, h.producer, trivial⟩
    · rw [if_neg hempty]
      exact ⟨held, h.calls, h.tail, h.head, h.room, fun k hk _ => hslots k hk, h.producer, rfl,
        fun heq => hempty (h.empty_iff.mpr heq)⟩
  | taking t =>
    rw [hc] at hready
    obtain ⟨rfl, hne⟩ := hready
    have hlen := List.length_pos_iff.mpr hne
    have hfirst := h.slots 0 hlen (by simp [hc, Consumer.took])
    rw [Nat.add_zero, Nat.mod_eq_of_lt htail] at hfirst
    refine ⟨held, h.calls, h.tail, h.head, h.room, fun k hk htook => ?_, ?_, rfl, ?_⟩
    · have hapart : (s.tail + k) % depth ≠ s.tail := by
        rw [← Nat.mod_eq_of_lt htail, Nat.mod_add_mod]
        exact (mod_ne_mod (by have := htook rfl; omega) (by omega)).symm
      exact (if_neg hapart).trans (h.slots k hk (by simp [hc, Consumer.took]))
    · have hprod := h.producer
      have hother : s.head ≠ s.tail := fun heq => hne (h.empty_iff.mp heq.symm)
      revert hprod
      show s.producer.Ready depth s held → s.producer.Ready depth { s with slots := _, consumer := _ } held
      cases s.producer with
      | publishing item i => exact fun hp => ⟨hp.1, hp.2.1, (if_neg hother).trans hp.2.2⟩
      | _ => exact id
    · rw [hfirst, List.head?_eq_getElem?, List.getElem?_eq_getElem hlen]
  | advancing t out =>
    rw [hc] at hready
    obtain ⟨rfl, hout⟩ := hready
    obtain ⟨rest, rfl⟩ := List.head?_eq_some_iff.mp hout
    rw [List.length_cons] at hroom
    have hturn : ∀ k, (next depth s.tail + k) % depth = (s.tail + (k + 1)) % depth := by
      intro k
      rw [hnext, Nat.mod_add_mod, Nat.add_assoc, Nat.add_comm 1 k]
    refine ⟨rest, h.calls.snoc (.got rest out), ?_, ?_, by omega, fun k hk _ => ?_, ?_, trivial⟩
    · show next depth s.tail < depth
      rw [hnext]
      exact Nat.mod_lt _ (by omega)
    · show s.head = (next depth s.tail + rest.length) % depth
      rw [hturn]
      exact h.head
    · show s.slots ((next depth s.tail + k) % depth) = rest[k]
      rw [hturn]
      exact h.slots (k + 1) (Nat.succ_lt_succ hk) (fun _ => Nat.succ_pos k)
    · have hprod := h.producer
      revert hprod
      show s.producer.Ready depth s (out :: rest) → s.producer.Ready depth { s with tail := _, consumer := _, log := _ } rest
      cases s.producer with
      | writing item i => exact fun hp => ⟨hp.1, Nat.lt_of_succ_lt hp.2⟩
      | publishing item i => exact fun hp => ⟨hp.1, Nat.lt_of_succ_lt hp.2.1, hp.2.2⟩
      | _ => exact id

theorem Holds.step (turn : Turn α) : ∃ held', Holds depth (step depth moved s turn) held' := by
  cases turn with
  | producer => exact h.produce hnext
  | consumer => exact h.consume hnext
  | get =>
    unfold SpscRing.step
    dsimp only
    split
    · next hidle =>
      exact ⟨held, h.calls, h.tail, h.head, h.room, fun k hk _ => h.slots k hk (by simp [hidle, Consumer.took]), h.producer,
        trivial⟩
    · exact ⟨held, h⟩
  | send item =>
    unfold SpscRing.step
    dsimp only
    split
    · exact ⟨held, h.calls, h.tail, h.head, h.room, h.slots, trivial, h.consumer⟩
    · exact ⟨held, h⟩
  | canSend =>
    unfold SpscRing.step
    dsimp only
    split
    · exact ⟨held, h.calls, h.tail, h.head, h.room, h.slots, trivial, h.consumer⟩
    · exact ⟨held, h⟩

end

variable (depth moved) in
def returns (initial : Nat → α) (turns : List (Turn α)) : List (Ret α) :=
  (run (step depth moved) { slots := initial } turns).log

variable (moved) in
theorem returns_calls (hpos : 0 < depth) (hdepth : depth &&& (depth - 1) = 0) (initial : Nat → α) (turns : List (Turn α)) :
    ∃ held, held.length < depth ∧ Calls (depth - 1) [] (returns depth moved initial turns) held := by
  have hnext := next_eq hpos hdepth
  have hstart : ∃ held, Holds depth ({ slots := initial } : State α) held :=
    ⟨[], .nil [], hpos, (Nat.zero_mod depth).symm, hpos, fun k hk => absurd hk (Nat.not_lt_zero k), trivial, trivial⟩
  have hstep : ∀ (s : State α) turn, (∃ held, Holds depth s held) → ∃ held, Holds depth (step depth moved s turn) held := by
    intro s turn hs
    obtain ⟨held, h⟩ := hs
    exact h.step hnext turn
  obtain ⟨held, h⟩ := run_invariant hstep turns _ hstart
  exact ⟨held, h.room, h.calls⟩

theorem spscRing_fifo (hpos : 0 < depth) (hdepth : depth &&& (depth - 1) = 0) (moved : α → α) (initial : Nat → α)
    (turns : List (Turn α)) :
    (∃ held, sent (returns depth moved initial turns) = got (returns depth moved initial turns) ++ held ∧
      held.length < depth) ∧
    (∀ l l', returns depth moved initial turns = l ++ .get none :: l' → got l = sent l) ∧
    (∀ l l' item, returns depth moved initial turns = l ++ .send item false :: l' →
      (sent l).length = (got l).length + (depth - 1)) ∧
    (∀ l mid l' item ok, returns depth moved initial turns = l ++ .canSend true :: (mid ++ .send item ok :: l') →
      (∀ r ∈ mid, ∀ b k, r ≠ .send b k) → ok = true) := by
  obtain ⟨held, hroom, h⟩ := returns_calls moved hpos hdepth initial turns
  generalize returns depth moved initial turns = log at h
  refine ⟨⟨held, h.conserved, hroom⟩, ?_, ?_, ?_⟩
  · rintro l l' rfl
    obtain ⟨q, hl, hrest⟩ := h.split
    cases hrest with
    | cons hr _ =>
      cases hr with
      | empty => exact (hl.conserved.trans (List.append_nil _)).symm
  · rintro l l' item rfl
    obtain ⟨q, hl, hrest⟩ := h.split
    cases hrest with
    | cons hr _ =>
      cases hr with
      | refused hfull => exact (congrArg List.length hl.conserved).trans (by rw [List.length_append, hfull])
  · rintro l mid l' item ok rfl hmid
    obtain ⟨q, -, hrest⟩ := h.split
    cases hrest with
    | cons hr hl =>
      generalize hanswer : (Ret.canSend true : Ret α) = r at hr
      cases hr with
      | asked q =>
        have hcan : canSend (depth - 1) q = true := (Ret.canSend.inj hanswer).symm
        exact hl.promised (of_decide_eq_true hcan) hmid
      | _ => cases hanswer

def oneThrough : List (Turn Nat) :=
  [.send 7, .producer, .producer, .producer, .get, .producer, .consumer, .consumer, .consumer, .consumer]

theorem spscRing_fifo_oneThrough :
    got (returns 2 id (fun _ => 0) oneThrough) = [7] ∧
      ∃ held, sent (returns 2 id (fun _ => 0) oneThrough) = got (returns 2 id (fun _ => 0) oneThrough) ++ held ∧
        held.length < 2 :=
  ⟨by decide, (spscRing_fifo (by decide) (by decide) id (fun _ => 0) oneThrough).1⟩

end

end SpscRing

end GSSquared.Uthernet
