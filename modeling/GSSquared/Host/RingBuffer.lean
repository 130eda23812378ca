/-
The fixed-capacity ring buffer: an inline array, the place of the first item and a count.
-/
import Mathlib.Data.List.Induction
import GSSquared.Lib.Circular

set_option linter.all false

namespace GSSquared

structure RingBuffer (T : Type) (N : Nat) where
  buf_ : Vector T N
  head_ : UInt8
  size_ : UInt8

namespace RingBuffer

open Circular

variable {T : Type} {N : Nat}

def fresh (buf : Vector T N) : RingBuffer T N := { buf_ := buf, head_ := 0, size_ := 0 }

def empty (b : RingBuffer T N) : Bool := b.size_ == 0

def size (b : RingBuffer T N) : Nat := b.size_.toNat

/-- What the assertion of `push` refuses. -/
def full (b : RingBuffer T N) : Bool := ¬ b.size_.toNat < N

/-- `none` is a failed assertion, here and below. -/
def push (b : RingBuffer T N) (v : T) : Option (RingBuffer T N) :=
  if b.size_.toNat < N then
    some { b with
      buf_ := b.buf_.setIfInBounds (UInt8.ofNat ((b.head_.toNat + b.size_.toNat) % N)).toNat v
      size_ := b.size_ + 1 }
  else none

def pop (b : RingBuffer T N) : Option (RingBuffer T N) :=
  if 0 < b.size_.toNat then
    some { b with head_ := UInt8.ofNat ((b.head_.toNat + 1) % N), size_ := b.size_ - 1 }
  else none

def front (b : RingBuffer T N) : Option T :=
  if 0 < b.size_.toNat then b.buf_[b.head_.toNat]? else none

def clear (b : RingBuffer T N) : RingBuffer T N := { b with head_ := 0, size_ := 0 }

inductive Call (T : Type) where
  | push (v : T)
  | pop
  | clear

def call (b : RingBuffer T N) : Call T → Option (RingBuffer T N)
  | .push v => b.push v
  | .pop => b.pop
  | .clear => some b.clear

def run (b : RingBuffer T N) (calls : List (Call T)) : Option (RingBuffer T N) := calls.foldlM call b

def Call.on (q : List T) : Call T → List T
  | .push v => q ++ [v]
  | .pop => q.tail
  | .clear => []

def held (calls : List (Call T)) : List T := calls.foldl Call.on []

structure Queues (b : RingBuffer T N) (q : List T) : Prop where
  capacity : q.length ≤ N
  size : b.size = q.length
  empty : b.empty = q.isEmpty
  full : b.full = decide (q.length = N)
  front : b.front = q.head?

structure Holds (b : RingBuffer T N) (q : List T) : Prop where
  head : b.head_.toNat < N
  count : b.size_.toNat = q.length
  capacity : q.length ≤ N
  items : window (fun i => b.buf_[i]?) N b.head_.toNat q.length = q.map some

theorem holds_fresh (buf : Vector T N) (hN : 0 < N) : Holds (fresh buf) [] :=
  { head := hN, count := rfl, capacity := Nat.zero_le N, items := rfl }

theorem holds_clear {b : RingBuffer T N} (hN : 0 < N) : Holds b.clear [] :=
  { head := hN, count := rfl, capacity := Nat.zero_le N, items := rfl }

theorem toNat_index (hN : 0 < N) (hmax : N ≤ 256) (k : Nat) : (UInt8.ofNat (k % N)).toNat = k % N := by
  have := Nat.mod_lt k hN
  simp only [UInt8.toNat_ofNat']
  omega

theorem holds_push {b b' : RingBuffer T N} {q : List T} {v : T} (h : Holds b q) (hmax : N ≤ 256)
    (hroom : q.length + 1 < 256) (hpush : b.push v = some b') : Holds b' (q ++ [v]) := by
  have hN : 0 < N := by have := h.head; omega
  unfold push at hpush
  split at hpush
  case isFalse => cases hpush
  case isTrue hlt =>
    cases hpush
    rw [h.count] at hlt
    have hat := toNat_index hN hmax (b.head_.toNat + b.size_.toNat)
    rw [h.count] at hat
    refine { head := h.head, count := ?_, capacity := ?_, items := ?_ }
    · have := h.count
      simp only [UInt8.toNat_add, UInt8.toNat_one, List.length_append, List.length_singleton]
      omega
    · simp only [List.length_append, List.length_singleton]
      omega
    · have hpushed : window (fun i => (b.buf_.setIfInBounds ((b.head_.toNat + q.length) % N) v)[i]?) N b.head_.toNat
          (q.length + 1) = window (fun i => b.buf_[i]?) N b.head_.toNat q.length ++ [some v] :=
        window_push hlt (by simp [Nat.mod_lt _ hN]) (fun i hi => by simp [Ne.symm hi])
      rw [List.length_append, List.length_singleton, List.map_append, ← h.items]
      simp only [h.count, hat]
      exact hpushed

theorem holds_pop {b b' : RingBuffer T N} {q : List T} (h : Holds b q) (hmax : N ≤ 256)
    (hpop : b.pop = some b') : Holds b' q.tail := by
  have hN : 0 < N := by have := h.head; omega
  unfold pop at hpop
  split at hpop
  case isFalse => cases hpop
  case isTrue hlt =>
    cases hpop
    rw [h.count] at hlt
    have hat := toNat_index hN hmax (b.head_.toNat + 1)
    cases q with
    | nil => exact absurd hlt (Nat.lt_irrefl 0)
    | cons x rest =>
      refine { head := ?_, count := ?_, capacity := ?_, items := ?_ }
      · rw [hat]
        exact Nat.mod_lt _ hN
      · have hcount := h.count
        have hlen : (x :: rest).length = rest.length + 1 := rfl
        have hle : (1 : UInt8) ≤ b.size_ := by
          rw [UInt8.le_iff_toNat_le, hcount, hlen, UInt8.toNat_one]
          omega
        rw [UInt8.toNat_sub_of_le _ _ hle, hcount, hlen]
        rfl
      · exact Nat.le_trans (Nat.le_succ _) h.capacity
      · have hitems := h.items
        rw [List.length_cons, window_pop, List.map_cons] at hitems
        rw [hat]
        exact (List.cons.inj hitems).2

theorem queues_of_holds {b : RingBuffer T N} {q : List T} (h : Holds b q) : Queues b q where
  capacity := h.capacity
  size := h.count
  empty := by
    have hcount := h.count
    rw [Bool.eq_iff_iff]
    simp only [RingBuffer.empty, beq_iff_eq, List.isEmpty_iff, ← UInt8.toNat_inj, hcount]
    exact List.length_eq_zero_iff
  full := by
    have hcap := h.capacity
    simp only [RingBuffer.full, h.count]
    rw [decide_eq_decide]
    omega
  front := by
    unfold RingBuffer.front
    rw [h.count]
    cases q with
    | nil => rfl
    | cons x rest =>
      have hitems := h.items
      rw [List.length_cons, window_pop, List.map_cons, Nat.mod_eq_of_lt h.head] at hitems
      rw [if_pos (by simp)]
      exact (List.cons.inj hitems).1

theorem held_append (calls : List (Call T)) (c : Call T) : held (calls ++ [c]) = c.on (held calls) := by
  simp [held]

theorem run_append (b : RingBuffer T N) (calls : List (Call T)) (c : Call T) :
    b.run (calls ++ [c]) = (b.run calls).bind (fun b' => b'.call c) := by
  simp [run, List.foldlM_append]

theorem holds_call {b b' : RingBuffer T N} {q : List T} {c : Call T} (h : Holds b q) (hmax : N ≤ 256)
    (hfew : (c.on q).length < 256) (hcall : b.call c = some b') : Holds b' (c.on q) := by
  cases c with
  | push v => exact holds_push h hmax (by simpa [Call.on] using hfew) hcall
  | pop => exact holds_pop h hmax hcall
  | clear =>
    cases hcall
    exact holds_clear (by have := h.head; omega)

theorem length_on_le {b b' : RingBuffer T N} {q : List T} {c : Call T} (h : Holds b q)
    (hcall : b.call c = some b') : (c.on q).length ≤ N := by
  have hcap := h.capacity
  cases c with
  | push v =>
    simp only [call, push] at hcall
    split at hcall
    case isFalse => cases hcall
    case isTrue hlt =>
      rw [h.count] at hlt
      simp only [Call.on, List.length_append, List.length_singleton]
      exact hlt
  | pop =>
    simp only [Call.on, List.length_tail]
    omega
  | clear => exact Nat.zero_le N

theorem holds_run {buf : Vector T N} (hN : 0 < N) (hmax : N ≤ 256) :
    ∀ calls : List (Call T), (N < 256 ∨ ∀ pre, pre <+: calls → (held pre).length ≠ 256) →
      ∀ b, (fresh buf).run calls = some b → Holds b (held calls) := by
  intro calls
  induction calls using List.reverseRecOn with
  | nil =>
    intro _ b hrun
    cases hrun
    exact holds_fresh buf hN
  | append_singleton calls c ih =>
    intro hfew b hrun
    rw [run_append] at hrun
    obtain ⟨a, hrun, hcall⟩ := Option.bind_eq_some_iff.mp hrun
    have hbefore : N < 256 ∨ ∀ pre, pre <+: calls → (held pre).length ≠ 256 :=
      hfew.imp_right (fun h pre hpre => h pre (hpre.trans (List.prefix_append calls [c])))
    have ha := ih hbefore a hrun
    have hle := length_on_le ha hcall
    rw [held_append]
    refine holds_call ha hmax ?_ hcall
    rcases hfew with hlt | hne
    · omega
    · have := hne _ (List.prefix_refl _)
      rw [held_append] at this
      omega

theorem run_prefix {b b' : RingBuffer T N} {pre calls : List (Call T)} (hpre : pre <+: calls)
    (hrun : b.run calls = some b') : ∃ a, b.run pre = some a := by
  obtain ⟨rest, rfl⟩ := hpre
  rw [run, List.foldlM_append] at hrun
  obtain ⟨a, ha, -⟩ := Option.bind_eq_some_iff.mp hrun
  exact ⟨a, ha⟩

def QueuesAlong (buf : Vector T N) (calls : List (Call T)) : Prop :=
  ∀ pre, pre <+: calls → ∀ b, (fresh buf).run pre = some b → Queues b (held pre)

/-- A count of 256 is none, and this is all that keeps the buffer from being a queue. -/
theorem ringBuffer_queue_iff (buf : Vector T N) (hN : 0 < N) (hmax : N ≤ 256) (calls : List (Call T))
    (b : RingBuffer T N) (hrun : (fresh buf).run calls = some b) :
    QueuesAlong buf calls ↔ N < 256 ∨ ∀ pre, pre <+: calls → (held pre).length ≠ 256 := by
  constructor
  · intro hq
    refine Or.inr (fun pre hpre hlen => ?_)
    obtain ⟨a, ha⟩ := run_prefix hpre hrun
    have hsize := (hq pre hpre a ha).size
    have hbyte := a.size_.toNat_lt
    rw [RingBuffer.size, hlen] at hsize
    omega
  · intro hfew pre hpre a ha
    have hpart : N < 256 ∨ ∀ part, part <+: pre → (held part).length ≠ 256 :=
      hfew.imp_right (fun h part hpart => h part (hpart.trans hpre))
    exact queues_of_holds (holds_run hN hmax pre hpart a ha)

/-- Two items in, one out, round the end of a buffer of three. -/
theorem ringBuffer_queue_three :
    QueuesAlong (Vector.replicate 3 0)
      [Call.push 5, .push 6, .pop, .push 7, .pop, .push 8, .pop, .clear, .push 9] :=
  (ringBuffer_queue_iff (Vector.replicate 3 0) (by decide) (by decide) _ _ rfl).mpr (Or.inl (by decide))

/-- The 256th item of the largest buffer leaves it empty. -/
theorem ringBuffer_wraps :
    ((fresh (Vector.replicate 256 0)).run (List.replicate 256 (Call.push 7))).map
        (fun b => (b.size, b.empty, b.full, b.front)) = some (0, true, false, none) ∧
      (held (List.replicate 256 (Call.push 7))).length = 256 ∧
      ¬ QueuesAlong (Vector.replicate 256 0) (List.replicate 256 (Call.push 7)) := by
  have hrun : ((fresh (Vector.replicate 256 0)).run (List.replicate 256 (Call.push 7))).map
      (fun b => (b.size, b.empty, b.full, b.front)) = some (0, true, false, none) := by decide +kernel
  have hlen : (held (List.replicate 256 (Call.push 7))).length = 256 := by decide +kernel
  refine ⟨hrun, hlen, fun hq => ?_⟩
  obtain ⟨b, hb, hans⟩ := Option.map_eq_some_iff.mp hrun
  have hsize := (hq _ (List.prefix_refl _) b hb).size
  have hnone : b.size = 0 := congrArg Prod.fst hans
  rw [hlen, hnone] at hsize
  cases hsize

end RingBuffer
end GSSquared
