/-
Items that pass through a queue, each of them once. They are numbered as they come.
-/
import Mathlib.Data.List.Perm.Basic
import Mathlib.Data.List.Range

set_option linter.all false

namespace GSSquared

structure Passage where
  next : Nat
  waiting : List Nat
  delivered : List Nat
  dropped : List Nat
  discarded : List Nat

namespace Passage

structure Sound (p : Passage) : Prop where
  once : (p.delivered ++ (p.waiting ++ (p.dropped ++ p.discarded))).Perm (List.range p.next)
  ordered : (p.delivered ++ p.waiting).Pairwise (· < ·)

def come (p : Passage) : Passage := { p with next := p.next + 1, waiting := p.waiting ++ [p.next] }

def pass (p : Passage) : Passage := { p with next := p.next + 1, delivered := p.delivered ++ [p.next] }

def drop (p : Passage) : Passage := { p with next := p.next + 1, dropped := p.dropped ++ [p.next] }

def discard (p : Passage) : Passage := { p with waiting := [], discarded := p.discarded ++ p.waiting }

namespace Sound

variable {p q : Passage}

theorem lt_next (hp : p.Sound) {n : Nat} (hn : n ∈ p.delivered ++ p.waiting) : n < p.next := by
  have hmem : n ∈ p.delivered ++ (p.waiting ++ (p.dropped ++ p.discarded)) := by
    rw [← List.append_assoc]
    exact List.mem_append_left _ hn
  exact List.mem_range.mp (hp.once.mem_iff.mp hmem)

theorem ordered_push (hp : p.Sound) : ((p.delivered ++ p.waiting) ++ [p.next]).Pairwise (· < ·) := by
  apply List.pairwise_append.mpr
  refine ⟨hp.ordered, List.pairwise_singleton _ _, fun a ha b hb => ?_⟩
  rw [List.mem_singleton.mp hb]
  exact hp.lt_next ha

theorem come (hp : p.Sound) : p.come.Sound where
  once := by
    show (p.delivered ++ ((p.waiting ++ [p.next]) ++ (p.dropped ++ p.discarded))).Perm (List.range (p.next + 1))
    rw [List.range_succ, List.append_assoc p.waiting]
    have hmove : ([p.next] ++ (p.dropped ++ p.discarded)).Perm ((p.dropped ++ p.discarded) ++ [p.next]) :=
      List.perm_append_comm
    have hwaiting := (hmove.append_left p.waiting).append_left p.delivered
    apply hwaiting.trans
    rw [← List.append_assoc p.waiting, ← List.append_assoc p.delivered]
    exact hp.once.append_right [p.next]
  ordered := by
    show (p.delivered ++ (p.waiting ++ [p.next])).Pairwise (· < ·)
    rw [← List.append_assoc]
    exact hp.ordered_push

theorem drop (hp : p.Sound) : p.drop.Sound where
  once := by
    show (p.delivered ++ (p.waiting ++ ((p.dropped ++ [p.next]) ++ p.discarded))).Perm (List.range (p.next + 1))
    rw [List.range_succ, List.append_assoc p.dropped]
    have hmove : ([p.next] ++ p.discarded).Perm (p.discarded ++ [p.next]) := List.perm_append_comm
    have hdropped := ((hmove.append_left p.dropped).append_left p.waiting).append_left p.delivered
    apply hdropped.trans
    rw [← List.append_assoc p.dropped, ← List.append_assoc p.waiting, ← List.append_assoc p.delivered]
    exact hp.once.append_right [p.next]
  ordered := hp.ordered

theorem pass (hp : p.Sound) (hwaiting : p.waiting = []) : p.pass.Sound where
  once := by
    have hcome := hp.come.once
    show ((p.delivered ++ [p.next]) ++ (p.waiting ++ (p.dropped ++ p.discarded))).Perm (List.range (p.next + 1))
    rw [List.append_assoc, hwaiting]
    change (p.delivered ++ ((p.waiting ++ [p.next]) ++ (p.dropped ++ p.discarded))).Perm _ at hcome
    rw [hwaiting] at hcome
    exact hcome
  ordered := by
    have hpush := hp.ordered_push
    show ((p.delivered ++ [p.next]) ++ p.waiting).Pairwise (· < ·)
    rw [hwaiting, List.append_nil] at hpush ⊢
    exact hpush

theorem deliver (hp : p.Sound) {n : Nat} {rest : List Nat} (hwaiting : p.waiting = n :: rest) :
    Sound { p with waiting := rest, delivered := p.delivered ++ [n] } where
  once := by
    have honce := hp.once
    rw [hwaiting] at honce
    show ((p.delivered ++ [n]) ++ (rest ++ (p.dropped ++ p.discarded))).Perm (List.range p.next)
    rw [List.append_assoc]
    exact honce
  ordered := by
    have hordered := hp.ordered
    rw [hwaiting] at hordered
    show ((p.delivered ++ [n]) ++ rest).Pairwise (· < ·)
    rw [List.append_assoc]
    exact hordered

theorem discard (hp : p.Sound) : p.discard.Sound where
  once := by
    show (p.delivered ++ ([] ++ (p.dropped ++ (p.discarded ++ p.waiting)))).Perm (List.range p.next)
    have hmove : ((p.dropped ++ p.discarded) ++ p.waiting).Perm (p.waiting ++ (p.dropped ++ p.discarded)) :=
      List.perm_append_comm
    rw [List.nil_append, ← List.append_assoc p.dropped]
    exact (hmove.append_left p.delivered).trans hp.once
  ordered := by
    show (p.delivered ++ []).Pairwise (· < ·)
    rw [List.append_nil]
    exact (List.pairwise_append.mp hp.ordered).1

end Sound

end Passage
end GSSquared
