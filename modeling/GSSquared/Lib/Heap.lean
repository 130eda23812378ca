/-
Heaps kept in a list.
-/
import Mathlib.Data.List.Sort

set_option linter.all false

namespace GSSquared.Heap

section

variable {α κ : Type} [LinearOrder κ] (key : α → κ)

def IsHeap (l : List α) : Prop :=
  ∀ i (h : i + 1 < l.length), key l[i / 2] ≤ key l[i + 1]

/-- `make_heap`, `push_heap` and `pop_heap`. -/
structure Ops where
  make : List α → List α
  push : List α → List α
  pop : List α → List α
  make_perm : ∀ l, (make l).Perm l
  make_isHeap : ∀ l, IsHeap key (make l)
  push_perm : ∀ l, (push l).Perm l
  push_isHeap : ∀ l a, IsHeap key l → IsHeap key (push (l ++ [a]))
  pop_perm : ∀ l, (pop l).Perm l
  /-- The front goes to the end, and what is before it is a heap. -/
  pop_eq : ∀ a l, IsHeap key (a :: l) → ∃ l', pop (a :: l) = l' ++ [a] ∧ IsHeap key l'

variable {key}

theorem isHeap_nil : IsHeap key [] := fun _ h => nomatch h

theorem IsHeap.front_le {a : α} {l : List α} (h : IsHeap key (a :: l)) : ∀ b ∈ a :: l, key a ≤ key b := by
  have hindex : ∀ i (hi : i < (a :: l).length), key a ≤ key (a :: l)[i] := by
    intro i
    induction i using Nat.strongRecOn with
    | ind i ih =>
      intro hi
      match i with
      | 0 => exact le_refl _
      | j + 1 => exact (ih (j / 2) (by omega) (by omega)).trans (h j hi)
  intro b hb
  obtain ⟨i, hi, rfl⟩ := List.getElem_of_mem hb
  exact hindex i hi

theorem Ops.pop_dropLast (H : Ops key) {a : α} {l : List α} (h : IsHeap key (a :: l)) :
    ((H.pop (a :: l)).dropLast).Perm l ∧ IsHeap key (H.pop (a :: l)).dropLast := by
  obtain ⟨l', hpop, hheap⟩ := H.pop_eq a l h
  have hperm := H.pop_perm (a :: l)
  rw [hpop] at hperm ⊢
  rw [List.dropLast_concat]
  exact ⟨((List.perm_append_singleton a l').symm.trans hperm).cons_inv, hheap⟩

theorem isHeap_of_pairwise {l : List α} (h : l.Pairwise (fun a b => key a ≤ key b)) : IsHeap key l :=
  fun i hi => List.pairwise_iff_getElem.mp h (i / 2) (i + 1) (by omega) hi (by omega)

variable (key)

def sorted : Ops key where
  make := List.insertionSort (fun a b => key a ≤ key b)
  push := List.insertionSort (fun a b => key a ≤ key b)
  pop l := List.insertionSort (fun a b => key a ≤ key b) l.tail ++ l.head?.toList
  make_perm := List.perm_insertionSort _
  make_isHeap l := isHeap_of_pairwise (pairwise_le l)
  push_perm := List.perm_insertionSort _
  push_isHeap l a _ := isHeap_of_pairwise (pairwise_le (l ++ [a]))
  pop_perm
    | [] => .refl _
    | a :: l => (List.perm_append_singleton a _).trans ((List.perm_insertionSort _ l).cons a)
  pop_eq _ l _ := ⟨_, rfl, isHeap_of_pairwise (pairwise_le l)⟩
where
  pairwise_le (l : List α) :
      (List.insertionSort (fun a b => key a ≤ key b) l).Pairwise (fun a b => key a ≤ key b) :=
    have : Std.Total (fun a b : α => key a ≤ key b) := ⟨fun a b => le_total (key a) (key b)⟩
    have : IsTrans α (fun a b : α => key a ≤ key b) := ⟨fun _ _ _ => le_trans⟩
    List.pairwise_insertionSort _ l

end

end GSSquared.Heap
