/-
Elements laid over others. A list is read as if it went on for ever, with one value past its end.
-/

set_option linter.all false

namespace GSSquared.Overlay

section

variable {α : Type} {d : α}

/-- `n` elements from a place on. -/
def span (d : α) (l : List α) (off n : Nat) : List α := (List.range n).map (fun i => l.getD (off + i) d)

@[simp] theorem span_length (l : List α) (off n : Nat) : (span d l off n).length = n := by
  rw [span, List.length_map, List.length_range]

theorem span_congr {l l' : List α} {off off' n : Nat}
    (h : ∀ i, i < n → l.getD (off + i) d = l'.getD (off' + i) d) : span d l off n = span d l' off' n :=
  List.map_congr_left (fun i hi => h i (List.mem_range.mp hi))

theorem span_getD {l : List α} {off n i : Nat} (hi : i < n) : (span d l off n).getD i d = l.getD (off + i) d := by
  rw [span, List.getD_eq_getElem?_getD, List.getElem?_map, List.getElem?_range hi]
  rfl

theorem span_eq_take {l : List α} {off n : Nat} (h : off + n ≤ l.length) : span d l off n = (l.drop off).take n := by
  apply List.ext_getElem
  · rw [span_length, List.length_take, List.length_drop]
    omega
  · intro i hi _
    rw [span_length] at hi
    simp only [span, List.getElem_map, List.getElem_range, List.getElem_take, List.getElem_drop]
    rw [List.getD_eq_getElem?_getD, List.getElem?_eq_getElem (by omega), Option.getD_some]

theorem span_all (l : List α) : span d l 0 l.length = l := by
  rw [span_eq_take (by omega), List.drop_zero, List.take_length]

theorem getD_replicate (d : α) (n i : Nat) : (List.replicate n d).getD i d = d := by
  rw [List.getD_eq_getElem?_getD, List.getElem?_replicate]
  split <;> rfl

theorem span_replicate (k off n : Nat) : span d (List.replicate k d) off n = List.replicate n d := by
  apply List.ext_getElem
  · rw [span_length, List.length_replicate]
  · intro i _ _
    simp only [span, List.getElem_map, List.getElem_replicate, getD_replicate]

theorem getD_append_default (l : List α) (n i : Nat) : (l ++ List.replicate n d).getD i d = l.getD i d := by
  simp only [List.getD_eq_getElem?_getD, List.getElem?_append, List.getElem?_replicate]
  split
  · rfl
  · next h =>
    rw [List.getElem?_eq_none (by omega)]
    split <;> rfl

theorem getD_take {l : List α} {n i : Nat} (hi : i < n) : (l.take n).getD i d = l.getD i d := by
  rw [List.getD_eq_getElem?_getD, List.getElem?_take_of_lt hi, ← List.getD_eq_getElem?_getD]

def Over (d : α) (l l' : List α) (off : Nat) (bs : List α) : Prop :=
  ∀ j, l'.getD j d = if off ≤ j ∧ j < off + bs.length then bs.getD (j - off) d else l.getD j d

variable {l l' l'' bs cs : List α} {off o n : Nat}

theorem Over.nil (l : List α) (off : Nat) : Over d l l off [] := by
  intro j
  rw [if_neg]
  rintro ⟨h, h'⟩
  rw [List.length_nil] at h'
  omega

theorem Over.within (h : Over d l l' off bs) (ho : off ≤ o) (hn : o + n ≤ off + bs.length) :
    span d l' o n = span d bs (o - off) n := by
  refine span_congr (fun i hi => ?_)
  rw [h, if_pos ⟨by omega, by omega⟩]
  congr 1
  omega

theorem Over.self (h : Over d l l' off bs) : span d l' off bs.length = bs := by
  rw [h.within (Nat.le_refl off) (Nat.le_refl _), Nat.sub_self, span_all]

theorem Over.apart (h : Over d l l' off bs) (ho : ∀ j, o ≤ j → j < o + n → ¬(off ≤ j ∧ j < off + bs.length)) :
    span d l' o n = span d l o n := by
  refine span_congr (fun i hi => ?_)
  rw [h, if_neg (ho _ (Nat.le_add_right o i) (by omega))]

theorem Over.append (h : Over d l l' off bs) (h' : Over d l' l'' (off + bs.length) cs) :
    Over d l l'' off (bs ++ cs) := by
  intro j
  rw [h' j, h j, List.length_append]
  by_cases hlow : off ≤ j
  · by_cases hmid : j < off + bs.length
    · rw [if_neg (by omega), if_pos ⟨hlow, hmid⟩, if_pos ⟨hlow, by omega⟩, List.getD_eq_getElem?_getD,
        List.getD_eq_getElem?_getD, List.getElem?_append_left (by omega)]
    · by_cases hend : j < off + bs.length + cs.length
      · rw [if_pos ⟨by omega, hend⟩, if_pos ⟨hlow, by omega⟩, List.getD_eq_getElem?_getD,
          List.getD_eq_getElem?_getD, List.getElem?_append_right (by omega),
          show j - off - bs.length = j - (off + bs.length) by omega]
      · rw [if_neg (by omega), if_neg (by omega), if_neg (by omega)]
  · rw [if_neg (by omega), if_neg (by omega), if_neg (by omega)]

end

end GSSquared.Overlay
