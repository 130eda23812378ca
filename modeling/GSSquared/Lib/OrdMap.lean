/-
Maps as rows in strictly ascending order of their keys.
-/

set_option linter.all false

namespace GSSquared

structure OrdMap (κ ν : Type) [LT κ] where
  rows : List (κ × ν) := []
  sorted : rows.Pairwise (fun a b => a.1 < b.1) := by exact List.Pairwise.nil

namespace OrdMap

section

variable {κ ν : Type} [LT κ] [DecidableLT κ] [DecidableEq κ]

/-- `map[key] = val` on the rows. -/
def insertRow (key : κ) (val : ν) : List (κ × ν) → List (κ × ν)
  | [] => [(key, val)]
  | row :: rest =>
    if key < row.1 then (key, val) :: row :: rest
    else if key = row.1 then (key, val) :: rest
    else row :: insertRow key val rest

theorem mem_insertRow {key : κ} {val : ν} {r : κ × ν} :
    ∀ {rows : List (κ × ν)}, r ∈ insertRow key val rows → r = (key, val) ∨ r ∈ rows := by
  intro rows
  induction rows with
  | nil => intro h; exact .inl (List.mem_singleton.mp h)
  | cons row rest ih =>
    intro h
    rw [insertRow] at h
    split at h
    · exact List.mem_cons.mp h
    · split at h
      · rcases List.mem_cons.mp h with h | h
        · exact .inl h
        · exact .inr (List.mem_cons_of_mem _ h)
      · rcases List.mem_cons.mp h with h | h
        · exact .inr (h ▸ List.mem_cons_self)
        · exact (ih h).imp_right (List.mem_cons_of_mem _)

theorem insertRow_last {key : κ} {val : ν}
    [Std.Asymm (· < · : κ → κ → Prop)] :
    ∀ {rows : List (κ × ν)}, (∀ r ∈ rows, r.1 < key) →
      insertRow key val rows = rows ++ [(key, val)] := by
  intro rows
  induction rows with
  | nil => intro _; rfl
  | cons row rest ih =>
    intro h
    have hrow := h row List.mem_cons_self
    have hasymm : ¬ key < row.1 := Std.Asymm.asymm _ _ hrow
    have hne : key ≠ row.1 := by
      rintro rfl
      exact Std.Asymm.asymm _ _ hrow hrow
    rw [insertRow, if_neg hasymm, if_neg hne, ih (fun r hr => h r (List.mem_cons_of_mem _ hr)),
      List.cons_append]

variable [Trans (· < · : κ → κ → Prop) (· < · : κ → κ → Prop) (· < · : κ → κ → Prop)]
  [Std.Trichotomous (· < · : κ → κ → Prop)]

theorem insertRow_sorted (key : κ) (val : ν) :
    ∀ {rows : List (κ × ν)}, rows.Pairwise (fun a b => a.1 < b.1) →
      (insertRow key val rows).Pairwise (fun a b => a.1 < b.1) := by
  intro rows
  induction rows with
  | nil => intro _; exact List.pairwise_singleton _ _
  | cons row rest ih =>
    intro h
    obtain ⟨hrow, hrest⟩ := List.pairwise_cons.mp h
    rw [insertRow]
    by_cases hlt : key < row.1
    · rw [if_pos hlt]
      refine List.pairwise_cons.mpr ⟨fun r hr => ?_, h⟩
      rcases List.mem_cons.mp hr with rfl | hr
      · exact hlt
      · exact Trans.trans hlt (hrow r hr)
    · rw [if_neg hlt]
      by_cases heq : key = row.1
      · rw [if_pos heq]
        exact List.pairwise_cons.mpr ⟨fun r hr => heq ▸ hrow r hr, hrest⟩
      · rw [if_neg heq]
        have hgt : row.1 < key := by
          by_cases hgt : row.1 < key
          · exact hgt
          · exact absurd (Std.Trichotomous.trichotomous _ _ hlt hgt) heq
        refine List.pairwise_cons.mpr ⟨fun r hr => ?_, ih hrest⟩
        rcases mem_insertRow hr with rfl | hr
        · exact hgt
        · exact hrow r hr

/-- `map[key] = val`. -/
def insert (m : OrdMap κ ν) (key : κ) (val : ν) : OrdMap κ ν :=
  { rows := insertRow key val m.rows, sorted := insertRow_sorted key val m.sorted }

end

theorem ext {κ ν : Type} [LT κ] {m m' : OrdMap κ ν} (h : m.rows = m'.rows) : m = m' := by
  obtain ⟨rows, _⟩ := m
  obtain ⟨rows', _⟩ := m'
  cases h
  rfl

end OrdMap
end GSSquared
