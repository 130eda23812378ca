/-
Rows told apart by a key, put down one after another: a row takes the place of the one that carries
its key, or goes to the end.
-/
import Mathlib.Data.List.Forall2
import Mathlib.Data.List.Induction
import Mathlib.Data.List.Nodup

set_option linter.all false

namespace GSSquared.Upsert

section

variable {α κ : Type} (key : α → κ)

def Agreeing (xs : List α) : Prop := ∀ x ∈ xs, ∀ y ∈ xs, key x = key y → x = y

theorem Agreeing.perm {key : α → κ} {xs ys : List α} (h : Agreeing key xs) (hperm : xs.Perm ys) :
    Agreeing key ys :=
  fun x hx y hy => h x (hperm.mem_iff.mpr hx) y (hperm.mem_iff.mpr hy)

variable [DecidableEq κ]

def upsert (x : α) : List α → List α
  | [] => [x]
  | y :: ys => if key y = key x then x :: ys else y :: upsert x ys

def find (k : κ) (xs : List α) : Option α := xs.find? (fun y => decide (key y = k))

/-- The table after the rows `xs`. -/
def build (xs : List α) : List α := xs.foldl (fun ys x => upsert key x ys) []

variable {key}

theorem find_upsert (x : α) (k : κ) (ys : List α) :
    find key k (upsert key x ys) = if key x = k then some x else find key k ys := by
  induction ys with
  | nil => by_cases hk : key x = k <;> simp [upsert, find, hk]
  | cons y ys ih =>
    rw [upsert]
    by_cases hy : key y = key x
    · rw [if_pos hy]
      by_cases hk : key x = k
      · rw [if_pos hk, find, List.find?_cons_of_pos (p := fun y : α => decide (key y = k)) (decide_eq_true hk)]
      · have hyk : key y ≠ k := fun h => hk (hy ▸ h)
        simp only [find, List.find?_cons, hk, hyk, decide_false, if_false]
    · rw [if_neg hy]
      by_cases hyk : key y = k
      · have hk : key x ≠ k := fun h => hy (hyk.trans h.symm)
        simp only [find, List.find?_cons, hyk, hk, decide_true, if_false]
      · have hcons : ∀ zs, find key k (y :: zs) = find key k zs :=
          fun zs => List.find?_cons_of_neg (by simpa using hyk)
        rw [hcons, hcons, ih]

theorem keys_upsert (x : α) (ys : List α) :
    (upsert key x ys).map key =
      if key x ∈ ys.map key then ys.map key else ys.map key ++ [key x] := by
  induction ys with
  | nil => rfl
  | cons y ys ih =>
    rw [upsert]
    by_cases hy : key y = key x
    · rw [if_pos hy, List.map_cons, List.map_cons, hy, if_pos List.mem_cons_self]
    · have hmem : key x ∈ (y :: ys).map key ↔ key x ∈ ys.map key := by
        rw [List.map_cons, List.mem_cons, or_iff_right (Ne.symm hy)]
      rw [if_neg hy, List.map_cons, ih, if_congr hmem rfl rfl]
      split <;> rfl

theorem nodup_upsert {ys : List α} (x : α) (h : (ys.map key).Nodup) : ((upsert key x ys).map key).Nodup := by
  rw [keys_upsert]
  split
  next => exact h
  next hnew =>
      rw [List.nodup_append]
      refine ⟨h, List.nodup_singleton _, ?_⟩
      intro k hk k' hk'
      cases List.mem_singleton.mp hk'
      exact fun heq => hnew (heq ▸ hk)

theorem mem_of_mem_upsert {x y : α} {ys : List α} (h : y ∈ upsert key x ys) : y = x ∨ y ∈ ys := by
  induction ys with
  | nil => exact .inl (List.mem_singleton.mp h)
  | cons z ys ih =>
    rw [upsert] at h
    split at h
    · exact (List.mem_cons.mp h).imp_right (List.mem_cons_of_mem z)
    · rcases List.mem_cons.mp h with rfl | h
      · exact .inr List.mem_cons_self
      · exact (ih h).imp_right (List.mem_cons_of_mem z)

theorem mem_of_find {k : κ} {xs : List α} {x : α} (h : find key k xs = some x) : x ∈ xs ∧ key x = k := by
  rw [find, List.find?_eq_some_iff_append] at h
  obtain ⟨hkey, front, back, rfl, -⟩ := h
  exact ⟨List.mem_append_right _ List.mem_cons_self, of_decide_eq_true hkey⟩

theorem find_eq_none {k : κ} {xs : List α} : find key k xs = none ↔ ∀ x ∈ xs, key x ≠ k := by
  simp only [find, List.find?_eq_none, decide_eq_true_eq, ne_eq]

theorem mem_iff_find {xs : List α} (h : (xs.map key).Nodup) (x : α) :
    x ∈ xs ↔ find key (key x) xs = some x := by
  refine ⟨?_, fun hfind => (mem_of_find hfind).1⟩
  intro hx
  cases hfind : find key (key x) xs with
  | none => exact absurd rfl (find_eq_none.mp hfind x hx)
  | some y =>
    obtain ⟨hy, hkey⟩ := mem_of_find hfind
    exact congrArg some (List.inj_on_of_nodup_map h hy hx hkey)

theorem find_perm {xs ys : List α} (h : (xs.map key).Nodup) (hperm : xs.Perm ys) (k : κ) :
    find key k xs = find key k ys := by
  have h' : (ys.map key).Nodup := (hperm.map key).nodup_iff.mp h
  cases hfind : find key k xs with
  | none =>
    refine (find_eq_none.mpr fun y hy => ?_).symm
    exact find_eq_none.mp hfind y (hperm.mem_iff.mpr hy)
  | some x =>
    obtain ⟨hx, rfl⟩ := mem_of_find hfind
    exact ((mem_iff_find h' x).mp (hperm.mem_iff.mp hx)).symm

theorem build_concat (xs : List α) (x : α) : build key (xs ++ [x]) = upsert key x (build key xs) :=
  List.foldl_append

theorem nodup_build (xs : List α) : ((build key xs).map key).Nodup := by
  induction xs using List.reverseRecOn with
  | nil => exact List.nodup_nil
  | append_singleton xs x ih =>
    rw [build_concat]
    exact nodup_upsert x ih

theorem find_build_append (k : κ) (xs ys : List α) :
    find key k (build key (xs ++ ys)) = (find key k (build key ys)).or (find key k (build key xs)) := by
  induction ys using List.reverseRecOn with
  | nil => rw [List.append_nil]; rfl
  | append_singleton ys y ih =>
    rw [← List.append_assoc, build_concat, build_concat, find_upsert, find_upsert, ih]
    split <;> rfl

theorem find_build_concat (k : κ) (xs : List α) (x : α) :
    find key k (build key (xs ++ [x])) = if key x = k then some x else find key k (build key xs) := by
  rw [build_concat, find_upsert]

theorem mem_of_mem_build {xs : List α} {x : α} (h : x ∈ build key xs) : x ∈ xs := by
  rw [mem_iff_find (nodup_build xs)] at h
  induction xs using List.reverseRecOn with
  | nil => cases h
  | append_singleton xs y ih =>
    rw [find_build_concat] at h
    split at h
    · cases h
      exact List.mem_append_right _ List.mem_cons_self
    · exact List.mem_append_left _ (ih h)

variable (key) in
theorem find_build_isSome {xs : List α} {x : α} (h : x ∈ xs) : (find key (key x) (build key xs)).isSome := by
  induction xs using List.reverseRecOn with
  | nil => cases h
  | append_singleton xs y ih =>
    rw [find_build_concat]
    split
    next => rfl
    next hne =>
        rcases List.mem_append.mp h with h | h
        · exact ih h
        · exact absurd (congrArg key (List.mem_singleton.mp h)).symm hne

theorem build_of_nodup {xs : List α} (h : (xs.map key).Nodup) : build key xs = xs := by
  have hput : ∀ (ys : List α) (x : α), key x ∉ ys.map key → upsert key x ys = ys ++ [x] := by
    intro ys x hx
    induction ys with
    | nil => rfl
    | cons y ys ih =>
      rw [List.map_cons, List.mem_cons, not_or] at hx
      rw [upsert, if_neg (Ne.symm hx.1), ih hx.2]
      rfl
  induction xs using List.reverseRecOn with
  | nil => rfl
  | append_singleton xs x ih =>
    rw [List.map_append, List.nodup_append] at h
    have hnew : key x ∉ xs.map key := fun hmem => h.2.2 _ hmem _ List.mem_cons_self rfl
    rw [build_concat, ih h.1, hput xs x hnew]

theorem Agreeing.mem_build {xs : List α} (h : Agreeing key xs) (x : α) : x ∈ build key xs ↔ x ∈ xs := by
  refine ⟨mem_of_mem_build, fun hx => ?_⟩
  obtain ⟨y, hfind⟩ := Option.isSome_iff_exists.mp (find_build_isSome key hx)
  obtain ⟨hy, hkey⟩ := mem_of_find hfind
  rw [← h y (mem_of_mem_build hy) x hx hkey]
  exact hy

theorem Agreeing.build_perm {xs ys : List α} (h : Agreeing key xs) (hperm : xs.Perm ys) :
    (build key xs).Perm (build key ys) := by
  rw [List.perm_ext_iff_of_nodup (List.Nodup.of_map key (nodup_build xs)) (List.Nodup.of_map key (nodup_build ys))]
  intro x
  rw [h.mem_build, (h.perm hperm).mem_build, hperm.mem_iff]

variable (key)

theorem exists_last {xs : List α} {x : α} (h : x ∈ xs) : ∃ ys, xs.Perm ys ∧ x ∈ build key ys := by
  obtain ⟨front, back, rfl⟩ := List.append_of_mem h
  refine ⟨front ++ back ++ [x], ?_, ?_⟩
  · rw [List.append_assoc]
    exact (List.perm_append_singleton x back).symm.append_left front
  · rw [mem_iff_find (nodup_build _), find_build_concat, if_pos rfl]

theorem exists_last_fit (fit : α → Bool) {xs : List α} (hkeys : ∀ x ∈ xs, ∃ y ∈ xs, key y = key x ∧ fit y)
    {x : α} (h : x ∈ xs) (hfit : fit x) :
    ∃ ys, xs.Perm ys ∧ x ∈ build key ys ∧ ∀ y ∈ build key ys, fit y := by
  obtain ⟨front, back, rfl⟩ := List.append_of_mem h
  let others := front ++ back
  let last := others.filter fit ++ [x]
  have hsplit : others.Perm (others.filter (fun y => !fit y) ++ others.filter fit) :=
    (List.filter_append_perm fit others).symm.trans List.perm_append_comm
  have hlast : ∀ y ∈ last, fit y := by
    intro y hy
    rcases List.mem_append.mp hy with hy | hy
    · exact List.of_mem_filter hy
    · exact List.mem_singleton.mp hy ▸ hfit
  refine ⟨others.filter (fun y => !fit y) ++ last, ?_, ?_, ?_⟩
  · rw [← List.append_assoc]
    have hend : (front ++ x :: back).Perm (others ++ [x]) := by
      rw [List.append_assoc]
      exact (List.perm_append_singleton x back).symm.append_left front
    exact hend.trans (hsplit.append_right [x])
  · rw [mem_iff_find (nodup_build _), ← List.append_assoc, find_build_concat, if_pos rfl]
  · intro y hy
    -- the fit rows come last, and every key has one
    obtain ⟨z, hz, hkey, hzfit⟩ := hkeys y (by
      have hmem := mem_of_mem_build hy
      simp only [others, last, List.mem_append, List.mem_filter, List.mem_cons] at hmem ⊢
      grind)
    have hzlast : z ∈ last := by
      simp only [others, last, List.mem_append, List.mem_filter, List.mem_cons] at hz ⊢
      grind
    obtain ⟨w, hw⟩ := Option.isSome_iff_exists.mp (find_build_isSome key hzlast)
    rw [mem_iff_find (nodup_build _), find_build_append, ← hkey, hw] at hy
    cases hy
    exact hlast y (mem_of_mem_build (mem_of_find hw).1)

end

theorem exists_perm_filterMap {α β : Type} (f : α → Option β) {xs : List α} {ys : List β}
    (h : (xs.filterMap f).Perm ys) : ∃ zs, xs.Perm zs ∧ zs.filterMap f = ys := by
  induction xs generalizing ys with
  | nil => exact ⟨[], .refl _, h.nil_eq⟩
  | cons x xs ih =>
    cases hx : f x with
    | none =>
      rw [List.filterMap_cons_none hx] at h
      obtain ⟨zs, hperm, hzs⟩ := ih h
      exact ⟨x :: zs, hperm.cons x, (List.filterMap_cons_none hx).trans hzs⟩
    | some y =>
      rw [List.filterMap_cons_some hx] at h
      obtain ⟨front, back, rfl⟩ := List.append_of_mem (h.subset List.mem_cons_self)
      obtain ⟨zs, hperm, hzs⟩ := ih ((h.trans List.perm_middle).cons_inv)
      obtain ⟨zfront, zback, rfl, hfront, hback⟩ := List.filterMap_eq_append_iff.mp hzs
      refine ⟨zfront ++ x :: zback, (hperm.cons x).trans List.perm_middle.symm, ?_⟩
      rw [List.filterMap_append, List.filterMap_cons_some hx, hfront, hback]

end GSSquared.Upsert
