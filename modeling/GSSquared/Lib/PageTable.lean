/-
Page tables: for each page, where reads go and where writes go.
-/

set_option linter.all false

namespace GSSquared.Paging

section

variable {π ρ : Type}

/-- `page_table_entry_t`, less its description texts. -/
structure Entry (π ρ : Type) where
  readP : Option π := none
  writeP : Option π := none
  readH : Option ρ := none
  writeH : Option ρ := none
  shadowH : Option ρ := none
deriving DecidableEq

/-- A page table is total: a page past its end is one that is never asked for. -/
abbrev Table (π ρ : Type) := Nat → Entry π ρ

namespace Entry

/-- `map_page_both`. -/
def both (e : Entry π ρ) (p : Option π) : Entry π ρ :=
  { e with readP := p, writeP := p, readH := none, writeH := none }

/-- `map_page_read_only`.  The handlers stay. -/
def readOnly (e : Entry π ρ) (p : Option π) : Entry π ρ := { e with readP := p, writeP := none }

end Entry

def alter (t : Table π ρ) (page : Nat) (f : Entry π ρ → Entry π ρ) : Table π ρ :=
  fun q => if q = page then f (t q) else t q

/-- `for (i = 0; i < n; i++)` over the pages from `lo` on. -/
def alterRange (t : Table π ρ) (lo : Nat) (f : Nat → Entry π ρ → Entry π ρ) : Nat → Table π ρ
  | 0 => t
  | n + 1 => alter (alterRange t lo f n) (lo + n) (f (lo + n))

/-- Such loops one after the other, over ranges given by their start and length. -/
def alterRanges (t : Table π ρ) (ranges : List (Nat × Nat)) (f : Nat → Entry π ρ → Entry π ρ) :
    Table π ρ :=
  ranges.foldl (fun t r => alterRange t r.1 f r.2) t

/-- `map_page_read` over ranges. -/
def mapReads (t : Table π ρ) (ranges : List (Nat × Nat)) (p : Nat → Option π) : Table π ρ :=
  alterRanges t ranges (fun page e => { e with readP := p page })

/-- `map_page_write` over ranges. -/
def mapWrites (t : Table π ρ) (ranges : List (Nat × Nat)) (p : Nat → Option π) : Table π ρ :=
  alterRanges t ranges (fun page e => { e with writeP := p page })

def Within (ranges : List (Nat × Nat)) (q : Nat) : Prop := ∃ r ∈ ranges, r.1 ≤ q ∧ q < r.1 + r.2

instance (ranges : List (Nat × Nat)) (q : Nat) : Decidable (Within ranges q) :=
  inferInstanceAs (Decidable (∃ r ∈ ranges, r.1 ≤ q ∧ q < r.1 + r.2))

theorem within_nil (q : Nat) : ¬ Within [] q := by simp [Within]

theorem within_cons (r : Nat × Nat) (ranges : List (Nat × Nat)) (q : Nat) :
    Within (r :: ranges) q ↔ (r.1 ≤ q ∧ q < r.1 + r.2) ∨ Within ranges q := by
  simp [Within]

theorem alterRange_apply (t : Table π ρ) (lo : Nat) (f : Nat → Entry π ρ → Entry π ρ) (n q : Nat) :
    alterRange t lo f n q = if lo ≤ q ∧ q < lo + n then f q (t q) else t q := by
  induction n with
  | zero =>
    rw [if_neg (by omega)]
    rfl
  | succ n ih =>
    unfold alterRange alter
    by_cases hq : q = lo + n
    · -- the page of this turn was not in the range before
      rw [if_pos hq, ih, if_neg (by omega), if_pos (by omega), hq]
    · rw [if_neg hq, ih]
      by_cases hin : lo ≤ q ∧ q < lo + n
      · rw [if_pos hin, if_pos (by omega)]
      · rw [if_neg hin, if_neg (by omega)]

theorem alterRanges_apply {f : Nat → Entry π ρ → Entry π ρ} (hf : ∀ q e, f q (f q e) = f q e)
    (ranges : List (Nat × Nat)) (t : Table π ρ) (q : Nat) :
    alterRanges t ranges f q = if Within ranges q then f q (t q) else t q := by
  unfold alterRanges
  induction ranges generalizing t with
  | nil => rw [if_neg (within_nil q)]; rfl
  | cons r ranges ih =>
    rw [List.foldl_cons, ih, alterRange_apply]
    by_cases hr : r.1 ≤ q ∧ q < r.1 + r.2
    · rw [if_pos hr, if_pos ((within_cons r ranges q).mpr (.inl hr))]
      split
      · exact hf q (t q)
      · rfl
    · rw [if_neg hr]
      by_cases hw : Within ranges q
      · rw [if_pos hw, if_pos ((within_cons r ranges q).mpr (.inr hw))]
      · rw [if_neg hw, if_neg (fun h => hw (((within_cons r ranges q).mp h).resolve_left hr))]

theorem mapReads_apply (t : Table π ρ) (ranges : List (Nat × Nat)) (p : Nat → Option π) (q : Nat) :
    mapReads t ranges p q = if Within ranges q then { t q with readP := p q } else t q :=
  alterRanges_apply (f := fun page e => { e with readP := p page }) (fun _ _ => rfl) ranges t q

theorem mapWrites_apply (t : Table π ρ) (ranges : List (Nat × Nat)) (p : Nat → Option π) (q : Nat) :
    mapWrites t ranges p q = if Within ranges q then { t q with writeP := p q } else t q :=
  alterRanges_apply (f := fun page e => { e with writeP := p page }) (fun _ _ => rfl) ranges t q

def Repointed (t t' : Table π ρ) : Prop := ∀ q, ∃ r w, t' q = { t q with readP := r, writeP := w }

theorem Repointed.refl (t : Table π ρ) : Repointed t t := fun q => ⟨(t q).readP, (t q).writeP, rfl⟩

theorem Repointed.trans {t t' t'' : Table π ρ} (h : Repointed t t') (h' : Repointed t' t'') :
    Repointed t t'' := by
  intro q
  obtain ⟨r, w, hq⟩ := h q
  obtain ⟨r', w', hq'⟩ := h' q
  exact ⟨r', w', by rw [hq', hq]⟩

theorem Repointed.handlers {t t' : Table π ρ} (h : Repointed t t') (q : Nat) :
    (t' q).readH = (t q).readH ∧ (t' q).writeH = (t q).writeH := by
  obtain ⟨r, w, hq⟩ := h q
  rw [hq]
  exact ⟨rfl, rfl⟩

theorem mapReads_repointed (t : Table π ρ) (ranges : List (Nat × Nat)) (p : Nat → Option π) :
    Repointed t (mapReads t ranges p) := by
  intro q
  rw [mapReads_apply]
  split
  · exact ⟨p q, (t q).writeP, rfl⟩
  · exact Repointed.refl t q

theorem mapWrites_repointed (t : Table π ρ) (ranges : List (Nat × Nat)) (p : Nat → Option π) :
    Repointed t (mapWrites t ranges p) := by
  intro q
  rw [mapWrites_apply]
  split
  · exact ⟨(t q).readP, p q, rfl⟩
  · exact Repointed.refl t q

end

end GSSquared.Paging
