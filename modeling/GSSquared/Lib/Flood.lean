/-
Filling a region from pending places. `Joined Beside U` relates places that are come to from one
another inside `U`.
-/
import Mathlib.Logic.Relation

set_option linter.all false

namespace GSSquared.Flood

variable {α : Type} {Beside : α → α → Prop} {U V W : α → Prop} {seed top p q r : α} {rest stack : List α}

/-- A way inside `U`. -/
def Joined (Beside : α → α → Prop) (U : α → Prop) (p q : α) : Prop :=
  U p ∧ Relation.ReflTransGen (fun a b => Beside a b ∧ U b) p q

namespace Joined

theorem refl (h : U p) : Joined Beside U p p := ⟨h, .refl⟩

theorem tail (h : Joined Beside U p q) (hbeside : Beside q r) (hr : U r) : Joined Beside U p r :=
  ⟨h.1, h.2.tail ⟨hbeside, hr⟩⟩

theorem trans (h : Joined Beside U p q) (h' : Joined Beside U q r) : Joined Beside U p r := ⟨h.1, h.2.trans h'.2⟩

theorem inside (h : Joined Beside U p q) : U q := by
  rcases Relation.ReflTransGen.cases_tail h.2 with rfl | ⟨a, -, -, hq⟩
  · exact h.1
  · exact hq

theorem mono (hsub : ∀ a, U a → V a) (h : Joined Beside U p q) : Joined Beside V p q := by
  refine ⟨hsub p h.1, ?_⟩
  have hle : (fun a b => Beside a b ∧ U b) ≤ (fun a b => Beside a b ∧ V b) := fun a b hab => ⟨hab.1, hsub b hab.2⟩
  exact Relation.ReflTransGen.mono hle p q h.2

theorem symm (hsymm : ∀ a b, Beside a b → Beside b a) (h : Joined Beside U p q) : Joined Beside U q p := by
  obtain ⟨hp, hway⟩ := h
  induction hway with
  | refl => exact refl hp
  | @tail a b hway hab ih =>
    have hstep : Joined Beside U b a := (refl hab.2).tail (hsymm a b hab.1) (inside ⟨hp, hway⟩)
    exact hstep.trans ih

theorem leaves (h : Joined Beside U p q) (hp : V p) :
    Joined Beside V p q ∨ ∃ a b, Joined Beside V p a ∧ Beside a b ∧ U b ∧ ¬ V b := by
  obtain ⟨-, hway⟩ := h
  induction hway with
  | refl => exact .inl (refl hp)
  | @tail a b _ hab ih =>
    rcases ih with hin | hout
    · by_cases hb : V b
      · exact .inl (hin.tail hab.1 hb)
      · exact .inr ⟨a, b, hin, hab.1, hab.2, hb⟩
    · exact .inr hout

end Joined

/-- A piece of `U` is taken, joined to the place at the top; what is pushed is joined to it too. -/
structure Piece (Beside : α → α → Prop) (U V : α → Prop) (top : α) (rest stack : List α) : Prop where
  shrinks : ∀ a, V a → U a
  taken : ∀ a, U a → ¬ V a → Joined Beside U top a
  gone : ¬ V top
  kept : ∀ a ∈ rest, a ∈ stack
  pushed : ∀ a ∈ stack, a ∈ rest ∨ Joined Beside U top a

/-- Next to what is taken, everything open is joined to a pending place. -/
def Edged (Beside : α → α → Prop) (U V : α → Prop) (stack : List α) : Prop :=
  ∀ a b, U a → ¬ V a → Beside a b → V b → ∃ e ∈ stack, Joined Beside V b e

/-- `W` is what was open at first. -/
structure Sound (Beside : α → α → Prop) (W : α → Prop) (seed : α) (U : α → Prop) (stack : List α) : Prop where
  shrinks : ∀ a, U a → W a
  taken : ∀ a, W a → ¬ U a → Joined Beside W seed a
  pending : ∀ a ∈ stack, Joined Beside W seed a

theorem Sound.start (h : ∀ a ∈ stack, a = seed ∧ W a) : Sound Beside W seed W stack := by
  constructor
  · exact fun a ha => ha
  · exact fun a ha hnot => absurd ha hnot
  · intro a ha
    obtain ⟨rfl, hopen⟩ := h a ha
    exact Joined.refl hopen

theorem Sound.skip (h : Sound Beside W seed U (top :: rest)) : Sound Beside W seed U rest :=
  { h with pending := fun a ha => h.pending a (List.mem_cons_of_mem _ ha) }

theorem Sound.take (h : Sound Beside W seed U (top :: rest)) (hpiece : Piece Beside U V top rest stack) :
    Sound Beside W seed V stack := by
  have htop := h.pending top List.mem_cons_self
  constructor
  · exact fun a ha => h.shrinks a (hpiece.shrinks a ha)
  · intro a ha hnot
    by_cases hopen : U a
    · exact htop.trans ((hpiece.taken a hopen hnot).mono h.shrinks)
    · exact h.taken a ha hopen
  · intro a ha
    rcases hpiece.pushed a ha with hold | hnew
    · exact h.pending a (List.mem_cons_of_mem _ hold)
    · exact htop.trans (hnew.mono h.shrinks)

def Exposed (Beside : α → α → Prop) (W : α → Prop) (seed : α) (U : α → Prop) (q : α) : Prop :=
  q = seed ∨ ∃ p, W p ∧ ¬ U p ∧ Beside p q

def Held (Beside : α → α → Prop) (W : α → Prop) (seed : α) (U : α → Prop) (stack : List α) : Prop :=
  ∀ q, U q → Exposed Beside W seed U q → ∃ e ∈ stack, Joined Beside U q e

theorem Held.start (h : W seed → seed ∈ stack) : Held Beside W seed W stack := by
  rintro q hq (rfl | ⟨p, hp, hnot, -⟩)
  · exact ⟨q, h hq, Joined.refl hq⟩
  · exact absurd hp hnot

theorem Held.skip (h : Held Beside W seed U (top :: rest)) (htop : ¬ U top) : Held Beside W seed U rest := by
  intro q hq hexposed
  obtain ⟨e, he, hjoined⟩ := h q hq hexposed
  rcases List.mem_cons.mp he with rfl | he
  · exact absurd hjoined.inside htop
  · exact ⟨e, he, hjoined⟩

theorem Held.take (hsymm : ∀ a b, Beside a b → Beside b a) (h : Held Beside W seed U (top :: rest))
    (hpiece : Piece Beside U V top rest stack) (hedged : Edged Beside U V stack) : Held Beside W seed V stack := by
  intro q hq hexposed
  have hbefore : Exposed Beside W seed U q ∨ ∃ p, U p ∧ ¬ V p ∧ Beside p q := by
    rcases hexposed with hseed | ⟨p, hp, hnot, hbeside⟩
    · exact .inl (.inl hseed)
    · by_cases hopen : U p
      · exact .inr ⟨p, hopen, hnot, hbeside⟩
      · exact .inl (.inr ⟨p, hp, hopen, hbeside⟩)
  rcases hbefore with hold | ⟨p, hp, hnot, hbeside⟩
  · obtain ⟨e, he, hjoined⟩ := h q (hpiece.shrinks q hq) hold
    rcases hjoined.leaves hq with hstill | ⟨a, b, hway, hbeside, hb, hnot⟩
    · rcases List.mem_cons.mp he with rfl | he
      · exact absurd hstill.inside hpiece.gone
      · exact ⟨e, hpiece.kept e he, hstill⟩
    · obtain ⟨e', he', hrest⟩ := hedged b a hb hnot (hsymm a b hbeside) hway.inside
      exact ⟨e', he', hway.trans hrest⟩
  · exact hedged p q hp hnot hbeside hq

theorem Held.done (h : Held Beside W seed U []) (hjoined : Joined Beside W seed p) : ¬ U p := by
  obtain ⟨hseed, hway⟩ := hjoined
  have hnone : ∀ q, U q → ¬ Exposed Beside W seed U q := by
    intro q hq hexposed
    obtain ⟨e, he, -⟩ := h q hq hexposed
    exact absurd he List.not_mem_nil
  have htaken : W p ∧ ¬ U p := by
    induction hway with
    | refl => exact ⟨hseed, fun hopen => hnone seed hopen (.inl rfl)⟩
    | @tail a b _ hab ih => exact ⟨hab.2, fun hopen => hnone b hopen (.inr ⟨a, ih.1, ih.2, hab.1⟩)⟩
  exact htaken.2

end GSSquared.Flood
