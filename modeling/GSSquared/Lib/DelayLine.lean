/-
A delay line for one signal, with a single place for what waits. A write is seen some cycles later.
-/
import Mathlib.Data.List.Induction

set_option linter.all false

namespace GSSquared.DelayLine

universe u

inductive Event (α : Type u) where
  | write (a : α)
  | cycle

section

variable {α : Type u}

def cycles : List (Event α) → Nat
  | [] => 0
  | .write _ :: es => cycles es
  | .cycle :: es => cycles es + 1

/-- The last write that is made no later than `d` cycles before cycle `k` starts; `n` cycles have run. -/
def lastWrite (d k : Nat) : Nat → α → List (Event α) → α
  | _, a, [] => a
  | n, a, .write b :: es => lastWrite d k n (if n + d ≤ k then b else a) es
  | n, a, .cycle :: es => lastWrite d k (n + 1) a es

/-- What a signal that was `a` should be in the cycle that comes next. -/
def delayed (d : Nat) (a : α) (es : List (Event α)) : α := lastWrite d (cycles es) 0 a es

def touched (es : List (Event α)) : Bool := es.foldl (fun _ e => match e with | .write _ => true | .cycle => false) false

structure Line (α : Type u) where
  value : α
  due : Option α := none
  next : Option α := none

namespace Line

def current (l : Line α) : α := l.due.getD l.value

def latest (l : Line α) : α := l.next.getD l.current

def step (d : Nat) (l : Line α) : Event α → Line α
  | .write b => if d = 0 then { value := b } else { l with due := none, next := some b }
  | .cycle => { value := l.current, due := l.next }

def run (d : Nat) (a : α) (es : List (Event α)) : Line α := es.foldl (step d) { value := a }

end Line

variable {d k n : Nat} {a b : α} {es : List (Event α)}

theorem cycles_append (es fs : List (Event α)) : cycles (es ++ fs) = cycles es + cycles fs := by
  induction es with
  | nil => exact (Nat.zero_add _).symm
  | cons e es ih =>
    cases e with
    | write b => exact ih
    | cycle =>
      show cycles (es ++ fs) + 1 = cycles es + 1 + cycles fs
      omega

theorem lastWrite_append (fs : List (Event α)) :
    lastWrite d k n a (es ++ fs) = lastWrite d k (n + cycles es) (lastWrite d k n a es) fs := by
  induction es generalizing n a with
  | nil => rfl
  | cons e es ih =>
    cases e with
    | write b => exact ih
    | cycle =>
      show lastWrite d k (n + 1) a (es ++ fs) = lastWrite d k (n + (cycles es + 1)) (lastWrite d k (n + 1) a es) fs
      rw [ih]
      congr 1
      omega

theorem lastWrite_succ : lastWrite (d + 1) (k + 1) n a es = lastWrite d k n a es := by
  induction es generalizing n a with
  | nil => rfl
  | cons e es ih =>
    cases e with
    | write b =>
      have hcond : n + (d + 1) ≤ k + 1 ↔ n + d ≤ k := by omega
      show lastWrite (d + 1) (k + 1) n (if n + (d + 1) ≤ k + 1 then b else a) es = lastWrite d k n (if n + d ≤ k then b else a) es
      rw [ih, if_congr hcond rfl rfl]
    | cycle => exact ih

theorem lastWrite_zero (hk : n + cycles es ≤ k) : lastWrite 0 (k + 1) n a es = lastWrite 0 k n a es := by
  induction es generalizing n a with
  | nil => rfl
  | cons e es ih =>
    cases e with
    | write b =>
      change n + cycles es ≤ k at hk
      show lastWrite 0 (k + 1) n (if n + 0 ≤ k + 1 then b else a) es = lastWrite 0 k n (if n + 0 ≤ k then b else a) es
      rw [if_pos (by omega), if_pos (by omega), ih hk]
    | cycle =>
      change n + (cycles es + 1) ≤ k at hk
      exact ih (by omega)

theorem delayed_write_zero : delayed 0 a (es ++ [.write b]) = b := by
  unfold delayed
  rw [lastWrite_append, cycles_append]
  show (if 0 + cycles es + 0 ≤ cycles es + 0 then b else _) = b
  rw [if_pos (by omega)]

theorem delayed_write_succ : delayed (d + 1) a (es ++ [.write b]) = delayed (d + 1) a es := by
  unfold delayed
  rw [lastWrite_append, cycles_append]
  show (if 0 + cycles es + (d + 1) ≤ cycles es then b else lastWrite (d + 1) (cycles es) 0 a es) = lastWrite (d + 1) (cycles es) 0 a es
  rw [if_neg (by omega)]

theorem delayed_cycle_zero : delayed 0 a (es ++ [.cycle]) = delayed 0 a es := by
  unfold delayed
  rw [lastWrite_append, cycles_append]
  exact lastWrite_zero (Nat.le_of_eq (Nat.zero_add _))

theorem delayed_cycle_succ : delayed (d + 1) a (es ++ [.cycle]) = delayed d a es := by
  unfold delayed
  rw [lastWrite_append, cycles_append]
  show lastWrite (d + 1) (cycles es + 1) 0 a es = lastWrite d (cycles es) 0 a es
  exact lastWrite_succ

theorem touched_write : touched (es ++ [.write b]) = true := by
  unfold touched
  rw [List.foldl_append]
  rfl

theorem touched_cycle : touched (es ++ [.cycle]) = false := by
  unfold touched
  rw [List.foldl_append]
  rfl

theorem delayed_of_untouched (h : touched es = false) : delayed 1 a es = delayed 0 a es := by
  cases es using List.reverseRecOn with
  | nil => rfl
  | append_singleton es e =>
    cases e with
    | write b =>
      rw [touched_write] at h
      cases h
    | cycle => rw [delayed_cycle_succ, delayed_cycle_zero]

namespace Line

theorem run_append (e : Event α) : run d a (es ++ [e]) = (run d a es).step d e := by
  unfold run
  rw [List.foldl_append]
  rfl

theorem latest_run : (run d a es).latest = delayed 0 a es := by
  induction es using List.reverseRecOn with
  | nil => rfl
  | append_singleton es e ih =>
    rw [run_append]
    cases e with
    | write b =>
      rw [delayed_write_zero]
      unfold step
      dsimp only
      split
      · rfl
      · rfl
    | cycle =>
      rw [delayed_cycle_zero, ← ih]
      rfl

theorem current_zero : (run 0 a es).current = delayed 0 a es := by
  have hidle : (run 0 a es).due = none ∧ (run 0 a es).next = none := by
    induction es using List.reverseRecOn with
    | nil => exact ⟨rfl, rfl⟩
    | append_singleton es e ih =>
      rw [run_append]
      cases e with
      | write b => exact ⟨rfl, rfl⟩
      | cycle => exact ⟨ih.2, rfl⟩
  rw [← latest_run (d := 0)]
  unfold latest
  rw [hidle.2]
  rfl

theorem next_run : (run 1 a es).next.isSome = touched es := by
  cases es using List.reverseRecOn with
  | nil => rfl
  | append_singleton es e =>
    rw [run_append]
    cases e with
    | write b =>
      rw [touched_write]
      rfl
    | cycle =>
      rw [touched_cycle]
      rfl

theorem current_untouched (h : touched es = false) : (run 1 a es).current = delayed 1 a es := by
  have hnone : (run 1 a es).next = none := by
    rw [← next_run (a := a), Option.isSome_eq_false_iff, Option.isNone_iff_eq_none] at h
    exact h
  rw [delayed_of_untouched h, ← latest_run (d := 1)]
  unfold latest
  rw [hnone]
  rfl

theorem current_touched (h : touched es = true) : (run 1 a es).current = (run 1 a es).value := by
  cases es using List.reverseRecOn with
  | nil => cases h
  | append_singleton es e =>
    cases e with
    | write b =>
      rw [run_append]
      rfl
    | cycle =>
      rw [touched_cycle] at h
      cases h

variable (es) in
theorem value_run : ((run 1 a es).value = a ∧ delayed 1 a es = a ∧ delayed 2 a es = a) ∨
    ∃ pre, pre ++ [.cycle] <+: es ∧ (run 1 a es).value = (run 1 a pre).current ∧ delayed 2 a es = delayed 1 a pre := by
  induction es using List.reverseRecOn with
  | nil => exact .inl ⟨rfl, rfl, rfl⟩
  | append_singleton es e ih =>
    rw [run_append]
    cases e with
    | write b =>
      rw [delayed_write_succ, delayed_write_succ]
      rcases ih with h | ⟨pre, hpre, hvalue, hdelayed⟩
      · exact .inl h
      · exact .inr ⟨pre, hpre.trans (List.prefix_append _ _), hvalue, hdelayed⟩
    | cycle =>
      rw [delayed_cycle_succ, delayed_cycle_succ]
      exact .inr ⟨es, List.prefix_refl _, rfl, rfl⟩

theorem exact_iff : (∀ pre, pre ++ [.cycle] <+: es → (run 1 a pre).current = delayed 1 a pre) ↔
    ∀ pre, pre ++ [.cycle] <+: es → touched pre = true → delayed 1 a pre = delayed 2 a pre := by
  constructor
  · intro hexact pre hpre htouched
    rw [← hexact pre hpre, current_touched htouched]
    rcases value_run pre (a := a) with ⟨hvalue, _, htwo⟩ | ⟨before, hbefore, hvalue, htwo⟩
    · rw [hvalue, htwo]
    · rw [hvalue, htwo, hexact before (hbefore.trans ((List.prefix_append _ _).trans hpre))]
  · intro hkept pre
    induction hlen : pre.length using Nat.strongRecOn generalizing pre with
    | ind len ih =>
      intro hpre
      cases htouched : touched pre with
      | false => exact current_untouched htouched
      | true =>
        rw [hkept pre hpre htouched, current_touched htouched]
        rcases value_run pre (a := a) with ⟨hvalue, _, htwo⟩ | ⟨before, hbefore, hvalue, htwo⟩
        · rw [hvalue, htwo]
        · rw [hvalue, htwo]
          have hshort : before.length < len := by
            have := hbefore.length_le
            rw [List.length_append, List.length_singleton] at this
            omega
          exact ih _ hshort before rfl (hbefore.trans ((List.prefix_append _ _).trans hpre))

end Line

end

end GSSquared.DelayLine
