/-
Events written down to happen later, counted by what they are for. An agenda is a list with a key at
each entry.
-/

set_option linter.all false

namespace GSSquared.Agenda

section

variable {ε κ : Type} [DecidableEq κ] (key : ε → κ)

def due (k : κ) (agenda : List ε) : Nat := agenda.countP (fun e => key e == k)

theorem due_schedule (k : κ) (agenda : List ε) (e : ε) :
    due key k (agenda ++ [e]) = due key k agenda + (key e == k).toNat := by
  unfold due
  rw [List.countP_append, List.countP_singleton]
  cases key e == k <;> rfl

end

end GSSquared.Agenda
