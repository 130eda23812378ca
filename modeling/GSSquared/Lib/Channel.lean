/-
A channel between two parties that holds so many items and no more.
-/

set_option linter.all false

namespace GSSquared.Channel

section

variable {α : Type}

def send (capacity : Nat) (q : List α) (a : α) : Option (List α) :=
  if q.length < capacity then some (q ++ [a]) else none

def canSend (capacity : Nat) (q : List α) : Bool := q.length < capacity

variable {capacity : Nat} {q q' : List α} {a : α}

theorem send_of_room (h : q.length < capacity) : send capacity q a = some (q ++ [a]) := if_pos h

theorem send_of_full (h : ¬ q.length < capacity) : send capacity q a = none := if_neg h

theorem send_eq_some (h : send capacity q a = some q') : q' = q ++ [a] := by
  unfold send at h
  split at h
  · exact (Option.some.inj h).symm
  · cases h

inductive Ret (α : Type) where
  | send (a : α) (ok : Bool)
  | canSend (ok : Bool)
  | get (out : Option α)
deriving DecidableEq

def sent (l : List (Ret α)) : List α := l.filterMap (fun | .send a true => some a | _ => none)

def got (l : List (Ret α)) : List α := l.filterMap (fun | .get out => out | _ => none)

inductive Call (capacity : Nat) : List α → Ret α → List α → Prop
  | sent {q : List α} {a : α} (h : q.length < capacity) : Call capacity q (.send a true) (q ++ [a])
  | refused {q : List α} {a : α} (h : q.length = capacity) : Call capacity q (.send a false) q
  | asked (q : List α) : Call capacity q (.canSend (canSend capacity q)) q
  | got (q : List α) (a : α) : Call capacity (a :: q) (.get (some a)) q
  | empty : Call capacity [] (.get none) []

inductive Calls (capacity : Nat) : List α → List (Ret α) → List α → Prop
  | nil (q : List α) : Calls capacity q [] q
  | cons {q q' q'' : List α} {r : Ret α} {l : List (Ret α)} (h : Call capacity q r q')
      (hl : Calls capacity q' l q'') : Calls capacity q (r :: l) q''

variable {l l' : List (Ret α)} {r : Ret α} {q'' : List α}

theorem Calls.snoc (h : Calls capacity q l q') (hr : Call capacity q' r q'') : Calls capacity q (l ++ [r]) q'' := by
  induction h with
  | nil q => exact .cons hr (.nil _)
  | cons hfirst _ ih => exact .cons hfirst (ih hr)

theorem Calls.split (h : Calls capacity q (l ++ l') q'') :
    ∃ q', Calls capacity q l q' ∧ Calls capacity q' l' q'' := by
  induction l generalizing q with
  | nil => exact ⟨q, .nil q, h⟩
  | cons r l ih =>
    cases h with
    | cons hr hl =>
      obtain ⟨p, hp, hrest⟩ := ih hl
      exact ⟨p, .cons hr hp, hrest⟩

theorem Calls.conserved (h : Calls capacity q l q') : q ++ sent l = got l ++ q' := by
  induction h with
  | nil q => exact List.append_nil q
  | cons hr _ ih =>
    cases hr with
    | sent _ =>
      rw [List.append_assoc] at ih
      exact ih
    | refused _ => exact ih
    | asked _ => exact ih
    | got q a => exact congrArg (List.cons a) ih
    | empty => exact ih

theorem Calls.promised {a : α} {ok : Bool} (h : Calls capacity q (l ++ .send a ok :: l') q')
    (hroom : q.length < capacity) (hmid : ∀ r ∈ l, ∀ b k, r ≠ .send b k) : ok = true := by
  induction l generalizing q with
  | nil =>
    cases h with
    | cons hr _ =>
      cases hr with
      | sent _ => rfl
      | refused hfull => omega
  | cons r l ih =>
    have hrest : ∀ r ∈ l, ∀ b k, r ≠ .send b k := fun r hr => hmid r (List.mem_cons_of_mem _ hr)
    cases h with
    | cons hr hl =>
      cases hr with
      | sent _ => exact absurd rfl (hmid _ List.mem_cons_self _ _)
      | refused _ => exact absurd rfl (hmid _ List.mem_cons_self _ _)
      | asked _ => exact ih hl hroom hrest
      | got q b => exact ih hl (Nat.lt_of_succ_lt hroom) hrest
      | empty => exact ih hl hroom hrest

end

end GSSquared.Channel
