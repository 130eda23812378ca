/-
The ten digits of the clock's time counter, and the calendar that they count.
-/
import GSSquared.Lib.Bits
import Mathlib.Data.Nat.Digits.Lemmas

set_option linter.all false

namespace GSSquared.Thunderclock

def digit (t : BitVec 40) (k : Nat) : Nat := t.toNat / 16 ^ k % 16

def pack (ds : List Nat) : BitVec 40 := BitVec.ofNat 40 (Nat.ofDigits 16 (ds.map (· % 16)))

def daysInMonth (month : Nat) : Nat := [31, 28, 31, 30, 31, 30, 31, 31, 30, 31, 30, 31].getD (month - 1) 31

def incrementTimeCounter (t : BitVec 40) : BitVec 40 :=
  let d := digit t
  if d 0 + 1 ≤ 9 then pack [d 0 + 1, d 1, d 2, d 3, d 4, d 5, d 6, d 7, d 8, d 9]
  else if d 1 + 1 ≤ 5 then pack [0, d 1 + 1, d 2, d 3, d 4, d 5, d 6, d 7, d 8, d 9]
  else if d 2 + 1 ≤ 9 then pack [0, 0, d 2 + 1, d 3, d 4, d 5, d 6, d 7, d 8, d 9]
  else if d 3 + 1 ≤ 5 then pack [0, 0, 0, d 3 + 1, d 4, d 5, d 6, d 7, d 8, d 9]
  else
    let hour := d 5 * 10 + d 4 + 1
    if hour < 24 then pack [0, 0, 0, 0, hour % 10, hour / 10, d 6, d 7, d 8, d 9]
    else
      let date := d 7 * 10 + d 6 + 1
      let month := d 9
      if daysInMonth month < date then
        pack [0, 0, 0, 0, 0, 0, 1, 0, (d 8 + 1) % 7, if 12 < month + 1 then 1 else month + 1]
      else pack [0, 0, 0, 0, 0, 0, date % 10, date / 10, (d 8 + 1) % 7, month]

theorem digit_ofDigits : ∀ (ds : List Nat), (∀ d ∈ ds, d < 16) → ∀ k, Nat.ofDigits 16 ds / 16 ^ k % 16 = ds.getD k 0 := by
  intro ds
  induction ds with
  | nil => exact fun _ k => by rw [Nat.ofDigits_nil, Nat.zero_div]; rfl
  | cons d ds ih =>
    intro h k
    have hd := h d List.mem_cons_self
    rw [Nat.ofDigits_cons]
    cases k with
    | zero =>
      show (d + 16 * Nat.ofDigits 16 ds) / 16 ^ 0 % 16 = d
      omega
    | succ k =>
      have hrest : (d + 16 * Nat.ofDigits 16 ds) / 16 = Nat.ofDigits 16 ds := by omega
      rw [Nat.pow_succ', ← Nat.div_div_eq_div_mul, hrest]
      exact ih (fun x hx => h x (List.mem_cons_of_mem d hx)) k

theorem digit_pack {ds : List Nat} (hlen : ds.length = 10) (h : ∀ d ∈ ds, d < 16) (k : Nat) : digit (pack ds) k = ds.getD k 0 := by
  have hkeep : ds.map (· % 16) = ds := by
    conv_rhs => rw [← List.map_id ds]
    exact List.map_congr_left fun d hd => Nat.mod_eq_of_lt (h d hd)
  have hlt : Nat.ofDigits 16 ds < 16 ^ 10 := hlen ▸ Nat.ofDigits_lt_base_pow_length (by decide) h
  have hmod : Nat.ofDigits 16 ds % 2 ^ 40 = Nat.ofDigits 16 ds := Nat.mod_eq_of_lt (by omega)
  unfold digit pack
  rw [hkeep, BitVec.toNat_ofNat, hmod, digit_ofDigits ds h]

structure Time where
  month : Nat
  weekday : Nat
  date : Nat
  hour : Nat
  minute : Nat
  second : Nat

namespace Time

structure Valid (v : Time) : Prop where
  month : 1 ≤ v.month ∧ v.month ≤ 12
  weekday : v.weekday < 7
  date : 1 ≤ v.date ∧ v.date ≤ daysInMonth v.month
  hour : v.hour < 24
  minute : v.minute < 60
  second : v.second < 60

def digits (v : Time) : List Nat :=
  [v.second % 10, v.second / 10, v.minute % 10, v.minute / 10, v.hour % 10, v.hour / 10, v.date % 10, v.date / 10,
    v.weekday, v.month]

def encode (v : Time) : BitVec 40 := pack v.digits

def daySecond (v : Time) : Nat := (v.hour * 60 + v.minute) * 60 + v.second

def daysBefore (month : Nat) : Nat := ((List.range (month - 1)).map fun m => daysInMonth (m + 1)).sum

def yearSecond (v : Time) : Nat := (daysBefore v.month + (v.date - 1)) * 86400 + v.daySecond

/-- `w` is `n` seconds after `v` in years of 365 days. -/
structure Advanced (v : Time) (n : Nat) (w : Time) : Prop where
  valid : w.Valid
  inYear : w.yearSecond = (v.yearSecond + n) % (365 * 86400)
  weekday : w.weekday = (v.weekday + (v.daySecond + n) / 86400) % 7

variable {v w : Time}

theorem encode_of_digits {ds : List Nat} (h : ds = v.digits) : pack ds = v.encode := congrArg pack h

theorem daysInMonth_le {month : Nat} (h : 1 ≤ month ∧ month ≤ 12) : daysInMonth month ≤ 31 := by
  have hall : ∀ m < 13, daysInMonth m ≤ 31 := by decide
  exact hall month (by omega)

theorem daysBefore_next {month : Nat} (h : 1 ≤ month ∧ month ≤ 12) :
    daysBefore month + daysInMonth month = if month = 12 then 365 else daysBefore (month + 1) := by
  have hall : ∀ m < 13, 1 ≤ m → daysBefore m + daysInMonth m = if m = 12 then 365 else daysBefore (m + 1) := by decide
  exact hall month (by omega) h.1

theorem daysBefore_lt {month : Nat} (h : 1 ≤ month ∧ month ≤ 12) : daysBefore month < 365 := by
  have hall : ∀ m < 13, daysBefore m < 365 := by decide
  exact hall month (by omega)

theorem daysBefore_days {month : Nat} (h : 1 ≤ month ∧ month ≤ 12) : daysBefore month + daysInMonth month ≤ 365 := by
  have hall : ∀ m < 13, daysBefore m + daysInMonth m ≤ 365 := by decide
  exact hall month (by omega)

theorem Valid.digit (h : v.Valid) (k : Nat) : Thunderclock.digit v.encode k = v.digits.getD k 0 := by
  have hdate := h.date
  have hdays := daysInMonth_le h.month
  obtain ⟨hmonth, hweekday, -, hhour, hminute, hsecond⟩ := h
  refine digit_pack rfl ?_ k
  simp only [digits, List.forall_mem_cons, List.not_mem_nil, false_implies, implies_true, and_true]
  omega

theorem Advanced.daySecond {n : Nat} (h : v.Advanced n w) : w.daySecond = (v.daySecond + n) % 86400 ∧ w.daySecond < 86400 := by
  have hyear := h.inYear
  obtain ⟨-, -, -, hhour, hminute, hsecond⟩ := h.valid
  unfold yearSecond Time.daySecond at *
  omega

theorem Advanced.within {n : Nat} (h : v.Advanced n w) {w' : Time} (hvalid : w'.Valid) (hmonth : w'.month = w.month)
    (hdate : w'.date = w.date) (hweekday : w'.weekday = w.weekday) (hnext : w'.daySecond = w.daySecond + 1)
    (hday : w.daySecond < 86399) : v.Advanced (n + 1) w' := by
  have hyear := h.inYear
  have hweek := h.weekday
  have hsecond := h.daySecond.1
  refine ⟨hvalid, ?_, ?_⟩
  · unfold yearSecond at hyear ⊢
    rw [hmonth, hdate, hnext]
    omega
  · rw [hweekday, hweek]
    omega

theorem Advanced.midnight {n : Nat} (h : v.Advanced n w) {w' : Time} (hvalid : w'.Valid) (hday : w.daySecond = 86399)
    (hstart : w'.daySecond = 0) (hweekday : w'.weekday = (w.weekday + 1) % 7)
    (hdate : daysBefore w'.month + (w'.date - 1) = (daysBefore w.month + (w.date - 1) + 1) % 365) : v.Advanced (n + 1) w' := by
  have hweek := h.weekday
  have hsecond := h.daySecond.1
  refine ⟨hvalid, ?_, ?_⟩
  · have hturn : w.yearSecond + 1 = (daysBefore w.month + (w.date - 1) + 1) * 86400 := by
      unfold yearSecond
      rw [hday, Nat.add_mul _ 1, Nat.add_assoc]
    calc w'.yearSecond = (daysBefore w.month + (w.date - 1) + 1) % 365 * 86400 := by
          unfold yearSecond
          rw [hdate, hstart, Nat.add_zero]
      _ = (w.yearSecond + 1) % (365 * 86400) := by rw [hturn, Nat.mul_mod_mul_right]
      _ = (v.yearSecond + (n + 1)) % (365 * 86400) := by rw [h.inYear, Nat.mod_add_mod, Nat.add_assoc]
  · rw [hweekday, hweek]
    omega

theorem Advanced.next {n : Nat} (h : v.Advanced n w) : ∃ w', incrementTimeCounter w.encode = w'.encode ∧ v.Advanced (n + 1) w' := by
  have hdigit := h.valid.digit
  have hmonth := h.valid.month
  have hdate := h.valid.date
  have hdays := daysInMonth_le hmonth
  have hmonths := daysBefore_next hmonth
  have hhour := h.valid.hour
  have hminute := h.valid.minute
  have hsecond := h.valid.second
  have h0 : digit w.encode 0 = w.second % 10 := hdigit 0
  have h1 : digit w.encode 1 = w.second / 10 := hdigit 1
  have h2 : digit w.encode 2 = w.minute % 10 := hdigit 2
  have h3 : digit w.encode 3 = w.minute / 10 := hdigit 3
  have h4 : digit w.encode 4 = w.hour % 10 := hdigit 4
  have h5 : digit w.encode 5 = w.hour / 10 := hdigit 5
  have h6 : digit w.encode 6 = w.date % 10 := hdigit 6
  have h7 : digit w.encode 7 = w.date / 10 := hdigit 7
  have h8 : digit w.encode 8 = w.weekday := hdigit 8
  have h9 : digit w.encode 9 = w.month := hdigit 9
  have hclock : ∀ hour minute second : Nat, hour < 24 → minute < 60 → second < 60 →
      Valid { w with hour := hour, minute := minute, second := second } :=
    fun hour minute second hhour hminute hsecond => ⟨hmonth, h.valid.weekday, hdate, hhour, hminute, hsecond⟩
  unfold incrementTimeCounter
  dsimp only
  rw [h0, h1, h2, h3, h4, h5, h6, h7, h8, h9]
  by_cases hs : w.second < 59
  · refine ⟨{ w with second := w.second + 1 }, ?_, h.within (hclock _ _ _ hhour hminute (by omega)) rfl rfl rfl ?_ ?_⟩
    · split
      · exact encode_of_digits (by simp only [digits, List.cons.injEq, and_true]; omega)
      · rw [if_pos (by omega)]
        exact encode_of_digits (by simp only [digits, List.cons.injEq, and_true]; omega)
    · unfold Time.daySecond; dsimp only; omega
    · unfold Time.daySecond; omega
  rw [if_neg (by omega), if_neg (by omega)]
  by_cases hm : w.minute < 59
  · refine ⟨{ w with minute := w.minute + 1, second := 0 }, ?_,
      h.within (hclock _ _ _ hhour (by omega) (by omega)) rfl rfl rfl ?_ ?_⟩
    · split
      · exact encode_of_digits (by simp only [digits, List.cons.injEq, and_true, true_and]; omega)
      · rw [if_pos (by omega)]
        exact encode_of_digits (by simp only [digits, List.cons.injEq, and_true, true_and]; omega)
    · unfold Time.daySecond; dsimp only; omega
    · unfold Time.daySecond; omega
  rw [if_neg (by omega), if_neg (by omega)]
  by_cases hh : w.hour < 23
  · refine ⟨{ w with hour := w.hour + 1, minute := 0, second := 0 }, ?_,
      h.within (hclock _ _ _ (by omega) (by omega) (by omega)) rfl rfl rfl ?_ ?_⟩
    · rw [if_pos (by omega)]
      exact encode_of_digits (by simp only [digits, List.cons.injEq, and_true, true_and]; omega)
    · unfold Time.daySecond; dsimp only; omega
    · unfold Time.daySecond; omega
  have hlast : w.daySecond = 86399 := by unfold Time.daySecond; omega
  have hweek : (w.weekday + 1) % 7 < 7 := Nat.mod_lt _ (by omega)
  have hcount : w.date / 10 * 10 + w.date % 10 = w.date := by omega
  rw [if_neg (by omega), hcount]
  split
  · next hend =>
    have hfirst : 1 ≤ 1 ∧ 1 ≤ daysInMonth (if 12 < w.month + 1 then 1 else w.month + 1) := by
      have hall : ∀ m < 14, 1 ≤ daysInMonth m := by decide
      exact ⟨le_refl 1, hall _ (by split <;> omega)⟩
    refine ⟨⟨if 12 < w.month + 1 then 1 else w.month + 1, (w.weekday + 1) % 7, 1, 0, 0, 0⟩, encode_of_digits (by simp only [digits]),
      h.midnight ⟨?_, hweek, hfirst, Nat.succ_pos 23, Nat.succ_pos 59, Nat.succ_pos 59⟩ hlast rfl rfl ?_⟩
    · dsimp only
      split <;> omega
    · have hdays : daysBefore w.month + (w.date - 1) + 1 = daysBefore w.month + daysInMonth w.month := by omega
      rw [hdays, hmonths]
      dsimp only
      by_cases hyear : w.month = 12
      · rw [if_pos hyear, if_pos (by omega)]
        rfl
      · rw [if_neg hyear, if_neg (by omega)]
        exact (Nat.mod_eq_of_lt (daysBefore_lt ⟨by omega, by omega⟩)).symm
  · next hwithin =>
    refine ⟨⟨w.month, (w.weekday + 1) % 7, w.date + 1, 0, 0, 0⟩, encode_of_digits (by simp only [digits]),
      h.midnight ⟨hmonth, hweek, ⟨by dsimp only; omega, by dsimp only; omega⟩, Nat.succ_pos 23, Nat.succ_pos 59, Nat.succ_pos 59⟩ hlast rfl rfl ?_⟩
    have hyear := daysBefore_days hmonth
    dsimp only
    omega

end Time

end GSSquared.Thunderclock
