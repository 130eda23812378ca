/-
The data of a telnet stream.
-/
import GSSquared.Lib.Bits

set_option linter.all false

namespace GSSquared.Telnet

open Bits

inductive Place where
  | data | command | option | sub | subCommand
deriving DecidableEq

def step (p : Place) (b : Byte) : Place × Option Byte :=
  match p with
  | .data => if b = 255 then (.command, none) else (.data, some b)
  | .command =>
    if b = 255 then (.data, some b)
    else if 251 ≤ b.toNat then (.option, none)
    else if b = 250 then (.sub, none)
    else (.data, none)
  | .option => (.data, none)
  | .sub => if b = 255 then (.subCommand, none) else (.sub, none)
  | .subCommand => if b = 240 then (.data, none) else (.sub, none)

def place : Place → List Byte → Place
  | p, [] => p
  | p, b :: bs => place (step p b).1 bs

def payload : Place → List Byte → List Byte
  | _, [] => []
  | p, b :: bs => (step p b).2.toList ++ payload (step p b).1 bs

section

variable (p : Place) (bs cs : List Byte)

theorem place_append : place p (bs ++ cs) = place (place p bs) cs := by
  induction bs generalizing p with
  | nil => rfl
  | cons b bs ih => exact ih (step p b).1

theorem payload_append : payload p (bs ++ cs) = payload p bs ++ payload (place p bs) cs := by
  induction bs generalizing p with
  | nil => rfl
  | cons b bs ih =>
    rw [List.cons_append, payload, payload, ih, List.append_assoc]
    rfl

end

def quoted (b : Byte) : List Byte := if b = 255 then [255, 255] else [b]

theorem place_quoted (b : Byte) : place .data (quoted b) = .data := by
  unfold quoted
  split
  · rfl
  · next hb =>
    show (step .data b).1 = .data
    unfold step
    rw [if_neg hb]

theorem payload_quoted (b : Byte) : payload .data (quoted b) = [b] := by
  unfold quoted
  split
  · next hb =>
    rw [hb]
    rfl
  · next hb =>
    show (step .data b).2.toList ++ [] = [b]
    unfold step
    rw [if_neg hb]
    rfl

end GSSquared.Telnet
