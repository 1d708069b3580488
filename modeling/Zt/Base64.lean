import Mathlib.Data.List.Basic

namespace Zt.Base64

def digit (c : Char) : Option Nat :=
  if c.isUpper then some (c.toNat - 65)
  else if c.isLower then some (c.toNat - 71)
  else if c.isDigit then some (c.toNat + 4)
  else if c = '+' then some 62
  else if c = '/' then some 63
  else none

def bytesOf (w x y z : Nat) : List UInt8 :=
  let v := ((w * 64 + x) * 64 + y) * 64 + z
  [UInt8.ofNat (v / 65536), UInt8.ofNat (v / 256), UInt8.ofNat v]

/-- The bytes of four characters, and whether they are padded. -/
def quantum (a b c d : Char) : Option (List UInt8 × Bool) :=
  match digit a, digit b, digit c, digit d with
  | some w, some x, some y, some z => some (bytesOf w x y z, false)
  | some w, some x, some y, none => if d = '=' then some ((bytesOf w x y 0).take 2, true) else none
  | some w, some x, none, _ => if c = '=' ∧ d = '=' then some ((bytesOf w x 0 0).take 1, true) else none
  | _, _, _, _ => none

inductive Decoded
  | panicked
  | corrupt
  | ok (bytes : List UInt8)
  deriving DecidableEq

def Decoded.after (bytes : List UInt8) : Decoded → Decoded
  | .ok rest => .ok (bytes ++ rest)
  | d => d

/-- Each quantum is written where there is room for it and is a panic where there
is not, before what follows it is looked at. -/
def decodeQuanta (room : Nat) : List Char → Decoded
  | [] => .ok []
  | a :: b :: c :: d :: rest =>
    match quantum a b c d with
    | none => .corrupt
    | some (bytes, padded) =>
      if room < bytes.length then .panicked
      else if padded then (if rest = [] then .ok bytes else .corrupt)
      else (decodeQuanta (room - bytes.length) rest).after bytes
  | _ => .corrupt

def significant (text : String) : List Char := text.toList.filter (fun c => decide (c ≠ '\n' ∧ c ≠ '\r'))

/-- Decode into a destination with room for so many bytes. -/
def decode (room : Nat) (text : String) : Decoded := decodeQuanta room (significant text)

def Decodes (text : String) (bytes : List UInt8) : Prop := ∃ room, decode room text = .ok bytes

variable {bytes : List UInt8} {text : String}

theorem decodeQuanta_mono {room room' : Nat} (hle : room ≤ room') {cs : List Char}
    (h : decodeQuanta room cs ≠ .panicked) : decodeQuanta room' cs = decodeQuanta room cs := by
  induction room, cs using decodeQuanta.induct generalizing room' with
  | case1 room => rfl
  | case2 room a b c d rest hq => simp [decodeQuanta, hq]
  | case3 room a b c d rest bytes padded hq hroom => simp [decodeQuanta, hq, hroom] at h
  | case4 room a b c d bytes hroom hq =>
    simp [decodeQuanta, hq, hroom, mt (Nat.lt_of_le_of_lt hle) hroom]
  | case5 room a b c d rest bytes hroom hrest hq =>
    simp [decodeQuanta, hq, hroom, mt (Nat.lt_of_le_of_lt hle) hroom]
  | case6 room a b c d rest bytes padded hq hroom hpad ih =>
    simp only [decodeQuanta, hq, if_neg hroom, if_neg (mt (Nat.lt_of_le_of_lt hle) hroom), if_neg hpad] at h ⊢
    have hrest : decodeQuanta (room - bytes.length) rest ≠ .panicked := fun hp => h (by rw [hp]; rfl)
    rw [ih (Nat.sub_le_sub_right hle _) hrest]
  | case7 cs room hnil hfour =>
    match cs with
    | [] => exact absurd rfl hnil
    | [_] | [_, _] | [_, _, _] => rfl
    | a :: b :: c :: d :: rest => exact absurd rfl (hfour a b c d rest)

theorem Decodes.of_decode {room : Nat} (h : Decodes text bytes)
    (hp : decode room text ≠ .panicked) : decode room text = .ok bytes := by
  obtain ⟨room', h⟩ := h
  rcases Nat.le_total room room' with hle | hle
  · rw [← h]
    exact (decodeQuanta_mono hle hp).symm
  · rw [← h]
    exact decodeQuanta_mono hle (by rw [← decode, h]; exact Decoded.noConfusion)

end Zt.Base64
