/-!
# Decoding UTF-8

`decode` reads bytes as UTF-8 text or says what is wrong with them: where the first faulty
sequence starts, and how many of its bytes are the longest beginning of a character, or that the
bytes end inside a character.
-/

namespace Milepost.Text.Utf8

/-- Why bytes are no UTF-8 text. -/
inductive Fault
  /-- A sequence of `length` bytes at `index` starts no character. -/
  | invalid (index length : Nat)
  /-- The bytes from `index` on start a character and end inside it. -/
  | incomplete (index : Nat)
deriving DecidableEq, Repr

/-- The wording of a fault. -/
def Fault.message : Fault → String
  | .invalid index length =>
    "invalid utf-8 sequence of " ++ toString length ++ " bytes from index " ++ toString index
  | .incomplete index => "incomplete utf-8 byte sequence from index " ++ toString index

/-- What the bytes allow after a leading byte: the range of the second byte, and how many
continuation bytes there are. -/
def lead (b : UInt8) : Option (Nat × Nat × Nat) :=
  let n := b.toNat
  if 0xC2 ≤ n ∧ n ≤ 0xDF then some (1, 0x80, 0xBF)
  else if n = 0xE0 then some (2, 0xA0, 0xBF)
  else if n = 0xED then some (2, 0x80, 0x9F)
  else if 0xE1 ≤ n ∧ n ≤ 0xEF then some (2, 0x80, 0xBF)
  else if n = 0xF0 then some (3, 0x90, 0xBF)
  else if 0xF1 ≤ n ∧ n ≤ 0xF3 then some (3, 0x80, 0xBF)
  else if n = 0xF4 then some (3, 0x80, 0x8F)
  else none

/-- What the beginning of the bytes is. -/
inductive Head
  /-- A character of `length` bytes. -/
  | character (c : Char) (length : Nat)
  /-- `length` bytes that start no character. -/
  | bad (length : Nat)
  /-- A character that the bytes do not finish. -/
  | cut

/-- Reads `count` further continuation bytes, of which the next lies between `lo` and `hi`, into
the number `acc`; `done` bytes are read already. -/
def continuation : (count lo hi acc done : Nat) → List UInt8 → Head
  | 0, _, _, acc, done, _ => .character (Char.ofNat acc) done
  | _ + 1, _, _, _, _, [] => .cut
  | count + 1, lo, hi, acc, done, b :: rest =>
    if lo ≤ b.toNat ∧ b.toNat ≤ hi then
      continuation count 0x80 0xBF (acc * 64 + b.toNat % 64) (done + 1) rest
    else .bad done

/-- What the bytes `b :: rest` begin with. -/
def head (b : UInt8) (rest : List UInt8) : Head :=
  if b.toNat < 0x80 then .character (Char.ofNat b.toNat) 1
  else match lead b with
    | none => .bad 1
    | some (count, lo, hi) => continuation count lo hi (b.toNat % Nat.pow 2 (6 - count)) 1 rest

/-- Decodes the bytes from position `index` on, after the characters `done`, last one first. Every
round takes at least one of the `fuel` bytes that are left. -/
def decodeFrom : (fuel index : Nat) → (done : List Char) → List UInt8 → Except Fault (List Char)
  | _, _, done, [] => .ok done.reverse
  | 0, index, _, _ :: _ => .error (.incomplete index)
  | fuel + 1, index, done, b :: rest =>
    match head b rest with
    | .bad length => .error (.invalid index length)
    | .cut => .error (.incomplete index)
    | .character c length =>
      decodeFrom fuel (index + length) (c :: done) ((b :: rest).drop length)

/-- The text of the bytes, or the first fault in them. -/
def decode (bytes : List UInt8) : Except Fault String :=
  (decodeFrom bytes.length 0 [] bytes).map String.ofList

end Milepost.Text.Utf8
