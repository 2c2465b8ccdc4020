/-! Digits and byte literals. -/

namespace NodeAtlas.Text

def hexDigit? (c : Char) : Option Nat :=
  if '0' ≤ c ∧ c ≤ '9' then some (c.toNat - '0'.toNat)
  else if 'a' ≤ c ∧ c ≤ 'f' then some (c.toNat - 'a'.toNat + 10)
  else if 'A' ≤ c ∧ c ≤ 'F' then some (c.toNat - 'A'.toNat + 10)
  else none

/-- The value of a non-empty digit sequence in a base. -/
def readDigits? (base : Nat) (digit? : Char → Option Nat) (s : List Char) : Option Nat :=
  if s = [] then none
  else s.foldlM (fun n c => (digit? c).map (base * n + ·)) 0

def byte? (n : Nat) : Option UInt8 := if n < 256 then some (UInt8.ofNat n) else none

def decimalDigit? (c : Char) : Option Nat :=
  if '0' ≤ c ∧ c ≤ '9' then some (c.toNat - '0'.toNat) else none

/-- Hexadecimal digits, which a plus sign may precede. -/
def hexByte? (s : List Char) : Option UInt8 :=
  let digits := match s with
    | '+' :: rest => rest
    | _ => s
  (readDigits? 16 hexDigit? digits).bind byte?

/-- A byte in decimal, or in hexadecimal after `0x` or `0X`. -/
def byteLiteral? : List Char → Option UInt8
  | '0' :: 'x' :: rest => hexByte? rest
  | '0' :: 'X' :: rest => hexByte? rest
  | s => (readDigits? 10 decimalDigit? s).bind byte?

/-- A number below 16 as a lower-case digit. -/
def hexChar (n : Nat) : Char :=
  if n < 10 then Char.ofNat ('0'.toNat + n) else Char.ofNat ('a'.toNat + (n - 10))

/-- Exactly `width` lower-case hexadecimal digits. -/
def hexPadded : Nat → Nat → List Char
  | 0, _ => []
  | width + 1, n => hexPadded width (n / 16) ++ [hexChar (n % 16)]

end NodeAtlas.Text
