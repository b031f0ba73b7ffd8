/-!
Reading bytes as text. Bytes that belong to no character are replaced: one mark stands for each
longest run of bytes that could still have become a character.
-/
namespace LineCalc.Text.Utf8

def replacement : Char := '\ufffd'

/-- What the bytes since the last character promise. -/
inductive State where
  | idle
  /-- The next byte has to lie from `lowest` to `highest`, and `further` more have to follow;
      `value` is the part of the code point already known. -/
  | awaiting (value lowest highest further : Nat)
  deriving DecidableEq, Repr

/-- The first byte of a character. The bounds on its second byte leave out overlong forms,
    surrogates, and code points past the last one. -/
def start (byte : Nat) : List Char × State :=
  if byte < 0x80 then ([Char.ofNat byte], .idle)
  else if 0xc2 ≤ byte ∧ byte ≤ 0xdf then ([], .awaiting (byte - 0xc0) 0x80 0xbf 0)
  else if byte = 0xe0 then ([], .awaiting 0 0xa0 0xbf 1)
  else if byte = 0xed then ([], .awaiting 0xd 0x80 0x9f 1)
  else if 0xe1 ≤ byte ∧ byte ≤ 0xef then ([], .awaiting (byte - 0xe0) 0x80 0xbf 1)
  else if byte = 0xf0 then ([], .awaiting 0 0x90 0xbf 2)
  else if 0xf1 ≤ byte ∧ byte ≤ 0xf3 then ([], .awaiting (byte - 0xf0) 0x80 0xbf 2)
  else if byte = 0xf4 then ([], .awaiting 4 0x80 0x8f 2)
  else ([replacement], .idle)

/-- A byte that breaks a promise starts anew, after a mark for the bytes before it. -/
def step : State → Nat → List Char × State
  | .idle, byte => start byte
  | .awaiting value lowest highest further, byte =>
    if lowest ≤ byte ∧ byte ≤ highest then
      let value := value * 64 + (byte - 0x80)
      match further with
      | 0 => ([Char.ofNat value], .idle)
      | further + 1 => ([], .awaiting value 0x80 0xbf further)
    else
      let (characters, state) := start byte
      (replacement :: characters, state)

def decodeFrom : State → List UInt8 → List Char
  | .idle, [] => []
  | .awaiting .., [] => [replacement]
  | state, byte :: bytes =>
    let (characters, state) := step state byte.toNat
    characters ++ decodeFrom state bytes

def decode (bytes : List UInt8) : List Char := decodeFrom .idle bytes

def encode (text : String) : List UInt8 := text.toUTF8.toList

end LineCalc.Text.Utf8
