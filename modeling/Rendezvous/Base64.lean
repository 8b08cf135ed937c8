/-
Rendezvous/Base64.lean

Base64 with the URL-safe alphabet and without padding.

Three octets are four symbols; one or two octets at the end are two or three
symbols whose unused low bits are zero.  Reading accepts that form only, so a
text has at most one meaning and an octet string exactly one text.

A text that is refused is refused for its first fault in a fixed order: a
stray octet at the end of a text of impossible length, a foreign octet before
the last group, then the faults of the last group.
-/

namespace Rendezvous.Base64

/-! ### The alphabet -/

/-- The symbol of a value below 64, as an octet. -/
def symbol (v : Nat) : UInt8 :=
  if v < 26 then UInt8.ofNat (65 + v)
  else if v < 52 then UInt8.ofNat (71 + v)
  else if v < 62 then UInt8.ofNat (v - 4)
  else if v = 62 then 45 else 95

/-- The value of a symbol. -/
def value? (b : UInt8) : Option Nat :=
  let n := b.toNat
  if 65 ≤ n ∧ n ≤ 90 then some (n - 65)
  else if 97 ≤ n ∧ n ≤ 122 then some (n - 71)
  else if 48 ≤ n ∧ n ≤ 57 then some (n + 4)
  else if n = 45 then some 62
  else if n = 95 then some 63
  else none

/-- The octet that pads a text in other dialects. -/
def pad : UInt8 := 61

/-! ### Writing -/

/-- The symbols of an octet string. -/
def encode : List UInt8 → List UInt8
  | a :: b :: c :: rest =>
    symbol (a.toNat / 4)
      :: symbol (a.toNat % 4 * 16 + b.toNat / 16)
      :: symbol (b.toNat % 16 * 4 + c.toNat / 64)
      :: symbol (c.toNat % 64)
      :: encode rest
  | [a, b] =>
    [symbol (a.toNat / 4), symbol (a.toNat % 4 * 16 + b.toNat / 16),
      symbol (b.toNat % 16 * 4)]
  | [a] => [symbol (a.toNat / 4), symbol (a.toNat % 4 * 16)]
  | [] => []

/-- The base64 text of an octet string. -/
def text (l : List UInt8) : String :=
  String.ofList ((encode l).map fun b => Char.ofNat b.toNat)

/-! ### Reading -/

/-- Why a text is not base64. -/
inductive Fault where
  | symbol (octet : UInt8) (offset : Nat)
  | length (n : Nat)
  | lastSymbol (octet : UInt8) (offset : Nat)
  | padding
  deriving DecidableEq, Repr

/-- Wording of a fault. -/
def Fault.message : Fault → String
  | symbol b n => "Invalid symbol " ++ toString b.toNat ++ ", offset " ++ toString n ++ "."
  | length n => "Invalid input length: " ++ toString n
  | lastSymbol b n =>
    "Invalid last symbol " ++ toString b.toNat ++ ", offset " ++ toString n ++ "."
  | padding => "Invalid padding"

/-- The value of the symbol at an offset. -/
def valueAt (offset : Nat) (b : UInt8) : Except Fault Nat :=
  match value? b with
  | some v => .ok v
  | none => .error (.symbol b offset)

/-- What a scan of the last group has found: the values of its symbols, and
the offset of its first padding octet. -/
structure Tail where
  values : List Nat
  padded : Option Nat

/-- Scan the last group, of which `i` octets before `offset` are done. -/
def scanTail (offset i : Nat) (t : Tail) : List UInt8 → Except Fault Tail
  | [] => .ok t
  | b :: rest =>
    if b = pad then
      if i < 2 then .error (.symbol b offset)
      else scanTail (offset + 1) (i + 1) { t with padded := t.padded.or (some offset) } rest
    else match t.padded with
      | some first => .error (.symbol pad first)
      | none => do
        let v ← valueAt offset b
        scanTail (offset + 1) (i + 1) { t with values := t.values ++ [v] } rest

/-- The octets of the last group's values; the unused low bits of its last
symbol, which stands at `offset`, must be zero. -/
def joinTail (last : UInt8) (offset : Nat) : List Nat → Except Fault (List UInt8)
  | [a, b] =>
    if b % 16 = 0 then .ok [UInt8.ofNat (a * 4 + b / 16)]
    else .error (.lastSymbol last offset)
  | [a, b, c] =>
    if c % 4 = 0 then .ok [UInt8.ofNat (a * 4 + b / 16), UInt8.ofNat (b % 16 * 16 + c / 4)]
    else .error (.lastSymbol last offset)
  | [a, b, c, d] =>
    .ok [UInt8.ofNat (a * 4 + b / 16), UInt8.ofNat (b % 16 * 16 + c / 4),
      UInt8.ofNat (c % 4 * 64 + d)]
  | _ => .ok []

/-- Read the last group, which starts at `offset`. -/
def decodeTail (offset : Nat) (group : List UInt8) : Except Fault (List UInt8) := do
  let t ← scanTail offset 0 ⟨[], none⟩ group
  let count := t.values.length
  if count < 2 then .error (.length (offset + count))
  else if t.padded.isSome then .error .padding
  else joinTail ((group.getLast?).getD pad) (offset + count - 1) t.values

/-- Read group after group; `offset` is where the list starts in the text. -/
def decodeFrom (offset : Nat) : List UInt8 → Except Fault (List UInt8)
  | [] => .ok []
  | a :: b :: c :: d :: e :: rest => do
    let va ← valueAt offset a
    let vb ← valueAt (offset + 1) b
    let vc ← valueAt (offset + 2) c
    let vd ← valueAt (offset + 3) d
    let more ← decodeFrom (offset + 4) (e :: rest)
    .ok (UInt8.ofNat (va * 4 + vb / 16) :: UInt8.ofNat (vb % 16 * 16 + vc / 4)
      :: UInt8.ofNat (vc % 4 * 64 + vd) :: more)
  | group => decodeTail offset group

/-- In a text whose length is one more than a multiple of four, the last octet
is looked at first. -/
def strayLast? (l : List UInt8) : Option Fault :=
  match l.getLast? with
  | some b =>
    if l.length % 4 = 1 ∧ b ≠ pad ∧ (value? b).isNone then some (.symbol b (l.length - 1))
    else none
  | none => none

/-- The octets a base64 text stands for. -/
def decode (l : List UInt8) : Except Fault (List UInt8) :=
  match strayLast? l with
  | some f => .error f
  | none => decodeFrom 0 l

end Rendezvous.Base64
