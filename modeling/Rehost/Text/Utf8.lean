import Rehost.Text.Quoted

/-! Texts as bytes in UTF-8. Encoding stops at the first lone halves, which have no bytes; in the name of a file some of
them stand for bytes that are no text. Decoding stops at the first fault and says which bytes can be no part of a text,
the longest stretch that began like a character being one fault. -/
namespace Rehost.Utf8

/-- Lone halves in a text: where the first of a row of them stands, how many there are, and its number. -/
structure Gap where
  position : Nat
  length : Nat
  half : Nat
deriving DecidableEq, Repr

def Gap.message (g : Gap) : Text :=
  let place :=
    if g.length = 1 then
      "character '" ++ Text.numbered g.half ++ "' in position " ++ toString g.position
    else "characters in position " ++ toString g.position ++ "-" ++ toString (g.position + g.length - 1)
  "'utf-8' codec can't encode " ++ place ++ ": surrogates not allowed"

/-- The row of lone halves that begins with the first one that is not kept. -/
def gapFrom (keeps : CodePoint → Bool) (position : Nat) : Text → Option Gap
  | [] => none
  | c :: t =>
    if c.isHalf && !keeps c then some ⟨position, (t.takeWhile CodePoint.isHalf).length + 1, c.number⟩
    else gapFrom keeps (position + 1) t

def gap? (t : Text) : Option Gap := gapFrom (fun _ => false) 0 t

def bytesOf (c : CodePoint) : List UInt8 :=
  let n := c.number
  let more (n : Nat) : UInt8 := .ofNat (0x80 + n % 0x40)
  if n < 0x80 then [.ofNat n]
  else if n < 0x800 then [.ofNat (0xc0 + n / 0x40), more n]
  else if n < 0x10000 then [.ofNat (0xe0 + n / 0x1000), more (n / 0x40), more n]
  else [.ofNat (0xf0 + n / 0x40000), more (n / 0x1000), more (n / 0x40), more n]

def bytes (t : Text) : List UInt8 := t.flatMap bytesOf

def encode (t : Text) : Except Gap (List UInt8) :=
  match gap? t with
  | none => .ok (bytes t)
  | some g => .error g

inductive Flaw where
  /-- The first byte begins no character. -/
  | start
  /-- A byte follows that cannot continue the character. -/
  | continuation
  /-- The bytes end inside a character. -/
  | truncated
deriving DecidableEq, Repr

def Flaw.reason : Flaw → Text
  | start => "invalid start byte"
  | continuation => "invalid continuation byte"
  | truncated => "unexpected end of data"

structure Fault where
  flaw : Flaw
  position : Nat
  /-- How many bytes the fault spans. -/
  length : Nat
  byte : UInt8
deriving DecidableEq, Repr

def Fault.message (f : Fault) : Text :=
  let place :=
    if f.length = 1 then
      "byte 0x" ++ Text.hex 2 f.byte.toNat ++ " in position " ++ toString f.position
    else "bytes in position " ++ toString f.position ++ "-" ++ toString (f.position + f.length - 1)
  "'utf-8' codec can't decode " ++ place ++ ": " ++ f.flaw.reason

/-- How many bytes follow the first byte of a character, and between which bounds the second one lies. -/
def follow? (b : Nat) : Option (Nat × Nat × Nat) :=
  if b < 0x80 then some (0, 0x80, 0xbf)
  else if b < 0xc2 then none
  else if b < 0xe0 then some (1, 0x80, 0xbf)
  else if b = 0xe0 then some (2, 0xa0, 0xbf)
  else if b = 0xed then some (2, 0x80, 0x9f)
  else if b < 0xf0 then some (2, 0x80, 0xbf)
  else if b = 0xf0 then some (3, 0x90, 0xbf)
  else if b < 0xf4 then some (3, 0x80, 0xbf)
  else if b = 0xf4 then some (3, 0x80, 0x8f)
  else none

def leadBits (b more : Nat) : Nat :=
  match more with
  | 0 => b
  | 1 => b % 0x20
  | 2 => b % 0x10
  | _ => b % 0x08

/-- Reads `more` bytes of a character of which `seen` are read, the next one between `low` and `high`. -/
def continued (seen : Nat) : (more low high code : Nat) → List UInt8 → Except (Flaw × Nat) CodePoint
  | 0, _, _, code, _ => .ok (.ofNat code)
  | _ + 1, _, _, _, [] => .error (.truncated, seen)
  | more + 1, low, high, code, b :: rest =>
    if low ≤ b.toNat && b.toNat ≤ high then
      continued (seen + 1) more 0x80 0xbf (code * 0x40 + b.toNat % 0x40) rest
    else .error (.continuation, seen)

/-- Decodes from `position` on, where `skip` bytes belong to the character before. -/
def decodeFrom : (skip position : Nat) → List UInt8 → Except Fault Text
  | _, _, [] => .ok []
  | skip + 1, position, _ :: rest => decodeFrom skip (position + 1) rest
  | 0, position, b :: rest =>
    match follow? b.toNat with
    | none => .error ⟨.start, position, 1, b⟩
    | some (more, low, high) =>
      match continued 1 more low high (leadBits b.toNat more) rest with
      | .ok c => (decodeFrom more (position + 1) rest).map (c :: ·)
      | .error (flaw, length) => .error ⟨flaw, position, length, b⟩

def decode (bytes : List UInt8) : Except Fault Text := decodeFrom 0 0 bytes

/-! The names of files: any bytes but a few. Those that are no text stand in it as halves. -/

/-- The row of lone halves that begins with the first one that stands for no byte. -/
def nameGap? (name : Text) : Option Gap := gapFrom CodePoint.isByteHalf 0 name

def nameBytes (name : Text) : List UInt8 :=
  name.flatMap fun c => if c.isByteHalf then [.ofNat (c.number - 0xdc00)] else bytesOf c

def nameFrom : (skip : Nat) → List UInt8 → Text
  | _, [] => []
  | skip + 1, _ :: rest => nameFrom skip rest
  | 0, b :: rest =>
    let read := (follow? b.toNat).bind fun (more, low, high) =>
      (continued 1 more low high (leadBits b.toNat more) rest).toOption.map fun c => (more, c)
    match read with
    | some (more, c) => c :: nameFrom more rest
    | none => .ofNat (0xdc00 + b.toNat) :: nameFrom 0 rest

def nameText (bytes : List UInt8) : Text := nameFrom 0 bytes

end Rehost.Utf8
