import Rehost.Text.Digit
import Rehost.Yaml.Fault
import Rehost.Yaml.Time

/-! What scalars mean. A plain scalar shows by its form what kind of value it is; a scalar with a tag is taken for the
kind that the tag names, and may then turn out to be no value of that kind. -/
namespace Rehost.Yaml

inductive Kind where
  | null
  | truth
  | integer
  | float
  | time
  | binary
  | text
  /-- The mark that merges other mappings into one. -/
  | merge
  /-- The mark for the value that a mapping stands for. -/
  | default
  /-- The mark of an anchor, an alias or a tag where a value should be. -/
  | reserved
deriving DecidableEq, Repr

namespace Scalar

def isMark : Kind → Bool
  | .merge | .default | .reserved => true
  | _ => false

def isTruth (t : Text) : Bool :=
  let words : List Text :=
    ["yes", "Yes", "YES", "no", "No", "NO", "true", "True", "TRUE", "false", "False", "FALSE", "on", "On", "ON", "off",
      "Off", "OFF"]
  words.contains t

def isNull (t : Text) : Bool := (["", "~", "null", "Null", "NULL"] : List Text).contains t

def dropSign : Text → Text
  | c :: t => if c = '+' || c = '-' then t else c :: t
  | [] => []

/-- A digit, then digits and low lines. -/
def isRun : Text → Bool
  | c :: t => c.isDigit && t.all fun c => c.isDigit || c = '_'
  | [] => false

def isLoose (t : Text) : Bool := t.all fun c => c.isDigit || c = '_'

def isSixtieth : Text → Bool
  | [a] => a.isDigit
  | [a, b] => '0' ≤ a && a ≤ '5' && b.isDigit
  | _ => false

def digitValue (c : CodePoint) : Nat :=
  if c.isDigit then c.number - 48
  else if 'a' ≤ c && c ≤ 'z' then c.number - 87
  else if 'A' ≤ c && c ≤ 'Z' then c.number - 55
  else 99

/-- The base that the front of a number shows, and its digits. A number to the base eight begins with one of them. -/
def base? (t : Text) : Option (Nat × Text) :=
  match Text.past? "0b" t, Text.past? "0x" t with
  | some digits, _ => some (2, digits)
  | none, some digits => some (16, digits)
  | none, none => if t.head?.any (·.is '0') then some (8, t) else none

def isInteger (t : Text) : Bool :=
  let t := dropSign t
  match base? t with
  | some (base, digits) => !digits.isEmpty && digits.all fun c => digitValue c < base || c = '_'
  | none =>
    match Text.splitAt ':' t with
    | first :: rest => isRun first && rest.all isSixtieth
    | [] => false

def isExponent : Text → Bool
  | [] => true
  | e :: s :: r => (e = 'e' || e = 'E') && (s = '+' || s = '-') && !r.isEmpty && r.all CodePoint.isDigit
  | _ => false

def isFraction (t : Text) : Bool := isExponent (t.dropWhile fun c => c.isDigit || c = '_')

def isFloat (t : Text) : Bool :=
  let unsigned := dropSign t
  if unsigned = ".inf" || unsigned = ".Inf" || unsigned = ".INF" then true
  else if t = ".nan" || t = ".NaN" || t = ".NAN" then true
  else
    match Text.before? "." unsigned with
    | none => false
    | some [] => t.head? = some '.' && isRun ((t.drop 1).take 1) && isFraction (t.drop 1)
    | some whole =>
      let fraction := unsigned.drop (whole.length + 1)
      match Text.splitAt ':' whole with
      | [first] => isRun first && isFraction fraction
      | first :: rest => isRun first && rest.all isSixtieth && isLoose fraction
      | [] => false

/-- The kind that the form of a scalar shows. A line feed at the end does not count, unless it is all there is. -/
def kindOf (t : Text) : Kind :=
  let line := if t = "\n" then t else Text.dropLineEnd t
  if isTruth line then .truth
  else if isFloat line then .float
  else if isInteger line then .integer
  else if line = "<<" then .merge
  else if isNull line then .null
  else if Time.isWritten t then .time
  else if line = "=" then .default
  else if line = "&" || line = "*" || line = "!" then .reserved
  else .text

/-! Whether a text is a value of a kind. -/

def dropLow (t : Text) : Text := t.filter (!·.is '_')

def trim (t : Text) : Text :=
  let isSpace := fun c : CodePoint => c = ' ' || (9 ≤ c.number && c.number ≤ 13)
  ((t.dropWhile isSpace).reverse.dropWhile isSpace).reverse

/-- The marks behind a zero in front of a number to a base. One may stand there even where the base is known. -/
def baseMarks : Nat → Text
  | 2 => "bB"
  | 8 => "oO"
  | 16 => "xX"
  | _ => []

def isNumeral (base : Nat) (t : Text) : Bool :=
  let t := dropSign (trim (Text.asNumber t))
  let t := match t with
    | zero :: mark :: digits => if zero = '0' && (baseMarks base).contains mark then digits else t
    | _ => t
  !t.isEmpty && t.all (digitValue · < base) && (base ≠ 10 || t.length ≤ mostDigits)

def integerFault? (t : Text) : Option Fault :=
  let bad := fun ok : Bool => if ok then none else some .badNumber
  match dropLow t with
  | [] => some .emptyNumber
  | t =>
    let t := dropSign t
    match base? t with
    | some (base, digits) => bad (isNumeral base digits)
    | none => if t.isEmpty then some .emptyNumber else bad ((Text.splitAt ':' t).all (isNumeral 10))

def isReal (t : Text) : Bool :=
  let t := dropSign (trim (Text.asNumber t))
  if t = "inf" || t = "infinity" || t = "nan" then true
  else
    let whole := t.takeWhile CodePoint.isDigit
    let rest := t.drop whole.length
    let (fraction, rest) := match Text.past? "." rest with
      | some r => (r.takeWhile CodePoint.isDigit, r.dropWhile CodePoint.isDigit)
      | none => ([], rest)
    let exponent := match Text.past? "e" rest with
      | some r => let r := dropSign r; !r.isEmpty && r.all CodePoint.isDigit
      | none => rest.isEmpty
    (!whole.isEmpty || !fraction.isEmpty) && exponent

/-- How many parts a fraction to the base sixty may have: the weight of a further one would be no double. -/
def mostSixtieths : Nat := 174

def floatFault? (t : Text) : Option Fault :=
  match (dropLow t).map CodePoint.toLower with
  | [] => some .emptyNumber
  | t =>
    let t := dropSign t
    if t = ".inf" || t = ".nan" then none
    else
      let parts := Text.splitAt ':' t
      if !parts.all isReal then some .badNumber
      else if mostSixtieths < parts.length then some .tooLarge
      else none

def truthFault? (t : Text) : Option Fault :=
  let words : List Text := ["yes", "no", "true", "false", "on", "off"]
  if words.contains (t.map CodePoint.toLower) then none else some .badTruth

def timeFault? (t : Text) : Option Fault :=
  match Time.read? t with
  | none => some .notATime
  | some time => if time.doesExist then none else some .badTime

def isBase64 (c : CodePoint) : Bool := c.isAlphanum || c = '+' || c = '/'

/-- Bytes in groups of four characters; other characters between them are passed over. The last group is filled up with
marks, and nothing is read behind them. -/
def isBase64Text : (group marks : Nat) → Text → Bool
  | group, _, [] => group = 0
  | group, marks, c :: t =>
    if c = '=' then
      if 2 ≤ group then if 4 ≤ group + marks + 1 then true else isBase64Text group (marks + 1) t
      else isBase64Text group marks t
    else if isBase64 c then isBase64Text ((group + 1) % 4) 0 t
    else isBase64Text group marks t

def binaryFault? (t : Text) : Option Fault :=
  if t.all (·.number < 128) && isBase64Text 0 0 t then none else some (.malformed "bytes that cannot be decoded")

def fault? : Kind → Text → Option Fault
  | .integer, t => integerFault? t
  | .float, t => floatFault? t
  | .truth, t => truthFault? t
  | .time, t => timeFault? t
  | .binary, t => binaryFault? t
  | .merge, _ | .default, _ | .reserved, _ => some (.malformed "a mark where a value should be")
  | .null, _ | .text, _ => none

end Scalar
end Rehost.Yaml
