import ServerDiscovery.Text.Digits

/-! Reading JSON for a value of a known shape, from left to right; the first fault met decides.
Every reader takes its part off the front of the text. -/

namespace ServerDiscovery.Json

inductive Fault where
  | malformed
  | truncated
  /-- JSON of another shape: a wrong type, a number out of range, a field missing or twice. -/
  | mismatch
  deriving DecidableEq, Repr

abbrev Reader := StateT (List Char) (Except Fault)

def isBlank (c : Char) : Bool :=
  c = ' ' || c = '\n' || c = '\t' || c = '\r'

/-- The character behind the blanks, which are taken; the character is not. -/
def upcoming : Reader (Option Char) := fun cs =>
  let rest := cs.dropWhile isBlank
  .ok (rest.head?, rest)

def required : Reader Char := do
  match ← upcoming with
  | some c => return c
  | none => throw .truncated

def advance : Reader Unit := modify fun cs => cs.drop 1

def literal : List Char → Reader Unit
  | [] => pure ()
  | x :: xs => do
    match ← get with
    | [] => throw .truncated
    | c :: rest =>
      if c = x then
        set rest
        literal xs
      else throw .malformed

/-! ### Texts -/

/-- Four hexadecimal digits. They are missed at the end only if fewer than four bytes are left. -/
def hex4 (cs : List Char) : Except Fault Nat :=
  if (cs.take 4).foldl (fun n c => n + c.utf8Size) 0 < 4 then .error .truncated
  else if 4 ≤ cs.length ∧ (cs.take 4).all (Text.isDigit 16) then .ok (Text.ofDigits 16 (cs.take 4))
  else .error .malformed

def isHighSurrogate (n : Nat) : Bool := 0xd800 ≤ n && n ≤ 0xdbff

def isLowSurrogate (n : Nat) : Bool := 0xdc00 ≤ n && n ≤ 0xdfff

/-- The character beyond the basic plane that two surrogates stand for. -/
def joinSurrogates (high low : Nat) : Char :=
  Char.ofNat ((high - 0xd800) * 0x400 + (low - 0xdc00) + 0x10000)

def lowSurrogate (cs : List Char) : Except Fault Nat :=
  match cs with
  | [] => .error .truncated
  | '\\' :: [] => .error .truncated
  | '\\' :: 'u' :: rest => do
    let low ← hex4 rest
    if isLowSurrogate low then return low else throw .malformed
  | _ => .error .malformed

def letterEscape? : Char → Option Char
  | '"' => some '"'
  | '\\' => some '\\'
  | '/' => some '/'
  | 'b' => some '\x08'
  | 'f' => some '\x0c'
  | 'n' => some '\n'
  | 'r' => some '\r'
  | 't' => some '\t'
  | _ => none

/-- The character that an escape stands for, and how many characters it takes behind its
backslash. -/
def escape : List Char → Except Fault (Char × Nat)
  | [] => .error .truncated
  | 'u' :: rest => do
    let n ← hex4 rest
    if isLowSurrogate n then throw .malformed
    if isHighSurrogate n then
      let low ← lowSurrogate (rest.drop 4)
      return (joinSurrogates n low, 11)
    return (Char.ofNat n, 5)
  | c :: _ =>
    match letterEscape? c with
    | some e => .ok (e, 1)
    | none => .error .malformed

def textBody : List Char → Except Fault (List Char × List Char)
  | [] => .error .truncated
  | c :: rest =>
    if c = '"' then .ok ([], rest)
    else if c = '\\' then do
      let (e, taken) ← escape rest
      let (body, rest) ← textBody (rest.drop taken)
      return (e :: body, rest)
    else if c.toNat < 0x20 then .error .malformed
    else do
      let (body, rest) ← textBody rest
      return (c :: body, rest)
termination_by cs => cs.length
decreasing_by all_goals simp only [List.length_cons, List.length_drop]; omega

/-! ### Numbers -/

/-- A number that is read as whole, or one with a fraction, an exponent or too many digits. -/
inductive Number where
  | whole (v : Int)
  | real

def maxSignificand : Nat := 18446744073709551615

/-- Appends digits to a significand while it stays in range; the number of digits kept. -/
def absorb (significand : Nat) : List Char → Nat × Nat
  | [] => (significand, 0)
  | d :: ds =>
    let next := significand * 10 + Text.ofDigits 10 [d]
    if maxSignificand < next then (significand, 0)
    else
      let (significand, kept) := absorb next ds
      (significand, kept + 1)

/-- A natural number rounded to 53 significant bits, a half to the even neighbour. -/
def round53 (n : Nat) : Nat :=
  let unit := Nat.pow 2 (n.log2 + 1 - 53)
  let low := n % unit
  let high := n / unit
  if 2 * low < unit ∨ (2 * low = unit ∧ high % 2 = 0) then high * unit else (high + 1) * unit

/-- The least product that rounds to no finite double. -/
def infinity : Nat := Nat.pow 2 1024 - Nat.pow 2 970

/-- Whether a decimal number is too large for a double; the power of ten is rounded on its own. -/
def isInfinite (significand : Nat) (exponent : Int) : Bool :=
  if exponent < 0 ∨ significand = 0 then false
  else if 308 < exponent then true
  else infinity ≤ round53 significand * round53 (Nat.pow 10 exponent.toNat)

def finite (significand : Nat) (exponent : Int) : Reader Number :=
  if isInfinite significand exponent then throw .malformed else return .real

def digitRun : Reader (List Char) := fun cs =>
  .ok (cs.takeWhile (Text.isDigit 10), cs.dropWhile (Text.isDigit 10))

def maxExponent : Nat := 2147483647

def exponentPart (significand : Nat) (scale : Int) : Reader Number := do
  advance
  let negative ← match (← get).head? with
    | some '+' => do advance; pure false
    | some '-' => do advance; pure true
    | _ => pure false
  if (← get).isEmpty then throw .truncated
  let run ← digitRun
  if run.isEmpty then throw .malformed
  let exponent := Text.ofDigits 10 run
  if negative then finite significand (scale - exponent)
  else if maxExponent < exponent ∧ significand ≠ 0 then throw .malformed
  else finite significand (scale + exponent)

def scaled (significand : Nat) (scale : Int) : Reader Number := do
  match (← get).head? with
  | some 'e' | some 'E' => exponentPart significand scale
  | _ => finite significand scale

def fractionPart (significand : Nat) (scale : Int) : Reader Number := do
  advance
  let run ← digitRun
  if run.isEmpty then throw (if (← get).isEmpty then .truncated else .malformed)
  let (significand, kept) := absorb significand run
  scaled significand (scale - kept)

def number (negative : Bool) : Reader Number := do
  if (← get).isEmpty then throw .truncated
  let run ← digitRun
  if run.isEmpty ∨ (run.head? = some '0' ∧ 1 < run.length) then throw .malformed
  let (significand, kept) := absorb 0 run
  let scale : Int := run.length - kept
  match (← get).head? with
  | some '.' => fractionPart significand scale
  | some 'e' | some 'E' => exponentPart significand scale
  | _ =>
    if 0 < scale then finite significand scale
    else if negative then
      return if significand = 0 then .real else .whole (-significand)
    else return .whole significand

/-! ### Values of a known type -/

/-- Refuses a value of the wrong type, which must be well formed up to where its type is plain. -/
def wrongType (c : Char) : Reader α := do
  match c with
  | 'n' => literal "null".toList
  | 't' => literal "true".toList
  | 'f' => literal "false".toList
  | '"' => do
    advance
    let _ ← (textBody : Reader (List Char))
  | '[' | '\x7b' => pure ()
  | '-' => do
    advance
    let _ ← number true
  | c =>
    if Text.isDigit 10 c then
      let _ ← number false
    else throw .malformed
  throw .mismatch

def text : Reader String := do
  let c ← required
  if c = '"' then
    advance
    String.ofList <$> (textBody : Reader (List Char))
  else wrongType c

def integer (low high : Int) : Reader Int := do
  let c ← required
  let n ←
    if c = '-' then do
      advance
      number true
    else if Text.isDigit 10 c then number false
    else wrongType c
  match n with
  | .whole v => if low ≤ v ∧ v ≤ high then return v else throw .mismatch
  | .real => throw .mismatch

def int32 : Reader Int32 := Int32.ofInt <$> integer (-2147483648) 2147483647

def uint8 : Reader UInt8 := (fun v => UInt8.ofNat v.toNat) <$> integer 0 255

def document (value : Reader α) (s : String) : Except Fault α := do
  let (v, rest) ← value s.toList
  if rest.all isBlank then return v else throw .malformed

end ServerDiscovery.Json
