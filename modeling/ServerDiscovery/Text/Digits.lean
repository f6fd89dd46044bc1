/-! Natural numbers written in a base up to sixteen, and read again. -/

namespace ServerDiscovery.Text

/-- The value of a digit; letters count from ten in either case. -/
def digit? (base : Nat) (c : Char) : Option Nat :=
  let n := c.toNat
  let value :=
    if 48 ≤ n ∧ n ≤ 57 then n - 48
    else if 97 ≤ n ∧ n ≤ 102 then n - 87
    else if 65 ≤ n ∧ n ≤ 70 then n - 55
    else base
  if value < base then some value else none

def isDigit (base : Nat) (c : Char) : Bool :=
  (digit? base c).isSome

def ofDigits (base : Nat) (cs : List Char) : Nat :=
  cs.foldl (fun n c => n * base + (digit? base c).getD 0) 0

/-- The digits of a number, without zeros in front; a base below two counts as two. -/
def digits (base n : Nat) : List Char :=
  if n < max base 2 then [Nat.digitChar n]
  else digits base (n / max base 2) ++ [Nat.digitChar (n % max base 2)]
termination_by n
decreasing_by exact Nat.div_lt_self (by omega) (by omega)

def decimal (n : Nat) : List Char := digits 10 n

def hexadecimal (n : Nat) : List Char := digits 16 n

def signedDecimal (v : Int) : List Char :=
  if v < 0 then '-' :: decimal v.natAbs else decimal v.natAbs

end ServerDiscovery.Text
