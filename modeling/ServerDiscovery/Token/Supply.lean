import ServerDiscovery.Token.Basic

/-! Where the numbers of tokens come from. Any function of the draw's place serves; the one below is
mixed from a seed, by steps that can be undone, so that no number comes twice too soon. -/

namespace ServerDiscovery.Token

/-- The n-th number that somebody draws. -/
abbrev Supply := Nat → Int32

def supplySize : Nat := 2147483648

/-- A product with an odd factor, and its high bits folded onto its low ones: each can be undone. -/
def stir (factor shift x : Nat) : Nat :=
  let y := x * factor % supplySize
  y ^^^ (y >>> shift)

/-- Non-negative numbers that depend on all bits of a seed; the first 2³¹ of them differ. -/
def scattered (seed : Nat) : Supply := fun n =>
  let place := stir 1103515245 15 (n + seed % supplySize)
  let mixed := stir 747796405 13 (place ^^^ seed / supplySize % supplySize)
  Int32.ofNat (stir 1403630843 16 mixed)

def scatteredFamily (seed : Nat) : Nat → Supply := fun i =>
  scattered (seed + i * supplySize)

end ServerDiscovery.Token
