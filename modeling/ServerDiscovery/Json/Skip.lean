import ServerDiscovery.Json.Reader

/-! Passing over a value of any shape. Its syntax is checked more loosely than that of a value that
is read: surrogates need no partner, and a number has no range. -/

namespace ServerDiscovery.Json

def skipText : List Char → Except Fault (List Char)
  | [] => .error .truncated
  | c :: rest =>
    if c = '"' then .ok rest
    else if c = '\\' then
      match rest with
      | [] => .error .truncated
      | e :: rest =>
        if e = 'u' then do
          let _ ← hex4 rest
          skipText (rest.drop 4)
        else if (letterEscape? e).isSome then skipText rest
        else .error .malformed
    else if c.toNat < 0x20 then .error .malformed
    else skipText rest
termination_by cs => cs.length
decreasing_by all_goals simp only [List.length_cons, List.length_drop]; omega

def skipDigits : Reader Unit := do
  let run ← digitRun
  if run.isEmpty then throw .malformed

def skipExponent : Reader Unit := do
  match (← get).head? with
  | some 'e' | some 'E' =>
    advance
    match (← get).head? with
    | some '+' | some '-' => advance
    | _ => pure ()
    skipDigits
  | _ => pure ()

def skipNumber : Reader Unit := do
  let run ← digitRun
  if run.isEmpty ∨ (run.head? = some '0' ∧ 1 < run.length) then throw .malformed
  match (← get).head? with
  | some '.' =>
    advance
    skipDigits
    skipExponent
  | _ => skipExponent

/-- What is still to come of the value that is passed over. -/
inductive Pending where
  | value
  /-- More of a list, its bracket or a comma taken. -/
  | items
  /-- More of an object, its brace or a comma taken. -/
  | members

/-- Passes over what is pending; `steps` bounds the values and brackets that the text can hold. -/
def skip : Nat → Pending → Reader Unit
  | 0, _ => throw .truncated
  | steps + 1, .value => do
    let c ← required
    match c with
    | 'n' => literal "null".toList
    | 't' => literal "true".toList
    | 'f' => literal "false".toList
    | '-' => do
      advance
      skipNumber
    | '"' => do
      advance
      set (← skipText (← get))
    | '[' => do
      advance
      if (← required) = ']' then advance else skip steps .items
    | '\x7b' => do
      advance
      if (← required) = '\x7d' then advance else skip steps .members
    | c => if Text.isDigit 10 c then skipNumber else throw .malformed
  | steps + 1, .items => do
    skip steps .value
    let c ← required
    if c = ',' then
      advance
      skip steps .items
    else if c = ']' then advance
    else throw .malformed
  | steps + 1, .members => do
    if (← required) ≠ '"' then throw .malformed
    advance
    set (← skipText (← get))
    if (← required) ≠ ':' then throw .malformed
    advance
    skip steps .value
    let c ← required
    if c = ',' then
      advance
      skip steps .members
    else if c = '\x7d' then advance
    else throw .malformed

def skipValue : Reader Unit := do
  skip (2 * (← get).length + 2) .value

end ServerDiscovery.Json
