import ServerDiscovery.Json.Skip

/-! Records and lists. A record is an object, in which unknown keys are passed over, or a list of
its values in their order. -/

namespace ServerDiscovery.Json

/-- A field of a record: its key, its reader, and a value for when it is left out. -/
structure Slot (α : Type) where
  key : String
  read : Reader α
  default : Option α

/-- The members of an object up to its brace, with the values of known keys. -/
def members (slots : List (Slot α)) : Nat → Bool → List (String × α) → Reader (List (String × α))
  | 0, _, _ => throw .truncated
  | steps + 1, first, found => do
    let c ← required
    if c = '\x7d' then
      advance
      return found
    if !first then
      if c ≠ ',' then throw .malformed
      advance
    if (← required) ≠ '"' then throw .malformed
    advance
    let key ← String.ofList <$> (textBody : Reader (List Char))
    let slot := slots.find? fun s => s.key = key
    if (found.lookup key).isSome then throw .mismatch
    if (← required) ≠ ':' then throw .malformed
    advance
    match slot with
    | none => do
      skipValue
      members slots steps false found
    | some slot => do
      let v ← slot.read
      members slots steps false ((key, v) :: found)

def another (first : Bool) : Reader Bool := do
  let c ← required
  if c = ']' then return false
  if !first then
    if c ≠ ',' then throw .malformed
    advance
    if (← required) = ']' then throw .malformed
  return true

def listEnd : Reader Unit := do
  if (← required) = ']' then advance else throw .malformed

/-- The values of a record that is written as a list. -/
def elements : List (Slot α) → Bool → Reader (List α)
  | [], _ => do
    listEnd
    return []
  | slot :: slots, first => do
    if ← another first then
      let v ← slot.read
      let vs ← elements slots false
      return v :: vs
    else match slot.default with
      | some v => do
        let vs ← elements slots first
        return v :: vs
      | none => throw .mismatch

def record (slots : List (Slot α)) : Reader (List α) := do
  let c ← required
  if c = '[' then
    advance
    elements slots true
  else if c = '\x7b' then
    advance
    let found ← members slots ((← get).length + 1) true []
    slots.mapM fun s =>
      match (found.lookup s.key).or s.default with
      | some v => pure v
      | none => throw .mismatch
  else wrongType c

def items (read : Reader α) : Nat → Bool → Reader (List α)
  | 0, _ => throw .truncated
  | steps + 1, first => do
    if ← another first then
      let v ← read
      let vs ← items read steps false
      return v :: vs
    else
      listEnd
      return []

def list (read : Reader α) : Reader (List α) := do
  let c ← required
  if c = '[' then
    advance
    items read ((← get).length + 1) true
  else wrongType c

end ServerDiscovery.Json
