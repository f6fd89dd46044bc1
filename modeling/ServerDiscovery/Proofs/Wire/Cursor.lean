import Mathlib.Data.List.TakeWhile
import Mathlib.Tactic.SplitIfs
import ServerDiscovery.Proofs.Reading
import ServerDiscovery.Wire.Reader

/-! Readers as programs that move a place in the bytes, and do not move it back when they fail. Each
moves it only when nothing can fail any more, so that a failure leaves it where it was. -/

namespace ServerDiscovery.Wire

/-- A reader that keeps its place in the bytes, also when it fails. -/
abbrev Cursor := ExceptT Fault (StateM Bytes)

namespace Cursor

open Reader (Request)

def int : Cursor Int32 := do
  let (v, rest) ← MonadExcept.ofExcept (Varint.decode (← get))
  set rest
  return v

def byte : Cursor UInt8 := do
  match ← get with
  | [] => throw .truncated
  | b :: rest =>
    set rest
    return b

def block (size : Nat) : Cursor Bytes := do
  let bs ← get
  if bs.length < size then throw .truncated
  set (bs.drop size)
  return bs.take size

/-- The terminator is looked for before anything is taken. -/
def rawText : Cursor Bytes := do
  let bs ← get
  if bs.isEmpty then throw .truncated
  match bs.findIdx? (· = terminator) with
  | none => throw (.malformed .unterminatedText)
  | some stop =>
    set (bs.drop (stop + 1))
    return bs.take stop

def text : Cursor String :=
  Text.decode <$> rawText

def blankedText (keep : Bytes) : Cursor String :=
  (fun raw => Text.decode (raw.map (blank keep))) <$> rawText

def field : Request → Cursor Field
  | .int => .int <$> int
  | .text => .text <$> text
  | .blankedText keep => .text <$> blankedText keep
  | .byte => .byte <$> byte
  | .block size => .block <$> block size

def attempts : List Request → Bytes → List (Except Fault Field × Bytes)
  | [], _ => []
  | r :: rs, bs =>
    let (outcome, rest) := (field r).run.run bs
    (outcome, rest) :: attempts rs rest

/-- A cursor makes out what a reader does, and is where it was unless it has. -/
def Follows {α : Type} (c : Cursor α) (r : Reader α) : Prop :=
  ∀ bs, c.run.run bs = match r bs with
    | .ok (a, rest) => (.ok a, rest)
    | .error fault => (.error fault, bs)

variable {α β : Type} {c : Cursor α} {r : Reader α}

theorem run_get_bind (f : Bytes → Cursor α) (bs : Bytes) :
    (get >>= f).run.run bs = (f bs).run.run bs := rfl

theorem run_map (f : α → β) (c : Cursor α) (bs : Bytes) :
    (f <$> c).run.run bs = ((c.run.run bs).1.map f, (c.run.run bs).2) := by
  rw [ExceptT.run_map]
  rfl

theorem Follows.map (h : Follows c r) (f : α → β) : Follows (f <$> c) (f <$> r) := by
  intro bs
  rw [run_map, h bs, Reading.map_apply]
  cases r bs <;> rfl

theorem follows_int : Follows int Reader.int := by
  intro bs
  unfold int Reader.int
  rw [run_get_bind]
  cases Varint.decode bs <;> rfl

theorem follows_byte : Follows byte Reader.byte := by
  intro bs
  cases bs <;> rfl

theorem follows_block (size : Nat) : Follows (block size) (Reader.block size) := by
  intro bs
  unfold block Reader.block
  rw [run_get_bind]
  split_ifs <;> rfl

theorem findIdx?_terminator {bs : Bytes} (h : terminator ∈ bs) :
    ∃ stop, bs.findIdx? (· = terminator) = some stop ∧ bs.takeWhile (· ≠ terminator) = bs.take stop ∧
      bs.dropWhile (· ≠ terminator) = bs.drop stop := by
  have hfound : bs.findIdx? (· = terminator) = some (bs.findIdx (· = terminator)) :=
    List.findIdx?_eq_some_of_exists ⟨terminator, h, by simp⟩
  refine ⟨_, hfound, ?_, ?_⟩
  · rw [List.takeWhile_eq_take_findIdx_not]
    simp
  · rw [List.dropWhile_eq_drop_findIdx_not]
    simp

theorem follows_rawText : Follows rawText Reader.rawText := by
  intro bs
  unfold rawText Reader.rawText
  rw [run_get_bind]
  split_ifs with hempty hterminated
  · rfl
  · obtain ⟨stop, hstop, htake, hdrop⟩ := findIdx?_terminator hterminated
    rw [hstop, htake, hdrop, List.drop_drop]
    rfl
  · have hnone : bs.findIdx? (· = terminator) = none := by
      refine List.findIdx?_eq_none_iff.mpr fun b hb => decide_eq_false ?_
      rintro rfl
      exact hterminated hb
    rw [hnone]
    rfl

theorem follows_field (r : Request) : Follows (field r) (Reader.field r) := by
  cases r with
  | int => exact follows_int.map Field.int
  | text => exact (follows_rawText.map Text.decode).map Field.text
  | blankedText keep => exact (follows_rawText.map _).map Field.text
  | byte => exact follows_byte.map Field.byte
  | block size => exact (follows_block size).map Field.block

theorem attempts_eq (rs : List Request) (bs : Bytes) : attempts rs bs = Reader.attempts rs bs := by
  induction rs generalizing bs with
  | nil => rfl
  | cons r rs ih =>
    rw [attempts, Reader.attempts, follows_field r bs]
    cases Reader.field r bs with
    | ok p => exact congrArg (_ :: ·) (ih p.2)
    | error fault => exact congrArg (_ :: ·) (ih bs)

end Cursor
end ServerDiscovery.Wire
