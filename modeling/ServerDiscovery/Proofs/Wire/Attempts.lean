import ServerDiscovery.Proofs.Wire.Cursor
import ServerDiscovery.Proofs.Wire.Fields
import ServerDiscovery.Proofs.Wire.Sequencing

/-! Requests made one after the other of the same bytes. One that is refused leaves all that was
unread, and would be refused again; one that is granted takes the bytes of its field off the front and
no others. So what was taken and what is unread always make up the bytes that there were. -/

namespace ServerDiscovery.Wire.Reader

open Reading

variable {r : Request} {rs : List Request} {bs rest : Bytes} {v : Field} {fault : Fault}

/-- How many bytes a request that is granted may take: as many as it names, or one at least. -/
def Request.Admits : Request → Nat → Prop
  | .block size, n => n = size
  | .int, n | .text, n | .blankedText _, n | .byte, n => 1 ≤ n

def unread : Bytes → List (Except Fault Field × Bytes) → Bytes
  | bs, [] => bs
  | _, (_, rest) :: steps => unread rest steps

def taken : Bytes → List (Except Fault Field × Bytes) → List Bytes
  | _, [] => []
  | bs, (.ok _, rest) :: steps => bs.take (bs.length - rest.length) :: taken rest steps
  | _, (.error _, rest) :: steps => taken rest steps

/-! ### One request -/

theorem takes_block (bs : Bytes) : (block bs.length).Takes bs bs where
  whole rest := block_append bs rest
  cut k hk := by
    have hshort : (bs.take k).length < bs.length := by
      rw [List.length_take]
      exact Nat.lt_of_le_of_lt (Nat.min_le_left _ _) hk
    exact ⟨.truncated, if_pos hshort⟩

theorem block_eq_ok {size : Nat} {piece : Bytes} (h : block size bs = .ok (piece, rest)) :
    bs = piece ++ rest ∧ piece.length = size := by
  unfold block at h
  split_ifs at h with hshort
  obtain ⟨rfl, rfl⟩ := Prod.mk.inj (Except.ok.inj h)
  exact ⟨(List.take_append_drop size bs).symm,
    List.length_take_of_le (Nat.le_of_not_lt hshort)⟩

theorem takes_of_field (h : field r bs = .ok (v, rest)) :
    ∃ piece, bs = piece ++ rest ∧ r.Admits piece.length ∧ (field r).Takes piece v := by
  cases r with
  | int => exact delimits_int.map Field.int bs v rest h
  | text => exact delimits_text.map Field.text bs v rest h
  | blankedText keep => exact (delimits_blankedText keep).map Field.text bs v rest h
  | byte => exact delimits_byte.map Field.byte bs v rest h
  | block size =>
    obtain ⟨piece, hpiece, rfl⟩ := map_eq_ok_iff.mp h
    obtain ⟨hbs, rfl⟩ := block_eq_ok hpiece
    exact ⟨piece, hbs, rfl, (takes_block piece).map Field.block⟩

theorem attempts_of_ok (h : field r bs = .ok (v, rest)) (rs : List Request) :
    attempts (r :: rs) bs = (.ok v, rest) :: attempts rs rest := by
  rw [attempts, h]

theorem attempts_of_error (h : field r bs = .error fault) (rs : List Request) :
    attempts (r :: rs) bs = (.error fault, bs) :: attempts rs bs := by
  rw [attempts, h]

theorem taken_of_ok (v : Field) (piece rest : Bytes) (steps : List (Except Fault Field × Bytes)) :
    taken (piece ++ rest) ((.ok v, rest) :: steps) = piece :: taken rest steps := by
  rw [taken, List.length_append, Nat.add_sub_cancel, List.take_left]

/-! ### Requests in a row -/

theorem length_attempts (rs : List Request) (bs : Bytes) :
    (attempts rs bs).length = rs.length := by
  induction rs generalizing bs with
  | nil => rfl
  | cons r rs ih =>
    cases h : field r bs with
    | ok p => rw [attempts_of_ok h, List.length_cons, List.length_cons, ih]
    | error fault => rw [attempts_of_error h, List.length_cons, List.length_cons, ih]

theorem attempts_append (rs rs' : List Request) (bs : Bytes) :
    attempts (rs ++ rs') bs = attempts rs bs ++ attempts rs' (unread bs (attempts rs bs)) := by
  induction rs generalizing bs with
  | nil => rfl
  | cons r rs ih =>
    rw [List.cons_append]
    cases h : field r bs with
    | ok p =>
      rw [attempts_of_ok h, attempts_of_ok h, ih]
      rfl
    | error fault =>
      rw [attempts_of_error h, attempts_of_error h, ih]
      rfl

theorem taken_append (bs : Bytes) (steps steps' : List (Except Fault Field × Bytes)) :
    taken bs (steps ++ steps') = taken bs steps ++ taken (unread bs steps) steps' := by
  induction steps generalizing bs with
  | nil => rfl
  | cons step steps ih =>
    obtain ⟨outcome, rest⟩ := step
    rw [List.cons_append]
    cases outcome with
    | ok v => exact congrArg (_ :: ·) (ih rest)
    | error fault => exact ih rest

theorem taken_append_unread (rs : List Request) (bs : Bytes) :
    (taken bs (attempts rs bs)).flatten ++ unread bs (attempts rs bs) = bs := by
  induction rs generalizing bs with
  | nil => rfl
  | cons r rs ih =>
    cases h : field r bs with
    | ok p =>
      obtain ⟨piece, rfl, -⟩ := takes_of_field h
      rw [attempts_of_ok h, taken_of_ok, List.flatten_cons, List.append_assoc]
      exact congrArg (piece ++ ·) (ih p.2)
    | error fault =>
      rw [attempts_of_error h]
      exact ih bs

theorem suffix_of_mem_attempts {step : Except Fault Field × Bytes} (h : step ∈ attempts rs bs) :
    step.2 <:+ bs := by
  induction rs generalizing bs with
  | nil => cases h
  | cons r rs ih =>
    cases hr : field r bs with
    | ok p =>
      obtain ⟨piece, rfl, -⟩ := takes_of_field hr
      have hrest : p.2 <:+ piece ++ p.2 := List.suffix_append piece p.2
      rw [attempts_of_ok hr] at h
      rcases List.mem_cons.mp h with rfl | h
      · exact hrest
      · exact (ih h).trans hrest
    | error fault =>
      rw [attempts_of_error hr] at h
      rcases List.mem_cons.mp h with rfl | h
      · exact List.suffix_rfl
      · exact ih h

/-- Whatever has been asked for of a cursor, what was taken and what is unread make up the bytes, and
what is unread was their end at every step. The next request is either granted, and takes the bytes of
its field and no others, or refused, and then again with the same fault if it is repeated, while
nothing is taken. -/
theorem attempts_atomic (rs : List Request) (bs : Bytes) :
    Cursor.attempts rs bs = attempts rs bs ∧
    (attempts rs bs).length = rs.length ∧
    (taken bs (attempts rs bs)).flatten ++ unread bs (attempts rs bs) = bs ∧
    (∀ step ∈ attempts rs bs, step.2 <:+ bs) ∧
    ∀ r, (∃ v piece rest, unread bs (attempts rs bs) = piece ++ rest ∧
        r.Admits piece.length ∧ (field r).Takes piece v ∧
        attempts (rs ++ [r]) bs = attempts rs bs ++ [(.ok v, rest)] ∧
        taken bs (attempts (rs ++ [r]) bs) = taken bs (attempts rs bs) ++ [piece]) ∨
      ∃ fault, attempts (rs ++ [r]) bs =
          attempts rs bs ++ [(.error fault, unread bs (attempts rs bs))] ∧
        attempts (rs ++ [r, r]) bs =
          attempts rs bs ++ [(.error fault, unread bs (attempts rs bs)),
            (.error fault, unread bs (attempts rs bs))] ∧
        taken bs (attempts (rs ++ [r]) bs) = taken bs (attempts rs bs) := by
  refine ⟨Cursor.attempts_eq rs bs, length_attempts rs bs, taken_append_unread rs bs,
    fun _ => suffix_of_mem_attempts, fun r => ?_⟩
  rw [attempts_append, attempts_append, taken_append]
  cases h : field r (unread bs (attempts rs bs)) with
  | ok p =>
    obtain ⟨piece, hpiece, hsize, htakes⟩ := takes_of_field h
    refine .inl ⟨p.1, piece, p.2, hpiece, hsize, htakes, ?_, ?_⟩
    · rw [attempts_of_ok h]
      rfl
    · rw [attempts_of_ok h, hpiece, taken_of_ok]
      rfl
  | error fault =>
    refine .inr ⟨fault, ?_, ?_, ?_⟩
    · rw [attempts_of_error h]
      rfl
    · rw [attempts_of_error h, attempts_of_error h]
      rfl
    · rw [attempts_of_error h]
      exact List.append_nil _

def knot : Bytes := [0xff, 0xff, 0xff, 0xff, 0xff, 0x41, 0x00, 0x09]

def knotText : String := "\uFFFD\uFFFD\uFFFD\uFFFD\uFFFDA"

def knotRequests : List Request := [.int, .block 9, .text, .block 0, .int]

theorem attempts_atomic_knot :
    (.ok (.text knotText), [0x09]) ∈ attempts knotRequests knot ∧ [0x09] <:+ knot ∧
      (taken knot (attempts knotRequests knot)).flatten = knot ∧
      ∃ fault, attempts (knotRequests ++ [.byte, .byte]) knot =
        attempts knotRequests knot ++ [(.error fault, []), (.error fault, [])] := by
  have hmem : (.ok (.text knotText), [0x09]) ∈ attempts knotRequests knot := by decide +kernel
  have hend : unread knot (attempts knotRequests knot) = [] := by decide +kernel
  obtain ⟨-, -, hparts, hsuffix, hnext⟩ := attempts_atomic knotRequests knot
  rw [hend] at hparts hnext
  refine ⟨hmem, hsuffix _ hmem, (List.append_nil _).symm.trans hparts, ?_⟩
  obtain ⟨v, piece, rest, hpiece, hsize, -⟩ | ⟨fault, -, hagain, -⟩ := hnext .byte
  · -- Nothing is left that a byte could be taken from.
    obtain ⟨rfl, -⟩ := List.nil_eq_append_iff.mp hpiece
    exact absurd hsize (Nat.not_succ_le_zero 0)
  · exact ⟨fault, hagain⟩

end ServerDiscovery.Wire.Reader
