import ServerDiscovery.Proofs.Wire.Reader

/-! Fields are not told apart by lengths in front of them: an integer ends with its last byte that
announces no other, a text with its terminator, and a block where its reader was told. Read back in
the order in which they were written, they come out one by one, whatever follows. -/

namespace ServerDiscovery.Wire

open Reading

variable {f : Field} {fs fs' : List Field} {rest rest' : Bytes}

def Field.request : Field → Reader.Request
  | .int _ => .int
  | .text _ => .text
  | .byte _ => .byte
  | .block bs => .block bs.length

def shape (fs : List Field) : List Reader.Request := fs.map Field.request

/-- A text may not contain what ends it; any other field may be anything. -/
def Field.Packable : Field → Prop
  | .text s => Terminable s
  | _ => True

instance : DecidablePred Field.Packable := fun f =>
  match f with
  | .text s => inferInstanceAs (Decidable (Terminable s))
  | .int _ | .byte _ | .block _ => inferInstanceAs (Decidable True)

theorem encodeFields_cons_append (f : Field) (fs : List Field) (rest : Bytes) :
    encodeFields (f :: fs) ++ rest = f.encode ++ (encodeFields fs ++ rest) :=
  List.append_assoc ..

namespace Reader

theorem block_append (bs rest : Bytes) : block bs.length (bs ++ rest) = .ok (bs, rest) := by
  unfold block
  rw [if_neg (by simp), List.take_left, List.drop_left]

theorem field_encode (h : f.Packable) (rest : Bytes) :
    field f.request (f.encode ++ rest) = .ok (f, rest) := by
  cases f with
  | int v => exact map_of_ok (int_encode v rest) Field.int
  | text s => exact map_of_ok (text_encode h rest) Field.text
  | byte b => exact map_of_ok (byte_encode b rest) Field.byte
  | block bs => exact map_of_ok (block_append bs rest) Field.block

def fields (requests : List Request) : Reader (List Field) := requests.mapM field

theorem fields_encodeFields (h : ∀ f ∈ fs, f.Packable) (rest : Bytes) :
    fields (shape fs) (encodeFields fs ++ rest) = .ok (fs, rest) := by
  induction fs with
  | nil => rfl
  | cons f fs ih =>
    obtain ⟨hf, hfs⟩ := List.forall_mem_cons.mp h
    have hlater : (shape fs).mapM field (encodeFields fs ++ rest) = .ok (fs, rest) := ih hfs
    unfold fields shape
    rw [List.map_cons, List.mapM_cons, encodeFields_cons_append, bind_of_ok (field_encode hf _),
      ← shape, bind_of_ok hlater]
    rfl

/-- The outcomes of reading fields back: each as it was, and behind it the later ones unread. -/
def readings : List Field → Bytes → List (Except Fault Field × Bytes)
  | [], _ => []
  | f :: later, rest => (.ok f, encodeFields later ++ rest) :: readings later rest

theorem attempts_encodeFields (h : ∀ f ∈ fs, f.Packable) (rest : Bytes) :
    attempts (shape fs) (encodeFields fs ++ rest) = readings fs rest := by
  induction fs with
  | nil => rfl
  | cons f fs ih =>
    obtain ⟨hf, hfs⟩ := List.forall_mem_cons.mp h
    unfold shape
    rw [List.map_cons, encodeFields_cons_append, attempts, field_encode hf]
    exact congrArg _ (ih hfs)

end Reader

theorem encodeFields_append_inj (h : ∀ f ∈ fs, f.Packable) (h' : ∀ f ∈ fs', f.Packable)
    (hshape : shape fs = shape fs')
    (heq : encodeFields fs ++ rest = encodeFields fs' ++ rest') : fs = fs' ∧ rest = rest' := by
  have hread := Reader.fields_encodeFields h rest
  rw [hshape, heq, Reader.fields_encodeFields h' rest'] at hread
  obtain ⟨hfs, hrest⟩ := Prod.mk.inj (Except.ok.inj hread)
  exact ⟨hfs.symm, hrest.symm⟩

/-- Fields written in a row are read back in a row, each as it was and with nothing taken of what
follows it. So two rows of one shape that begin the same bytes are the same. -/
theorem fields_faithful (fs : List Field) (h : ∀ f ∈ fs, f.Packable) (rest : Bytes) :
    Reader.attempts (shape fs) (encodeFields fs ++ rest) = Reader.readings fs rest ∧
    Reader.fields (shape fs) (encodeFields fs ++ rest) = .ok (fs, rest) ∧
    ∀ fs' : List Field, (∀ f ∈ fs', f.Packable) → shape fs' = shape fs → ∀ rest',
      encodeFields fs' ++ rest' = encodeFields fs ++ rest → fs' = fs ∧ rest' = rest :=
  ⟨Reader.attempts_encodeFields h rest, Reader.fields_encodeFields h rest,
    fun _ h' hshape _ heq => encodeFields_append_inj h' h hshape heq⟩

def tangle : List Field :=
  [.block [0x00, 0xff], .int Int32.minValue, .text "naïve ☃", .block [], .byte 0x80, .text "",
    .int (-1), .block [0x80]]

theorem fields_faithful_tangle :
    Reader.fields (shape tangle) (encodeFields tangle ++ [0x00, 0x80]) = .ok (tangle, [0x00, 0x80]) ∧
      (Reader.attempts (shape tangle) (encodeFields tangle ++ [0x00, 0x80])).length = 8 ∧
      ∀ fs' : List Field, (∀ f ∈ fs', f.Packable) → shape fs' = shape tangle →
        encodeFields fs' = encodeFields tangle → fs' = tangle := by
  obtain ⟨hattempts, hfields, hinj⟩ := fields_faithful tangle (by decide) [0x00, 0x80]
  refine ⟨hfields, ?_, fun fs' h' hshape heq => ?_⟩
  · rw [hattempts]
    rfl
  · exact (hinj fs' h' hshape [0x00, 0x80] (congrArg (· ++ _) heq)).1

end ServerDiscovery.Wire
