import ServerDiscovery.Proofs.Wire.Blanking

/-! What is said of a reader and carried through sequencing. `Yields` speaks of the values that it
gives, `Delimits` of the bytes that it takes: a reader that succeeds has taken a piece off the front
which gives the same value whatever follows it, while no part of the piece that lacks its end gives
any. -/

namespace ServerDiscovery.Wire

def Plain (s : String) : Prop := ∀ c ∈ s.toList, 0x20 ≤ c.val.toNat

instance (s : String) : Decidable (Plain s) := inferInstanceAs (Decidable (∀ _ ∈ _, _))

theorem Plain.terminable {s : String} (h : Plain s) : Terminable s :=
  fun hmem => absurd (h _ hmem) (by decide)

theorem blankControls_of_plain {s : String} (h : Plain s) : blankControls s = s := by
  have hmap : s.toList.map blankChar = s.toList :=
    (List.map_congr_left fun c hc => if_neg (Nat.not_lt_of_le (h c hc))).trans (List.map_id _)
  rw [blankControls, hmap, String.ofList_toList]

theorem terminable_decode {raw : Bytes} (h : terminator ∉ raw) : Terminable (Text.decode raw) := by
  intro hmem
  rw [Text.decode, String.toList_ofList] at hmem
  exact h (Text.mem_of_mem_decodeChars hmem (by decide))

theorem plain_blankControls (s : String) : Plain (blankControls s) := by
  intro c hc
  rw [blankControls, String.toList_ofList] at hc
  obtain ⟨c, -, rfl⟩ := List.mem_map.mp hc
  unfold blankChar
  split_ifs with hlow
  · decide
  · exact Nat.le_of_not_lt hlow

namespace Reader

open Reading

variable {α β : Type} {bs rest piece next : Bytes} {r : Reader α} {f : α → Reader β}
  {a : α} {b : β} {m n : Nat}

/-! ### Values -/

/-- Whatever the reader gives has the property. -/
def Yields (P : α → Prop) (r : Reader α) : Prop :=
  ∀ bs a rest, r bs = .ok (a, rest) → P a

section Yields

variable {P : α → Prop} {Q : β → Prop}

theorem yields_pure (h : P a) : Yields P (pure a : Reader α) := by
  intro bs a' rest heq
  obtain rfl : a = a' := congrArg Prod.fst (Except.ok.inj heq)
  exact h

theorem Yields.bind (hr : Yields P r) (hf : ∀ a, P a → Yields Q (f a)) : Yields Q (r >>= f) := by
  intro bs b rest h
  obtain ⟨a, mid, hra, hfa⟩ := bind_eq_ok_iff.mp h
  exact hf a (hr bs a mid hra) mid b rest hfa

theorem Yields.bind_any (hf : ∀ a, Yields Q (f a)) : Yields Q (r >>= f) :=
  Yields.bind (P := fun _ => True) (fun _ _ _ _ => trivial) fun a _ => hf a

theorem Yields.map {g : α → β} (hr : Yields P r) (h : ∀ a, P a → Q (g a)) : Yields Q (g <$> r) :=
  hr.bind fun a ha => yields_pure (h a ha)

theorem yields_rawText : Yields (terminator ∉ ·) rawText :=
  fun _ _ _ h => (rawText_eq_ok_iff.mp h).1

theorem yields_text : Yields Terminable text :=
  yields_rawText.map fun _ h => terminable_decode h

theorem yields_blankedText : Yields Plain (blankedText []) := by
  rw [blankedText_eq_map]
  exact yields_text.map fun s _ => blankControlsBut_nil s ▸ plain_blankControls s

end Yields

/-! ### Bytes -/

/-- The piece is what the reader takes for the value: what follows is left, and a part of the piece
that lacks its end is refused. -/
structure Takes (r : Reader α) (piece : Bytes) (a : α) : Prop where
  whole : ∀ rest, r (piece ++ rest) = .ok (a, rest)
  cut : ∀ k < piece.length, ∃ fault, r (piece.take k) = .error fault

theorem Takes.bind (hr : r.Takes piece a) (hf : (f a).Takes next b) :
    (r >>= f).Takes (piece ++ next) b where
  whole rest := by
    rw [List.append_assoc, bind_of_ok (hr.whole _)]
    exact hf.whole rest
  cut k hk := by
    rcases Nat.lt_or_ge k piece.length with hlt | hge
    · obtain ⟨fault, herror⟩ := hr.cut k hlt
      rw [List.take_append_of_le_length (Nat.le_of_lt hlt)]
      exact ⟨fault, bind_of_error herror f⟩
    · have hnext : k - piece.length < next.length := by
        rw [List.length_append] at hk
        omega
      obtain ⟨fault, herror⟩ := hf.cut _ hnext
      rw [List.take_append, List.take_of_length_le hge, bind_of_ok (hr.whole _)]
      exact ⟨fault, herror⟩

theorem Takes.map (hr : r.Takes piece a) (g : α → β) : (g <$> r).Takes piece (g a) where
  whole rest := map_of_ok (hr.whole rest) g
  cut k hk := by
    obtain ⟨fault, herror⟩ := hr.cut k hk
    exact ⟨fault, bind_of_error herror fun a => pure (g a)⟩

/-- Whatever the reader accepts, it takes a piece of at least so many bytes off the front. -/
def Delimits (least : Nat) (r : Reader α) : Prop :=
  ∀ bs a rest, r bs = .ok (a, rest) →
    ∃ piece, bs = piece ++ rest ∧ least ≤ piece.length ∧ r.Takes piece a

theorem delimits_pure (a : α) : Delimits 0 (pure a : Reader α) := by
  intro bs a' rest h
  obtain ⟨rfl, rfl⟩ := Prod.mk.inj (Except.ok.inj h)
  exact ⟨[], rfl, Nat.zero_le _, fun _ => rfl, fun _ hk => absurd hk (Nat.not_lt_zero _)⟩

theorem delimits_throw (fault : Fault) : Delimits n (throw fault : Reader α) := by
  intro bs a rest h
  cases h

theorem Delimits.bind (hr : Delimits m r) (hf : ∀ a, Delimits n (f a)) :
    Delimits (m + n) (r >>= f) := by
  intro bs b rest h
  obtain ⟨a, mid, hra, hfa⟩ := bind_eq_ok_iff.mp h
  obtain ⟨piece, hbs, hm, hpiece⟩ := hr bs a mid hra
  obtain ⟨next, hmid, hn, hnext⟩ := hf a mid b rest hfa
  refine ⟨piece ++ next, ?_, ?_, hpiece.bind hnext⟩
  · rw [hbs, hmid, List.append_assoc]
  · rw [List.length_append]
    exact Nat.add_le_add hm hn

theorem Delimits.map (hr : Delimits n r) (g : α → β) : Delimits n (g <$> r) :=
  hr.bind fun a => delimits_pure (g a)

theorem Delimits.mono (hr : Delimits n r) (h : m ≤ n) : Delimits m r := by
  intro bs a rest hra
  obtain ⟨piece, hbs, hn, hpiece⟩ := hr bs a rest hra
  exact ⟨piece, hbs, Nat.le_trans h hn, hpiece⟩

theorem Delimits.length_le (hr : Delimits n r) (h : r bs = .ok (a, rest)) :
    n + rest.length ≤ bs.length := by
  obtain ⟨piece, rfl, hn, -⟩ := hr bs a rest h
  rw [List.length_append]
  exact Nat.add_le_add_right hn _

/-! ### Fields -/

theorem delimits_byte : Delimits 1 byte := by
  intro bs b rest h
  cases bs with
  | nil => cases h
  | cons b' bs =>
    obtain ⟨rfl, rfl⟩ := Prod.mk.inj (Except.ok.inj h)
    refine ⟨[b'], rfl, Nat.le_refl 1, fun _ => rfl, fun k hk => ?_⟩
    obtain rfl : k = 0 := Nat.lt_one_iff.mp hk
    exact ⟨.truncated, rfl⟩

theorem delimits_rawText : Delimits 1 rawText := by
  intro bs raw rest h
  obtain ⟨hraw, rfl⟩ := rawText_eq_ok_iff.mp h
  refine ⟨raw ++ [terminator], by simp, by simp, fun rest => ?_, fun k hk => ?_⟩
  · rw [List.append_assoc]
    exact rawText_append hraw rest
  · -- The terminator is the last byte of the piece.
    have hle : k ≤ raw.length := by
      rw [List.length_append, List.length_singleton] at hk
      omega
    rw [List.take_append_of_le_length hle]
    exact ⟨_, rawText_of_unterminated fun hmem => hraw (List.mem_of_mem_take hmem)⟩

theorem delimits_text : Delimits 1 text := delimits_rawText.map _

theorem delimits_blankedText (keep : Bytes) : Delimits 1 (blankedText keep) :=
  delimits_rawText.map _

theorem continuation_succ (limit : Nat) :
    (Varint.continuation (limit + 1) : Reader Nat) = byte >>= fun b =>
      if b < 128 then pure b.toNat
      else (fun high => b.toNat % 128 + 128 * high) <$>
        (Varint.continuation limit : Reader Nat) := by
  funext bs
  cases bs with
  | nil => rfl
  | cons b bs =>
    have hbyte : byte (b :: bs) = .ok (b, bs) := rfl
    show Varint.continuation (limit + 1) (b :: bs) = _
    rw [Varint.continuation, bind_of_ok hbyte]
    split_ifs <;> rfl

theorem delimits_continuation (limit : Nat) :
    Delimits 0 (Varint.continuation limit : Reader Nat) := by
  induction limit with
  | zero => exact delimits_throw .oversizedInteger
  | succ limit ih =>
    rw [continuation_succ]
    refine (delimits_byte.bind (n := 0) fun b => ?_).mono (Nat.zero_le _)
    split_ifs
    · exact delimits_pure _
    · exact ih.map _

theorem int_eq : int = byte >>= fun b =>
    if b < 128 then pure (Varint.ofMagnitude (b.toNat / 64 % 2 = 1) (b.toNat % 64))
    else (fun high => Varint.ofMagnitude (b.toNat / 64 % 2 = 1) (b.toNat % 64 + 64 * high)) <$>
      (Varint.continuation (Varint.maxLength - 1) : Reader Nat) := by
  funext bs
  cases bs with
  | nil => rfl
  | cons b bs =>
    have hbyte : byte (b :: bs) = .ok (b, bs) := rfl
    show Varint.decode (b :: bs) = _
    rw [Varint.decode, bind_of_ok hbyte]
    dsimp only
    split_ifs <;> rfl

theorem delimits_int : Delimits 1 int := by
  rw [int_eq]
  refine delimits_byte.bind (n := 0) fun b => ?_
  split_ifs
  · exact delimits_pure _
  · exact (delimits_continuation _).map _

end Reader
end ServerDiscovery.Wire
