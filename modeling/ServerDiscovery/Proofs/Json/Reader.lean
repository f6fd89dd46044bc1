import Mathlib.Tactic.SplitIfs
import ServerDiscovery.Json.Printer
import ServerDiscovery.Json.Reader
import ServerDiscovery.Proofs.Reading
import ServerDiscovery.Proofs.Text.Digits

/-! Texts and whole numbers are read from JSON as they were written into it, whatever closes
them. -/

namespace ServerDiscovery.Json

open Reading Text

variable {α β : Type} {c : Char} {cs rest : List Char} {n : Nat}

/-! ### Texts -/

theorem hex4_digits {a b c d : Nat} (ha : a < 16) (hb : b < 16) (hc : c < 16) (hd : d < 16)
    (rest : List Char) :
    hex4 (Nat.digitChar a :: Nat.digitChar b :: Nat.digitChar c :: Nat.digitChar d :: rest)
      = .ok (((a * 16 + b) * 16 + c) * 16 + d) := by
  have hread : ∀ {x : Nat}, x < 16 → digit? 16 (Nat.digitChar x) = some x :=
    fun hx => digit?_digitChar (Nat.le_refl 16) hx
  have hsize : ∀ x : Nat, 0 < (Nat.digitChar x).utf8Size := fun x => Char.utf8Size_pos _
  have hlong : ¬ [Nat.digitChar a, Nat.digitChar b, Nat.digitChar c, Nat.digitChar d].foldl
      (fun n c => n + c.utf8Size) 0 < 4 := by
    have := hsize a
    have := hsize b
    have := hsize c
    have := hsize d
    simp only [List.foldl_cons, List.foldl_nil]
    omega
  have hdigits : [Nat.digitChar a, Nat.digitChar b, Nat.digitChar c, Nat.digitChar d].all
      (isDigit 16) = true := by
    simp only [List.all_cons, List.all_nil, isDigit, hread ha, hread hb, hread hc, hread hd]
    rfl
  have hvalue : ofDigits 16 [Nat.digitChar a, Nat.digitChar b, Nat.digitChar c, Nat.digitChar d]
      = ((a * 16 + b) * 16 + c) * 16 + d := by
    simp only [ofDigits, List.foldl_cons, List.foldl_nil, hread ha, hread hb, hread hc, hread hd,
      Option.getD_some]
    omega
  have hfour : 4 ≤ (Nat.digitChar a :: Nat.digitChar b :: Nat.digitChar c :: Nat.digitChar d
      :: rest).length := by
    simp only [List.length_cons]
    omega
  unfold hex4
  exact (if_neg hlong).trans ((if_pos ⟨hfour, hdigits⟩).trans (congrArg _ hvalue))

theorem escape_number (h : hex4 cs = .ok n) (hlow : isLowSurrogate n = false)
    (hhigh : isHighSurrogate n = false) : escape ('u' :: cs) = .ok (Char.ofNat n, 5) := by
  show (hex4 cs).bind _ = _
  rw [h]
  simp only [Except.bind, hlow, hhigh, Bool.false_eq_true, if_false]
  rfl

theorem escape_control (h : c.toNat < 0x20) (rest : List Char) :
    escape ('u' :: '0' :: '0' :: Nat.digitChar (c.toNat / 16) :: Nat.digitChar (c.toNat % 16)
      :: rest) = .ok (c, 5) := by
  have hhex := hex4_digits (a := 0) (b := 0) (c := c.toNat / 16) (d := c.toNat % 16)
    (by omega) (by omega) (by omega) (by omega) rest
  have hvalue : ((0 * 16 + 0) * 16 + c.toNat / 16) * 16 + c.toNat % 16 = c.toNat := by omega
  rw [hvalue] at hhex
  have hlow : isLowSurrogate c.toNat = false := by
    simp only [isLowSurrogate, Bool.and_eq_false_iff, decide_eq_false_iff_not]
    omega
  have hhigh : isHighSurrogate c.toNat = false := by
    simp only [isHighSurrogate, Bool.and_eq_false_iff, decide_eq_false_iff_not]
    omega
  have hread := escape_number hhex hlow hhigh
  rw [Char.ofNat_toNat] at hread
  exact hread

theorem textBody_escape (written : List Char)
    (h : escape (written ++ rest) = .ok (c, written.length)) :
    textBody ('\\' :: (written ++ rest)) = (fun p => (c :: p.1, p.2)) <$> textBody rest := by
  rw [textBody, if_neg (by decide), if_pos rfl]
  show (escape (written ++ rest)).bind _ = _
  rw [h]
  show (textBody ((written ++ rest).drop written.length)).bind _ = _
  rw [List.drop_left]
  cases textBody rest <;> rfl

theorem textBody_plain (hquote : c ≠ '"') (hescape : c ≠ '\\') (hlow : ¬ c.toNat < 0x20)
    (rest : List Char) : textBody (c :: rest) = (fun p => (c :: p.1, p.2)) <$> textBody rest := by
  rw [textBody, if_neg hquote, if_neg hescape, if_neg hlow]
  cases textBody rest <;> rfl

theorem textBody_escapedChar (c : Char) (rest : List Char) :
    textBody (escapedChar c ++ rest) = (fun p => (c :: p.1, p.2)) <$> textBody rest := by
  unfold escapedChar
  split
  case h_8 hquote hescape _ _ _ _ _ =>
    split_ifs with hlow
    · exact textBody_escape ['u', '0', '0', _, _] (escape_control hlow rest)
    · exact textBody_plain hquote hescape hlow rest
  all_goals exact textBody_escape [_] rfl

theorem textBody_written (cs rest : List Char) :
    textBody (cs.flatMap escapedChar ++ '"' :: rest) = .ok (cs, rest) := by
  induction cs with
  | nil =>
    rw [List.flatMap_nil, List.nil_append, textBody]
    exact if_pos rfl
  | cons c cs ih =>
    rw [List.flatMap_cons, List.append_assoc, textBody_escapedChar, ih]
    rfl

theorem string_written (s : String) (rest : List Char) :
    (String.ofList <$> (textBody : Reader (List Char)) : Reader String)
      (s.toList.flatMap escapedChar ++ '"' :: rest) = .ok (s, rest) := by
  have hbody := textBody_written s.toList rest
  rw [map_of_ok hbody, String.ofList_toList]

theorem required_cons (h : isBlank c = false) (cs : List Char) :
    required (c :: cs) = .ok (c, c :: cs) := by
  have hnext : upcoming (c :: cs) = .ok (some c, c :: cs) := by
    unfold upcoming
    rw [List.dropWhile_cons_of_neg (Bool.not_eq_true _ ▸ h)]
    rfl
  unfold required
  rw [bind_of_ok hnext]
  rfl

theorem advance_cons (c : Char) (cs : List Char) : advance (c :: cs) = .ok ((), cs) := rfl

theorem text_written (s : String) (rest : List Char) :
    text (writeText s ++ rest) = .ok (s, rest) := by
  unfold text writeText
  rw [List.append_assoc, List.cons_append, List.singleton_append,
    bind_of_ok (required_cons rfl _), if_pos rfl, bind_of_ok (advance_cons ..), string_written]

/-! ### Whole numbers -/

/-- Behind a value: nothing, or what closes it. -/
def Closed (rest : List Char) : Prop := ∀ c ∈ rest.head?, c = ',' ∨ c = ']' ∨ c = '\x7d'

theorem Closed.head? (h : Closed rest) : rest.head? = none ∨ rest.head? = some ',' ∨
    rest.head? = some ']' ∨ rest.head? = some '\x7d' := by
  cases rest with
  | nil => exact .inl rfl
  | cons c rest => exact .inr (by simpa using h c rfl)

theorem Closed.delimited (h : Closed rest) : Scan.Delimited 10 rest := by
  intro c hc
  rcases h c hc with rfl | rfl | rfl <;> rfl

theorem foldl_digits_le (significand : Nat) (ds : List Char) :
    significand ≤ ds.foldl (fun n c => n * 10 + (digit? 10 c).getD 0) significand := by
  induction ds generalizing significand with
  | nil => exact Nat.le_refl _
  | cons d ds ih =>
    have hdigit := ih (significand * 10 + (digit? 10 d).getD 0)
    rw [List.foldl_cons]
    omega

theorem absorb_of_le {significand : Nat} {ds : List Char}
    (h : ds.foldl (fun n c => n * 10 + (digit? 10 c).getD 0) significand ≤ maxSignificand) :
    absorb significand ds =
      (ds.foldl (fun n c => n * 10 + (digit? 10 c).getD 0) significand, ds.length) := by
  induction ds generalizing significand with
  | nil => rfl
  | cons d ds ih =>
    have hnext : significand * 10 + ofDigits 10 [d] = significand * 10 + (digit? 10 d).getD 0 := by
      simp only [ofDigits, List.foldl_cons, List.foldl_nil, Nat.zero_mul, Nat.zero_add]
    have hle := Nat.le_trans (foldl_digits_le _ ds) h
    rw [absorb, hnext, if_neg (Nat.not_lt.mpr hle)]
    dsimp only
    rw [ih h]
    rfl

theorem number_decimal {negative : Bool} (hn : n ≤ maxSignificand) (hsign : negative = true → n ≠ 0)
    (h : Closed rest) : number negative (decimal n ++ rest) =
      .ok (.whole (if negative then -n else n), rest) := by
  have hne : decimal n ≠ [] := digits_ne_nil 10 n
  have hrun : digitRun (decimal n ++ rest) = .ok (decimal n, rest) := by
    obtain ⟨htake, hdrop⟩ := h.delimited.takeWhile (isDigit_of_mem_digits (by omega) (by omega) n)
    unfold digitRun decimal
    rw [htake, hdrop]
  have hvalue : ofDigits 10 (decimal n) = n := ofDigits_digits (by omega) (by omega) n
  have habsorb : absorb 0 (decimal n) = (n, (decimal n).length) :=
    (absorb_of_le (Nat.le_trans (Nat.le_of_eq hvalue) hn)).trans (congrArg (·, _) hvalue)
  have hproper : ¬ ((decimal n).isEmpty = true ∨
      (decimal n).head? = some '0' ∧ 1 < (decimal n).length) := by
    rintro (hempty | ⟨hzero, hlong⟩)
    · exact hne (List.isEmpty_iff.mp hempty)
    · obtain rfl : n = 0 := by_contra fun hn => head?_digits (by omega) (by omega) hn hzero
      rw [decimal, digits_of_lt (by omega) (by omega)] at hlong
      exact absurd hlong (by decide)
  unfold number
  rw [bind_of_ok rfl]
  dsimp only
  rw [if_neg (by simp [hne]), bind_of_ok hrun, if_neg hproper, habsorb]
  dsimp only
  rw [bind_of_ok rfl]
  have hwhole : (if 0 < ((decimal n).length : Int) - (decimal n).length then
      finite n ((decimal n).length - (decimal n).length)
    else if negative = true then pure (if n = 0 then Number.real else Number.whole (-n))
    else pure (Number.whole n) : Reader Number) rest =
      .ok (.whole (if negative then -n else n), rest) := by
    rw [Int.sub_self, if_neg (Int.lt_irrefl 0)]
    cases negative with
    | false => rfl
    | true =>
      rw [if_pos rfl, if_neg (hsign rfl)]
      rfl
  -- What closes the number begins neither a fraction nor an exponent.
  rcases h.head? with hhead | hhead | hhead | hhead
  all_goals
    rw [hhead]
    exact hwhole

theorem isBlank_of_isDigit (h : isDigit 10 c = true) : isBlank c = false := by
  by_contra hblank
  simp only [isBlank, Bool.not_eq_false, Bool.or_eq_true, decide_eq_true_eq, or_assoc] at hblank
  rcases hblank with rfl | rfl | rfl | rfl <;> exact absurd h (by decide)

theorem exists_decimal (n : Nat) : ∃ d ds, decimal n = d :: ds ∧ isDigit 10 d = true := by
  obtain ⟨d, ds, hcons⟩ := List.exists_cons_of_ne_nil (digits_ne_nil 10 n)
  exact ⟨d, ds, hcons, isDigit_of_mem_digits (by omega) (by omega) n d (by simp [hcons])⟩

theorem integer_written {low high v : Int} (hlow : low ≤ v) (hhigh : v ≤ high)
    (hsize : v.natAbs ≤ maxSignificand) (h : Closed rest) :
    integer low high (writeInt v ++ rest) = .ok (v, rest) := by
  have hrange : low ≤ v ∧ v ≤ high := ⟨hlow, hhigh⟩
  unfold integer writeInt signedDecimal
  split_ifs with hneg
  · have hread := number_decimal (n := v.natAbs) hsize (fun _ : true = true => by omega) h
    have hvalue : (if true = true then -(v.natAbs : Int) else v.natAbs) = v := by
      rw [if_pos rfl]
      omega
    rw [hvalue] at hread
    rw [List.cons_append, bind_of_ok (required_cons rfl _)]
    dsimp only
    rw [if_pos rfl, bind_of_ok (advance_cons ..), bind_of_ok hread]
    dsimp only
    rw [if_pos hrange]
    rfl
  · obtain ⟨d, ds, hcons, hdigit⟩ := exists_decimal v.natAbs
    have hread := number_decimal (n := v.natAbs) hsize (fun h : false = true => nomatch h) h
    have hvalue : (if false = true then -(v.natAbs : Int) else v.natAbs) = v := by
      rw [if_neg Bool.false_ne_true]
      omega
    have hsign : d ≠ '-' := by
      rintro rfl
      exact absurd hdigit (by decide)
    rw [hvalue, hcons] at hread
    rw [hcons, List.cons_append, bind_of_ok (required_cons (isBlank_of_isDigit hdigit) _)]
    dsimp only
    rw [if_neg hsign, if_pos hdigit]
    refine (bind_of_ok hread _).trans ?_
    dsimp only
    rw [if_pos hrange]
    rfl

/-! ### Values -/

/-- The value is read from its text, whatever closes it. -/
def Restores (read : Reader α) (written : List Char) (a : α) : Prop :=
  ∀ rest, Closed rest → read (written ++ rest) = .ok (a, rest)

theorem Restores.map {read : Reader α} {written : List Char} {a : α} (h : Restores read written a)
    (f : α → β) : Restores (f <$> read) written (f a) :=
  fun rest hrest => map_of_ok (h rest hrest) f

theorem restores_text (s : String) : Restores text (writeText s) s :=
  fun rest _ => text_written s rest

theorem restores_int32 (v : Int32) : Restores int32 (writeInt v.toInt) v := by
  intro rest hrest
  have hlow : -2147483648 ≤ v.toInt := v.le_toInt
  have hhigh : v.toInt < 2147483648 := v.toInt_lt
  have hread : integer (-2147483648) 2147483647 (writeInt v.toInt ++ rest) = .ok (v.toInt, rest) :=
    integer_written hlow (by omega) (by unfold maxSignificand; omega) hrest
  unfold int32
  rw [map_of_ok hread, Int32.ofInt_toInt]

theorem restores_uint8 (b : UInt8) : Restores uint8 (writeInt b.toNat) b := by
  intro rest hrest
  have hlt := b.toNat_lt
  have hread : integer 0 255 (writeInt b.toNat ++ rest) = .ok ((b.toNat : Int), rest) :=
    integer_written (by omega) (by omega) (by unfold maxSignificand; omega) hrest
  unfold uint8
  rw [map_of_ok hread, Int.toNat_natCast, UInt8.ofNat_toNat]

theorem document_of_restores {read : Reader α} {written : List Char} {a : α}
    (h : Restores read written a) : document read (String.ofList written) = .ok a := by
  have hread := h [] (by simp [Closed])
  rw [List.append_nil] at hread
  unfold document
  rw [String.toList_ofList, hread]
  rfl

end ServerDiscovery.Json
