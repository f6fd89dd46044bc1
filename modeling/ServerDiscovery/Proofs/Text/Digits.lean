import Mathlib.Algebra.Ring.Nat
import Mathlib.Data.List.Basic
import Mathlib.Data.List.TakeWhile
import ServerDiscovery.Address.Text

/-! Numbers in digits are read as they were written, wherever the run of digits is seen to end. -/

namespace ServerDiscovery.Text

variable {b n : Nat}

theorem digit?_digitChar {d : Nat} (hb : b ≤ 16) (hd : d < b) :
    digit? b (Nat.digitChar d) = some d := by
  have hall : ∀ b : Fin 17, ∀ d : Fin 16, d.val < b.val →
      digit? b (Nat.digitChar d) = some d.val := by
    decide
  exact hall ⟨b, by omega⟩ ⟨d, by omega⟩ hd

theorem digits_of_lt (hb : 2 ≤ b) (h : n < b) : digits b n = [Nat.digitChar n] := by
  rw [digits, if_pos (by omega)]

theorem digits_of_le (hb : 2 ≤ b) (h : b ≤ n) :
    digits b n = digits b (n / b) ++ [Nat.digitChar (n % b)] := by
  rw [digits, if_neg (by omega), Nat.max_eq_left hb]

theorem digits_induction {P : Nat → List Char → Prop} (hb : 2 ≤ b)
    (single : ∀ d, d < b → P d [Nat.digitChar d])
    (more : ∀ n, b ≤ n → P (n / b) (digits b (n / b)) →
      P n (digits b (n / b) ++ [Nat.digitChar (n % b)])) (n : Nat) : P n (digits b n) := by
  induction n using Nat.strongRecOn with
  | ind n ih =>
    rcases Nat.lt_or_ge n b with h | h
    · rw [digits_of_lt hb h]
      exact single n h
    · rw [digits_of_le hb h]
      exact more n h (ih _ (Nat.div_lt_self (by omega) (by omega)))

theorem ofDigits_append_singleton (cs : List Char) (c : Char) :
    ofDigits b (cs ++ [c]) = ofDigits b cs * b + (digit? b c).getD 0 := by
  simp only [ofDigits, List.foldl_append, List.foldl_cons, List.foldl_nil]

theorem ofDigits_digits (hb : 2 ≤ b) (hb' : b ≤ 16) (n : Nat) : ofDigits b (digits b n) = n := by
  refine digits_induction (P := fun n cs => ofDigits b cs = n) hb ?_ ?_ n
  · intro d hd
    simp only [ofDigits, List.foldl_cons, List.foldl_nil, digit?_digitChar hb' hd]
    simp
  · intro n h ih
    have hlast : n % b < b := Nat.mod_lt _ (by omega)
    rw [ofDigits_append_singleton, ih, digit?_digitChar hb' hlast]
    exact Nat.div_add_mod' n b

theorem isDigit_of_mem_digits (hb : 2 ≤ b) (hb' : b ≤ 16) (n : Nat) :
    ∀ c ∈ digits b n, isDigit b c = true := by
  refine digits_induction (P := fun _ cs => ∀ c ∈ cs, isDigit b c = true) hb ?_ ?_ n
  · intro d hd c hc
    rw [List.mem_singleton.mp hc, isDigit, digit?_digitChar hb' hd]
    rfl
  · intro n h ih c hc
    rcases List.mem_append.mp hc with hc | hc
    · exact ih c hc
    · have hlast : n % b < b := Nat.mod_lt _ (by omega)
      rw [List.mem_singleton.mp hc, isDigit, digit?_digitChar hb' hlast]
      rfl

theorem digits_ne_nil (b n : Nat) : digits b n ≠ [] := by
  rw [digits]
  split <;> simp

theorem length_digits_le (hb : 2 ≤ b) {k : Nat} (hk : 0 < k) (h : n < b ^ k) :
    (digits b n).length ≤ k := by
  revert k
  refine digits_induction (P := fun n cs => ∀ {k}, 0 < k → n < b ^ k → cs.length ≤ k) hb ?_ ?_ n
  · intro d _ k hk _
    exact hk
  · intro n hn ih k hk h
    -- A number of several digits is not below the base, so there is room for one digit less.
    obtain ⟨k, rfl⟩ := Nat.exists_eq_add_of_lt hk
    rw [Nat.zero_add, Nat.pow_succ] at h
    have hdiv : n / b < b ^ k := (Nat.div_lt_iff_lt_mul (by omega)).mpr h
    have hpos : 0 < n / b := Nat.div_pos hn (by omega)
    have hk' : 0 < k := by
      rcases Nat.eq_zero_or_pos k with rfl | hk
      · simp at hdiv; omega
      · exact hk
    have := ih hk' hdiv
    simp only [List.length_append, List.length_singleton]
    omega

theorem digitChar_ne_zero {d : Nat} (hb : b ≤ 16) (hd : d < b) (h : d ≠ 0) :
    Nat.digitChar d ≠ '0' := by
  have hall : ∀ d : Fin 16, d.val ≠ 0 → Nat.digitChar d ≠ '0' := by decide
  exact hall ⟨d, by omega⟩ h

theorem head?_digits (hb : 2 ≤ b) (hb' : b ≤ 16) (h : n ≠ 0) : (digits b n).head? ≠ some '0' := by
  revert h
  refine digits_induction (P := fun n cs => n ≠ 0 → cs.head? ≠ some '0') hb ?_ ?_ n
  · intro d hd h
    simpa using digitChar_ne_zero hb' hd h
  · intro n hn ih _
    rw [List.head?_append_of_ne_nil _ (digits_ne_nil b _)]
    exact ih (Nat.pos_iff_ne_zero.mp (Nat.div_pos hn (by omega)))

end ServerDiscovery.Text

namespace ServerDiscovery.Scan

open Text

variable {b n bound : Nat} {rest : List Char}

def Delimited (b : Nat) (rest : List Char) : Prop := ∀ c ∈ rest.head?, isDigit b c = false

theorem Delimited.nil (b : Nat) : Delimited b [] := by simp [Delimited]

theorem Delimited.cons {c : Char} (h : isDigit b c = false) : Delimited b (c :: rest) := by
  simpa [Delimited] using h

theorem Delimited.takeWhile (h : Delimited b rest) {cs : List Char}
    (hcs : ∀ c ∈ cs, isDigit b c = true) :
    (cs ++ rest).takeWhile (isDigit b) = cs ∧ (cs ++ rest).dropWhile (isDigit b) = rest := by
  rw [List.takeWhile_append_of_pos hcs, List.dropWhile_append_of_pos hcs]
  cases rest with
  | nil => simp
  | cons c rest =>
    have hc : isDigit b c = false := h c rfl
    simp [hc]

structure Numeral (b : Nat) (most : Option Nat) (leadingZeros : Bool) (bound : Nat)
    (ds : List Char) (n : Nat) : Prop where
  digits : ∀ c ∈ ds, isDigit b c = true
  nonempty : ds ≠ []
  short : ∀ m ∈ most, ds.length ≤ m
  proper : leadingZeros = false → ds.head? = some '0' → ds.length ≤ 1
  value : ofDigits b ds = n
  bounded : n ≤ bound

theorem delimited_dropWhile (b : Nat) (cs : List Char) :
    Delimited b (cs.dropWhile (isDigit b)) := by
  intro c hc
  have hnot := List.head?_dropWhile_not (isDigit b) cs
  rw [hc] at hnot
  simpa using hnot

theorem number_eq_some_iff {most : Option Nat} {leadingZeros : Bool} {cs : List Char} :
    number b most leadingZeros bound cs = some (n, rest) ↔
      ∃ ds, cs = ds ++ rest ∧ Numeral b most leadingZeros bound ds n ∧ Delimited b rest := by
  constructor
  · intro h
    unfold number at h
    dsimp only at h
    split at h
    · cases h
    · rename_i hfine
      obtain ⟨rfl, rfl⟩ := Prod.mk.inj (Option.some.inj h)
      simp only [not_or, not_exists, not_and, not_lt] at hfine
      obtain ⟨hnil, hshort, hbounded, hproper⟩ := hfine
      exact ⟨cs.takeWhile (isDigit b), List.takeWhile_append_dropWhile.symm,
        ⟨fun c hc => List.mem_takeWhile_imp hc, hnil, hshort, hproper, rfl, hbounded⟩,
        delimited_dropWhile b cs⟩
  · rintro ⟨ds, rfl, h, hrest⟩
    obtain ⟨htake, hdrop⟩ := hrest.takeWhile h.digits
    unfold number
    rw [htake, hdrop]
    dsimp only
    rw [h.value]
    apply if_neg
    -- None of the reasons to refuse a number applies.
    rintro (hnil | ⟨m, hm, hlt⟩ | hlt | ⟨hzeros, hzero, hlong⟩)
    · exact h.nonempty hnil
    · exact absurd (h.short m hm) (by omega)
    · exact absurd h.bounded (by omega)
    · exact absurd (h.proper hzeros hzero) (by omega)

theorem numeral_digits (hb : 2 ≤ b) (hb' : b ≤ 16) (hn : n ≤ bound) {most : Option Nat}
    (hmost : ∀ m ∈ most, (digits b n).length ≤ m) (leadingZeros : Bool) :
    Numeral b most leadingZeros bound (digits b n) n where
  digits := isDigit_of_mem_digits hb hb' n
  nonempty := digits_ne_nil b n
  short := hmost
  proper := by
    intro _ hzero
    obtain rfl : n = 0 := by_contra fun h => head?_digits hb hb' h hzero
    rw [digits_of_lt hb (by omega)]
    exact Nat.le_refl 1
  value := ofDigits_digits hb hb' n
  bounded := hn

theorem number_of_delimited (h : Delimited b rest) (most : Option Nat) (leadingZeros : Bool) :
    number b most leadingZeros bound rest = none := by
  have hnil : ∀ c ∈ ([] : List Char), isDigit b c = true := List.forall_mem_nil _
  have htake := (h.takeWhile hnil).1
  unfold number
  rw [List.nil_append] at htake
  rw [htake]
  exact if_pos (.inl rfl)

end ServerDiscovery.Scan
