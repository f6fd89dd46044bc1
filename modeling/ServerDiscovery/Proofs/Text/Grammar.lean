import ServerDiscovery.Proofs.Text.Lossy

/-! What bytes say as text, told without decoding them: characters spelled one behind the other, and
between them the maximal parts that spell none, each of which counts as one replacement. -/

namespace ServerDiscovery.Text

variable {lead : Lead} {b t : UInt8} {bs ps ts part rest : Bytes} {c : Char} {cs : List Char}

/-! ### Spelling -/

theorem IsTail.toNat_bounds (ht : IsTail t) : 0x80 ≤ t.toNat ∧ t.toNat ≤ 0xbf :=
  ⟨UInt8.le_iff_toNat_le.mp ht.1, UInt8.le_iff_toNat_le.mp ht.2⟩

theorem tailBits_inj (hb : IsTail b) (ht : IsTail t) (h : tailBits b = tailBits t) : b = t := by
  have hbounds := hb.toNat_bounds
  have hbounds' := ht.toNat_bounds
  unfold tailBits at h
  exact UInt8.toNat_inj.mp (by omega)

theorem foldl_tailBits_inj {n m : Nat} {us : Bytes} (hlen : ts.length = us.length)
    (hts : ∀ t ∈ ts, IsTail t) (hus : ∀ u ∈ us, IsTail u)
    (h : ts.foldl (fun n t => n * 64 + tailBits t) n = us.foldl (fun n t => n * 64 + tailBits t) m) :
    n = m ∧ ts = us := by
  induction ts generalizing n m us with
  | nil =>
    obtain rfl := List.length_eq_zero_iff.mp hlen.symm
    exact ⟨h, rfl⟩
  | cons t ts ih =>
    obtain ⟨u, us, rfl⟩ := List.exists_cons_of_length_eq_add_one hlen.symm
    obtain ⟨ht, hts⟩ := List.forall_mem_cons.mp hts
    obtain ⟨hu, hus⟩ := List.forall_mem_cons.mp hus
    rw [List.foldl_cons, List.foldl_cons] at h
    obtain ⟨hdigits, rfl⟩ := ih (Nat.succ.inj hlen) hts hus h
    have htbits : tailBits t < 64 := Nat.mod_lt _ (by decide)
    have hubits : tailBits u < 64 := Nat.mod_lt _ (by decide)
    obtain rfl := tailBits_inj ht hu (by omega)
    exact ⟨by omega, rfl⟩

theorem leadBits_inj {b' : UInt8} {lead' : Lead} (hlead : Lead.of? b = some lead)
    (hlead' : Lead.of? b' = some lead') (htails : lead.tails = lead'.tails)
    (h : leadBits lead b = leadBits lead' b') : b = b' := by
  obtain ⟨-, hrow⟩ := lead_row hlead
  obtain ⟨-, hrow'⟩ := lead_row hlead'
  exact UInt8.toNat_inj.mp (by omega)

theorem Spelling.tailCount_eq (h : Spelling c bs) : tailCount c.val.toNat + 1 = bs.length := by
  cases h with
  | @ascii b small value =>
    have hzero : tailCount b.toNat = 0 := if_pos (UInt8.lt_iff_toNat_lt.mp small)
    rw [value, hzero]
    rfl
  | lead first admits complete value =>
    rw [value, (admits.isValidChar first complete).2, ← complete, List.length_cons]

theorem Spelling.unique {bs' : Bytes} (h : Spelling c bs) (h' : Spelling c bs') : bs = bs' := by
  have hlen := h.tailCount_eq.symm.trans h'.tailCount_eq
  cases h with
  | ascii small value =>
    cases h' with
    | ascii small' value' => rw [UInt8.toNat_inj.mp (value.symm.trans value')]
    | lead first' admits' complete' value' =>
      exact absurd (complete'.symm.trans (Nat.succ.inj hlen).symm) (tails_ne_zero first')
  | lead first admits complete value =>
    cases h' with
    | ascii small' value' =>
      exact absurd (complete.symm.trans (Nat.succ.inj hlen)) (tails_ne_zero first)
    | lead first' admits' complete' value' =>
      have hlen := Nat.succ.inj hlen
      obtain ⟨hbits, rfl⟩ := foldl_tailBits_inj hlen (admits.isTail first) (admits'.isTail first')
        (value.symm.trans value')
      rw [leadBits_inj first first' (complete.symm.trans complete') hbits]

theorem Spelling.eq (h : Spelling c bs) : String.utf8EncodeChar c = bs :=
  (spelling_encode c).unique h

theorem Lead.Admits.of_isPrefix (h : lead.Admits ts) (hps : ps <+: ts) : lead.Admits ps := by
  obtain ⟨more, rfl⟩ := hps
  cases ps with
  | nil => trivial
  | cons t ps =>
    obtain ⟨ht, hts, hlen⟩ := h
    rw [List.append_eq, List.length_append] at hlen
    exact ⟨ht, fun t hmem => hts t (List.mem_append_left more hmem), by omega⟩

theorem Lead.Admits.exists_complete (h : lead.Admits ps) (hlead : Lead.of? b = some lead) :
    ∃ ts, ps <+: ts ∧ lead.Admits ts ∧ ts.length = lead.tails := by
  have htails := tails_ne_zero hlead
  have hfill : ∀ n, ∀ t ∈ List.replicate n (0x80 : UInt8), IsTail t := fun n t ht => by
    rw [List.eq_of_mem_replicate ht]
    exact ⟨by decide, by decide⟩
  cases ps with
  | nil =>
    refine ⟨lead.low :: List.replicate (lead.tails - 1) 0x80, List.nil_prefix,
      ⟨⟨UInt8.le_refl _, (lead_row hlead).1.2.1⟩, hfill _, ?_⟩, ?_⟩
    · rw [List.length_replicate]
      omega
    · rw [List.length_cons, List.length_replicate]
      omega
  | cons t ps =>
    obtain ⟨ht, hps, hlen⟩ := h
    refine ⟨t :: ps ++ List.replicate (lead.tails - (ps.length + 1)) 0x80, List.prefix_append _ _,
      ⟨ht, fun u hu => ?_, ?_⟩, ?_⟩
    · exact (List.mem_append.mp hu).elim (hps u) (hfill _ u)
    · rw [List.append_eq, List.length_append, List.length_replicate]
      omega
    · rw [List.length_append, List.length_cons, List.length_replicate]
      omega

theorem exists_spelling (hlead : Lead.of? b = some lead) (hts : lead.Admits ts)
    (hcomplete : ts.length = lead.tails) : ∃ c, String.utf8EncodeChar c = b :: ts := by
  obtain ⟨hvalid, -⟩ := hts.isValidChar hlead hcomplete
  exact ⟨_, (Spelling.lead hlead hts hcomplete (toNat_ofNat hvalid)).eq⟩

theorem utf8EncodeChar_ascii (hb : b < 0x80) : String.utf8EncodeChar (Char.ofNat b.toNat) = [b] :=
  have hlt : b.toNat < 0xd800 := Nat.lt_trans (UInt8.lt_iff_toNat_lt.mp hb) (by decide)
  (Spelling.ascii hb (toNat_ofNat (Or.inl hlt))).eq

theorem begins_iff (hb : ¬ b < 0x80) : (∃ c, b :: ps <+: String.utf8EncodeChar c) ↔
    ∃ lead, Lead.of? b = some lead ∧ lead.Admits ps := by
  constructor
  · rintro ⟨c, hprefix⟩
    have hspelling := spelling_encode c
    generalize String.utf8EncodeChar c = bs at hprefix hspelling
    cases hspelling with
    | ascii small value =>
      rw [(List.cons_prefix_cons.mp hprefix).1] at hb
      exact absurd small hb
    | lead first admits complete value =>
      obtain ⟨rfl, hps⟩ := List.cons_prefix_cons.mp hprefix
      exact ⟨_, first, admits.of_isPrefix hps⟩
  · rintro ⟨lead, hlead, hadmits⟩
    obtain ⟨ts, hps, hts, hcomplete⟩ := hadmits.exists_complete hlead
    obtain ⟨c, hc⟩ := exists_spelling hlead hts hcomplete
    exact ⟨c, hc.symm ▸ List.cons_prefix_cons.mpr ⟨rfl, hps⟩⟩

/-! ### Parts -/

/-- A part in front of bytes where no character is spelled: all of them that could have begun one, or
a single byte that could not. -/
structure IllFormed (part rest : Bytes) : Prop where
  nonempty : part ≠ []
  unspelled : ∀ c, ¬ String.utf8EncodeChar c <+: part ++ rest
  begins : part.length = 1 ∨ ∃ c, part <+: String.utf8EncodeChar c
  maximal : ∀ longer, longer <+: part ++ rest → part.length < longer.length →
    ∀ c, ¬ longer <+: String.utf8EncodeChar c

/-- What bytes are as characters. -/
inductive Decodes : Bytes → List Char → Prop where
  | nil : Decodes [] []
  | char (c : Char) {rest : Bytes} {cs : List Char} (h : Decodes rest cs) :
    Decodes (String.utf8EncodeChar c ++ rest) (c :: cs)
  | illFormed {part rest : Bytes} {cs : List Char} (hpart : IllFormed part rest)
    (h : Decodes rest cs) : Decodes (part ++ rest) (replacement :: cs)

theorem IllFormed.decodeChars_append (h : IllFormed part rest) :
    decodeChars (part ++ rest) = replacement :: decodeChars rest := by
  obtain ⟨b, ps, rfl⟩ := List.exists_cons_of_ne_nil h.nonempty
  have hb : ¬ b < 0x80 := fun hb =>
    h.unspelled (Char.ofNat b.toNat) (utf8EncodeChar_ascii hb ▸ List.prefix_append [b] (ps ++ rest))
  have hbegins : ps = [] ∨ ∃ lead, Lead.of? b = some lead ∧ lead.Admits ps :=
    h.begins.imp (fun hone => List.length_eq_zero_iff.mp (Nat.succ.inj hone)) (begins_iff hb).mp
  cases hlead : Lead.of? b with
  | none =>
    have hps : ps = [] := hbegins.resolve_right fun ⟨lead, hlead', _⟩ => by
      rw [hlead] at hlead'
      cases hlead'
    rw [hps, List.cons_append, List.nil_append, decodeChars, if_neg hb, hlead]
  | some lead =>
    have hadmits : lead.Admits ps := by
      rcases hbegins with rfl | ⟨lead', hlead', hadmits⟩
      · trivial
      · rw [hlead] at hlead'
        obtain rfl := Option.some.inj hlead'
        exact hadmits
    have hlen : (tailsOf lead (ps ++ rest)).length = ps.length := by
      refine Nat.le_antisymm (Nat.le_of_not_lt fun hlonger => ?_)
        (hadmits.length_le_tailsOf (List.prefix_append ps rest))
      obtain ⟨c, hc⟩ := (begins_iff hb).mpr ⟨lead, hlead, admits_tailsOf hlead (ps ++ rest)⟩
      exact h.maximal _ (List.cons_prefix_cons.mpr ⟨rfl, isPrefix_tailsOf lead _⟩)
        (Nat.succ_lt_succ hlonger) c hc
    have hshort : ps.length ≠ lead.tails := by
      intro hcomplete
      obtain ⟨c, hc⟩ := exists_spelling hlead hadmits hcomplete
      exact h.unspelled c (hc.symm ▸ List.prefix_append _ rest)
    rw [List.cons_append, decodeChars, if_neg hb, hlead]
    dsimp only
    rw [tailsOf_append hlen, if_neg hshort, List.drop_left]

theorem utf8EncodeChar_ne_nil (c : Char) : String.utf8EncodeChar c ≠ [] := by
  have hspelling := spelling_encode c
  generalize String.utf8EncodeChar c = bs at hspelling ⊢
  cases hspelling <;> exact List.cons_ne_nil _ _

theorem illFormed_of_not_lead (hb : ¬ b < 0x80) (hlead : Lead.of? b = none) (rest : Bytes) :
    IllFormed [b] rest := by
  have hnone : ∀ bs, bs ≠ [] → bs <+: [b] ++ rest → ∀ c, ¬ bs <+: String.utf8EncodeChar c := by
    intro bs hne hbs c hprefix
    obtain ⟨b', ps, rfl⟩ := List.exists_cons_of_ne_nil hne
    obtain rfl := (List.cons_prefix_cons.mp hbs).1
    obtain ⟨lead, hlead', -⟩ := (begins_iff hb).mp ⟨c, hprefix⟩
    rw [hlead] at hlead'
    cases hlead'
  refine ⟨List.cons_ne_nil _ _, fun c hc => ?_, .inl rfl, fun longer hlonger hlt => ?_⟩
  · exact hnone _ (utf8EncodeChar_ne_nil c) hc c List.prefix_rfl
  · exact hnone longer (List.ne_nil_of_length_pos (Nat.zero_lt_of_lt hlt)) hlonger

theorem illFormed_of_lead (hlead : Lead.of? b = some lead) (htails : tailsOf lead (ps ++ rest) = ps)
    (hshort : ps.length ≠ lead.tails) : IllFormed (b :: ps) rest := by
  have hb := not_ascii_of_lead hlead
  have hadmits : lead.Admits ps := htails ▸ admits_tailsOf hlead (ps ++ rest)
  have hlongest : ∀ ts, lead.Admits ts → ts <+: ps ++ rest → ts.length ≤ ps.length := by
    intro ts hts hprefix
    have hle := hts.length_le_tailsOf hprefix
    rwa [htails] at hle
  refine ⟨List.cons_ne_nil _ _, fun c hc => ?_, .inr ((begins_iff hb).mpr ⟨lead, hlead, hadmits⟩),
    fun longer hlonger hlt c hc => ?_⟩
  · have hspelling := spelling_encode c
    generalize String.utf8EncodeChar c = bs at hc hspelling
    cases hspelling with
    | ascii small value =>
      obtain ⟨rfl, -⟩ := List.cons_prefix_cons.mp hc
      exact hb small
    | lead first admits complete value =>
      obtain ⟨rfl, hts⟩ := List.cons_prefix_cons.mp hc
      obtain rfl := Option.some.inj (first.symm.trans hlead)
      exact hshort (Nat.le_antisymm hadmits.length_le (complete ▸ hlongest _ admits hts))
  · obtain ⟨b', ts, rfl⟩ := List.exists_cons_of_length_pos (Nat.zero_lt_of_lt hlt)
    obtain ⟨rfl, hts⟩ := List.cons_prefix_cons.mp hlonger
    obtain ⟨lead', hlead', hadmits'⟩ := (begins_iff hb).mp ⟨c, hc⟩
    obtain rfl := Option.some.inj (hlead'.symm.trans hlead)
    exact absurd (hlongest ts hadmits' hts) (Nat.not_le_of_lt (Nat.lt_of_succ_lt_succ hlt))

theorem decodes_decodeChars (bs : Bytes) : Decodes bs (decodeChars bs) := by
  induction bs using decodeChars.induct with
  | case1 =>
    rw [decodeChars]
    exact .nil
  | case2 b rest hb ih =>
    have hchar := Decodes.char (Char.ofNat b.toNat) ih
    rw [utf8EncodeChar_ascii hb] at hchar
    rw [decodeChars_ascii hb]
    exact hchar
  | case3 b rest hb hlead ih =>
    rw [decodeChars, if_neg hb, hlead]
    exact .illFormed (illFormed_of_not_lead hb hlead rest) ih
  | case4 b rest hb lead hlead tails ih =>
    have hrest : tails ++ rest.drop tails.length = rest :=
      List.prefix_iff_eq_append.mp (isPrefix_tailsOf lead rest)
    have htails : tailsOf lead (tails ++ rest.drop tails.length) = tails := congrArg _ hrest
    by_cases hcomplete : tails.length = lead.tails
    · have hadmits := admits_tailsOf hlead rest
      obtain ⟨hvalid, -⟩ := hadmits.isValidChar hlead hcomplete
      have hspelling := (Spelling.lead hlead hadmits hcomplete (toNat_ofNat hvalid)).eq
      have hdecode := decodeChars_lead hlead hadmits hcomplete (rest.drop tails.length)
      have hchar := Decodes.char (Char.ofNat (spelled lead b tails)) ih
      rw [hspelling, ← hdecode] at hchar
      rwa [List.cons_append, hrest] at hchar
    · have hpart := illFormed_of_lead hlead htails hcomplete
      have hdecodes := Decodes.illFormed hpart ih
      rwa [← hpart.decodeChars_append, List.cons_append, hrest] at hdecodes

theorem decodes_iff : Decodes bs cs ↔ decodeChars bs = cs := by
  constructor
  · intro h
    induction h with
    | nil => rw [decodeChars]
    | char c h ih => rw [(spelling_encode c).decodeChars_append, ih]
    | illFormed hpart h ih => rw [hpart.decodeChars_append, ih]
  · rintro rfl
    exact decodes_decodeChars bs

end ServerDiscovery.Text
