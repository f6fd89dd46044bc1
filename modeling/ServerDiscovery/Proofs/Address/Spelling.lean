import ServerDiscovery.Proofs.Text.Digits

/-! What is read as an address: the spellings of IPv4 addresses, of rows of groups and what they
leave out, and of sockets, each read exactly where nothing follows that would belong to it. -/

namespace ServerDiscovery

open Text Scan

/-! ### The grammar -/

inductive Ip4.Spelling : List Char → Ip4 → Prop
  | octets {a b c d : List Char} {ip : Ip4} (ha : Numeral 10 (some 3) false 255 a ip.a.toNat)
      (hb : Numeral 10 (some 3) false 255 b ip.b.toNat)
      (hc : Numeral 10 (some 3) false 255 c ip.c.toNat)
      (hd : Numeral 10 (some 3) false 255 d ip.d.toNat) :
      Spelling (a ++ '.' :: (b ++ '.' :: (c ++ '.' :: d))) ip

def Scan.lead (separator : Char) (first : Bool) : List Char := if first then [] else [separator]

namespace Ip6

/-- Groups with colons between them, and whether the last two are spelled as an IPv4 address. -/
inductive Row : Bool → List Char → List UInt16 → Bool → Prop
  | nil (first : Bool) : Row first [] [] false
  | tail {first : Bool} {w : List Char} {ip : Ip4} (hip : ip.Spelling w) :
      Row first (lead ':' first ++ w) ip.groups true
  | group {first tail4 : Bool} {ds w : List Char} {g : UInt16} {gs : List UInt16}
      (hg : Numeral 16 (some 4) true 65535 ds g.toNat) (hrest : Row false w gs tail4) :
      Row first (lead ':' first ++ (ds ++ w)) (g :: gs) tail4

inductive Spelling : List Char → Ip6 → Prop
  | full {w : List Char} {gs : List UInt16} {tail4 : Bool} (hrow : Row true w gs tail4)
      (hlen : gs.length = 8) : Spelling w (ofGroups gs)
  | shortened {w v : List Char} {gs hs : List UInt16} {tail4 : Bool} (hhead : Row true w gs false)
      (htail : Row true v hs tail4) (hlen : gs.length + hs.length < 8) :
      Spelling (w ++ ':' :: ':' :: v)
        (ofGroups (gs ++ List.replicate (8 - gs.length - hs.length) 0 ++ hs))

end Ip6

/-- An address and a port; an IPv6 address stands in brackets and may have a scope. -/
inductive SocketAddress.Spelling : List Char → SocketAddress → Prop
  | v4 {w ds : List Char} {ip : Ip4} {port : UInt16} (hip : ip.Spelling w)
      (hport : Numeral 10 none true 65535 ds port.toNat) :
      Spelling (w ++ ':' :: ds) (.v4 ip port)
  | v6 {w ds : List Char} {ip : Ip6} {port : UInt16} (hip : ip.Spelling w)
      (hport : Numeral 10 none true 65535 ds port.toNat) :
      Spelling ('[' :: (w ++ ']' :: ':' :: ds)) (.v6 ip port 0 0)
  | zoned {w zone ds : List Char} {ip : Ip6} {port : UInt16} {scope : UInt32} (hip : ip.Spelling w)
      (hscope : Numeral 10 none true 4294967295 zone scope.toNat)
      (hport : Numeral 10 none true 65535 ds port.toNat) :
      Spelling ('[' :: (w ++ '%' :: (zone ++ ']' :: ':' :: ds))) (.v6 ip port 0 scope)

namespace Scan

variable {α β : Type} {cs rest : List Char}

/-! ### Sequences -/

theorem bind_of_eq {scan : Scan α} {x : α} (h : scan cs = some (x, rest)) (f : α → Scan β) :
    (scan >>= f) cs = f x rest := by
  show (scan cs).bind _ = _
  rw [h]
  rfl

theorem bind_of_none {scan : Scan α} (h : scan cs = none) (f : α → Scan β) :
    (scan >>= f) cs = none := by
  show (scan cs).bind _ = _
  rw [h]
  rfl

theorem bind_eq_some_iff {scan : Scan α} {f : α → Scan β} {r : β × List Char} :
    (scan >>= f) cs = some r ↔ ∃ x mid, scan cs = some (x, mid) ∧ f x mid = some r := by
  constructor
  · intro h
    cases hx : scan cs with
    | none =>
      rw [bind_of_none hx] at h
      cases h
    | some p =>
      rw [bind_of_eq hx] at h
      exact ⟨p.1, p.2, rfl, h⟩
  · rintro ⟨x, mid, hx, hf⟩
    rw [bind_of_eq hx, hf]

theorem map_eq_some_iff {scan : Scan α} {f : α → β} {y : β} :
    (f <$> scan) cs = some (y, rest) ↔ ∃ x, scan cs = some (x, rest) ∧ f x = y := by
  show (scan cs).bind _ = _ ↔ _
  cases hx : scan cs with
  | none => exact ⟨nofun, by rintro ⟨x, ⟨⟩, -⟩⟩
  | some p =>
    obtain ⟨x, mid⟩ := p
    constructor
    · intro h
      obtain ⟨rfl, rfl⟩ := Prod.mk.inj (Option.some.inj h)
      exact ⟨x, rfl, rfl⟩
    · rintro ⟨x, ⟨⟩, rfl⟩
      rfl

theorem char_eq_some_iff {c : Char} {u : Unit} : char c cs = some (u, rest) ↔ cs = c :: rest := by
  cases cs with
  | nil => exact ⟨nofun, nofun⟩
  | cons x cs =>
    show (if x = c then some ((), cs) else none) = _ ↔ _
    split_ifs with hx
    · simp [hx]
    · simp [hx]

theorem char_self (c : Char) (rest : List Char) : char c (c :: rest) = some ((), rest) :=
  char_eq_some_iff.mpr rfl

section Item

variable {separator : Char} {first : Bool} {scan : Scan α}

theorem item_lead (separator : Char) (first : Bool) (scan : Scan α) (cs : List Char) :
    item separator first scan (lead separator first ++ cs) = scan cs := by
  cases first with
  | true => rfl
  | false => exact bind_of_eq (char_self separator cs) _

theorem item_eq_some_iff {r : α × List Char} :
    item separator first scan cs = some r ↔
      ∃ x, cs = lead separator first ++ x ∧ scan x = some r := by
  constructor
  · intro h
    cases first with
    | true => exact ⟨cs, rfl, h⟩
    | false =>
      obtain ⟨_, x, hchar, hx⟩ := bind_eq_some_iff.mp h
      exact ⟨x, char_eq_some_iff.mp hchar, hx⟩
  · rintro ⟨x, rfl, hx⟩
    rw [item_lead, hx]

theorem item_eq_none (h : ∀ x, cs = lead separator first ++ x → scan x = none) :
    item separator first scan cs = none := by
  refine Option.eq_none_iff_forall_ne_some.mpr fun r hr => ?_
  obtain ⟨x, hx, hscan⟩ := item_eq_some_iff.mp hr
  rw [h x hx] at hscan
  cases hscan

end Item

/-! ### Numbers -/

section Number

variable {b bound : Nat} {most : Option Nat} {leadingZeros : Bool}

theorem map_number_eq_some_iff {make : Nat → α} {value : α → Nat} {a : α}
    (hmake : ∀ a, make (value a) = a) (hvalue : ∀ n ≤ bound, value (make n) = n) :
    (make <$> number b most leadingZeros bound) cs = some (a, rest) ↔
      ∃ ds, cs = ds ++ rest ∧ Numeral b most leadingZeros bound ds (value a) ∧
        Delimited b rest := by
  rw [map_eq_some_iff]
  constructor
  · rintro ⟨n, hn, rfl⟩
    obtain ⟨ds, rfl, hds, hrest⟩ := number_eq_some_iff.mp hn
    rw [hvalue n hds.bounded]
    exact ⟨ds, rfl, hds, hrest⟩
  · intro h
    exact ⟨value a, number_eq_some_iff.mpr h, hmake a⟩

theorem marked_number_eq_some_iff {mark : Char} {make : Nat → α} {value : α → Nat} {a : α}
    (hmake : ∀ a, make (value a) = a) (hvalue : ∀ n ≤ bound, value (make n) = n) :
    item mark false (make <$> number b most leadingZeros bound) cs = some (a, rest) ↔
      ∃ ds, cs = mark :: (ds ++ rest) ∧ Numeral b most leadingZeros bound ds (value a) ∧
        Delimited b rest := by
  rw [item_eq_some_iff]
  constructor
  · rintro ⟨x, rfl, hx⟩
    obtain ⟨ds, rfl, hds⟩ := (map_number_eq_some_iff hmake hvalue).mp hx
    exact ⟨ds, rfl, hds⟩
  · rintro ⟨ds, rfl, hds⟩
    exact ⟨ds ++ rest, rfl, (map_number_eq_some_iff hmake hvalue).mpr ⟨ds, rfl, hds⟩⟩

theorem octet_eq_some_iff {o : UInt8} :
    octet cs = some (o, rest) ↔
      ∃ ds, cs = ds ++ rest ∧ Numeral 10 (some 3) false 255 ds o.toNat ∧ Delimited 10 rest :=
  map_number_eq_some_iff (fun _ => UInt8.ofNat_toNat) fun _ hn =>
    UInt8.toNat_ofNat_of_lt (Nat.lt_succ_of_le hn)

theorem group_eq_some_iff {g : UInt16} :
    group cs = some (g, rest) ↔
      ∃ ds, cs = ds ++ rest ∧ Numeral 16 (some 4) true 65535 ds g.toNat ∧ Delimited 16 rest :=
  map_number_eq_some_iff (fun _ => UInt16.ofNat_toNat) fun _ hn =>
    UInt16.toNat_ofNat_of_lt (Nat.lt_succ_of_le hn)

theorem port_eq_some_iff {p : UInt16} :
    port cs = some (p, rest) ↔
      ∃ ds, cs = ':' :: (ds ++ rest) ∧ Numeral 10 none true 65535 ds p.toNat ∧
        Delimited 10 rest :=
  marked_number_eq_some_iff (fun _ => UInt16.ofNat_toNat) fun _ hn =>
    UInt16.toNat_ofNat_of_lt (Nat.lt_succ_of_le hn)

theorem scope_eq_some_iff {s : UInt32} :
    scope cs = some (s, rest) ↔
      ∃ ds, cs = '%' :: (ds ++ rest) ∧ Numeral 10 none true 4294967295 ds s.toNat ∧
        Delimited 10 rest :=
  marked_number_eq_some_iff (fun _ => UInt32.ofNat_toNat) fun _ hn =>
    UInt32.toNat_ofNat_of_lt (Nat.lt_succ_of_le hn)

theorem map_number_of_delimited (h : Delimited b cs) (make : Nat → α) :
    (make <$> number b most leadingZeros bound) cs = none := by
  refine Option.eq_none_iff_forall_ne_some.mpr fun r hr => ?_
  obtain ⟨n, hn, -⟩ := map_eq_some_iff.mp hr
  rw [number_of_delimited h] at hn
  cases hn

theorem octet_of_delimited (h : Delimited 10 cs) : octet cs = none :=
  map_number_of_delimited h _

theorem group_of_delimited (h : Delimited 16 cs) : group cs = none :=
  map_number_of_delimited h _

end Number

/-! ### IPv4 addresses -/

theorem ip4_eq_some_iff {ip : Ip4} :
    Scan.ip4 cs = some (ip, rest) ↔ ∃ w, cs = w ++ rest ∧ ip.Spelling w ∧ Delimited 10 rest := by
  constructor
  · intro h
    unfold ip4 at h
    obtain ⟨a, _, hfirst, h⟩ := bind_eq_some_iff.mp h
    obtain ⟨b, _, hsecond, h⟩ := bind_eq_some_iff.mp h
    obtain ⟨c, _, hthird, h⟩ := bind_eq_some_iff.mp h
    obtain ⟨d, _, hfourth, h⟩ := bind_eq_some_iff.mp h
    obtain ⟨rfl, rfl⟩ := Prod.mk.inj (Option.some.inj h)
    obtain ⟨_, rfl, ha, -⟩ := octet_eq_some_iff.mp hfirst
    obtain ⟨_, rfl, hsecond⟩ := item_eq_some_iff.mp hsecond
    obtain ⟨_, rfl, hb, -⟩ := octet_eq_some_iff.mp hsecond
    obtain ⟨_, rfl, hthird⟩ := item_eq_some_iff.mp hthird
    obtain ⟨_, rfl, hc, -⟩ := octet_eq_some_iff.mp hthird
    obtain ⟨_, rfl, hfourth⟩ := item_eq_some_iff.mp hfourth
    obtain ⟨_, rfl, hd, hrest⟩ := octet_eq_some_iff.mp hfourth
    exact ⟨_, by simp [lead], .octets ha hb hc hd, hrest⟩
  · rintro ⟨_, rfl, ⟨ha, hb, hc, hd⟩, hrest⟩
    have hdot : ∀ cs, Delimited 10 ('.' :: cs) := fun cs => .cons rfl
    have hitem : ∀ cs, item '.' false octet ('.' :: cs) = octet cs := item_lead '.' false octet
    simp only [List.append_assoc, List.cons_append]
    unfold ip4
    rw [bind_of_eq (octet_eq_some_iff.mpr ⟨_, rfl, ha, hdot _⟩),
      bind_of_eq ((hitem _).trans (octet_eq_some_iff.mpr ⟨_, rfl, hb, hdot _⟩)),
      bind_of_eq ((hitem _).trans (octet_eq_some_iff.mpr ⟨_, rfl, hc, hdot _⟩)),
      bind_of_eq ((hitem _).trans (octet_eq_some_iff.mpr ⟨_, rfl, hd, hrest⟩))]
    rfl

theorem ip4_of_dropWhile (h : (cs.dropWhile (isDigit 10)).head? ≠ some '.') :
    Scan.ip4 cs = none := by
  refine Option.eq_none_iff_forall_ne_some.mpr fun r hip => h ?_
  obtain ⟨_, rfl, ⟨ha, -, -, -⟩, -⟩ := ip4_eq_some_iff.mp hip
  rw [List.append_assoc, List.cons_append, ((Delimited.cons rfl).takeWhile ha.digits).2]
  rfl

/-! ### Rows of groups -/

theorem Delimited.of_hexadecimal (h : Delimited 16 rest) : Delimited 10 rest := by
  intro c hc
  have hhex := h c hc
  unfold isDigit digit? at hhex ⊢
  dsimp only at hhex ⊢
  split_ifs at hhex ⊢ with h₁ h₂ h₃ <;> simp_all <;> omega

theorem ip4_of_delimited (h : Delimited 10 cs) : Scan.ip4 cs = none := by
  unfold ip4
  exact bind_of_none (octet_of_delimited h) _

/-- Behind a row of groups: neither a digit, nor a dot, nor one more group. -/
structure Closed (rest : List Char) : Prop where
  delimited : Delimited 16 rest
  no_dot : rest.head? ≠ some '.'
  no_group : ∀ x, rest = ':' :: x → Delimited 16 x

variable {first tail4 : Bool} {limit : Nat} {gs : List UInt16} {w : List Char}

theorem groups_of_delimited (h : ∀ x, cs = lead ':' first ++ x → Delimited 16 x) (limit : Nat) :
    groups limit first cs = ([], false, cs) := by
  cases limit with
  | zero => rfl
  | succ limit =>
    have hip : item ':' first ip4 cs = none :=
      item_eq_none fun x hx => ip4_of_delimited (h x hx).of_hexadecimal
    have hgroup : item ':' first group cs = none :=
      item_eq_none fun x hx => group_of_delimited (h x hx)
    rw [groups, hip, hgroup, ite_self]

theorem Closed.opening (h : Closed rest) :
    ∀ x, rest = lead ':' first ++ x → Delimited 16 x := by
  rintro x rfl
  cases first with
  | true => exact h.delimited
  | false => exact h.no_group x rfl

theorem Closed.row_append (h : Closed rest) (hrow : Ip6.Row false w gs tail4) :
    Delimited 16 (w ++ rest) ∧ (w ++ rest).head? ≠ some '.' := by
  cases hrow with
  | nil => exact ⟨h.delimited, h.no_dot⟩
  | tail => exact ⟨.cons rfl, by simp [lead]⟩
  | group => exact ⟨.cons rfl, by simp [lead]⟩

theorem head?_dropWhile_ne {p : Char → Bool} {c : Char} (hcs : c ∉ cs) (h : rest.head? ≠ some c)
    (hp : ∀ x ∈ rest.head?, p x = false) : ((cs ++ rest).dropWhile p).head? ≠ some c := by
  induction cs with
  | nil =>
    cases rest with
    | nil => exact h
    | cons x rest =>
      have hx : p x = false := hp x rfl
      simpa [hx] using h
  | cons x cs ih =>
    rw [List.cons_append, List.dropWhile_cons]
    split
    · exact ih fun hc => hcs (List.mem_cons_of_mem x hc)
    · intro hx
      exact hcs (List.mem_cons.mpr (.inl (Option.some.inj hx).symm))

theorem ip4_group {ds : List Char} {g : Nat} (hg : Numeral 16 (some 4) true 65535 ds g)
    (h : Delimited 16 rest) (hdot : rest.head? ≠ some '.') : Scan.ip4 (ds ++ rest) = none := by
  have hmem : '.' ∉ ds := fun hmem => absurd (hg.digits _ hmem) (by decide)
  exact ip4_of_dropWhile (head?_dropWhile_ne hmem hdot h.of_hexadecimal)

theorem groups_complete (h : Closed rest) (hrow : Ip6.Row first w gs tail4)
    (hlen : gs.length ≤ limit) : groups limit first (w ++ rest) = (gs, tail4, rest) := by
  -- Each group is tried as the start of an IPv4 address first; what follows it stops that.
  induction hrow generalizing limit with
  | nil first => exact groups_of_delimited h.opening limit
  | @tail first w ip hip =>
    obtain ⟨limit, rfl⟩ : ∃ n, limit = n + 2 := ⟨limit - 2, by simp [Ip4.groups] at hlen; omega⟩
    have hread : item ':' first ip4 (lead ':' first ++ (w ++ rest)) = some (ip, rest) :=
      (item_lead ..).trans (ip4_eq_some_iff.mpr ⟨w, rfl, hip, h.delimited.of_hexadecimal⟩)
    rw [List.append_assoc, groups, if_pos (Nat.succ_pos limit), hread]
  | @group first tail4 ds w g gs hg hrest ih =>
    obtain ⟨limit, rfl⟩ : ∃ n, limit = n + 1 := ⟨limit - 1, by simp at hlen; omega⟩
    obtain ⟨hdelimited, hdot⟩ := h.row_append hrest
    have hip : item ':' first ip4 (lead ':' first ++ (ds ++ (w ++ rest))) = none :=
      (item_lead ..).trans (ip4_group hg hdelimited hdot)
    have hread : item ':' first group (lead ':' first ++ (ds ++ (w ++ rest)))
        = some (g, w ++ rest) :=
      (item_lead ..).trans (group_eq_some_iff.mpr ⟨ds, rfl, hg, hdelimited⟩)
    rw [List.append_assoc, List.append_assoc, groups, hip, ite_self, hread]
    dsimp only
    rw [ih (by simpa using hlen)]

theorem groups_sound (h : groups limit first cs = (gs, tail4, rest)) :
    ∃ w, cs = w ++ rest ∧ Ip6.Row first w gs tail4 ∧ gs.length ≤ limit := by
  induction limit generalizing first cs gs with
  | zero =>
    cases h
    exact ⟨[], rfl, .nil first, Nat.le_refl 0⟩
  | succ limit ih =>
    rw [groups] at h
    cases hip : (if 0 < limit then item ':' first ip4 cs else none) with
    | some p =>
      rw [hip] at h
      cases h
      split_ifs at hip with hlimit
      obtain ⟨_, rfl, hitem⟩ := item_eq_some_iff.mp hip
      obtain ⟨w, rfl, hw, -⟩ := ip4_eq_some_iff.mp hitem
      exact ⟨_, (List.append_assoc ..).symm, .tail hw, Nat.succ_le_succ hlimit⟩
    | none =>
      rw [hip] at h
      cases hg : item ':' first group cs with
      | none =>
        rw [hg] at h
        cases h
        exact ⟨[], rfl, .nil first, Nat.zero_le _⟩
      | some p =>
        obtain ⟨g, mid⟩ := p
        rcases hmore : groups limit false mid with ⟨gs', tail4', rest'⟩
        rw [hg] at h
        dsimp only at h
        rw [hmore] at h
        cases h
        obtain ⟨_, rfl, hitem⟩ := item_eq_some_iff.mp hg
        obtain ⟨ds, rfl, hds, -⟩ := group_eq_some_iff.mp hitem
        obtain ⟨w, rfl, hrow, hlen⟩ := ih hmore
        exact ⟨_, by simp, .group hds hrow, Nat.succ_le_succ hlen⟩

/-! ### IPv6 addresses -/

theorem ip6_complete {ip : Ip6} (h : Closed rest) (hip : ip.Spelling w) :
    ip6 (w ++ rest) = some (ip, rest) := by
  cases hip with
  | full hrow hlen =>
    unfold ip6
    rw [groups_complete h hrow (Nat.le_of_eq hlen)]
    exact if_pos hlen
  | @shortened w v gs hs tail4 hhead htail hlen =>
    -- Where the double colon follows, the groups in front of it end.
    have hclosed : Closed (':' :: ':' :: (v ++ rest)) :=
      ⟨.cons rfl, by simp, by rintro x ⟨⟩; exact .cons rfl⟩
    have hfirst : groups 8 true (w ++ ':' :: ':' :: (v ++ rest))
        = (gs, false, ':' :: ':' :: (v ++ rest)) := groups_complete hclosed hhead (by omega)
    have hsecond : groups (7 - gs.length) true (v ++ rest) = (hs, tail4, rest) :=
      groups_complete h htail (by omega)
    unfold ip6
    rw [List.append_assoc, List.cons_append, List.cons_append, hfirst]
    dsimp only
    rw [if_neg (by omega), if_neg Bool.false_ne_true]
    simp only [hsecond]

theorem ip6_sound {ip : Ip6} (h : ip6 cs = some (ip, rest)) :
    ∃ w, cs = w ++ rest ∧ ip.Spelling w := by
  unfold ip6 at h
  rcases hhead : groups 8 true cs with ⟨gs, tail4, mid⟩
  obtain ⟨w, rfl, hrow, hlen⟩ := groups_sound hhead
  rw [hhead] at h
  dsimp only at h
  split_ifs at h with hfull htail4
  · obtain ⟨rfl, rfl⟩ := Prod.mk.inj (Option.some.inj h)
    exact ⟨w, rfl, .full hrow hfull⟩
  · split at h
    · rename_i x
      rcases htail : groups (7 - gs.length) true x with ⟨hs, tail4', last⟩
      obtain ⟨v, rfl, hrow', hlen'⟩ := groups_sound htail
      simp only [htail] at h
      obtain ⟨rfl, rfl⟩ := Prod.mk.inj (Option.some.inj h)
      obtain rfl : tail4 = false := Bool.not_eq_true _ ▸ htail4
      exact ⟨_, by simp, .shortened hrow hrow' (by omega)⟩
    · cases h

/-! ### Sockets -/

variable {a : SocketAddress}

theorem or_eq_some_iff {scan scan' : Scan α} {r : α × List Char} :
    (scan <|> scan') cs = some r ↔ scan cs = some r ∨ scan cs = none ∧ scan' cs = some r := by
  show (scan cs).orElse (fun _ => scan' cs) = some r ↔ _
  cases scan cs <;> simp

theorem socket4_sound (h : socket4 cs = some (a, rest)) : ∃ w, cs = w ++ rest ∧ a.Spelling w := by
  unfold socket4 at h
  obtain ⟨ip, _, hip, h⟩ := bind_eq_some_iff.mp h
  obtain ⟨p, _, hport, h⟩ := bind_eq_some_iff.mp h
  obtain ⟨rfl, rfl⟩ := Prod.mk.inj (Option.some.inj h)
  obtain ⟨w, rfl, hw, -⟩ := ip4_eq_some_iff.mp hip
  obtain ⟨ds, rfl, hds, -⟩ := port_eq_some_iff.mp hport
  exact ⟨_, by simp, .v4 hw hds⟩

theorem socket6_sound (h : socket6 cs = some (a, rest)) : ∃ w, cs = w ++ rest ∧ a.Spelling w := by
  unfold socket6 at h
  obtain ⟨_, _, hopen, h⟩ := bind_eq_some_iff.mp h
  obtain ⟨ip, _, hip, h⟩ := bind_eq_some_iff.mp h
  obtain ⟨s, _, hscope, h⟩ := bind_eq_some_iff.mp h
  obtain ⟨_, _, hclose, h⟩ := bind_eq_some_iff.mp h
  obtain ⟨p, _, hport, h⟩ := bind_eq_some_iff.mp h
  obtain ⟨rfl, rfl⟩ := Prod.mk.inj (Option.some.inj h)
  obtain rfl := char_eq_some_iff.mp hopen
  obtain rfl := char_eq_some_iff.mp hclose
  obtain ⟨w, rfl, hw⟩ := ip6_sound hip
  obtain ⟨ds, rfl, hds, -⟩ := port_eq_some_iff.mp hport
  rcases or_eq_some_iff.mp hscope with hscope | ⟨-, hnone⟩
  · obtain ⟨zone, rfl, hzone, -⟩ := scope_eq_some_iff.mp hscope
    exact ⟨_, by simp, .zoned hw hzone hds⟩
  · obtain ⟨rfl, rfl⟩ := Prod.mk.inj (Option.some.inj hnone)
    exact ⟨_, by simp, .v6 hw hds⟩

theorem socket4_complete {ds : List Char} {ip : Ip4} {p : UInt16} (hip : ip.Spelling w)
    (hport : Numeral 10 none true 65535 ds p.toNat) :
    socket4 (w ++ ':' :: ds) = some (.v4 ip p, []) := by
  have hds : port (':' :: ds) = some (p, []) :=
    port_eq_some_iff.mpr ⟨ds, by simp, hport, .nil 10⟩
  unfold socket4
  rw [bind_of_eq (ip4_eq_some_iff.mpr ⟨w, rfl, hip, .cons rfl⟩), bind_of_eq hds]
  rfl

theorem socket6_complete (zone : List Char) {ds : List Char} {ip : Ip6} {p : UInt16}
    {s : UInt32} (hip : ip.Spelling w) (hclosed : Closed (zone ++ ']' :: ':' :: ds))
    (hscope : (scope <|> pure 0) (zone ++ ']' :: ':' :: ds) = some (s, ']' :: ':' :: ds))
    (hport : Numeral 10 none true 65535 ds p.toNat) :
    socket6 ('[' :: (w ++ (zone ++ ']' :: ':' :: ds))) = some (.v6 ip p 0 s, []) := by
  have hds : port (':' :: ds) = some (p, []) :=
    port_eq_some_iff.mpr ⟨ds, by simp, hport, .nil 10⟩
  unfold socket6
  rw [bind_of_eq (char_self '[' _), bind_of_eq (ip6_complete hclosed hip), bind_of_eq hscope,
    bind_of_eq (char_self ']' _), bind_of_eq hds]
  rfl

theorem socket4_bracket (cs : List Char) : socket4 ('[' :: cs) = none :=
  bind_of_none (ip4_of_delimited (.cons rfl)) _

theorem socket_complete (h : a.Spelling w) : (socket4 <|> socket6) w = some (a, []) := by
  rw [or_eq_some_iff]
  cases h with
  | v4 hip hport => exact .inl (socket4_complete hip hport)
  | @v6 w ds ip p hip hport =>
    have hnone : scope (']' :: ':' :: ds) = none := bind_of_none rfl _
    exact .inr ⟨socket4_bracket _,
      socket6_complete [] hip ⟨.cons rfl, by simp, by simp⟩
        (or_eq_some_iff.mpr (.inr ⟨hnone, rfl⟩)) hport⟩
  | @zoned w zone ds ip p s hip hscope hport =>
    have hsome : scope ('%' :: (zone ++ ']' :: ':' :: ds)) = some (s, ']' :: ':' :: ds) :=
      scope_eq_some_iff.mpr ⟨zone, rfl, hscope, .cons rfl⟩
    exact .inr ⟨socket4_bracket _,
      socket6_complete ('%' :: zone) hip ⟨.cons rfl, by simp, by simp⟩
        (or_eq_some_iff.mpr (.inl hsome)) hport⟩

end Scan

theorem SocketAddress.ofString?_eq_some_iff {t : String} {a : SocketAddress} :
    SocketAddress.ofString? t = some a ↔ a.Spelling t.toList := by
  unfold SocketAddress.ofString?
  constructor
  · intro h
    split at h
    · rename_i hread
      obtain rfl := Option.some.inj h
      rcases or_eq_some_iff.mp hread with hread | ⟨-, hread⟩
      · obtain ⟨w, hw, hspelling⟩ := socket4_sound hread
        rw [hw, List.append_nil]
        exact hspelling
      · obtain ⟨w, hw, hspelling⟩ := socket6_sound hread
        rw [hw, List.append_nil]
        exact hspelling
    · cases h
  · intro h
    rw [socket_complete h]

end ServerDiscovery
