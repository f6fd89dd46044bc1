import Mathlib.Data.List.Nodup
import ServerDiscovery.Json.Shape
import ServerDiscovery.Proofs.Json.Reader
import ServerDiscovery.Proofs.Keyed

/-! Lists and records are read from JSON as they were written into it, given that their values are.
A field may be left out of an object if its value is what the slot has for that. -/

namespace ServerDiscovery.Json

open Reading

variable {α : Type} {first : Bool} {rest : List Char} {steps : Nat}

/-! ### Rows -/

def row : Bool → List (List Char) → List Char
  | _, [] => []
  | first, w :: ws => (if first then [] else [',']) ++ (w ++ row false ws)

theorem row_true (ws : List (List Char)) : row true ws = separated ws := by
  cases ws with
  | nil => rfl
  | cons w ws =>
    induction ws generalizing w with
    | nil => exact (List.append_nil w).trans List.intercalate_singleton.symm
    | cons w' ws ih =>
      rw [separated, List.intercalate_cons_cons, List.append_assoc]
      exact congrArg (fun tail => w ++ ',' :: tail) (ih w')

theorem closed_row {c : Char} (hc : c = ']' ∨ c = '\x7d') (ws : List (List Char))
    (rest : List Char) : Closed (row false ws ++ c :: rest) := by
  cases ws with
  | nil =>
    intro x hx
    obtain rfl := Option.some.inj hx
    exact .inr hc
  | cons w ws =>
    intro x hx
    obtain rfl := Option.some.inj hx
    exact .inl rfl

theorem length_le_row {ws : List (List Char)} (h : ∀ w ∈ ws, w ≠ []) (first : Bool) :
    ws.length ≤ (row first ws).length := by
  induction ws generalizing first with
  | nil => exact Nat.zero_le _
  | cons w ws ih =>
    obtain ⟨hw, hws⟩ := List.forall_mem_cons.mp h
    have hpos := List.length_pos_iff.mpr hw
    have hrest := ih hws false
    simp only [row, List.length_append, List.length_cons]
    omega

/-! ### Lists -/

def Opens (w : List Char) : Prop := ∃ c cs, w = c :: cs ∧ isBlank c = false ∧ c ≠ ']'

theorem another_item {w : List Char} (h : Opens w) (first : Bool) (rest : List Char) :
    another first ((if first then [] else [',']) ++ (w ++ rest)) = .ok (true, w ++ rest) := by
  obtain ⟨c, cs, rfl, hblank, hend⟩ := h
  have hitem : required (c :: cs ++ rest) = .ok (c, c :: cs ++ rest) := required_cons hblank _
  unfold another
  cases first with
  | true =>
    rw [if_pos rfl, List.nil_append, bind_of_ok hitem, if_neg hend]
    rfl
  | false =>
    rw [if_neg Bool.false_ne_true, List.singleton_append, bind_of_ok (required_cons rfl _),
      if_neg (by decide)]
    dsimp only
    rw [if_pos Bool.not_false, if_neg (by decide), bind_of_ok (advance_cons ..), bind_of_ok hitem,
      if_neg hend]
    rfl

theorem another_end (first : Bool) (rest : List Char) :
    another first (']' :: rest) = .ok (false, ']' :: rest) := by
  unfold another
  rw [bind_of_ok (required_cons rfl _), if_pos rfl]
  rfl

theorem listEnd_cons (rest : List Char) : listEnd (']' :: rest) = .ok ((), rest) := by
  unfold listEnd
  rw [bind_of_ok (required_cons rfl _), if_pos rfl]
  rfl

section List

variable {read : Reader α} {write : α → List Char}

theorem items_row {xs : List α} (hopens : ∀ x ∈ xs, Opens (write x))
    (hread : ∀ x ∈ xs, Restores read (write x) x) (hsteps : xs.length < steps) :
    items read steps first (row first (xs.map write) ++ ']' :: rest) = .ok (xs, rest) := by
  induction xs generalizing steps first with
  | nil =>
    obtain ⟨steps, rfl⟩ := Nat.exists_eq_add_of_lt hsteps
    rw [List.length_nil, Nat.zero_add, List.map_nil, row, List.nil_append, items,
      bind_of_ok (another_end first rest), if_neg Bool.false_ne_true,
      bind_of_ok (listEnd_cons rest)]
    rfl
  | cons x xs ih =>
    obtain ⟨hx, hxs⟩ := List.forall_mem_cons.mp hopens
    obtain ⟨hreadx, hreadxs⟩ := List.forall_mem_cons.mp hread
    obtain ⟨more, rfl⟩ := Nat.exists_eq_add_of_lt hsteps
    have hmore : items read (xs.length + 1 + more) false (row false (xs.map write) ++ ']' :: rest)
        = .ok (xs, rest) := ih hxs hreadxs (by omega)
    have hitem := hreadx _ (closed_row (.inl rfl) (xs.map write) rest)
    rw [List.map_cons, row, List.append_assoc, List.append_assoc, List.length_cons, items,
      bind_of_ok (another_item hx first _), if_pos rfl, bind_of_ok hitem, bind_of_ok hmore]
    rfl

theorem restores_list {xs : List α} (hopens : ∀ x ∈ xs, Opens (write x))
    (hread : ∀ x ∈ xs, Restores read (write x) x) :
    Restores (list read) (writeList (xs.map write)) xs := by
  intro rest hrest
  have hne : ∀ w ∈ xs.map write, w ≠ [] := by
    intro w hw
    obtain ⟨x, hx, rfl⟩ := List.mem_map.mp hw
    obtain ⟨c, cs, heq, -⟩ := hopens x hx
    exact heq ▸ List.cons_ne_nil c cs
  have hsize := length_le_row hne true
  have hitems : items read ((row true (xs.map write) ++ ']' :: rest).length + 1) true
      (row true (xs.map write) ++ ']' :: rest) = .ok (xs, rest) := by
    refine items_row hopens hread ?_
    rw [List.length_map] at hsize
    rw [List.length_append]
    omega
  unfold list writeList
  rw [← row_true, List.append_assoc, List.cons_append, List.singleton_append,
    bind_of_ok (required_cons rfl _), if_pos rfl, bind_of_ok (advance_cons ..), bind_of_ok rfl]
  exact hitems

end List

/-! ### Records -/

/-- A slot with its value, and with the text that it is read from unless it is left out. -/
structure Filled (α : Type) where
  slot : Slot α
  value : α
  written : Option (List Char)
  restored : ∀ w ∈ written, Restores slot.read w value
  defaulted : written = none → slot.default = some value

namespace Filled

def stated (slot : Slot α) {w : List Char} {value : α} (h : Restores slot.read w value) :
    Filled α where
  slot
  value
  written := some w
  restored := fun _ hw => Option.some.inj hw ▸ h
  defaulted := nofun

def text (key : String) (make : String → α) (s : String) : Filled α :=
  stated ⟨key, make <$> Json.text, none⟩ ((restores_text s).map make)

def int32 (key : String) (make : Int32 → α) (v : Int32) : Filled α :=
  stated ⟨key, make <$> Json.int32, none⟩ ((restores_int32 v).map make)

def uint8 (key : String) (make : UInt8 → α) (b : UInt8) : Filled α :=
  stated ⟨key, make <$> Json.uint8, none⟩ ((restores_uint8 b).map make)

def key (f : Filled α) : String := f.slot.key

def member? (f : Filled α) : Option (String × List Char) := f.written.map fun w => (f.key, w)

def found? (f : Filled α) : Option (String × α) := f.written.map fun _ => (f.key, f.value)

end Filled

def memberText (m : String × List Char) : List Char := writeText m.1 ++ ':' :: m.2

variable {slots : List (Slot α)} {fs : List (Filled α)} {found : List (String × α)}

theorem members_end (first : Bool) (rest : List Char) :
    members slots (steps + 1) first found ('\x7d' :: rest) = .ok (found, rest) := by
  rw [members, bind_of_ok (required_cons rfl _), if_pos rfl, bind_of_ok (advance_cons ..)]
  rfl

theorem memberText_append (m : String × List Char) (rest : List Char) :
    memberText m ++ rest
      = '"' :: (m.1.toList.flatMap escapedChar ++ '"' :: ':' :: (m.2 ++ rest)) := by
  simp only [memberText, writeText, List.append_assoc, List.cons_append, List.nil_append]

theorem members_lead (first : Bool) (m : String × List Char) (rest : List Char) :
    members slots (steps + 1) first found
        ((if first then [] else [',']) ++ (memberText m ++ rest))
      = members slots (steps + 1) true found (memberText m ++ rest) := by
  cases first with
  | true => rfl
  | false =>
    rw [memberText_append, if_neg Bool.false_ne_true, List.singleton_append]
    conv_lhs =>
      rw [members, bind_of_ok (required_cons rfl _), if_neg (by decide)]
      dsimp only
      rw [if_pos Bool.not_false, if_neg (not_not.mpr rfl), bind_of_ok (advance_cons ..)]
    conv_rhs =>
      rw [members, bind_of_ok (required_cons rfl _), if_neg (by decide)]
      dsimp only
      rw [if_neg (by decide)]

theorem members_member {f : Filled α} {w : List Char} (hw : f.written = some w)
    (hslot : slots.find? (fun s => s.key = f.key) = some f.slot) (hnew : found.lookup f.key = none)
    (hrest : Closed rest) (first : Bool) :
    members slots (steps + 1) first found
        ((if first then [] else [',']) ++ (memberText (f.key, w) ++ rest))
      = members slots steps false ((f.key, f.value) :: found) rest := by
  have hkey := string_written f.key (':' :: (w ++ rest))
  have hunseen : ¬ (found.lookup f.key).isSome = true := by
    rw [hnew]
    exact Bool.false_ne_true
  rw [members_lead, memberText_append, members, bind_of_ok (required_cons rfl _),
    if_neg (by decide)]
  dsimp only
  rw [if_neg (by decide), bind_of_ok (required_cons rfl _), if_neg (not_not.mpr rfl),
    bind_of_ok (advance_cons ..), bind_of_ok hkey, if_neg hunseen, bind_of_ok (required_cons rfl _),
    if_neg (not_not.mpr rfl), bind_of_ok (advance_cons ..), hslot]
  exact bind_of_ok (f.restored w hw rest hrest) _

theorem members_row (hslots : ∀ f ∈ fs, slots.find? (fun s => s.key = f.key) = some f.slot)
    (hkeys : (fs.map Filled.key).Nodup) (hnew : ∀ f ∈ fs, found.lookup f.key = none)
    (hsteps : (fs.filterMap Filled.member?).length < steps) :
    members slots steps first found
        (row first ((fs.filterMap Filled.member?).map memberText) ++ '\x7d' :: rest)
      = .ok ((fs.filterMap Filled.found?).reverse ++ found, rest) := by
  induction fs generalizing steps first found with
  | nil =>
    obtain ⟨steps, rfl⟩ := Nat.exists_eq_add_of_lt hsteps
    exact members_end first rest
  | cons f fs ih =>
    obtain ⟨hslot, hslots⟩ := List.forall_mem_cons.mp hslots
    obtain ⟨hf, hnew⟩ := List.forall_mem_cons.mp hnew
    obtain ⟨hkey, hkeys⟩ := List.nodup_cons.mp hkeys
    cases hw : f.written with
    | none =>
      have hmember : f.member? = none := by rw [Filled.member?, hw]; rfl
      have hfound : f.found? = none := by rw [Filled.found?, hw]; rfl
      rw [List.filterMap_cons_none hmember] at hsteps ⊢
      rw [List.filterMap_cons_none hfound]
      exact ih hslots hkeys hnew hsteps
    | some w =>
      have hmember : f.member? = some (f.key, w) := by rw [Filled.member?, hw]; rfl
      have hfound : f.found? = some (f.key, f.value) := by rw [Filled.found?, hw]; rfl
      rw [List.filterMap_cons_some hmember] at hsteps ⊢
      rw [List.filterMap_cons_some hfound]
      obtain ⟨more, rfl⟩ := Nat.exists_eq_add_of_lt hsteps
      have hlater : ∀ g ∈ fs, ((f.key, f.value) :: found).lookup g.key = none := by
        intro g hg
        have hne : g.key ≠ f.key := fun heq => hkey (heq ▸ List.mem_map_of_mem hg)
        rw [List.lookup_cons, beq_eq_false_iff_ne.mpr hne]
        exact hnew g hg
      rw [List.map_cons, row, List.append_assoc, List.append_assoc,
        members_member hw hslot hf (closed_row (.inr rfl) _ rest),
        ih hslots hkeys hlater (by rw [List.length_cons]; omega), List.reverse_cons,
        List.append_assoc, List.singleton_append]

theorem find?_slots (hkeys : (fs.map Filled.key).Nodup) {f : Filled α} (hf : f ∈ fs) :
    (fs.map Filled.slot).find? (fun s => s.key = f.key) = some f.slot := by
  induction fs with
  | nil => cases hf
  | cons g fs ih =>
    obtain ⟨hg, hkeys⟩ := List.nodup_cons.mp hkeys
    rw [List.map_cons]
    rcases List.mem_cons.mp hf with rfl | hf
    · exact List.find?_cons_of_pos (by simp [Filled.key])
    · have hne : g.key ≠ f.key := fun heq => hg (heq ▸ List.mem_map_of_mem hf)
      have hskip : ¬ decide (g.slot.key = f.key) = true := mt of_decide_eq_true hne
      rw [List.find?_cons_of_neg (p := fun s : Slot α => decide (s.key = f.key)) hskip]
      exact ih hkeys hf

theorem mem_found_iff {entry : String × α} :
    entry ∈ fs.filterMap Filled.found? ↔
      ∃ f ∈ fs, f.written.isSome = true ∧ entry = (f.key, f.value) := by
  rw [List.mem_filterMap]
  refine exists_congr fun f => and_congr_right fun _ => ?_
  cases hw : f.written with
  | none => simp [Filled.found?, hw]
  | some w => simp [Filled.found?, hw, eq_comm]

theorem keys_found_sublist (fs : List (Filled α)) :
    ((fs.filterMap Filled.found?).map Prod.fst).Sublist (fs.map Filled.key) := by
  induction fs with
  | nil => exact List.Sublist.slnil
  | cons f fs ih =>
    cases hw : f.written with
    | none =>
      have hfound : f.found? = none := by rw [Filled.found?, hw]; rfl
      rw [List.filterMap_cons_none hfound]
      exact ih.cons f.key
    | some w =>
      have hfound : f.found? = some (f.key, f.value) := by rw [Filled.found?, hw]; rfl
      rw [List.filterMap_cons_some hfound]
      exact ih.cons_cons f.key

theorem lookup_found (hkeys : (fs.map Filled.key).Nodup) {f : Filled α} (hf : f ∈ fs) :
    (fs.filterMap Filled.found?).reverse.lookup f.key = f.written.map fun _ => f.value := by
  have hnodup : ((fs.filterMap Filled.found?).reverse.map Prod.fst).Nodup := by
    rw [List.map_reverse, List.nodup_reverse]
    exact hkeys.sublist (keys_found_sublist fs)
  cases hw : f.written with
  | some w =>
    have hmem : (f.key, f.value) ∈ (fs.filterMap Filled.found?).reverse :=
      List.mem_reverse.mpr (mem_found_iff.mpr ⟨f, hf, by rw [hw]; rfl, rfl⟩)
    exact Keyed.lookup_of_mem hnodup hmem
  | none =>
    refine List.lookup_eq_none_iff.mpr fun entry hentry => bne_iff_ne.mpr fun hkey => ?_
    obtain ⟨g, hg, hwritten, rfl⟩ := mem_found_iff.mp (List.mem_reverse.mp hentry)
    obtain rfl : f = g := List.inj_on_of_nodup_map hkeys hf hg hkey
    rw [hw] at hwritten
    cases hwritten

theorem mapM_slots {g : Slot α → Reader α} (h : ∀ f ∈ fs, g f.slot = pure f.value) :
    (fs.map Filled.slot).mapM g = pure (fs.map Filled.value) := by
  induction fs with
  | nil => rfl
  | cons f fs ih =>
    obtain ⟨hf, hfs⟩ := List.forall_mem_cons.mp h
    rw [List.map_cons, List.mapM_cons, hf, pure_bind, ih hfs, pure_bind]
    rfl

def objectRest (fs : List (Filled α)) (rest : List Char) : List Char :=
  row true ((fs.filterMap Filled.member?).map memberText) ++ '\x7d' :: rest

theorem writeObject_append (fs : List (Filled α)) (rest : List Char) :
    writeObject (fs.filterMap Filled.member?) ++ rest = '\x7b' :: objectRest fs rest := by
  rw [objectRest, row_true, writeObject, List.append_assoc]
  rfl

theorem members_written (hkeys : (fs.map Filled.key).Nodup) (rest : List Char) :
    members (fs.map Filled.slot) ((objectRest fs rest).length + 1) true [] (objectRest fs rest)
      = .ok ((fs.filterMap Filled.found?).reverse, rest) := by
  have hne : ∀ w ∈ (fs.filterMap Filled.member?).map memberText, w ≠ [] := by
    intro w hw
    obtain ⟨m, -, rfl⟩ := List.mem_map.mp hw
    exact List.cons_ne_nil _ _
  have hsize := length_le_row hne true
  have hsteps : (fs.filterMap Filled.member?).length < (objectRest fs rest).length + 1 := by
    rw [List.length_map] at hsize
    rw [objectRest, List.length_append]
    omega
  exact (members_row (fun f hf => find?_slots hkeys hf) hkeys (fun _ _ => rfl) hsteps).trans
    (by rw [List.append_nil])

theorem restores_record (hkeys : (fs.map Filled.key).Nodup) :
    Restores (record (fs.map Filled.slot)) (writeObject (fs.filterMap Filled.member?))
      (fs.map Filled.value) := by
  intro rest hrest
  unfold record
  rw [writeObject_append, bind_of_ok (required_cons rfl _), if_neg (by decide), if_pos rfl,
    bind_of_ok (advance_cons ..), bind_of_ok rfl, bind_of_ok (members_written hkeys rest),
    mapM_slots]
  · rfl
  · intro f hf
    have hlookup : (fs.filterMap Filled.found?).reverse.lookup f.slot.key
        = f.written.map fun _ => f.value := lookup_found hkeys hf
    rw [hlookup]
    cases hw : f.written with
    | some w => rfl
    | none =>
      rw [f.defaulted hw]
      rfl

end ServerDiscovery.Json
