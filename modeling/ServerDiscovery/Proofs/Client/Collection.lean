import Mathlib.Order.Bounds.Basic
import ServerDiscovery.Proofs.Address.Endpoint
import ServerDiscovery.Proofs.Client.Gather

/-! What a list comes to when its pieces arrive in some order. Pieces are taken in until enough of
them have named somebody new, so that what repeats the pieces before it may come in at any place. -/

namespace ServerDiscovery.Client.Query

variable {expected count : Nat} {known piece : List Endpoint} {pieces pieces' : List (List Endpoint)}

/-- How many pieces name somebody who has not been named before. -/
def novel (known : List Endpoint) : List (List Endpoint) → Nat
  | [] => 0
  | piece :: pieces =>
    (if ∃ e ∈ piece, e ∉ known then 1 else 0) + novel (known ++ piece) pieces

/-- The servers that are known when enough pieces have named somebody new, or all are taken in. -/
def collect (expected count : Nat) (servers : List Endpoint) : List (List Endpoint) → List Endpoint
  | [] => servers
  | piece :: pieces =>
    if expected ≤ count then servers
    else
      let fresh := unseen servers piece
      collect expected (if fresh.isEmpty then count else count + 1) (servers ++ fresh) pieces

theorem collect_of_le (h : expected ≤ count) (servers : List Endpoint)
    (pieces : List (List Endpoint)) : collect expected count servers pieces = servers := by
  cases pieces with
  | nil => rfl
  | cons piece pieces => exact if_pos h

theorem unseen_distinct_eq_nil_iff :
    unseen (Endpoint.distinct known) piece = [] ↔ ¬ ∃ e ∈ piece, e ∉ known := by
  simp [unseen, Endpoint.distinct, List.mem_eraseDups, List.eq_nil_iff_forall_not_mem]

theorem count_unseen (known piece : List Endpoint) (count : Nat) :
    (if (unseen (Endpoint.distinct known) piece).isEmpty then count else count + 1) =
      count + if ∃ e ∈ piece, e ∉ known then 1 else 0 := by
  by_cases hnew : ∃ e ∈ piece, e ∉ known
  · have hsome := mt unseen_distinct_eq_nil_iff.mp (not_not.mpr hnew)
    rw [if_pos hnew, if_neg (mt List.isEmpty_iff.mp hsome)]
  · rw [if_neg hnew, if_pos (List.isEmpty_iff.mpr (unseen_distinct_eq_nil_iff.mpr hnew))]
    rfl

theorem collect_cons (h : ¬ expected ≤ count) :
    collect expected count (Endpoint.distinct known) (piece :: pieces) =
      collect expected (count + if ∃ e ∈ piece, e ∉ known then 1 else 0)
        (Endpoint.distinct (known ++ piece)) pieces := by
  rw [collect, if_neg h]
  simp only [count_unseen, distinct_append_unseen]

theorem novel_cons_le (known piece : List Endpoint) (pieces : List (List Endpoint)) :
    novel known (piece :: pieces) ≤ 1 + novel (known ++ piece) pieces := by
  rw [novel]
  split_ifs <;> omega

theorem novel_le_length (known : List Endpoint) (pieces : List (List Endpoint)) :
    novel known pieces ≤ pieces.length := by
  induction pieces generalizing known with
  | nil => exact le_rfl
  | cons piece pieces ih =>
    have hstep := novel_cons_le known piece pieces
    have hrest := ih (known ++ piece)
    rw [List.length_cons]
    omega

theorem length_distinct_append_flatten_le {most : Nat} {pieces : List (List Endpoint)}
    (hmost : ∀ piece ∈ pieces, piece.length ≤ most) (known : List Endpoint) :
    (Endpoint.distinct (known ++ pieces.flatten)).length ≤
      (Endpoint.distinct known).length + novel known pieces * most := by
  induction pieces generalizing known with
  | nil => simp
  | cons piece pieces ih =>
    obtain ⟨hpiece, hrest⟩ := List.forall_mem_cons.mp hmost
    have hstep : (Endpoint.distinct (known ++ piece)).length ≤ (Endpoint.distinct known).length +
        (if ∃ e ∈ piece, e ∉ known then 1 else 0) * most := by
      rw [← distinct_append_unseen, List.length_append]
      apply Nat.add_le_add_left
      split_ifs with hnew
      · rw [Nat.one_mul]
        exact (Endpoint.length_distinct_le _).trans ((List.length_filter_le ..).trans hpiece)
      · rw [unseen_distinct_eq_nil_iff.mpr hnew]
        exact Nat.zero_le _
    have hlater := ih hrest (known ++ piece)
    rw [List.flatten_cons, ← List.append_assoc, novel, Nat.add_mul]
    omega

/-- What is known, and what the first pieces add to it of which enough are new, each server once. If
there are not enough of them, it is what all pieces add. -/
def Collected (expected count : Nat) (known : List Endpoint) (pieces : List (List Endpoint))
    (servers : List Endpoint) : Prop :=
  ∃ n, IsLeast {n | expected ≤ count + novel known (pieces.take n) ∨ pieces.length ≤ n} n ∧
    servers = Endpoint.distinct (known ++ (pieces.take n).flatten)

theorem collected_collect (expected count : Nat) (known : List Endpoint)
    (pieces : List (List Endpoint)) : Collected expected count known pieces
      (collect expected count (Endpoint.distinct known) pieces) := by
  induction pieces generalizing count known with
  | nil => exact ⟨0, ⟨.inr le_rfl, fun _ _ => Nat.zero_le _⟩, by simp [collect]⟩
  | cons piece pieces ih =>
    by_cases henough : expected ≤ count
    · refine ⟨0, ⟨.inl henough, fun _ _ => Nat.zero_le _⟩, ?_⟩
      rw [collect_of_le henough]
      simp
    · obtain ⟨n, ⟨hn, hleast⟩, hcollect⟩ :=
        ih (count + if ∃ e ∈ piece, e ∉ known then 1 else 0) (known ++ piece)
      refine ⟨n + 1, ⟨hn.imp ?_ Nat.succ_le_succ, ?_⟩, ?_⟩
      · intro h
        rwa [List.take_succ_cons, novel, ← Nat.add_assoc]
      · -- Not even one piece is enough, so what is enough of all is one more than of the rest.
        rintro (_ | i) hi
        · exact absurd (hi.resolve_right (Nat.not_succ_le_zero _)) henough
        · refine Nat.succ_le_succ (hleast (hi.imp ?_ Nat.le_of_succ_le_succ))
          intro h
          rwa [List.take_succ_cons, novel, ← Nat.add_assoc] at h
      · rw [collect_cons henough, hcollect, List.take_succ_cons, List.flatten_cons,
          List.append_assoc]

theorem Collected.unique {servers servers' : List Endpoint}
    (h : Collected expected count known pieces servers)
    (h' : Collected expected count known pieces servers') : servers = servers' := by
  obtain ⟨n, hn, rfl⟩ := h
  obtain ⟨n', hn', rfl⟩ := h'
  rw [hn.unique hn']

/-- The same pieces, among others that name nobody but who has been named before. -/
inductive Repeats : List Endpoint → List (List Endpoint) → List (List Endpoint) → Prop where
  | nil (known : List Endpoint) : Repeats known [] []
  | keep {known piece : List Endpoint} {pieces pieces' : List (List Endpoint)} :
      Repeats (known ++ piece) pieces pieces' → Repeats known (piece :: pieces) (piece :: pieces')
  | again {known piece : List Endpoint} {pieces pieces' : List (List Endpoint)} :
      piece ⊆ known → Repeats known pieces pieces' → Repeats known pieces (piece :: pieces')

theorem Repeats.collect_eq (h : Repeats known pieces pieces') (expected count : Nat) :
    collect expected count (Endpoint.distinct known) pieces' =
      collect expected count (Endpoint.distinct known) pieces := by
  induction h generalizing count with
  | nil => rfl
  | keep _ ih =>
    by_cases henough : expected ≤ count
    · rw [collect_of_le henough, collect_of_le henough]
    · rw [collect_cons henough, collect_cons henough, ih]
  | @again known piece pieces pieces' hsub _ ih =>
    by_cases henough : expected ≤ count
    · rw [collect_of_le henough, collect_of_le henough]
    · have hnone : ¬ ∃ e ∈ piece, e ∉ known := fun ⟨e, he, hnot⟩ => hnot (hsub he)
      have hsame := distinct_append_unseen known piece
      rw [unseen_distinct_eq_nil_iff.mpr hnone, List.append_nil] at hsame
      rw [collect_cons henough, if_neg hnone, ← hsame]
      exact ih count

end ServerDiscovery.Client.Query
