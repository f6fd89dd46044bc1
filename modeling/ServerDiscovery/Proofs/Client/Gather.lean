import Mathlib.Data.List.Basic
import Mathlib.Tactic.SplitIfs
import ServerDiscovery.Proofs.Client.History

/-! Chunks of a server list are taken in until enough have come. Only list replies of the master
count, and however they arrive the outcome names each of their servers once, in order. -/

namespace ServerDiscovery.Client

open Dialogue

def listReply? (e : Endpoint) : Occurrence → Option Bytes
  | .received _ (.datagram payload source) =>
    if Endpoint.ofSocket source = e then (Packet.expectResponse payload .list).toOption else none
  | _ => none

theorem listReply?_eq_some_iff {e : Endpoint} {o : Occurrence} {payload : Bytes} :
    listReply? e o = some payload ↔ ∃ t datagram source, o = .received t (.datagram datagram source) ∧
      Endpoint.ofSocket source = e ∧ Packet.expectResponse datagram .list = .ok payload := by
  constructor
  · intro h
    unfold listReply? at h
    split at h
    · rename_i t datagram source
      split_ifs at h with hsource
      cases hpayload : Packet.expectResponse datagram .list with
      | error fault =>
        rw [hpayload] at h
        cases h
      | ok body =>
        rw [hpayload] at h
        cases h
        exact ⟨t, datagram, source, rfl, hsource, hpayload⟩
    · cases h
  · rintro ⟨t, datagram, source, rfl, hsource, hpayload⟩
    simp [listReply?, hsource, hpayload, Except.toOption]

namespace Query

section Replies

variable {now : Time} {datagram : Bytes} {source : SocketAddress}

theorem acceptCount_eq_ok_iff {n : Nat} : acceptCount now datagram source = .ok n ↔
    ∃ payload, Packet.expectResponse datagram .count = .ok payload ∧
      Packet.parseCount payload = .ok n := by
  unfold acceptCount
  cases Packet.expectResponse datagram .count with
  | error fault => simp [wire, Bind.bind, Except.bind]
  | ok payload =>
    cases hcount : Packet.parseCount payload <;> simp [wire, Bind.bind, Except.bind, hcount]

theorem acceptList_eq_ok_iff {es : List Endpoint} : acceptList now datagram source = .ok es ↔
    ∃ payload, Packet.expectResponse datagram .list = .ok payload ∧
      Packet.parseList payload = es := by
  unfold acceptList
  cases Packet.expectResponse datagram .list <;>
    simp [wire, Bind.bind, Except.bind, Pure.pure, Except.pure]

end Replies

variable {source : Endpoint} {m m' : Moment} {os : List Occurrence}

theorem distinct_append_unseen (known chunk : List Endpoint) :
    Endpoint.distinct known ++ unseen (Endpoint.distinct known) chunk =
      Endpoint.distinct (known ++ chunk) := by
  simp only [Endpoint.distinct, unseen, List.eraseDups_append, List.removeAll]
  congr 3
  funext e
  simp [List.mem_eraseDups]

def Gathered (source : Endpoint) (servers : List Endpoint) (os : List Occurrence)
    (r : Option (Except Failure (List Endpoint))) : Prop :=
  ∀ es, r = some (.ok es) → ∃ replies : List Bytes,
    replies.Sublist (os.filterMap (listReply? source)) ∧
      ∀ known, servers = Endpoint.distinct known →
        es = Endpoint.distinct (known ++ replies.flatMap Packet.parseList)

theorem Gathered.done (servers : List Endpoint) :
    Gathered source servers os (some (.ok servers)) := by
  rintro es ⟨⟩
  exact ⟨[], List.nil_sublist _, fun known h => by simpa using h⟩

theorem Gathered.cons {servers : List Endpoint} {r : Option (Except Failure (List Endpoint))}
    (h : Gathered source servers os r) (o : Occurrence) : Gathered source servers (o :: os) r := by
  intro es hes
  obtain ⟨replies, hsub, heq⟩ := h es hes
  refine ⟨replies, hsub.trans (List.Sublist.filterMap _ (List.sublist_cons_self o os)), heq⟩

theorem Gathered.cons_reply {servers : List Endpoint} {payload : Bytes} {o : Occurrence}
    {r : Option (Except Failure (List Endpoint))} (ho : listReply? source o = some payload)
    (h : Gathered source (servers ++ unseen servers (Packet.parseList payload)) os r) :
    Gathered source servers (o :: os) r := by
  intro es hes
  obtain ⟨replies, hsub, heq⟩ := h es hes
  refine ⟨payload :: replies, ?_, ?_⟩
  · rw [List.filterMap_cons_some ho]
    exact hsub.cons_cons payload
  · rintro known rfl
    rw [List.flatMap_cons, ← List.append_assoc]
    exact heq _ (distinct_append_unseen _ _)

theorem of_course_gather {expected patience chunks : Nat} {servers : List Endpoint}
    {r : Option (Except Failure (List Endpoint))}
    (h : Course (gather source expected patience chunks servers) m os r m') :
    Silent os ∧ Gathered source servers os r := by
  induction patience generalizing chunks servers m os with
  | zero =>
    rw [gather] at h
    split_ifs at h
    · cases h with
      | broken => simp [Silent, Gathered]
      | finish => exact ⟨by simp [Silent], .done servers⟩
    · cases h
      simp [Silent, Gathered]
  | succ patience ih =>
    rw [gather] at h
    split_ifs at h
    · cases h with
      | broken => simp [Silent, Gathered]
      | finish => exact ⟨by simp [Silent], .done servers⟩
    · cases h with
      | broken => simp [Silent, Gathered]
      | receive x t _ _ _ h =>
        -- Whatever is counted and known after a datagram, the rest of the loop is silent.
        have hstep : ∀ {chunks servers'} {os : List Occurrence},
            Course (gather source expected patience chunks servers') ⟨t, m.deadline⟩ os r m' →
            Silent (.received t x :: os) := by
          intro chunks servers' os h t' a d k ho
          exact (ih h).1 t' a d k (by simpa using ho)
        cases x with
        | timedOut =>
          cases h with
          | broken => simp [Silent, Gathered]
          | finish => exact ⟨by simp [Silent], .done servers⟩
        | failed =>
          cases h with
          | broken => simp [Silent, Gathered]
          | finish => exact ⟨by simp [Silent], .done servers⟩
        | cancelled => cases h <;> simp [Silent, Gathered]
        | datagram datagram sender =>
          simp only at h
          split_ifs at h with hfrom
          · cases hreply : Packet.expectResponse datagram .list with
            | ok payload =>
              rw [hreply] at h
              exact ⟨hstep h, .cons_reply (listReply?_eq_some_iff.mpr
                ⟨t, datagram, sender, rfl, hfrom, hreply⟩) (ih h).2⟩
            | error e =>
              rw [hreply] at h
              exact ⟨hstep h, (ih h).2.cons _⟩
          · exact ⟨hstep h, (ih h).2.cons _⟩

theorem end_of_course_gather {expected patience chunks : Nat} {servers : List Endpoint}
    {r : Option (Except Failure (List Endpoint))}
    (h : Course (gather source expected patience chunks servers) m os r m') :
    m'.now ≤ max m.now m.deadline ∧ ∀ f, r = some (.error f) → f = .cancelled := by
  induction patience generalizing chunks servers m os with
  | zero =>
    rw [gather] at h
    split_ifs at h <;> cases h <;> exact ⟨le_max_left _ _, nofun⟩
  | succ patience ih =>
    rw [gather] at h
    split_ifs at h
    · cases h <;> exact ⟨le_max_left _ _, nofun⟩
    · cases h with
      | broken => exact ⟨le_max_left _ _, nofun⟩
      | receive x t _ hle _ h =>
        have hrest : ∀ {chunks servers os},
            Course (gather source expected patience chunks servers) ⟨t, m.deadline⟩ os r m' →
            m'.now ≤ max m.now m.deadline ∧ ∀ f, r = some (.error f) → f = .cancelled := by
          intro chunks servers os h
          obtain ⟨hend, hfailed⟩ := ih h
          exact ⟨hend.trans (max_le hle (le_max_right _ _)), hfailed⟩
        cases x with
        | timedOut | failed => cases h <;> exact ⟨hle, nofun⟩
        | cancelled =>
          cases h with
          | broken => exact ⟨hle, nofun⟩
          | finish => exact ⟨hle, by rintro f ⟨⟩; rfl⟩
        | datagram datagram sender =>
          simp only at h
          split_ifs at h
          · split at h
            · exact hrest h
            · exact hrest h
          · exact hrest h

end Query
end ServerDiscovery.Client
