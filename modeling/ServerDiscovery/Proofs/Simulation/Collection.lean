import Mathlib.Data.List.Pairwise
import ServerDiscovery.Proofs.Client.Collection
import ServerDiscovery.Proofs.Client.Listing
import ServerDiscovery.Proofs.Client.Timeliness
import ServerDiscovery.Proofs.Simulation.Tail

/-! A list that is collected over a script. Its pieces are those that are there in time and come
before anything that fails. What is no piece, or repeats what has been named already, may be put
between them anywhere, and the operation ends in the same list. -/

namespace ServerDiscovery

open Client Query

namespace Simulation

variable {e : Endpoint} {known : List Endpoint} {deadline : Time} {queue queue' : List Cue}

def Cue.piece? (e : Endpoint) (c : Cue) : Option (List Endpoint) :=
  (listReply? e (.received c.due c.arrival.reception)).map Packet.parseList

/-- Whether a cue is there in time and is no failure. -/
def Cue.comes (deadline : Time) (c : Cue) : Bool := c.due ≤ deadline ∧ c.arrival ≠ .failure

def pieces (e : Endpoint) (deadline : Time) (queue : List Cue) : List (List Endpoint) :=
  (queue.takeWhile (Cue.comes deadline)).filterMap (Cue.piece? e)

theorem pieces_cons_of_comes {c : Cue} (h : c.comes deadline = true) (queue : List Cue) :
    pieces e deadline (c :: queue) = (c.piece? e).toList ++ pieces e deadline queue := by
  rw [pieces, List.takeWhile_cons_of_pos h, List.filterMap_cons]
  cases c.piece? e <;> rfl

theorem pieces_cons_of_not_comes {c : Cue} (h : c.comes deadline = false) (queue : List Cue) :
    pieces e deadline (c :: queue) = [] := by
  rw [pieces, List.takeWhile_cons_of_neg (by simp [h])]
  rfl

/-- The same cues, among others that neither fail nor name anybody who has not been named. -/
inductive Padded (e : Endpoint) : List Endpoint → List Cue → List Cue → Prop where
  | done (known : List Endpoint) : Padded e known [] []
  | keep {known : List Endpoint} {queue queue' : List Cue} (c : Cue) :
      Padded e (known ++ (c.piece? e).getD []) queue queue' →
      Padded e known (c :: queue) (c :: queue')
  | insert {known : List Endpoint} {queue queue' : List Cue} (c : Cue) :
      c.arrival ≠ .failure → (∀ piece ∈ c.piece? e, piece ⊆ known) →
      Padded e known queue queue' → Padded e known queue (c :: queue')

theorem Padded.subset (h : Padded e known queue queue') : queue ⊆ queue' := by
  induction h with
  | done => exact List.Subset.refl _
  | keep c _ ih => exact List.cons_subset_cons c ih
  | insert c _ _ _ ih => exact List.subset_cons_of_subset c ih

theorem Padded.repeats (h : Padded e known queue queue')
    (hordered : queue'.Pairwise fun c c' => c.due ≤ c'.due) (deadline : Time) :
    Repeats known (pieces e deadline queue) (pieces e deadline queue') := by
  induction h with
  | done known => exact .nil known
  | @keep known queue queue' c _ ih =>
    have hrest := ih hordered.of_cons
    cases hcomes : c.comes deadline with
    | true =>
      rw [pieces_cons_of_comes hcomes, pieces_cons_of_comes hcomes]
      cases hpiece : c.piece? e with
      | some piece =>
        rw [hpiece] at hrest
        exact .keep hrest
      | none =>
        rw [hpiece, Option.getD_none, List.append_nil] at hrest
        exact hrest
    | false =>
      rw [pieces_cons_of_not_comes hcomes, pieces_cons_of_not_comes hcomes]
      exact .nil known
  | @insert known queue queue' c hfails hnew hpadded ih =>
    have hrest := ih hordered.of_cons
    cases hcomes : c.comes deadline with
    | true =>
      rw [pieces_cons_of_comes hcomes]
      cases hpiece : c.piece? e with
      | some piece => exact .again (hnew piece hpiece) hrest
      | none => exact hrest
    | false =>
      -- It comes too late, and so does all that is behind it.
      have hlate : deadline < c.due := by simpa [Cue.comes, hfails] using hcomes
      rw [pieces_cons_of_not_comes hcomes]
      cases queue with
      | nil => exact .nil known
      | cons c' queue =>
        have hbehind := List.rel_of_pairwise_cons hordered (hpadded.subset List.mem_cons_self)
        have hlate' : c'.comes deadline = false := by
          simp [Cue.comes, Nat.not_le_of_lt (Nat.lt_of_lt_of_le hlate hbehind)]
        rw [pieces_cons_of_not_comes hlate']
        exact .nil known

namespace Script

variable {s u : Script} {expected patience count : Nat} {servers : List Endpoint}

/-- Nothing is cancelled, and what is still to come waits for no more sends. -/
structure Ready (s : Script) : Prop where
  cancelAt : s.cancelAt = none
  sends : ∀ c ∈ s.queue, c.afterSends ≤ s.sends

theorem receive_of_due {c : Cue} {rest : List Cue} (hs : s.Ready) (hqueue : s.queue = c :: rest)
    (hnow : s.now ≤ s.deadline) (hdue : c.due ≤ s.deadline) :
    ∃ s', Transport.receive s = (c.arrival.reception, s') ∧ s'.Ready ∧ s'.queue = rest ∧
      s'.deadline = s.deadline ∧ s'.now ≤ s'.deadline := by
  have hsends : ∀ c' ∈ c :: rest, c'.afterSends ≤ s.sends := hqueue ▸ hs.sends
  have hnext : s.next? = some (c.due, c.arrival) := by
    rw [next?, hqueue]
    exact if_pos (hsends c List.mem_cons_self)
  have hwait : Wait.of s.now s.deadline s.cancelAt s.next? =
      ⟨c.arrival.reception, max s.now c.due, true⟩ := by
    rw [hs.cancelAt, hnext]
    exact if_pos (.inr hdue)
  have hrest : s.queue.drop 1 = rest := by rw [hqueue, List.drop_one, List.tail_cons]
  refine ⟨_, receive_of_wait hwait, ⟨hs.cancelAt, ?_⟩, hrest, rfl, max_le hnow hdue⟩
  intro c' hc'
  exact hsends c' (List.mem_cons_of_mem c (hrest ▸ hc'))

theorem receive_of_late (hs : s.Ready) (hnow : s.now ≤ s.deadline)
    (hlate : ∀ c ∈ s.queue.head?, s.deadline < c.due) :
    ∃ s', Transport.receive s = (.timedOut, s') := by
  have hwait : ∃ ends, Wait.of s.now s.deadline s.cancelAt s.next? = ⟨.timedOut, ends, false⟩ := by
    rw [hs.cancelAt]
    cases hqueue : s.queue with
    | nil =>
      rw [next?, hqueue]
      exact ⟨_, rfl⟩
    | cons c rest =>
      have hnext : s.next? = some (c.due, c.arrival) := by
        rw [next?, hqueue]
        exact if_pos (hs.sends c (hqueue ▸ List.mem_cons_self))
      have hdue : s.deadline < c.due := hlate c (by rw [hqueue]; rfl)
      rw [hnext]
      exact ⟨_, if_neg (by lia)⟩
  obtain ⟨ends, hwait⟩ := hwait
  exact ⟨_, receive_of_wait hwait⟩

theorem run_gather_of_comes {c : Cue} {rest : List Cue} (hs : s.Ready)
    (hqueue : s.queue = c :: rest) (hnow : s.now ≤ s.deadline)
    (hcomes : c.comes s.deadline = true) (e : Endpoint) (expected : Nat) :
    ∃ s' : Script, s'.Ready ∧ s'.queue = rest ∧ s'.deadline = s.deadline ∧ s'.now ≤ s'.deadline ∧
      ∀ patience count servers, ¬ expected ≤ count →
        (gather e expected (patience + 1) count servers).run s =
          match c.piece? e with
          | some piece => (gather e expected patience
              (if (unseen servers piece).isEmpty then count else count + 1)
              (servers ++ unseen servers piece)).run s'
          | none => (gather e expected patience count servers).run s' := by
  obtain ⟨hdue, hfails⟩ : c.due ≤ s.deadline ∧ c.arrival ≠ .failure := by
    simpa [Cue.comes] using hcomes
  obtain ⟨s', hreceive, hready, hrest, hdeadline, hnow'⟩ := receive_of_due hs hqueue hnow hdue
  refine ⟨s', hready, hrest, hdeadline, hnow', fun patience count servers hmore => ?_⟩
  rw [gather, if_neg hmore, Dialogue.run, hreceive]
  cases harrival : c.arrival with
  | failure => exact absurd harrival hfails
  | datagram payload source =>
    simp only [Cue.piece?, listReply?, harrival, Arrival.reception]
    by_cases hsource : Endpoint.ofSocket source = e
    · rw [if_pos hsource, if_pos hsource]
      cases Packet.expectResponse (payload.take Packet.maxSize) .list <;> rfl
    · rw [if_neg hsource, if_neg hsource]
      rfl

theorem receive_of_not_comes (hs : s.Ready) (hnow : s.now ≤ s.deadline)
    (hcomes : ∀ c ∈ s.queue.head?, c.comes s.deadline = false) :
    ∃ s', Transport.receive s = (.timedOut, s') ∨ Transport.receive s = (.failed, s') := by
  cases hqueue : s.queue with
  | nil =>
    obtain ⟨s', hreceive⟩ := receive_of_late hs hnow (by simp [hqueue])
    exact ⟨s', .inl hreceive⟩
  | cons c rest =>
    by_cases hdue : c.due ≤ s.deadline
    · have hnot : c.comes s.deadline = false := hcomes c (by rw [hqueue]; rfl)
      have hfails : c.arrival = .failure := by simpa [Cue.comes, hdue] using hnot
      obtain ⟨s', hreceive, -⟩ := receive_of_due hs hqueue hnow hdue
      rw [hfails] at hreceive
      exact ⟨s', .inr hreceive⟩
    · obtain ⟨s', hreceive⟩ := receive_of_late hs hnow (by simpa [hqueue] using hdue)
      exact ⟨s', .inl hreceive⟩

theorem run_gather_of_not_comes (hs : s.Ready) (hnow : s.now ≤ s.deadline)
    (hcomes : ∀ c ∈ s.queue.head?, c.comes s.deadline = false) (hmore : ¬ expected ≤ count) :
    ∃ u, (gather e expected (patience + 1) count servers).run s = some (.ok servers, u) := by
  rw [gather, if_neg hmore, Dialogue.run]
  obtain ⟨u, hreceive | hreceive⟩ := receive_of_not_comes hs hnow hcomes <;>
    exact ⟨u, by rw [hreceive]; rfl⟩

theorem run_gather_pieces (e : Endpoint) (expected : Nat) (hs : s.Ready) (hnow : s.now ≤ s.deadline)
    (hpatience : s.queue.length < patience) (count : Nat) (servers : List Endpoint) :
    ∃ u, (gather e expected patience count servers).run s =
      some (.ok (collect expected count servers (pieces e s.deadline s.queue)), u) := by
  obtain ⟨patience, rfl⟩ := Nat.exists_eq_add_of_le' (Nat.one_le_of_lt hpatience)
  induction hqueue : s.queue generalizing s patience count servers with
  | nil =>
    by_cases hmore : expected ≤ count
    · rw [gather, if_pos hmore]
      exact ⟨s, rfl⟩
    · exact run_gather_of_not_comes hs hnow (by simp [hqueue]) hmore
  | cons c rest ih =>
    by_cases hmore : expected ≤ count
    · rw [gather, if_pos hmore, collect_of_le hmore]
      exact ⟨s, rfl⟩
    cases hcomes : c.comes s.deadline with
    | false =>
      rw [pieces_cons_of_not_comes hcomes]
      exact run_gather_of_not_comes hs hnow (by simp [hqueue, hcomes]) hmore
    | true =>
      obtain ⟨s', hs', hrest, hdeadline, hnow', hstep⟩ :=
        run_gather_of_comes hs hqueue hnow hcomes e expected
      have hfew : s'.queue.length < patience := by
        rw [hqueue, List.length_cons] at hpatience
        rw [hrest]
        exact Nat.lt_of_succ_lt_succ hpatience
      obtain ⟨patience, rfl⟩ := Nat.exists_eq_add_of_le' (Nat.one_le_of_lt hfew)
      rw [hstep _ _ _ hmore, pieces_cons_of_comes hcomes, ← hdeadline]
      cases c.piece? e with
      | none => exact ih hs' hnow' count servers patience hfew hrest
      | some piece =>
        rw [Option.toList_some, List.singleton_append, collect, if_neg hmore]
        exact ih hs' hnow' _ _ patience hfew hrest

end Script

section Session

variable {s s' : Session} {k k' : Script} {a : SocketAddress} {c : Nat} {asked : Time}
  {first : List Endpoint}

/-- A session learns from its target how many servers there are, asks it for the list at a time, and
accepts the first piece. -/
structure Opens (s : Session) (k : Script) (a : SocketAddress) (c : Nat) (asked : Time)
    (first : List Endpoint) (s' : Session) (k' : Script) : Prop where
  target : s.target = some a
  asks : ∃ s₁ k₁ frame k₂, Query.Concludes count s k (.ok c) s₁ k₁ ∧
    Query.Concludes (fun patience => requestFrame patience .list) s₁ k₁ (.ok frame) s' k₂ ∧
    Dialogue.Concludes (Client.inquire s'.settings.pacing a frame acceptList) k₂ (.ok first) k' ∧
    asked = k₂.now

theorem Opens.retail (h : Opens s k a c asked first s' k') :
    ∃ before, k.queue = before ++ k'.queue ∧ ∀ queue,
      Opens s { k with queue := before ++ queue } a c asked first s' { k' with queue } := by
  obtain ⟨s₁, k₁, frame, k₂, hcount, hframe, hfirst, rfl⟩ := h.asks
  obtain ⟨enough₁, hrun₁⟩ := id hcount
  obtain ⟨enough₂, hrun₂⟩ := id hframe
  obtain ⟨enough₃, hrun₃⟩ := id hfirst
  have hqueue₃ := (Script.settles_inquire (hrun₃ enough₃ le_rfl)).2
  obtain ⟨-, hsuffix₂⟩ := Script.run_frame k₁ (hrun₂ enough₂ le_rfl)
  obtain ⟨-, hsuffix₁⟩ := Script.run_frame k (hrun₁ enough₁ le_rfl)
  obtain ⟨-, hsuffix₃⟩ := Script.run_frame k₂ (hrun₃ enough₃ le_rfl)
  obtain ⟨before, hbefore⟩ := hsuffix₃.trans (hsuffix₂.trans hsuffix₁)
  obtain ⟨pre₁, hk₁, hcount'⟩ := Script.concludes_retail hcount
    (fun _ hrun => Script.spares_of_run k hrun (hqueue₃.trans_le hsuffix₂.length_le))
    hbefore.symm
  obtain ⟨pre₂, hk₂, hframe'⟩ := Script.concludes_retail hframe
    (fun _ hrun => Script.spares_of_run k₁ hrun hqueue₃) hk₁
  obtain ⟨pre₃, hk₃, hfirst'⟩ := Script.concludes_retail hfirst
    (fun _ hrun => (Script.settles_inquire hrun).1) hk₂
  obtain rfl : pre₃ = [] := List.append_left_eq_self.mp hk₃.symm
  exact ⟨before, hbefore.symm, fun queue =>
    ⟨h.target, s₁, _, frame, _, hcount' queue, hframe' queue, hfirst' queue, rfl⟩⟩

theorem Opens.now_le (h : Opens s k a c asked first s' k') :
    k'.now ≤ asked + s'.settings.pacing.budget := by
  obtain ⟨_, _, _, k₂, -, -, ⟨enough, hrun⟩, rfl⟩ := h.asks
  obtain ⟨os, hcourse⟩ := Dialogue.course_of_run (hrun enough le_rfl)
  exact (timely_of_course hcourse).now_le

theorem Opens.servers (h : Opens s k a c asked first s' k') (hc : 0 < c) (hready : k'.Ready) :
    ∃ u, Query.Concludes servers s k (.ok (collect (expectedChunks c) 1 (Endpoint.distinct first)
      (pieces (.ofSocket a) (asked + s'.settings.pacing.budget) k'.queue))) s' u := by
  obtain ⟨s₁, k₁, frame, k₂, hcount, hframe, hfirst, rfl⟩ := id h.asks
  let deadline := k₂.now + s'.settings.pacing.budget
  let opened : Script := Transport.readUntil deadline k'
  have hopened : opened.Ready := ⟨hready.cancelAt, hready.sends⟩
  obtain ⟨u, hrun⟩ := Script.run_gather_pieces (.ofSocket a) (expectedChunks c) hopened h.now_le
    (Nat.lt_succ_self _) 1 (unseen [] first)
  have hgather : Dialogue.Concludes (fun patience => .readUntil deadline
      (gather (.ofSocket a) (expectedChunks c) patience 1 (unseen [] first))) k' _ u :=
    concludes_of_run_gather hrun
  have hdistinct : unseen [] first = Endpoint.distinct first := distinct_append_unseen [] first
  rw [← hdistinct]
  exact ⟨u, .servers_of_count h.target hcount hc.ne' <|
    .bind hframe <| .clock_bind <| .bind (.inquire hfirst) <| .get_bind <| .ofDialogue hgather⟩

/-- Which servers the list of a master comes to, once its first piece is there, and that nothing
which is put behind that piece changes them so long as it names nobody new: not what others send,
nor other datagrams of the master, nor copies of its pieces. -/
theorem servers_collected (h : Opens s k a c asked first s' k') (hc : 0 < c) (hready : k'.Ready) :
    ∃ es, Collected (expectedChunks c) 1 first
        (pieces (.ofSocket a) (asked + s'.settings.pacing.budget) k'.queue) es ∧ es.Nodup ∧
      (∃ u, Query.Concludes servers s k (.ok es) s' u) ∧
      ∃ before, k.queue = before ++ k'.queue ∧
        ∀ queue, Padded (.ofSocket a) first k'.queue queue →
          (queue.Pairwise fun c c' => c.due ≤ c'.due) →
          (∀ c ∈ queue, c.afterSends ≤ k'.sends) →
          ∃ u, Query.Concludes servers s { k with queue := before ++ queue } (.ok es) s' u := by
  obtain ⟨before, hbefore, hretail⟩ := h.retail
  have hcollected := collected_collect (expectedChunks c) 1 first
    (pieces (.ofSocket a) (asked + s'.settings.pacing.budget) k'.queue)
  refine ⟨_, hcollected, ?_, h.servers hc hready, before, hbefore, ?_⟩
  · obtain ⟨n, -, hes⟩ := hcollected
    rw [hes]
    exact Endpoint.nodup_distinct _
  · intro queue hpadded hordered hsends
    have hready' : Script.Ready { k' with queue } := ⟨hready.cancelAt, hsends⟩
    obtain ⟨u, hu⟩ := (hretail queue).servers hc hready'
    rw [(hpadded.repeats hordered _).collect_eq] at hu
    exact ⟨u, hu⟩

section Padding

def master : SocketAddress := .v4 ⟨10, 0, 0, 1⟩ 8300

def listed (n : UInt16) : Endpoint := .ofSocket (.v4 ⟨10, 0, 0, 3⟩ n)

def masterCue (due : Time) (kind : ReplyKind) (payload : Bytes) : Cue :=
  ⟨due, 0, .datagram (Packet.response 7 9 kind payload) master⟩

def pieceCue (due : Time) (servers : List Endpoint) : Cue :=
  masterCue due .list (servers.flatMap Endpoint.toEntry)

def opening : List Cue :=
  [⟨3, 0, .datagram (Token.responseFrame 7 9) master⟩,
    masterCue 5 .count (Packet.countPayload (Packet.statedCount 80)), pieceCue 8 [listed 1]]

def secondPiece : List Cue := [pieceCue 20 [listed 1, listed 2]]

def paddedPiece : List Cue :=
  [pieceCue 9 [listed 1], ⟨9, 0, .datagram [1] (.v4 ⟨10, 0, 0, 2⟩ 8300)⟩,
    masterCue 10 .count [0, 80], pieceCue 20 [listed 1, listed 2]]

def opener : Session := (Session.new {} fun _ => 7).aim master

def openingScript (queue : List Cue) : Script := .new (opening ++ queue) [] none

theorem opens_opening : ∃ s' k',
    Opens opener (openingScript secondPiece) master 80 5
      (Packet.parseList ([listed 1].flatMap Endpoint.toEntry)) s' k' ∧
    k'.cancelAt = none ∧ k'.queue = secondPiece ∧ k'.sends = 3 ∧
    s'.settings.pacing.budget = 16000 := by
  have hcount := Query.Concludes.of_extends extends_count 3
    (rfl : ((count 3).dialogue opener).run (openingScript secondPiece) = some ((.ok 80, _), _))
  have hopens : Opens opener (openingScript secondPiece) master 80 5 _ _ _ :=
    ⟨rfl, _, _, _, _, hcount, .of_extends (fun hle => extends_requestFrame hle .list) 0 rfl,
      .of_extends extends_inquire 3 rfl, rfl⟩
  exact ⟨_, _, hopens, rfl, rfl, rfl, rfl⟩

theorem padded_paddedPiece : Padded (.ofSocket master) [listed 1] secondPiece paddedPiece := by
  refine .insert _ nofun ?_ (.insert _ nofun ?_ (.insert _ nofun ?_ (.keep _ (.done _)))) <;>
    decide +kernel

theorem servers_collected_padded : ∃ s' u u',
    Query.Concludes servers opener (openingScript secondPiece) (.ok [listed 1, listed 2]) s' u ∧
      Query.Concludes servers opener (openingScript paddedPiece) (.ok [listed 1, listed 2]) s'
        u' := by
  obtain ⟨s', k', hopens, hcancelAt, hqueue, hsends, hbudget⟩ := opens_opening
  rw [Packet.parseList_flatMap_toEntry] at hopens
  have hready : k'.Ready := ⟨hcancelAt, by rw [hqueue, hsends]; decide⟩
  obtain ⟨es, hes, -, ⟨u, hu⟩, before, hbefore, hpad⟩ :=
    servers_collected hopens (by decide) hready
  rw [hqueue] at hbefore hpad
  obtain rfl : opening = before := List.append_cancel_right hbefore
  have hpieces : pieces (.ofSocket master) (5 + s'.settings.pacing.budget) k'.queue =
      [[listed 1, listed 2]] := by
    rw [hqueue, hbudget]
    decide +kernel
  have hboth : Collected (expectedChunks 80) 1 [listed 1] [[listed 1, listed 2]]
      [listed 1, listed 2] := by
    refine ⟨1, ⟨by decide, ?_⟩, by decide +kernel⟩
    rintro (_ | n) hn
    · exact absurd hn (by decide)
    · exact Nat.succ_le_succ (Nat.zero_le n)
  rw [hpieces] at hes
  obtain rfl := hes.unique hboth
  obtain ⟨u', hu'⟩ := hpad paddedPiece padded_paddedPiece (by decide) (by rw [hsends]; decide)
  exact ⟨s', u, u', hu, hu'⟩

end Padding
end Session
end Simulation
end ServerDiscovery
