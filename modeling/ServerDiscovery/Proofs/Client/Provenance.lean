import ServerDiscovery.Proofs.Client.FollowUp
import ServerDiscovery.Proofs.Client.Gather
import ServerDiscovery.Proofs.Simulation.Lawful

/-! Sessions keep their targets apart. In every history each datagram goes to the target of its call,
as a handshake that is due or with a token of that very target; and every answer is the target's. -/

namespace ServerDiscovery.Client

/-- An answer is what the target of the call said in it, or granted before. -/
def Answer.Genuine (target : SocketAddress) (past os : List Occurrence) : Answer → Prop
  | .aimed => False
  | .token t => ∃ g, Granted (past ++ os) (.ofSocket target) t.client t.server g
  | .count n => Told os target Query.acceptCount n
  | .record r => Told os target Query.acceptRecord r ∧
      r.address = (Endpoint.ofSocket target).toString
  | .servers es => (∃ n, Told os target Query.acceptCount n) ∧ ∃ replies : List Bytes,
      replies.Sublist (os.filterMap (listReply? (.ofSocket target))) ∧
        es = Endpoint.distinct (replies.flatMap Packet.parseList)

variable {s : Session} {m m' : Moment} {past os : List Occurrence} {a : SocketAddress}

theorem Told.append_right {α : Type} {accept : Accept α} {x : α} (h : Told os a accept x)
    (os' : List Occurrence) : Told (os ++ os') a accept x := by
  obtain ⟨t, payload, source, hmem, h⟩ := h
  exact ⟨t, payload, source, List.mem_append_left _ hmem, h⟩

theorem Told.record_address {r : ServerRecord} (h : Told os a Query.acceptRecord r) :
    r.address = (Endpoint.ofSocket a).toString := by
  obtain ⟨t, payload, source, -, hsource, hok⟩ := h
  rw [← hsource]
  cases hx : Packet.expectResponse payload .info with
  | error e => simp [Query.acceptRecord, Query.wire, hx, bind, Except.bind] at hok
  | ok body =>
    cases hp : ServerRecord.parse body (Endpoint.ofSocket source).toString with
    | error e => simp [Query.acceptRecord, Query.wire, hx, hp, bind, Except.bind] at hok
    | ok r' =>
      simp only [Query.acceptRecord, Query.wire, hx, hp, bind, Except.bind, Except.ok.injEq] at hok
      exact hok ▸ ServerRecord.address_of_parse hp

theorem Told.list_reply {es : List Endpoint} (h : Told os a Query.acceptList es) :
    ∃ reply, [reply].Sublist (os.filterMap (listReply? (.ofSocket a))) ∧
      es = Packet.parseList reply := by
  obtain ⟨t, datagram, source, hmem, hsource, hok⟩ := h
  obtain ⟨payload, hpayload, rfl⟩ := Query.acceptList_eq_ok_iff.mp hok
  have hreply := listReply?_eq_some_iff.mpr ⟨t, datagram, source, rfl, hsource, hpayload⟩
  exact ⟨payload, List.singleton_sublist.mpr (List.mem_filterMap.mpr ⟨_, hmem, hreply⟩), rfl⟩

namespace Query

theorem always_count (patience : Nat) (h : Traced s past m) (ha : s.target = some a) :
    Always (count patience) s m
      (Clean fun before t target datagram => Proper s.settings a past before t target datagram)
      fun r s' os m' => Traced s' (past ++ os) m' ∧ s'.settings = s.settings ∧ s'.target = some a ∧
        (∀ server client, Fresh os (Token.followUpHeader server client ++ Question.list.marker)) ∧
        ∀ n, r = .ok n → Told os a acceptCount n := by
  refine .target_bind ha ?_
  refine (always_question [] patience .count (by simpa using h) ha (by simp [Fresh])).mono
    (fun os hc => hc) ?_
  rintro r s' os m' - ⟨htraced, hset, ha', hfresh, hok⟩
  exact ⟨htraced, hset, ha', fun server client => hfresh .list (by simp) server client,
    fun n hn => (hok n hn).1⟩

theorem always_record (patience : Nat) (h : Traced s past m) (ha : s.target = some a) :
    Always (record patience) s m
      (Clean fun before t target datagram => Proper s.settings a past before t target datagram)
      fun r s' os m' => Traced s' (past ++ os) m' ∧ s'.settings = s.settings ∧ s'.target = some a ∧
        ∀ x, r = .ok x → Told os a acceptRecord x := by
  refine .target_bind ha ?_
  refine (always_question [] patience .info (by simpa using h) ha (by simp [Fresh])).mono
    (fun os hc => hc) ?_
  rintro r s' os m' - ⟨htraced, hset, ha', -, hok⟩
  exact ⟨htraced, hset, ha', fun x hx => (hok x hx).1⟩

theorem always_list {sofar : List Occurrence} (patience expected : Nat)
    (h : Traced s (past ++ sofar) m) (ha : s.target = some a)
    (hsofar : ∀ server client, Fresh sofar
      (Token.followUpHeader server client ++ Question.list.marker)) :
    Always (do
        let frame ← requestFrame patience .list
        let started ← clock
        let first ← inquire patience a frame acceptList
        let deadline := started + (← get).settings.pacing.budget
        ofDialogue <| .readUntil deadline <|
          gather (Endpoint.ofSocket a) expected patience 1 (unseen [] first)) s m
      (Clean fun before t target datagram =>
        Proper s.settings a past (sofar ++ before) t target datagram)
      fun r s' os m' => Traced s' (past ++ (sofar ++ os)) m' ∧ s'.settings = s.settings ∧
        s'.target = some a ∧ ∀ es, r = .ok es → ∃ replies : List Bytes,
          replies.Sublist (os.filterMap (listReply? (.ofSocket a))) ∧
            es = Endpoint.distinct (replies.flatMap Packet.parseList) := by
  refine (always_requestFrame patience .list h ha).bind ?_ ?_
  · rintro frame s₁ os₁ m₁ hclean ⟨htraced, hset, ha₁, hfresh, hok⟩
    obtain ⟨client, server, g, rfl, hg, hlt⟩ := hok frame rfl
    rw [← hset] at hlt hclean ⊢
    refine .clock_bind (((always_ask patience .list htraced
      ((hsofar server client).append (hfresh server client _)) hg hlt).guard fun os hc =>
        hclean.append (by simpa only [List.append_assoc] using hc)).bind ?_ ?_)
    · rintro first s₂ os₂ m₂ hclean ⟨rfl, htraced, -, hok⟩
      obtain ⟨htold, hlast⟩ := hok first rfl
      obtain ⟨reply, hsub, rfl⟩ := htold.list_reply
      refine .get_bind (.ofDialogue fun os₃ r m₃ hc => ?_)
      cases hc with
      | broken => exact ⟨by simpa using hclean, by simp⟩
      | readUntil hc =>
        obtain ⟨hsilent, hgathered⟩ := of_course_gather hc
        refine ⟨by simpa only [List.append_assoc] using hclean.append hsilent.clean, ?_⟩
        rintro r rfl
        refine ⟨?_, rfl, ha₁, ?_⟩
        · -- The last datagram sent was a follow-up, so that no reply can be a grant.
          have hthen := htraced.silent (lastSent_append_of_some (lastSent_append_of_some hlast))
            (fun c => Token.requestFrame_ne_followUp _ _ _ _) hsilent hc.now_le
            fun o ho => (hc.time_mem o ho).2
          simpa only [List.append_assoc] using hthen
        · rintro es rfl
          obtain ⟨replies, hreplies, hes⟩ := hgathered es rfl
          refine ⟨reply :: replies, ?_, ?_⟩
          · rw [List.filterMap_append, List.filterMap_append]
            exact (hsub.append hreplies).trans (List.sublist_append_right _ _)
          · exact hes _ (distinct_append_unseen [] _)
    · rintro f s₂ os₂ m₂ ⟨rfl, htraced, -⟩
      exact ⟨by simpa only [List.append_assoc] using htraced, rfl, ha₁, by simp⟩
  · rintro f s₁ os m₁ ⟨htraced, hset, ha₁, -⟩
    exact ⟨htraced, hset, ha₁, by simp⟩

theorem always_servers (patience : Nat) (h : Traced s past m) (ha : s.target = some a) :
    Always (servers patience) s m
      (Clean fun before t target datagram => Proper s.settings a past before t target datagram)
      fun r s' os m' => Traced s' (past ++ os) m' ∧ s'.settings = s.settings ∧ s'.target = some a ∧
        ∀ es, r = .ok es → (Answer.servers es).Genuine a past os := by
  refine .target_bind ha ((always_count patience h ha).bind ?_ ?_)
  · rintro n s₁ os₁ m₁ hclean ⟨htraced, hset, ha₁, hfresh, hcount⟩
    have htold := hcount n rfl
    dsimp only
    split_ifs with hn
    · refine .pure (by simpa using hclean) ⟨by simpa using htraced, hset, ha₁, ?_⟩
      rintro es ⟨⟩
      exact ⟨⟨n, by simpa using htold⟩, [], List.nil_sublist _, rfl⟩
    · rw [← hset] at hclean ⊢
      refine (always_list patience (expectedChunks n) htraced ha₁ hfresh).mono
        (fun os₂ hc => hclean.append hc) ?_
      rintro r s₂ os₂ m₂ - ⟨htraced, hset₂, ha₂, hok⟩
      refine ⟨htraced, hset₂, ha₂, fun es hes => ⟨⟨n, htold.append_right os₂⟩, ?_⟩⟩
      obtain ⟨replies, hsub, heq⟩ := hok es hes
      exact ⟨replies, by simpa using hsub.trans (List.sublist_append_right _ _), heq⟩
  · rintro f s₁ os m₁ ⟨htraced, hset, ha₁, -⟩
    exact ⟨htraced, hset, ha₁, by simp⟩

end Query

/-- What a session may send in a call, if it has a target. -/
def Allowed (settings : Settings) (target? : Option SocketAddress) (past before : List Occurrence)
    (t : Time) (target : SocketAddress) (datagram : Bytes) : Prop :=
  ∃ a, target? = some a ∧ Proper settings a past before t target datagram

theorem always_untargeted {α : Type} (h : Traced s past m) (ha : s.target = none)
    (f : SocketAddress → Query α) (g : α → Answer) :
    Query.Always (g <$> (Query.target >>= f)) s m
      (Clean fun before t target datagram => Allowed s.settings none past before t target datagram)
      fun r s' os m' => Traced s' (past ++ os) m' ∧ s'.settings = s.settings ∧
        ∀ x, r = .ok x → x = .aimed ∨ ∃ a, none = some a ∧ x.Genuine a past os :=
  .map (.target_bind_of_none ha .nil ⟨by simpa using h, rfl, by simp [Functor.map, Except.map]⟩)

theorem always_targeted {α : Type} {q : Query α} {g : α → Answer}
    {P : α → List Occurrence → Prop}
    (h : Query.Always q s m
      (Clean fun before t target datagram => Proper s.settings a past before t target datagram)
      fun r s' os m' => Traced s' (past ++ os) m' ∧ s'.settings = s.settings ∧ s'.target = some a ∧
        ∀ x, r = .ok x → P x os)
    (hP : ∀ x os, P x os → (g x).Genuine a past os) :
    Query.Always (g <$> q) s m
      (Clean fun before t target datagram =>
        Allowed s.settings (some a) past before t target datagram)
      fun r s' os m' => Traced s' (past ++ os) m' ∧ s'.settings = s.settings ∧
        ∀ x, r = .ok x → x = .aimed ∨ ∃ b, some a = some b ∧ x.Genuine b past os := by
  refine .map (h.mono (fun os hc => hc.mono fun before t target datagram hp => ⟨a, rfl, hp⟩) ?_)
  rintro r s' os m' - ⟨htraced, hset, -, hok⟩
  refine ⟨htraced, hset, ?_⟩
  cases r with
  | error e => simp [Functor.map, Except.map]
  | ok x =>
    rintro _ ⟨⟩
    exact .inr ⟨a, rfl, hP x os (hok x rfl)⟩

theorem Call.always_query (c : Call) (patience : Nat) (h : Traced s past m) :
    Query.Always (c.query patience) s m
      (Clean fun before t target datagram =>
        Allowed s.settings s.target past before t target datagram)
      fun r s' os m' => Traced s' (past ++ os) m' ∧ s'.settings = s.settings ∧
        ∀ x, r = .ok x → x = .aimed ∨ ∃ a, s.target = some a ∧ x.Genuine a past os := by
  cases c with
  | aim target =>
    refine .modifyGet_bind (.pure .nil ⟨?_, rfl, by simp⟩)
    rw [List.append_nil]
    exact h.settings_eq rfl rfl
  | token =>
    cases ha : s.target with
    | none => exact always_untargeted h ha _ _
    | some a =>
      refine always_targeted ((Query.always_token patience h ha).guard fun os hc =>
        Clean.proper [] (by simpa using hc)) fun t os ht => ?_
      obtain ⟨g, hg, -⟩ := ht
      exact ⟨g, hg⟩
  | count =>
    cases ha : s.target with
    | none => exact always_untargeted h ha _ _
    | some a =>
      refine always_targeted ((Query.always_count patience h ha).mono (fun os hc => hc) ?_)
        fun n os hn => hn
      rintro r s' os m' - ⟨htraced, hset, ha', -, hok⟩
      exact ⟨htraced, hset, ha', hok⟩
  | record =>
    cases ha : s.target with
    | none => exact always_untargeted h ha _ _
    | some a =>
      exact always_targeted (Query.always_record patience h ha)
        fun r os hr => ⟨hr, hr.record_address⟩
  | servers =>
    cases ha : s.target with
    | none => exact always_untargeted h ha _ _
    | some a => exact always_targeted (Query.always_servers patience h ha) fun es os hes => hes

def Throughout (P : List Entry → Entry → Prop) (es : List Entry) : Prop :=
  ∀ es₁ e es₂, es = es₁ ++ e :: es₂ → P es₁ e

theorem Throughout.nil {P : List Entry → Entry → Prop} : Throughout P [] := by
  intro es₁ e es₂ h
  simp at h

theorem Throughout.concat {P : List Entry → Entry → Prop} {es : List Entry} {e : Entry}
    (h : Throughout P es) (he : P es e) : Throughout P (es ++ [e]) := by
  intro es₁ e' es₂ hsplit
  rcases List.eq_nil_or_concat es₂ with rfl | ⟨es₃, x, rfl⟩
  · obtain ⟨rfl, hlast⟩ := List.append_inj' hsplit rfl
    cases hlast
    exact he
  · rw [List.concat_eq_append, ← List.cons_append, ← List.append_assoc] at hsplit
    exact h es₁ e' es₃ (List.append_inj' hsplit rfl).1

variable {settings : Settings} {es entries : List Entry}

theorem History.traced (h : History settings es s m) :
    Traced s (log es) m ∧ s.settings = settings := by
  induction h with
  | opened supply m => exact ⟨.new settings supply m, rfl⟩
  | idle t _ hle ih => exact ⟨ih.1.later hle _, ih.2⟩
  | call c patience _ hc ih =>
    obtain ⟨htraced, rfl⟩ := ih
    obtain ⟨-, hend⟩ := c.always_query patience htraced _ _ _ hc
    obtain ⟨htraced, hset, -⟩ := hend _ rfl
    exact ⟨by simpa using htraced, hset⟩

/-- What an entry holds to, after all that occurred before it. -/
def Entry.Sound (settings : Settings) (es : List Entry) (e : Entry) : Prop :=
  Clean (fun before t target datagram =>
      Allowed settings e.target (log es) before t target datagram) e.occurrences ∧
    ∀ x, e.result = some (.ok x) → x = .aimed ∨
      ∃ a, e.target = some a ∧ x.Genuine a (log es) e.occurrences

theorem History.sound_call (h : History settings es s m) (c : Call) (patience : Nat)
    {r : Option (Except Failure Answer × Session)}
    (hc : Dialogue.Course ((c.query patience).dialogue s) m os r m') :
    Entry.Sound settings es ⟨c, s.target, os, r.map Prod.fst⟩ := by
  obtain ⟨htraced, rfl⟩ := h.traced
  obtain ⟨hclean, hend⟩ := c.always_query patience htraced _ _ _ hc
  refine ⟨hclean, fun x hx => ?_⟩
  obtain ⟨⟨_, s'⟩, rfl, rfl⟩ := Option.map_eq_some_iff.mp hx
  exact (hend _ rfl).2.2 x rfl

theorem History.sound (h : History settings es s m) : Throughout (Entry.Sound settings) es := by
  induction h with
  | opened => exact .nil
  | idle _ _ _ ih => exact ih
  | call c patience h hc ih => exact ih.concat (h.sound_call c patience hc)

theorem Observed.sound (h : Observed settings entries) :
    Throughout (Entry.Sound settings) entries := by
  cases h with
  | idle h => exact h.sound
  | calling c patience h hc => exact h.sound.concat (h.sound_call c patience hc)

/-- Whatever is called and whatever arrives: all that is sent in a call goes to its target, as a
token request that is due or with a token that this target granted and that was good when the
datagram was built; and whatever is answered is the target's. -/
theorem Observed.isolated (h : Observed settings entries) {es₁ es₂ : List Entry} {e : Entry}
    (hsplit : entries = es₁ ++ e :: es₂) :
    Clean (fun before t target datagram => e.target = some target ∧
        (RequestDue settings (log es₁ ++ before) t target datagram ∨
          ∃ granted built, FollowUp settings (log es₁) before t target datagram granted built))
      e.occurrences ∧
    ∀ x, e.result = some (.ok x) → x = .aimed ∨
      ∃ a, e.target = some a ∧ x.Genuine a (log es₁) e.occurrences := by
  obtain ⟨hclean, hanswer⟩ := h.sound es₁ e es₂ hsplit
  refine ⟨hclean.mono ?_, hanswer⟩
  rintro before t target datagram ⟨a, ha, rfl, hdue | ⟨granted, built, hfollow, -⟩⟩
  · exact ⟨ha, .inl hdue⟩
  · exact ⟨ha, .inr ⟨granted, built, hfollow⟩⟩

section Forged

open Simulation

def someMaster : SocketAddress := .v4 ⟨10, 0, 0, 1⟩ 8283
def someMasterMapped : SocketAddress := .v6 (Ip4.mapped ⟨10, 0, 0, 1⟩) 8283 0 0
def someStranger : SocketAddress := .v4 ⟨10, 0, 0, 2⟩ 8283

def forgedScript : Script :=
  .new [⟨0, 0, .datagram (Token.responseFrame 7 8) someStranger⟩,
    ⟨3, 0, .datagram (Token.responseFrame 7 9) someMasterMapped⟩,
    ⟨5, 0, .datagram (Packet.response 7 9 .count [0, 3]) someMaster⟩] [] none

def forgedEntry : Entry where
  call := .count
  target := some someMaster
  occurrences := [.sent 0 someMaster (Token.requested 7).requestFrame 1,
    .received 0 (.datagram (Token.responseFrame 7 8) someStranger),
    .received 3 (.datagram (Token.responseFrame 7 9) someMasterMapped),
    .sent 3 someMaster (Token.followUpHeader 9 7 ++ Question.count.marker) 1,
    .received 5 (.datagram (Packet.response 7 9 .count [0, 3]) someMaster)]
  result := some (.ok (.count 3))

theorem forged_token_isolated :
    (Session.new {} fun _ => 7).entries 9 [.aim someMaster, .count] forgedScript =
        [⟨.aim someMaster, none, [], some (.ok .aimed)⟩] ++ forgedEntry :: [] ∧
      (∃ granted built, FollowUp {} []
        (forgedEntry.occurrences.take 3) 3 someMaster
        (Token.followUpHeader 9 7 ++ Question.count.marker) granted built) ∧
      Told forgedEntry.occurrences someMaster Query.acceptCount 3 := by
  have hrun : (Session.new {} fun _ => 7).entries 9 [.aim someMaster, .count] forgedScript =
    [⟨.aim someMaster, none, [], some (.ok .aimed)⟩] ++ forgedEntry :: [] := rfl
  obtain ⟨hclean, hanswer⟩ := Observed.isolated (Session.observed_entries {} _ 9 _ _) hrun
  refine ⟨hrun, ?_, ?_⟩
  · obtain ⟨-, ⟨c, hc, -⟩ | hfollow⟩ := hclean (forgedEntry.occurrences.take 3) _ _ _ _ _ rfl
    · exact absurd hc.symm (Token.requestFrame_ne_followUp _ _ _ _)
    · exact hfollow
  · obtain hx | ⟨a, ha, htold⟩ := hanswer _ rfl
    · cases hx
    · cases ha
      exact htold

end Forged

end ServerDiscovery.Client
