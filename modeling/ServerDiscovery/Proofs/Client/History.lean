import Mathlib.Data.List.Basic
import ServerDiscovery.Proofs.Client.Query

/-! The calls of one session, one after the other, and what can be read off the record of all that
occurred in them: which datagrams grant tokens, and when a datagram was first sent. -/

namespace ServerDiscovery.Client

inductive Call where
  | aim (target : SocketAddress)
  | token
  | count
  | record
  | servers

inductive Answer where
  | aimed
  | token (t : Token)
  | count (n : Nat)
  | record (r : ServerRecord)
  | servers (es : List Endpoint)

def Call.query (patience : Nat) : Call → Query Answer
  | aim target => do
    modify fun s => s.aim target
    return .aimed
  | token => Answer.token <$> Query.token patience
  | count => Answer.count <$> Query.count patience
  | record => Answer.record <$> Query.record patience
  | servers => Answer.servers <$> Query.servers patience

structure Entry where
  call : Call
  target : Option SocketAddress
  occurrences : List Occurrence
  /-- Nothing while the call goes on. -/
  result : Option (Except Failure Answer)

def log (es : List Entry) : List Occurrence := es.flatMap Entry.occurrences

@[simp] theorem log_append (es es' : List Entry) : log (es ++ es') = log es ++ log es' :=
  List.flatMap_append

@[simp] theorem log_singleton (e : Entry) : log [e] = e.occurrences := by simp [log]

/-- A session from its opening on, between two calls. Time may pass there too. -/
inductive History (settings : Settings) : List Entry → Session → Moment → Prop where
  | opened (supply : Token.Supply) (m : Moment) : History settings [] (.new settings supply) m
  | idle {es : List Entry} {s : Session} {m : Moment} (t : Time) :
      History settings es s m → m.now ≤ t → History settings es s ⟨t, m.deadline⟩
  | call {es : List Entry} {s s' : Session} {m m' : Moment} {os : List Occurrence}
      {r : Except Failure Answer} (c : Call) (patience : Nat) :
      History settings es s m →
      Dialogue.Course ((c.query patience).dialogue s) m os (some (r, s')) m' →
      History settings (es ++ [⟨c, s.target, os, some r⟩]) s' m'

theorem History.aim {settings : Settings} {es : List Entry} {s : Session} {m : Moment}
    (h : History settings es s m) (a : SocketAddress) :
    History settings (es ++ [⟨.aim a, s.target, [], some (.ok .aimed)⟩]) (s.aim a) m :=
  h.call (.aim a) 0 (.finish _ _)

/-- What is observed of a session up to any moment, in a call or between two. -/
inductive Observed (settings : Settings) : List Entry → Prop where
  | idle {es : List Entry} {s : Session} {m : Moment} :
      History settings es s m → Observed settings es
  | calling {es : List Entry} {s : Session} {m m' : Moment} {os : List Occurrence}
      (c : Call) (patience : Nat) :
      History settings es s m →
      Dialogue.Course ((c.query patience).dialogue s) m os none m' →
      Observed settings (es ++ [⟨c, s.target, os, none⟩])

def lastSent : List Occurrence → Option (SocketAddress × Bytes)
  | [] => none
  | .sent _ target datagram _ :: os => (lastSent os).or (some (target, datagram))
  | .received _ _ :: os => lastSent os

def firstSent (datagram : Bytes) : List Occurrence → Option Time
  | [] => none
  | .sent t _ d _ :: os => if d = datagram then some t else firstSent datagram os
  | .received _ _ :: os => firstSent datagram os

/-- An endpoint answers the handshake that is under way with it: twelve bytes that give back the
client's number and add one of its own. -/
def Grants (past : List Occurrence) (o : Occurrence) (e : Endpoint) (client server : Int32)
    (time : Time) : Prop :=
  ∃ target payload source, o = .received time (.datagram payload source) ∧
    lastSent past = some (target, (Token.requested client).requestFrame) ∧
    Endpoint.ofSocket target = e ∧ Endpoint.ofSocket source = e ∧
    payload.length = Token.responseSize ∧
    Bytes.int32At? 3 payload = some client ∧ Bytes.int32At? 8 payload = some server

def Granted (past : List Occurrence) (e : Endpoint) (client server : Int32) (time : Time) : Prop :=
  ∃ before o after, past = before ++ o :: after ∧ Grants before o e client server time

def Silent (os : List Occurrence) : Prop :=
  ∀ t target datagram copies, .sent t target datagram copies ∉ os

/-- Every copy that is sent is one that a rule allows, which may look at all that occurred before. -/
def Clean (rule : List Occurrence → Time → SocketAddress → Bytes → Prop) (os : List Occurrence) :
    Prop :=
  ∀ before t target datagram copies after,
    os = before ++ .sent t target datagram copies :: after → rule before t target datagram

section Clean

variable {rule rule' : List Occurrence → Time → SocketAddress → Bytes → Prop}
  {os os' : List Occurrence}

theorem Silent.clean (h : Silent os) : Clean rule os := by
  rintro before t target datagram copies after rfl
  exact absurd (by simp) (h t target datagram copies)

theorem Clean.nil : Clean rule [] := Silent.clean (by simp [Silent])

theorem Clean.append (h : Clean rule os) (h' : Clean (fun before => rule (os ++ before)) os') :
    Clean rule (os ++ os') := by
  intro before t target datagram copies after hos
  rcases List.append_eq_append_iff.mp hos with ⟨l, rfl, rfl⟩ | ⟨l, rfl, hl⟩
  · exact h' l t target datagram copies after rfl
  · cases l with
    | nil =>
      rw [List.nil_append] at hl
      simpa using h' [] t target datagram copies after hl.symm
    | cons o l =>
      rw [List.cons_append, List.cons.injEq] at hl
      obtain ⟨rfl, rfl⟩ := hl
      exact h before t target datagram copies l rfl

theorem Clean.mono (h : Clean rule os)
    (hr : ∀ before t target datagram, rule before t target datagram →
      rule' before t target datagram) : Clean rule' os :=
  fun before t target datagram copies after hos =>
    hr _ _ _ _ (h before t target datagram copies after hos)

end Clean

theorem lastSent_append (os os' : List Occurrence) :
    lastSent (os ++ os') = (lastSent os').or (lastSent os) := by
  induction os with
  | nil => simp [lastSent]
  | cons o os ih => cases o <;> simp [lastSent, ih]

theorem lastSent_append_of_some {os os' : List Occurrence} {x : SocketAddress × Bytes}
    (h : lastSent os' = some x) : lastSent (os ++ os') = some x := by
  rw [lastSent_append, h, Option.some_or]

theorem lastSent_append_silent (os : List Occurrence) {os' : List Occurrence} (h : Silent os') :
    lastSent (os ++ os') = lastSent os := by
  suffices hnone : lastSent os' = none by rw [lastSent_append, hnone, Option.none_or]
  induction os' with
  | nil => rfl
  | cons o os' ih =>
    cases o with
    | sent t a d k => exact absurd List.mem_cons_self (h t a d k)
    | received t x => exact ih fun t a d k ho => h t a d k (List.mem_cons_of_mem _ ho)

theorem lastSent_eq_of_forall {target : SocketAddress} {datagram : Bytes} {o : Occurrence}
    {os : List Occurrence} {t : Time} {n : Nat} (ho : o = .sent t target datagram n)
    (h : ∀ t a d k, .sent t a d k ∈ os → a = target ∧ d = datagram) :
    lastSent (o :: os) = some (target, datagram) := by
  subst ho
  induction os with
  | nil => rfl
  | cons o os ih =>
    have ih := ih fun t a d k ho => h t a d k (List.mem_cons_of_mem _ ho)
    cases o with
    | sent t' a d k =>
      obtain ⟨rfl, rfl⟩ := h t' a d k List.mem_cons_self
      simpa [lastSent, Option.or_assoc] using ih
    | received t' x => simpa [lastSent] using ih

theorem firstSent_append {datagram : Bytes} {os : List Occurrence} (os' : List Occurrence)
    (h : ∀ t a d k, .sent t a d k ∈ os → d ≠ datagram) :
    firstSent datagram (os ++ os') = firstSent datagram os' := by
  induction os with
  | nil => rfl
  | cons o os ih =>
    have ih := ih fun t a d k ho => h t a d k (List.mem_cons_of_mem _ ho)
    cases o with
    | sent t a d k => simp [firstSent, h t a d k List.mem_cons_self, ih]
    | received t x => simpa [firstSent] using ih

theorem Granted.append {past : List Occurrence} {e : Endpoint} {client server : Int32} {time : Time}
    (h : Granted past e client server time) (os : List Occurrence) :
    Granted (past ++ os) e client server time := by
  obtain ⟨before, o, after, rfl, hg⟩ := h
  exact ⟨before, o, after ++ os, by simp, hg⟩

theorem Granted.of_append {past os : List Occurrence} {e : Endpoint} {client server : Int32}
    {time : Time} (h : Granted (past ++ os) e client server time) :
    Granted past e client server time ∨
      ∃ before o after, os = before ++ o :: after ∧
        Grants (past ++ before) o e client server time := by
  obtain ⟨before, o, after, hsplit, hg⟩ := h
  rcases List.append_eq_append_iff.mp hsplit with ⟨l, rfl, rfl⟩ | ⟨l, rfl, hl⟩
  · exact .inr ⟨l, o, after, rfl, hg⟩
  · cases l with
    | nil =>
      rw [List.nil_append] at hl
      exact .inr ⟨[], o, after, hl.symm, by simpa using hg⟩
    | cons o' l =>
      rw [List.cons_append, List.cons.injEq] at hl
      obtain ⟨rfl, rfl⟩ := hl
      exact .inl ⟨before, o, l, rfl, hg⟩

theorem Granted.concat {past : List Occurrence} {o : Occurrence} {e : Endpoint}
    {client server : Int32} {time : Time} (h : Grants past o e client server time) :
    Granted (past ++ [o]) e client server time := ⟨past, o, [], rfl, h⟩

theorem Granted.of_concat {past : List Occurrence} {o : Occurrence} {e : Endpoint}
    {client server : Int32} {time : Time} (h : Granted (past ++ [o]) e client server time) :
    Granted past e client server time ∨ Grants past o e client server time := by
  rcases h.of_append with hold | ⟨before, o', after, hsplit, hg⟩
  · exact .inl hold
  · cases before with
    | nil =>
      cases hsplit
      exact .inr (by simpa using hg)
    | cons o'' before => simp at hsplit

theorem Granted.time_mem {past : List Occurrence} {e : Endpoint} {client server : Int32}
    {time : Time} (h : Granted past e client server time) : ∃ o ∈ past, o.time = time := by
  obtain ⟨before, o, after, rfl, target, payload, source, rfl, -⟩ := h
  exact ⟨.received time _, List.mem_append_right _ List.mem_cons_self, rfl⟩

end ServerDiscovery.Client
