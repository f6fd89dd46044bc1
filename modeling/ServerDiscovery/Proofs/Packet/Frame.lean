import Mathlib.Logic.Function.Basic
import Mathlib.Tactic.SplitIfs
import ServerDiscovery.Packet.Frame

/-! What a frame says of the numbers in it, and which datagrams are read as which kind of answer. -/

namespace ServerDiscovery

theorem Bytes.int32At?_ofInt32 (v : Int32) (rest : Bytes) :
    Bytes.int32At? 0 (Bytes.ofInt32 v ++ rest) = some v := by
  simp only [int32At?, ofInt32, List.drop_zero, List.cons_append, toInt32_bytes]

theorem Bytes.int32At?_isSome_iff {offset : Nat} {bs : Bytes} :
    (Bytes.int32At? offset bs).isSome = true ↔ offset + 4 ≤ bs.length := by
  have hlength := List.length_drop (i := offset) (l := bs)
  unfold int32At?
  split
  · rename_i hdrop
    rw [hdrop] at hlength
    simp only [List.length_cons] at hlength
    simp only [Option.isSome_some, true_iff]
    omega
  · rename_i hshort
    simp only [Option.isSome_none, Bool.false_eq_true, false_iff]
    intro hle
    rcases hdrop : bs.drop offset with _ | ⟨a, _ | ⟨b, _ | ⟨c, _ | ⟨d, rest⟩⟩⟩⟩
    case cons.cons.cons.cons => exact hshort a b c d rest hdrop
    all_goals
      rw [hdrop] at hlength
      simp only [List.length_cons, List.length_nil] at hlength
      omega

theorem Bytes.ofInt32_injective : Function.Injective Bytes.ofInt32 := by
  intro v w h
  have hv := int32At?_ofInt32 v []
  rw [h, int32At?_ofInt32] at hv
  exact (Option.some.inj hv).symm

theorem Token.requestFrame_injective : Function.Injective fun c => (requested c).requestFrame := by
  intro c c' h
  simp only [requestFrame, List.append_cancel_right_eq, List.append_cancel_left_eq] at h
  exact Bytes.ofInt32_injective h

theorem Token.requestFrame_ne_followUp (t : Token) (server client : Int32) (rest : Bytes) :
    t.requestFrame ≠ followUpHeader server client ++ rest := by
  intro h
  have hhead := congrArg List.head? h
  simp [requestFrame, followUpHeader, controlByte, followUpByte] at hhead

theorem Token.responseFrame_fields (client server : Int32) :
    (responseFrame client server).length = responseSize ∧
      Bytes.int32At? 3 (responseFrame client server) = some client ∧
      Bytes.int32At? 8 (responseFrame client server) = some server :=
  ⟨rfl, congrArg some (Bytes.toInt32_bytes client), congrArg some (Bytes.toInt32_bytes server)⟩

theorem Token.responseFrame_inj {client server client' server' : Int32}
    (h : responseFrame client server = responseFrame client' server') :
    client = client' ∧ server = server' := by
  obtain ⟨-, hclient, hserver⟩ := responseFrame_fields client server
  obtain ⟨-, hclient', hserver'⟩ := responseFrame_fields client' server'
  rw [h] at hclient hserver
  exact ⟨Option.some.inj (hclient.symm.trans hclient'),
    Option.some.inj (hserver.symm.trans hserver')⟩

theorem Token.length_followUpHeader (receiver sender : Int32) :
    (followUpHeader receiver sender).length = headerSize := rfl

theorem Token.length_requestFrame (t : Token) : t.requestFrame.length = requestSize := by
  unfold requestFrame
  rw [List.length_append, List.length_replicate]
  rfl

theorem Token.isRequest_requestFrame_append (t : Token) (rest : Bytes) :
    isRequest (t.requestFrame ++ rest) = true := by
  have hlength : responseSize ≤ (t.requestFrame ++ rest).length := by
    rw [requestFrame, List.append_assoc, List.length_append]
    exact Nat.le_add_right responseSize _
  have hfirst : (t.requestFrame ++ rest)[0]? = some controlByte := rfl
  have hmessage : (t.requestFrame ++ rest)[7]? = some messageByte := rfl
  simp only [isRequest, Bool.and_eq_true, decide_eq_true_eq]
  exact ⟨⟨hlength, hfirst⟩, hmessage⟩

theorem Token.requestedClient_requestFrame_append (t : Token) (rest : Bytes) :
    requestedClient (t.requestFrame ++ rest) = .ok t.client := by
  have hclient : Bytes.int32At? 8 (t.requestFrame ++ rest) = some t.client :=
    congrArg some (Bytes.toInt32_bytes t.client)
  unfold requestedClient
  rw [hclient]
  exact if_pos (isRequest_requestFrame_append t rest)

theorem Token.requestedClient_requestFrame (c : Int32) :
    requestedClient (requested c).requestFrame = .ok c := by
  have hclient := requestedClient_requestFrame_append (requested c) []
  rwa [List.append_nil] at hclient

theorem Token.exists_requestedClient {datagram : Bytes} (h : isRequest datagram = true) :
    ∃ client, requestedClient datagram = .ok client := by
  have hlength : responseSize ≤ datagram.length := by
    simp only [isRequest, Bool.and_eq_true, decide_eq_true_eq] at h
    exact h.1.1
  obtain ⟨client, hclient⟩ := Option.isSome_iff_exists.mp (Bytes.int32At?_isSome_iff.mpr hlength)
  unfold requestedClient
  rw [hclient]
  exact ⟨client, if_pos h⟩

theorem Token.requestedClient_of_not_isRequest {datagram : Bytes} (h : isRequest datagram = false) :
    ∃ fault, requestedClient datagram = .error fault := by
  unfold requestedClient
  cases Bytes.int32At? 8 datagram with
  | none => exact ⟨_, rfl⟩
  | some client => exact ⟨_, if_neg (Bool.eq_false_iff.mp h)⟩

theorem Token.followUpHeader_inj {receiver sender receiver' sender' : Int32}
    (h : followUpHeader receiver sender = followUpHeader receiver' sender') :
    receiver = receiver' ∧ sender = sender' := by
  simp only [followUpHeader, List.cons.injEq, true_and] at h
  obtain ⟨hr, hs⟩ := List.append_inj h (by simp)
  exact ⟨Bytes.ofInt32_injective hr, Bytes.ofInt32_injective hs⟩

theorem Question.marker_injective : Function.Injective Question.marker := by
  intro q q' h
  cases q <;> cases q' <;> first | rfl | exact absurd h (by decide)

theorem Question.reply_ne_token (q : Question) : q.reply ≠ .token := by
  cases q <;> decide

theorem Token.followUpHeader_append_inj {receiver sender receiver' sender' : Int32}
    {rest rest' : Bytes}
    (h : followUpHeader receiver sender ++ rest = followUpHeader receiver' sender' ++ rest') :
    followUpHeader receiver sender = followUpHeader receiver' sender' ∧ rest = rest' :=
  List.append_inj h (by simp [followUpHeader])

namespace Packet

theorem request_eq_ok_iff {t : Token} {q : Question} {now : Time} {frame : Bytes} :
    request t q now = .ok frame ↔
      t.isValid now = true ∧ frame = Token.followUpHeader t.server t.client ++ q.marker := by
  unfold request Token.header
  split_ifs with hv
  · simp [hv, bind, Except.bind, pure, Except.pure, eq_comm]
  · simp [hv, bind, Except.bind]

theorem request_of_not_isValid {t : Token} {now : Time} (h : ¬ t.isValid now = true)
    (q : Question) : request t q now = .error .tokenExpired := by
  unfold request Token.header
  rw [if_neg h]
  rfl

theorem matchResponse_eq_token_iff {datagram payload : Bytes} :
    matchResponse datagram = .ok (.token, payload) ↔
      datagram.length = Token.responseSize ∧ payload = datagram := by
  unfold matchResponse
  split_ifs with h₁ h₂
  · simp [h₁, eq_comm]
  · simp [h₁]
  · simp only [h₁, false_and, iff_false]
    split
    · rename_i kind hk
      have hmem := List.mem_of_find?_eq_some hk
      rintro ⟨⟩
      simp [ReplyKind.marked] at hmem
    · simp

theorem expectResponse_eq_ok_iff {datagram payload : Bytes} {kind : ReplyKind} :
    expectResponse datagram kind = .ok payload ↔ matchResponse datagram = .ok (kind, payload) := by
  unfold expectResponse
  cases h : matchResponse datagram with
  | error e => simp [bind, Except.bind]
  | ok p =>
    obtain ⟨found, body⟩ := p
    simp only [bind, Except.bind, pure, Except.pure, Except.ok.injEq, Prod.mk.injEq]
    split_ifs with hf <;> simp [hf]

theorem requestTokens_followUp (receiver sender : Int32) (rest : Bytes) :
    requestTokens (Token.followUpHeader receiver sender ++ rest) = .ok (receiver, sender) := by
  have hreceiver : Bytes.int32At? 1 (Token.followUpHeader receiver sender ++ rest) = some receiver :=
    congrArg some (Bytes.toInt32_bytes receiver)
  have hsender : Bytes.int32At? 5 (Token.followUpHeader receiver sender ++ rest) = some sender :=
    congrArg some (Bytes.toInt32_bytes sender)
  unfold requestTokens
  rw [hreceiver, hsender]
  rfl

/-- Bytes that read as the header of a follow-up with this number of the receiver's. -/
def Carries (server : Int32) (datagram : Bytes) : Prop :=
  Token.headerSize ≤ datagram.length ∧ datagram.head? = some Token.followUpByte ∧
    Bytes.int32At? 1 datagram = some server

instance (server : Int32) (datagram : Bytes) : Decidable (Carries server datagram) :=
  inferInstanceAs (Decidable (_ ∧ _ ∧ _))

theorem Carries.eq {server server' : Int32} {datagram : Bytes} (h : Carries server datagram)
    (h' : Carries server' datagram) : server = server' :=
  Option.some.inj (h.2.2.symm.trans h'.2.2)

theorem requestTokens_eq_ok_iff {server client : Int32} {datagram : Bytes} :
    requestTokens datagram = .ok (server, client) ↔
      datagram.head? = some Token.followUpByte ∧ Bytes.int32At? 1 datagram = some server ∧
        Bytes.int32At? 5 datagram = some client := by
  unfold requestTokens
  cases hfirst : datagram.head? with
  | none => simp
  | some first =>
    cases hserver : Bytes.int32At? 1 datagram with
    | none => simp
    | some server' =>
      cases hclient : Bytes.int32At? 5 datagram with
      | none => simp
      | some client' =>
        dsimp only
        split_ifs with hbyte
        · simp [hbyte]
        · simp [hbyte]

theorem carries_iff_requestTokens {server : Int32} {datagram : Bytes} :
    Carries server datagram ↔ ∃ client, requestTokens datagram = .ok (server, client) := by
  constructor
  · rintro ⟨hlength, hfirst, hserver⟩
    obtain ⟨client, hclient⟩ :=
      Option.isSome_iff_exists.mp (Bytes.int32At?_isSome_iff.mpr hlength)
    exact ⟨client, requestTokens_eq_ok_iff.mpr ⟨hfirst, hserver, hclient⟩⟩
  · rintro ⟨client, h⟩
    obtain ⟨hfirst, hserver, hclient⟩ := requestTokens_eq_ok_iff.mp h
    have hlength := Bytes.int32At?_isSome_iff.mp (Option.isSome_iff_exists.mpr ⟨client, hclient⟩)
    exact ⟨hlength, hfirst, hserver⟩

theorem Carries.isRequest_eq_false {server : Int32} {datagram : Bytes}
    (h : Carries server datagram) : Token.isRequest datagram = false := by
  have hfirst : datagram[0]? = some Token.followUpByte := by
    rw [← List.head?_eq_getElem?]
    exact h.2.1
  simp [Token.isRequest, hfirst, Token.followUpByte, Token.controlByte]

theorem requestTokens_of_isRequest {datagram : Bytes} (h : Token.isRequest datagram = true) :
    requestTokens datagram = .error (.badHeader datagram.length) := by
  cases htokens : requestTokens datagram with
  | ok tokens =>
    have hcarries := carries_iff_requestTokens.mpr ⟨tokens.2, htokens⟩
    rw [hcarries.isRequest_eq_false] at h
    cases h
  | error fault =>
    unfold requestTokens at htokens
    split at htokens
    · split_ifs at htokens
      rw [Except.error.inj htokens]
    · rw [Except.error.inj htokens]

theorem ofBody?_eq_some_iff {body : Bytes} {q : Question} :
    Question.ofBody? body = some q ↔ q.marker <+: body := by
  constructor
  · intro h
    have hmarker := List.find?_some h
    exact List.isPrefixOf_iff_prefix.mp hmarker
  · -- No marker begins another one, so the first that fits is the only one.
    rintro ⟨rest, rfl⟩
    cases q <;> simp [Question.ofBody?, Question.all, Question.marker, marker, List.isPrefixOf]

theorem ofBody?_followUp_append (receiver sender : Int32) (q : Question) (rest : Bytes) :
    Question.ofBody? ((Token.followUpHeader receiver sender ++ q.marker ++ rest).drop
      Token.headerSize) = some q := by
  rw [List.append_assoc, List.drop_left' (Token.length_followUpHeader receiver sender)]
  exact ofBody?_eq_some_iff.mpr (List.prefix_append q.marker rest)

theorem ofBody?_followUp (receiver sender : Int32) (q : Question) :
    Question.ofBody? ((Token.followUpHeader receiver sender ++ q.marker).drop Token.headerSize)
      = some q := by
  have hbody := ofBody?_followUp_append receiver sender q []
  rwa [List.append_nil] at hbody

theorem find?_marked_append {kind : ReplyKind} (hkind : kind ≠ .token) (payload : Bytes) :
    ReplyKind.marked.find? (fun k => k.marker.isPrefixOf (kind.marker ++ payload)) = some kind := by
  cases kind with
  | token => exact absurd rfl hkind
  | list | count | info => simp [ReplyKind.marked, ReplyKind.marker, marker, List.isPrefixOf]

theorem length_response (client server : Int32) (kind : ReplyKind) (payload : Bytes) :
    (response client server kind payload).length
      = Token.headerSize + kind.marker.length + payload.length := by
  unfold response
  rw [List.length_append, List.length_append, Token.length_followUpHeader]

theorem requestTokens_response (client server : Int32) (kind : ReplyKind) (payload : Bytes) :
    requestTokens (response client server kind payload) = .ok (client, server) := by
  unfold response
  rw [List.append_assoc]
  exact requestTokens_followUp client server _

theorem matchResponse_marked {header : Bytes} (hheader : header.length = Token.headerSize)
    {kind : ReplyKind} (hkind : kind ≠ .token) (payload : Bytes) :
    matchResponse (header ++ kind.marker ++ payload) = .ok (kind, payload) := by
  have hmarker : 4 ≤ kind.marker.length := by
    cases kind with
    | token => exact absurd rfl hkind
    | list | count | info => decide
  have hlen : (header ++ kind.marker ++ payload).length
      = Token.headerSize + kind.marker.length + payload.length := by
    rw [List.length_append, List.length_append, hheader]
  have hbody : (header ++ kind.marker ++ payload).drop Token.headerSize
      = kind.marker ++ payload := by
    rw [List.append_assoc]
    exact List.drop_left' hheader
  -- A marker alone makes it longer than a granting datagram.
  have hlong : (header ++ kind.marker ++ payload).length ≠ Token.responseSize := by
    rw [hlen, Token.headerSize, Token.responseSize]
    omega
  unfold matchResponse
  rw [if_neg hlong, if_neg (by omega)]
  simp only [hbody, find?_marked_append hkind, List.drop_left]

theorem expectResponse_response (client server : Int32) {kind : ReplyKind} (hkind : kind ≠ .token)
    (payload : Bytes) : expectResponse (response client server kind payload) kind = .ok payload :=
  expectResponse_eq_ok_iff.mpr
    (matchResponse_marked (Token.length_followUpHeader client server) hkind payload)

theorem expectResponse_take_response (client server : Int32) {kind : ReplyKind}
    (hkind : kind ≠ .token) {payload : Bytes} (hfits : 18 + payload.length ≤ maxSize) :
    expectResponse ((response client server kind payload).take maxSize) kind = .ok payload := by
  have hlen := length_response client server kind payload
  have hmarker : kind.marker.length ≤ 9 := by cases kind <;> decide
  have hwhole : (response client server kind payload).length ≤ maxSize := by
    rw [hlen, Token.headerSize]
    omega
  rw [List.take_of_length_le hwhole]
  exact expectResponse_response client server hkind payload

theorem expectResponse_responseFrame (client server : Int32) {kind : ReplyKind}
    (hkind : kind ≠ .token) :
    ∃ fault, expectResponse (Token.responseFrame client server) kind = .error fault := by
  have hmatch : matchResponse (Token.responseFrame client server)
      = .ok (.token, Token.responseFrame client server) := rfl
  unfold expectResponse
  rw [hmatch]
  exact ⟨_, if_neg (Ne.symm hkind)⟩

end Packet
end ServerDiscovery
