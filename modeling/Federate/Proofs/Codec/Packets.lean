/-
Packets and their bytes. A message that is small enough is decoded from its
packet as it was, and what decodes to a packet is what its message, numbers and
session encode to. So the byte strings that are packets are those of small
enough messages; they are also said without any encoder (`Packet.Spelt`), by the
widths of the fields, the bytes and numbers that are known and the texts that are
UTF-8. All of it together is `Packet.encode_decode_bijective`.
-/
import Federate.Packet
import Federate.Proofs.Codec.Reading
namespace Federate

open Bytes (capacity)

/-! ## Messages -/

namespace Message

variable {k : MessageKind} {reader : Reader Message}

theorem canonical_envelope : Envelope.read.Canonical Envelope.write := by
  intro bs e rest h
  obtain ⟨tag, mid, tagged, h⟩ := Reader.run_bind_eq_ok.mp h
  obtain ⟨payload, mid', left, h⟩ := Reader.run_bind_eq_ok.mp h
  cases h
  cases left
  rw [Reader.canonical_word16 _ _ _ tagged, Envelope.write, List.append_nil]

theorem canonical_status : readStatus.Canonical fun s => Bytes.ofUInt32 s.code := by
  intro bs s rest h
  obtain ⟨code, mid, read, h⟩ := Reader.run_bind_eq_ok.mp h
  cases known : SessionStatus.ofCode? code with
  | some s' =>
    rw [known] at h
    cases h
    rw [Reader.canonical_word32 _ _ _ read, ← SessionStatus.code_of_ofCode? known]
  | none =>
    rw [known] at h
    cases h

/-- A name and details after a byte one. -/
theorem canonical_faultBody {α : Type} {g : String → String → α} {bs rest : Bytes} {a : α}
    (h : (do
      let name ← Reader.text
      let details ← Reader.text
      pure (g name details) : Reader α).run bs = (.ok a, rest)) :
    ∃ name details, a = g name details ∧ 1 :: bs = faultBody name details ++ rest := by
  obtain ⟨name, mid, first, h⟩ := Reader.run_bind_eq_ok.mp h
  obtain ⟨details, mid', second, h⟩ := Reader.run_bind_eq_ok.mp h
  cases h
  refine ⟨name, details, rfl, ?_⟩
  rw [Reader.canonical_text _ _ _ first, Reader.canonical_text _ _ _ second, faultBody,
    List.cons_append, List.append_assoc]

/-- The body of a response after the number of its request. -/
def outcomeBody : CallOutcome → Bytes
  | .result p => 0 :: p
  | .fault name details => faultBody name details

@[inherit_doc outcomeBody] def callbackOutcomeBody : CallbackOutcome → Bytes
  | .succeeded => [0]
  | .failed name details => faultBody name details

theorem body_callResponse (n : UInt32) (outcome : CallOutcome) :
    body (.callResponse n outcome) = Bytes.ofUInt32 n ++ outcomeBody outcome := by
  cases outcome <;> rfl

theorem body_callbackResponse (n : UInt32) (outcome : CallbackOutcome) :
    body (.callbackResponse n outcome) = Bytes.ofUInt32 n ++ callbackOutcomeBody outcome := by
  cases outcome <;> rfl

theorem canonical_callOutcome : readCallOutcome.Canonical outcomeBody := by
  intro bs outcome rest h
  obtain ⟨status, mid, read, h⟩ := Reader.run_bind_eq_ok.mp h
  rw [Reader.canonical_byte _ _ _ read]
  split at h
  · next zero =>
    obtain ⟨payload, mid', left, h⟩ := Reader.run_bind_eq_ok.mp h
    cases h
    cases left
    rw [zero, outcomeBody, List.append_nil]
    rfl
  · split at h
    · next one =>
      obtain ⟨name, details, rfl, same⟩ := canonical_faultBody h
      rw [one]
      exact same
    · cases h

theorem canonical_callbackOutcome : readCallbackOutcome.Canonical callbackOutcomeBody := by
  intro bs outcome rest h
  obtain ⟨status, mid, read, h⟩ := Reader.run_bind_eq_ok.mp h
  rw [Reader.canonical_byte _ _ _ read]
  split at h
  · next zero =>
    cases h
    rw [zero]
    rfl
  · split at h
    · next one =>
      obtain ⟨name, details, rfl, same⟩ := canonical_faultBody h
      rw [one]
      exact same
    · cases h

/-- What is read as the body of a message is its body, and the message is of the kind. -/
theorem canonical_body (h : readBody? k = some reader) :
    reader.Canonical body ∧ reader.Yields fun m => m.kind = k := by
  cases k with
  | newSession =>
    cases h
    exact ⟨Reader.canonical_word32.map fun _ => rfl, .of_bind fun _ => .pure rfl⟩
  | newSessionStatus =>
    cases h
    exact ⟨canonical_status.map fun _ => rfl, .of_bind fun _ => .pure rfl⟩
  | heartbeat | terminateSession | sessionTerminated =>
    cases h
    refine ⟨?_, .pure rfl⟩
    intro bs m rest read
    cases read
    rfl
  | heartbeatResponse =>
    cases h
    exact ⟨Reader.canonical_word32.map fun _ => rfl, .of_bind fun _ => .pure rfl⟩
  | resumeRequest | resumeStatus => cases h
  | callRequest | callbackRequest =>
    cases h
    exact ⟨canonical_envelope.map fun _ => rfl, .of_bind fun _ => .pure rfl⟩
  | callResponse =>
    cases h
    refine ⟨?_, .of_bind fun _ => .of_bind fun _ => .pure rfl⟩
    intro bs m rest read
    obtain ⟨n, mid, number, read⟩ := Reader.run_bind_eq_ok.mp read
    obtain ⟨outcome, mid', ending, read⟩ := Reader.run_bind_eq_ok.mp read
    cases read
    rw [Reader.canonical_word32 _ _ _ number, canonical_callOutcome _ _ _ ending,
      body_callResponse, List.append_assoc]
  | callbackResponse =>
    cases h
    refine ⟨?_, .of_bind fun _ => .of_bind fun _ => .pure rfl⟩
    intro bs m rest read
    obtain ⟨n, mid, number, read⟩ := Reader.run_bind_eq_ok.mp read
    obtain ⟨outcome, mid', ending, read⟩ := Reader.run_bind_eq_ok.mp read
    cases read
    rw [Reader.canonical_word32 _ _ _ number, canonical_callbackOutcome _ _ _ ending,
      body_callbackResponse, List.append_assoc]

/-! ### Reading a body back -/

theorem run_envelope (e : Envelope) : Envelope.read.run e.write = (.ok e, []) :=
  (Reader.takes_word16 e.tag).run_bind e.payload

theorem takes_status (s : SessionStatus) : readStatus.Takes (Bytes.ofUInt32 s.code) s := by
  intro rest
  refine ((Reader.takes_word32 s.code).run_bind rest).trans ?_
  rw [SessionStatus.ofCode?_code]
  rfl

theorem length_text (s : String) : (Bytes.text s).length = 4 + (Text.encode s).length := by
  rw [Bytes.text, Bytes.blob, List.length_append, Bytes.length_ofNat]

theorem length_faultBody (name details : String) : (faultBody name details).length =
    9 + (Text.encode name).length + (Text.encode details).length := by
  simp only [faultBody, List.length_cons, List.length_append, length_text]
  omega

/-- The two texts behind a byte one. -/
theorem takes_faultBody {α : Type} {name details : String} (g : String → String → α)
    (fits : (faultBody name details).length < capacity 4) : (do
      let name ← Reader.text
      let details ← Reader.text
      pure (g name details) : Reader α).Takes (Bytes.text name ++ Bytes.text details)
        (g name details) := by
  rw [length_faultBody] at fits
  have first := Reader.takes_text (s := name) (by omega)
  have second := Reader.takes_text (s := details) (by omega)
  exact first.bind (second.map _)

theorem run_callOutcome {outcome : CallOutcome} (fits : (outcomeBody outcome).length < capacity 4) :
    readCallOutcome.run (outcomeBody outcome) = (.ok outcome, []) := by
  cases outcome with
  | result p => exact (Reader.takes_byte 0).run_bind p
  | fault name details =>
    have texts := (takes_faultBody CallOutcome.fault fits).run_alone
    exact ((Reader.takes_byte 1).run_bind _).trans texts

theorem run_callbackOutcome {outcome : CallbackOutcome}
    (fits : (callbackOutcomeBody outcome).length < capacity 4) :
    readCallbackOutcome.run (callbackOutcomeBody outcome) = (.ok outcome, []) := by
  cases outcome with
  | succeeded => exact (Reader.takes_byte 0).run_bind []
  | failed name details =>
    have texts := (takes_faultBody CallbackOutcome.failed fits).run_alone
    exact ((Reader.takes_byte 1).run_bind _).trans texts

/-- Every message that is small enough is read back from its body, by the reader of its kind. -/
theorem run_body {m : Message} (fits : m.body.length < capacity 4) :
    ∃ reader, readBody? m.kind = some reader ∧ reader.run m.body = (.ok m, []) := by
  cases m with
  | newSession v => exact ⟨_, rfl, ((Reader.takes_word32 v).map Message.newSession).run_alone⟩
  | newSessionStatus s => exact ⟨_, rfl, ((takes_status s).map Message.newSessionStatus).run_alone⟩
  | heartbeat | terminateSession | sessionTerminated => exact ⟨_, rfl, rfl⟩
  | heartbeatResponse n =>
    exact ⟨_, rfl, ((Reader.takes_word32 n).map Message.heartbeatResponse).run_alone⟩
  | callRequest e | callbackRequest e => exact ⟨_, rfl, Reader.run_bind_ok (run_envelope e)⟩
  | callResponse n outcome =>
    rw [body_callResponse] at fits ⊢
    rw [List.length_append] at fits
    have size : (outcomeBody outcome).length < capacity 4 := by omega
    have ending := run_callOutcome size
    exact ⟨_, rfl, ((Reader.takes_word32 n).run_bind _).trans (Reader.run_bind_ok ending)⟩
  | callbackResponse n outcome =>
    rw [body_callbackResponse] at fits ⊢
    rw [List.length_append] at fits
    have size : (callbackOutcomeBody outcome).length < capacity 4 := by omega
    have ending := run_callbackOutcome size
    exact ⟨_, rfl, ((Reader.takes_word32 n).run_bind _).trans (Reader.run_bind_ok ending)⟩

/-! ### Bodies without the encoder -/

/-- Well-formed UTF-8 after its length. -/
inductive SpeltText : Bytes → Prop
  | text {size chars : Bytes} (width : size.length = 4) (exact : size.toNat = chars.length)
      (utf8 : (ByteArray.mk chars.toArray).validateUTF8 = true) : SpeltText (size ++ chars)

/-- What the bytes after the header are for each kind of message: no others are known. -/
inductive Spelt : MessageKind → Bytes → Prop
  | newSession {version : Bytes} (width : version.length = 4) : Spelt .newSession version
  | newSessionStatus {status : Bytes} (width : status.length = 4)
      (known : status.toNat ∈ [0, 1, 2, 3, 99]) : Spelt .newSessionStatus status
  | heartbeat : Spelt .heartbeat []
  | heartbeatResponse {number : Bytes} (width : number.length = 4) :
      Spelt .heartbeatResponse number
  | terminateSession : Spelt .terminateSession []
  | sessionTerminated : Spelt .sessionTerminated []
  | callRequest {tag payload : Bytes} (width : tag.length = 2) :
      Spelt .callRequest (tag ++ payload)
  | callbackRequest {tag payload : Bytes} (width : tag.length = 2) :
      Spelt .callbackRequest (tag ++ payload)
  | callResult {number payload : Bytes} (width : number.length = 4) :
      Spelt .callResponse (number ++ [0] ++ payload)
  | callFault {number name details : Bytes} (width : number.length = 4)
      (first : SpeltText name) (second : SpeltText details) :
      Spelt .callResponse (number ++ [1] ++ name ++ details)
  | callbackSucceeded {number : Bytes} (width : number.length = 4) :
      Spelt .callbackResponse (number ++ [0])
  | callbackFailed {number name details : Bytes} (width : number.length = 4)
      (first : SpeltText name) (second : SpeltText details) :
      Spelt .callbackResponse (number ++ [1] ++ name ++ details)

theorem spelt_text {s : String} (fits : (Text.encode s).length < capacity 4) :
    SpeltText (Bytes.text s) := by
  have utf8 : (ByteArray.mk (Text.encode s).toArray).validateUTF8 = true := by
    rw [Text.encode, Array.toArray_toList]
    exact ByteArray.validateUTF8_eq_true_iff.mpr s.isValidUTF8
  exact .text (Bytes.length_ofNat 4 _) (Bytes.toNat_ofNat_of_lt fits) utf8

theorem text_of_spelt {bs : Bytes} (h : SpeltText bs) : ∃ s, bs = Bytes.text s := by
  cases h with
  | @text size chars width exact utf8 =>
    obtain ⟨s, read⟩ : ∃ s, Text.decode chars = .ok s := ⟨_, dif_pos utf8⟩
    refine ⟨s, ?_⟩
    rw [Bytes.text, ← Text.eq_encode_of_decode read, Bytes.blob, ← exact, ← width,
      size.ofNat_toNat]

/-- The number that stands for a status is one of five. -/
theorem code_mem (s : SessionStatus) : s.code.toNat ∈ [0, 1, 2, 3, 99] := by
  cases s <;> decide

theorem code_of_mem (code : UInt32) (h : code.toNat ∈ [0, 1, 2, 3, 99]) :
    ∃ s : SessionStatus, s.code = code := by
  have number : ∀ {n : Nat}, code.toNat = n → code = UInt32.ofNat n := by
    rintro n rfl
    exact UInt32.ofNat_toNat.symm
  simp only [List.mem_cons, List.not_mem_nil, or_false] at h
  rcases h with h | h | h | h | h
  · exact ⟨.ok, (number h).symm⟩
  · exact ⟨.unsupportedProtocolVersion, (number h).symm⟩
  · exact ⟨.outOfResources, (number h).symm⟩
  · exact ⟨.badMessage, (number h).symm⟩
  · exact ⟨.otherError, (number h).symm⟩

theorem spelt_body {m : Message} (fits : m.body.length < capacity 4) : Spelt m.kind m.body := by
  have texts (name details : String) (fits : (faultBody name details).length < capacity 4) :
      SpeltText (Bytes.text name) ∧ SpeltText (Bytes.text details) := by
    rw [length_faultBody] at fits
    exact ⟨spelt_text (by omega), spelt_text (by omega)⟩
  cases m with
  | newSession v => exact .newSession (Bytes.length_ofUInt32 v)
  | newSessionStatus s =>
    refine .newSessionStatus (Bytes.length_ofUInt32 _) ?_
    rw [body, Bytes.toNat_ofUInt32]
    exact code_mem s
  | heartbeat => exact .heartbeat
  | heartbeatResponse n => exact .heartbeatResponse (Bytes.length_ofUInt32 n)
  | terminateSession => exact .terminateSession
  | sessionTerminated => exact .sessionTerminated
  | callRequest e => exact .callRequest (Bytes.length_ofUInt16 e.tag)
  | callbackRequest e => exact .callbackRequest (Bytes.length_ofUInt16 e.tag)
  | callResponse n outcome =>
    cases outcome with
    | result p =>
      have := @Spelt.callResult (Bytes.ofUInt32 n) p (Bytes.length_ofUInt32 n)
      rwa [List.append_assoc] at this
    | fault name details =>
      rw [body, List.length_append] at fits
      obtain ⟨first, second⟩ := texts name details (by omega)
      have := Spelt.callFault (Bytes.length_ofUInt32 n) first second
      rwa [List.append_assoc, List.append_assoc] at this
  | callbackResponse n outcome =>
    cases outcome with
    | succeeded => exact .callbackSucceeded (Bytes.length_ofUInt32 n)
    | failed name details =>
      rw [body, List.length_append] at fits
      obtain ⟨first, second⟩ := texts name details (by omega)
      have := Spelt.callbackFailed (Bytes.length_ofUInt32 n) first second
      rwa [List.append_assoc, List.append_assoc] at this

theorem body_of_spelt {bs : Bytes} (h : Spelt k bs) : ∃ m : Message, m.kind = k ∧ m.body = bs := by
  cases h with
  | newSession width =>
    exact ⟨.newSession (UInt32.ofNat bs.toNat), rfl, Bytes.ofUInt32_toNat width⟩
  | newSessionStatus width known =>
    have fits : bs.toNat < capacity 4 := width ▸ bs.toNat_lt
    obtain ⟨s, code⟩ := code_of_mem (UInt32.ofNat bs.toNat)
      (by rwa [UInt32.toNat_ofNat_of_lt' fits])
    exact ⟨.newSessionStatus s, rfl, by rw [body, code, Bytes.ofUInt32_toNat width]⟩
  | heartbeat => exact ⟨.heartbeat, rfl, rfl⟩
  | heartbeatResponse width =>
    exact ⟨.heartbeatResponse (UInt32.ofNat bs.toNat), rfl, Bytes.ofUInt32_toNat width⟩
  | terminateSession => exact ⟨.terminateSession, rfl, rfl⟩
  | sessionTerminated => exact ⟨.sessionTerminated, rfl, rfl⟩
  | @callRequest tag payload width =>
    exact ⟨.callRequest ⟨UInt16.ofNat tag.toNat, payload⟩, rfl,
      by rw [body, Envelope.write, Bytes.ofUInt16_toNat width]⟩
  | @callbackRequest tag payload width =>
    exact ⟨.callbackRequest ⟨UInt16.ofNat tag.toNat, payload⟩, rfl,
      by rw [body, Envelope.write, Bytes.ofUInt16_toNat width]⟩
  | @callResult number payload width =>
    refine ⟨.callResponse (UInt32.ofNat number.toNat) (.result payload), rfl, ?_⟩
    rw [body, Bytes.ofUInt32_toNat width, List.append_assoc]
    rfl
  | @callFault number name details width first second =>
    obtain ⟨name, rfl⟩ := text_of_spelt first
    obtain ⟨details, rfl⟩ := text_of_spelt second
    refine ⟨.callResponse (UInt32.ofNat number.toNat) (.fault name details), rfl, ?_⟩
    rw [body, Bytes.ofUInt32_toNat width, List.append_assoc, List.append_assoc]
    rfl
  | @callbackSucceeded number width =>
    exact ⟨.callbackResponse (UInt32.ofNat number.toNat) .succeeded, rfl,
      by rw [body, Bytes.ofUInt32_toNat width]⟩
  | @callbackFailed number name details width first second =>
    obtain ⟨name, rfl⟩ := text_of_spelt first
    obtain ⟨details, rfl⟩ := text_of_spelt second
    refine ⟨.callbackResponse (UInt32.ofNat number.toNat) (.failed name details), rfl, ?_⟩
    rw [body, Bytes.ofUInt32_toNat width, List.append_assoc, List.append_assoc]
    rfl

end Message

/-! ## Packets -/

namespace Packet

variable {bs : Bytes} {p : Packet}

/-- The body is looked at only where the header gives the number of bytes. -/
theorem decode_of_parse {header : Header} (h : Header.parse bs = .ok header) : decode bs =
    if bs.length < header.packetSize.toNat then
      .error (.tooShort header.packetSize.toNat bs.length)
    else if header.packetSize.toNat < bs.length then
      .error (.badMessage
        (s!"{bs.length - header.packetSize.toNat} bytes past declared packet size "
          ++ s!"{header.packetSize.toNat}"))
    else match Message.readBody? header.kind with
      | none => .error (.unexpectedKind header.kind)
      | some reader =>
        match reader.whole (bs.drop headerLength) with
        | .ok message => .ok ⟨header, message⟩
        | .error e => .error (.ofFault e) := by
  unfold decode
  rw [h]
  simp only [bind, Except.bind]
  split
  · rfl
  · split
    · rfl
    · rfl

/-- Bytes are a packet if they begin with a header that gives their number and a kind in use, and
go on with a body that is read to its end. -/
theorem decode_eq_ok : decode bs = .ok p ↔
    Header.parse bs = .ok p.header ∧ p.header.packetSize.toNat = bs.length ∧
    ∃ reader, Message.readBody? p.header.kind = some reader ∧
      reader.run (bs.drop headerLength) = (.ok p.message, []) := by
  constructor
  · intro h
    cases parsed : Header.parse bs with
    | error e =>
      rw [decode, parsed] at h
      cases h
    | ok header =>
      rw [decode_of_parse parsed] at h
      split at h
      · cases h
      split at h
      · cases h
      split at h
      · cases h
      · next reader known =>
        split at h
        · next message read =>
          cases h
          have size : header.packetSize.toNat = bs.length := by omega
          exact ⟨rfl, size, reader, known, Reader.whole_eq_ok.mp read⟩
        · cases h
  · rintro ⟨parsed, size, reader, known, read⟩
    rw [decode_of_parse parsed, if_neg (by omega), if_neg (by omega), known]
    simp only [Reader.whole_eq_ok.mpr read]

/-- The size of a packet that is small enough is kept whole. -/
theorem packetSize_ofBody (kind : MessageKind) (n : UInt32) (session : UInt64) (last : UInt32)
    {size : Nat} (fits : headerLength + size < capacity 4) :
    (Header.ofBody kind n session last size).packetSize.toNat = headerLength + size :=
  UInt32.toNat_ofNat_of_lt' fits

theorem length_encode (m : Message) (n : UInt32) (session : UInt64) (last : UInt32) :
    (encode m n session last).length = headerLength + m.body.length := by
  rw [encode, List.length_append, Header.length_bytes]

theorem decode_encode {m : Message} (fits : headerLength + m.body.length < capacity 4)
    (n : UInt32) (session : UInt64) (last : UInt32) :
    decode (encode m n session last) =
      .ok ⟨Header.ofBody m.kind n session last m.body.length, m⟩ := by
  have size := packetSize_ofBody m.kind n session last fits
  obtain ⟨reader, known, read⟩ := Message.run_body (m := m) (by omega)
  refine decode_eq_ok.mpr ⟨Header.parse_bytes _ (by omega) m.body, ?_, reader, known, ?_⟩
  · rw [size, length_encode]
  · rw [encode, List.drop_left' (Header.length_bytes _)]
    exact read

theorem length_of_parse {header : Header} (h : Header.parse bs = .ok header) :
    headerLength ≤ bs.length := by
  unfold Header.parse at h
  split at h
  · cases h
  · omega

/-- The size that the header gives is that of the body behind it. -/
theorem encode_of_decode (h : decode bs = .ok p) :
    headerLength + p.message.body.length < capacity 4 ∧
    encode p.message p.header.sequenceNumber p.header.session p.header.lastReceived = bs := by
  obtain ⟨parsed, size, reader, known, read⟩ := decode_eq_ok.mp h
  obtain ⟨canonical, kind⟩ := Message.canonical_body known
  have body : bs.drop headerLength = p.message.body := by
    simpa using canonical _ _ _ read
  have length : headerLength + p.message.body.length = bs.length := by
    have := length_of_parse parsed
    rw [← body, List.length_drop]
    omega
  have fits : headerLength + p.message.body.length < capacity 4 := by
    rw [length, ← size]
    exact p.header.packetSize.toNat_lt
  refine ⟨fits, ?_⟩
  have header : Header.ofBody p.message.kind p.header.sequenceNumber p.header.session
      p.header.lastReceived p.message.body.length = p.header := by
    rw [Header.ofBody, kind _ _ _ read, length, ← size, UInt32.ofNat_toNat]
  rw [encode, header, Header.bytes_of_parse parsed, ← body, List.take_append_drop]

/-- What the bytes of a packet are: a header's fields in their widths, with the number of all the
bytes and the number of a kind, and a body of that kind. -/
inductive Spelt : Bytes → Prop
  | packet {size number session last kind body : Bytes} {k : MessageKind}
      (exact : size.toNat = 24 + body.length) (sizeWidth : size.length = 4)
      (numberWidth : number.length = 4) (sessionWidth : session.length = 8)
      (lastWidth : last.length = 4) (kindWidth : kind.length = 4)
      (known : kind.toNat = k.code.toNat) (spelt : Message.Spelt k body) :
      Spelt (size ++ number ++ session ++ last ++ kind ++ body)

theorem spelt_encode {m : Message} (fits : headerLength + m.body.length < capacity 4)
    (n : UInt32) (session : UInt64) (last : UInt32) : Spelt (encode m n session last) := by
  have size := packetSize_ofBody m.kind n session last fits
  exact .packet ((Bytes.toNat_ofUInt32 _).trans size) (Bytes.length_ofUInt32 _)
    (Bytes.length_ofUInt32 n) (Bytes.length_ofUInt64 session) (Bytes.length_ofUInt32 last)
    (Bytes.length_ofUInt32 _) (Bytes.toNat_ofUInt32 _) (Message.spelt_body (by omega))

theorem encode_of_spelt (h : Spelt bs) : ∃ m n session last,
    headerLength + m.body.length < capacity 4 ∧ encode m n session last = bs := by
  cases h with
  | @packet size number session last kind body k exact sizeWidth numberWidth sessionWidth lastWidth
      kindWidth known spelt =>
    obtain ⟨m, rfl, rfl⟩ := Message.body_of_spelt spelt
    have fits : headerLength + m.body.length < capacity 4 := by
      rw [← exact, ← sizeWidth]
      exact size.toNat_lt
    refine ⟨m, UInt32.ofNat number.toNat, UInt64.ofNat session.toNat, UInt32.ofNat last.toNat,
      fits, ?_⟩
    have code : Bytes.ofUInt32 m.kind.code = kind := by
      rw [Bytes.ofUInt32, ← known, ← kindWidth, kind.ofNat_toNat]
    simp only [encode, Header.bytes, Header.ofBody, code, ← exact, Bytes.ofUInt32_toNat sizeWidth,
      Bytes.ofUInt32_toNat numberWidth, Bytes.ofUInt64_toNat sessionWidth,
      Bytes.ofUInt32_toNat lastWidth]

/-- A packet says how long it is, so nothing follows it. -/
theorem decode_append {front back : Bytes} {q : Packet} (h : decode front = .ok p)
    (h' : decode (front ++ back) = .ok q) : back = [] := by
  obtain ⟨parsed, size, -⟩ := decode_eq_ok.mp h
  obtain ⟨parsed', size', -⟩ := decode_eq_ok.mp h'
  have enough := length_of_parse parsed
  have header : p.header.bytes = q.header.bytes := by
    rw [Header.bytes_of_parse parsed, Header.bytes_of_parse parsed',
      List.take_append_of_le_length enough]
  have same : p.header = q.header := by
    have again := Header.parse_bytes p.header (by omega) []
    have again' := Header.parse_bytes q.header (by rw [size', List.length_append]; omega) []
    rw [header, again'] at again
    exact (Except.ok.inj again).symm
  rw [same, size', List.length_append] at size
  exact List.length_eq_zero_iff.mp (by omega)

/-- **Packets are the same as small enough messages with their numbers and sessions.** Such a
message is decoded from its packet as it was, with a header that says what it was encoded with and
how many bytes there are; whatever is decoded is encoded to the same bytes. So exactly the bytes of
such messages are packets, which are those that are spelt as packets; no packet begins another
one, and no two packets carry the same. -/
theorem encode_decode_bijective :
    (∀ (m : Message) (n : UInt32) (session : UInt64) (last : UInt32),
      headerLength + m.body.length < capacity 4 →
      ∃ size : UInt32, size.toNat = (encode m n session last).length ∧
        decode (encode m n session last) = .ok ⟨⟨size, n, session, last, m.kind⟩, m⟩) ∧
    (∀ bs p, decode bs = .ok p →
      encode p.message p.header.sequenceNumber p.header.session p.header.lastReceived = bs) ∧
    (∀ bs, (∃ p, decode bs = .ok p) ↔ ∃ m n session last,
      headerLength + m.body.length < capacity 4 ∧ encode m n session last = bs) ∧
    (∀ bs, (∃ p, decode bs = .ok p) ↔ Spelt bs) ∧
    (∀ front back p q, decode front = .ok p → decode (front ++ back) = .ok q → back = []) ∧
    (∀ bs bs' p q, decode bs = .ok p → decode bs' = .ok q → p.message = q.message →
      p.header.sequenceNumber = q.header.sequenceNumber → p.header.session = q.header.session →
      p.header.lastReceived = q.header.lastReceived → bs = bs') := by
  have image : ∀ bs, (∃ p, decode bs = .ok p) ↔ ∃ m n session last,
      headerLength + m.body.length < capacity 4 ∧ encode m n session last = bs := by
    intro bs
    constructor
    · rintro ⟨p, h⟩
      exact ⟨_, _, _, _, encode_of_decode h⟩
    · rintro ⟨m, n, session, last, fits, rfl⟩
      exact ⟨_, decode_encode fits n session last⟩
  refine ⟨fun m n session last fits => ?_, fun bs p h => (encode_of_decode h).2, image,
    fun bs => ?_, fun front back p q => decode_append, ?_⟩
  · refine ⟨_, ?_, decode_encode fits n session last⟩
    exact (packetSize_ofBody m.kind n session last fits).trans (length_encode m n session last).symm
  · rw [image]
    constructor
    · rintro ⟨m, n, session, last, fits, rfl⟩
      exact spelt_encode fits n session last
    · exact encode_of_spelt
  · intro bs bs' p q h h' message number session last
    rw [← (encode_of_decode h).2, ← (encode_of_decode h').2, message, number, session, last]

/-- A call that failed, with details outside ASCII. -/
def failedCall : Message := .callResponse 9 (.fault "SaveInProgress" "über")

/-- The response goes through its packet, which has 56 bytes, and no packet goes on from it. -/
theorem encode_decode_failedCall : ∃ p, decode (encode failedCall 5 42 4) = .ok p ∧
    p.message = failedCall ∧ p.header.kind = .callResponse ∧ p.header.packetSize.toNat = 56 ∧
    encode p.message p.header.sequenceNumber p.header.session p.header.lastReceived =
      encode failedCall 5 42 4 ∧
    Spelt (encode failedCall 5 42 4) ∧
    ∀ back q, decode (encode failedCall 5 42 4 ++ back) = .ok q → back = [] := by
  have fits : headerLength + failedCall.body.length < capacity 4 := by decide
  have length : (encode failedCall 5 42 4).length = 56 := by
    rw [length_encode]
    decide
  obtain ⟨there, back, -, spelt, alone, -⟩ := encode_decode_bijective
  obtain ⟨size, exact, decoded⟩ := there failedCall 5 42 4 fits
  exact ⟨_, decoded, rfl, rfl, exact.trans length, back _ _ decoded, (spelt _).mp ⟨_, decoded⟩,
    fun back q => alone _ back _ q decoded⟩

end Packet

end Federate
