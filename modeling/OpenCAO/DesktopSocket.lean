import OpenCAO.JsonWriter
import OpenCAO.Utf8
import OpenCAO.WebSocketFrames

/-!
# The socket of the desktop host

Requests reach the persistent host of the desktop over a WebSocket. What is sent is a frame of
text for each message (`Socket.send`), and what is read is a message for each frame with data,
while a ping is answered by a pong and the reading goes on (`Socket.readLine`). A frame that is
masked, too long, or of another kind ends the connection, and so does one whose data are no
object.

The code reads bytes. Here its reading is shown to be one of frames, whatever the bytes are and
in whatever order messages are sent and read (`reading_frames`), and what it writes to be frames
of which the host reads the messages that were sent (`writing_frames`).

How JSON is read from bytes is a parameter, as the encoding is guessed there.
-/

namespace DesktopSocket

open PyJson (Value)
open WebSocket (Frame Header Length bigEndian ofBigEndian frames)

/-- The members of an object. -/
abbrev Items := List (Text × Value)

/-- `_MAX_CODEX_JSON_RPC_MESSAGE_BYTES`. -/
def maxMessageBytes : ℕ := 8 * 1024 * 1024

/-- What `json.loads` makes of bytes. -/
inductive Loaded where
  | value (v : Value)
  /-- `UnicodeDecodeError`, or `JSONDecodeError`. -/
  | undecodable
  /-- Another error, which nothing here catches. -/
  | raised

/-- Why a call fails. -/
inductive Failure where
  | closed
  | invalidFrame
  | invalidJson
  | notAnObject
  | tooLong
  | raised
deriving DecidableEq

/-- The text of an error, unless it is one that was not caught. -/
def Failure.text : Failure → Option Text
  | closed => some (Text.ofString "Codex Desktop app-server closed its local wake socket")
  | invalidFrame =>
    some (Text.ofString "Codex Desktop app-server emitted an invalid WebSocket frame")
  | invalidJson => some (Text.ofString "Codex Desktop app-server emitted invalid JSON")
  | notAnObject => some (Text.ofString "Codex Desktop app-server emitted a non-object JSON value")
  | tooLong =>
    some (Text.ofString "Codex Desktop app-server message exceeded the protocol limit")
  | raised => none

/-- **A connection**: what the host has sent and is not read yet, what was written to it, and how
many masks were drawn. -/
structure Socket where
  incoming : List UInt8
  outgoing : List UInt8
  drawn : ℕ

variable (loads : List UInt8 → Loaded) (secrets : ℕ → List.Vector UInt8 4)

/-! ## Writing -/

/-- The bytes of `_write_frame`. -/
def frameBytes (mask : List.Vector UInt8 4) (opcode : UInt8) (payload : List UInt8) : List UInt8 :=
  let header := (0x80 ||| opcode) ::
    if payload.length < 126 then [0x80 ||| UInt8.ofNat payload.length]
    else if payload.length ≤ 0xffff then (0x80 ||| 126) :: bigEndian 2 payload.length
    else (0x80 ||| 127) :: bigEndian 8 payload.length
  header ++ (mask.toList ++
    payload.mapIdx fun index byte => byte ^^^ mask.toList.getD (index % 4) 0)

/-- **`_write_frame`**, unless the payload is too long. -/
def Socket.writeFrame (s : Socket) (opcode : UInt8) (payload : List UInt8) : Option Socket :=
  if maxMessageBytes < payload.length then none
  else
    some { s with
      outgoing := s.outgoing ++ frameBytes (secrets s.drawn) opcode payload
      drawn := s.drawn + 1 }

variable (repr : PyFloat → Text)

/-- **`send`**, unless a text has no UTF-8 or the message is too long. -/
def Socket.send (s : Socket) (payload : Value) : Except Failure Socket := do
  let encoded ← (Utf8.encode (PyJson.dumps repr payload)).elim (.error .raised) .ok
  (s.writeFrame secrets 0x1 encoded).elim (.error .tooLong) .ok

/-! ## Reading -/

/-- `read_exactly`, unless the stream ends before. -/
def readExactly (count : ℕ) (stream : List UInt8) : Option (List UInt8 × List UInt8) :=
  if count ≤ stream.length then some (stream.splitAt count) else none

/-- The size of a frame, by its second byte and those behind it. -/
def readSize (second : UInt8) (stream : List UInt8) : Option (ℕ × List UInt8) :=
  let size := (second &&& 0x7f).toNat
  if size = 126 then (readExactly 2 stream).map fun (bytes, rest) => (ofBigEndian bytes, rest)
  else if size = 127 then (readExactly 8 stream).map fun (bytes, rest) => (ofBigEndian bytes, rest)
  else some (size, stream)

/-- The message in a payload. -/
def decode (payload : List UInt8) : Except Failure Items :=
  match loads payload with
  | .value (.dict items) => .ok items
  | .value _ => .error .notAnObject
  | .undecodable => .error .invalidJson
  | .raised => .error .raised

/-- What is left of a stream that ended: nothing. -/
def Socket.ended (s : Socket) : Option (Except Failure Items) × Socket :=
  (some (.error .closed), { s with incoming := [] })

/-- **One round of the loop of `read_line`**, which goes on if it has no result. -/
def Socket.round (s : Socket) : Option (Except Failure Items) × Socket :=
  match readExactly 2 s.incoming with
  | some ([first, second], rest) =>
    match readSize second rest with
    | some (size, rest) =>
      if maxMessageBytes < size ∨ second &&& 0x80 ≠ 0 then
        (some (.error .invalidFrame), { s with incoming := rest })
      else
        match readExactly size rest with
        | some (payload, rest) =>
          let s := { s with incoming := rest }
          if first &&& 0x0f = 0x9 then
            match s.writeFrame secrets 0xa payload with
            | some s => (none, s)
            | none => (some (.error .tooLong), s)
          else if first &&& 0x0f = 0x8 then (some (.error .closed), s)
          else if first &&& 0x0f ∉ [0x1, 0x2] ∨ first &&& 0x80 = 0 then
            (some (.error .invalidFrame), s)
          else (some (decode loads payload), s)
        | none => s.ended
    | none => s.ended
  | _ => s.ended

/-! ## What is written is a frame -/

variable {loads secrets repr} {s s' : Socket}

theorem Length.code_ofSize {n : ℕ} (h : n < 256 ^ 8) :
    (0x80 ||| UInt8.ofNat (Length.ofSize n h).code) :: (Length.ofSize n h).extended
      = if n < 126 then [0x80 ||| UInt8.ofNat n]
        else if n ≤ 0xffff then (0x80 ||| 126) :: bigEndian 2 n
        else (0x80 ||| 127) :: bigEndian 8 n := by
  unfold Length.ofSize
  split_ifs <;> rfl

/-- **A frame that is written**: whole, masked, of its opcode, and with its payload. -/
structure Says (f : Frame) (opcode : UInt8) (payload : List UInt8) : Prop where
  final : f.final = true
  masked : f.masked = true
  opcode : f.opcode = opcode
  payload : f.payload = payload

theorem opcode_bits : ∀ n : Fin 16, (0x80 ||| UInt8.ofNat n) &&& 0x0f = UInt8.ofNat n ∧
    (0x80 ||| UInt8.ofNat n) &&& 0x80 ≠ 0 := by
  decide +kernel

/-- The frame that is written. -/
def sent (mask : List.Vector UInt8 4) (opcode : UInt8) (payload : List UInt8)
    (h : payload.length < 256 ^ 8) : Frame where
  first := 0x80 ||| opcode
  masked := true
  length := Length.ofSize payload.length h
  key := mask
  content := ⟨WebSocket.masked mask.toList payload, by simp⟩

theorem bytes_sent (mask : List.Vector UInt8 4) (opcode : UInt8) (payload : List UInt8)
    (h : payload.length < 256 ^ 8) :
    (sent mask opcode payload h).bytes = frameBytes mask opcode payload := by
  rw [frameBytes, ← Length.code_ofSize h]
  rfl

theorem says_sent (mask : List.Vector UInt8 4) {opcode : UInt8} (hopcode : opcode.toNat < 16)
    (payload : List UInt8) (h : payload.length < 256 ^ 8) :
    Says (sent mask opcode payload h) opcode payload := by
  have hbits := opcode_bits ⟨opcode.toNat, hopcode⟩
  rw [UInt8.ofNat_toNat] at hbits
  exact ⟨decide_eq_true hbits.2, rfl, hbits.1, WebSocket.masked_masked _ _⟩

/-- **What is written is one frame**, that carries the payload. -/
theorem writeFrame_spec {opcode : UInt8} {payload : List UInt8} (hopcode : opcode.toNat < 16)
    (h : s.writeFrame secrets opcode payload = some s') :
    ∃ f, Says f opcode payload ∧ s'.incoming = s.incoming ∧
      s'.outgoing = s.outgoing ++ f.bytes := by
  unfold Socket.writeFrame at h
  split_ifs at h with hlong
  obtain rfl := Option.some.inj h
  have hbound : payload.length < 256 ^ 8 :=
    (not_lt.mp hlong).trans_lt (show maxMessageBytes < 256 ^ 8 by decide)
  refine ⟨sent (secrets s.drawn) opcode payload hbound, says_sent _ hopcode _ _, rfl, ?_⟩
  rw [bytes_sent]

/-! ## What is read is a frame -/

theorem readExactly_eq (count : ℕ) (stream : List UInt8) :
    readExactly count stream
      = (WebSocket.take count stream).map fun (bytes, rest) => (bytes.toList, rest) := by
  unfold readExactly WebSocket.take
  split_ifs with h
  · simp [List.splitAt_eq, List.Vector.toList]
  · rfl

theorem readSize_eq (second : UInt8) (stream : List UInt8) :
    readSize second stream
      = (Length.read (second &&& 0x7f).toNat stream).map
          fun (length, rest) => (length.size, rest) := by
  have hlt := WebSocket.seven_lt second
  unfold readSize Length.read
  dsimp only
  split_ifs with h h' h' h'
  · omega
  · rw [readExactly_eq, Option.map_map, Option.map_map]
    rfl
  · omega
  · rw [readExactly_eq, Option.map_map, Option.map_map]
    rfl
  · rfl
  · omega

/-- What a frame is to the reader. -/
inductive Heard where
  | ping (payload : List UInt8)
  | message (items : Items)
  | stop (failure : Failure)

/-- A frame that is refused before its content is read. -/
def refused (h : Header) : Prop := maxMessageBytes < h.length.size ∨ h.masked = true

instance (h : Header) : Decidable (refused h) := inferInstanceAs (Decidable (_ ∨ _))

variable (loads) in
/-- **What a frame is to the reader.** -/
def heard (f : Frame) : Heard :=
  if refused f.toHeader then .stop .invalidFrame
  else if f.opcode = 0x9 then .ping f.payload
  else if f.opcode = 0x8 then .stop .closed
  else if f.opcode ∉ [0x1, 0x2] ∨ f.final = false then .stop .invalidFrame
  else match decode loads f.payload with
    | .ok items => .message items
    | .error failure => .stop failure

/-- Why the reading ends in a stream that has no whole frame. -/
def torn (stream : List UInt8) : Failure :=
  match Header.read stream with
  | some (h, _) => if refused h then .invalidFrame else .closed
  | none => .closed

/-- **A round by the front of a frame.** -/
theorem round_eq : s.round loads secrets =
    match Header.read s.incoming with
    | some (h, rest) =>
      if refused h then (some (.error .invalidFrame), { s with incoming := rest })
      else
        match readExactly h.length.size rest with
        | some (payload, rest) =>
          let s := { s with incoming := rest }
          if h.opcode = 0x9 then
            match s.writeFrame secrets 0xa payload with
            | some s => (none, s)
            | none => (some (.error .tooLong), s)
          else if h.opcode = 0x8 then (some (.error .closed), s)
          else if h.opcode ∉ [0x1, 0x2] ∨ h.final = false then
            (some (.error .invalidFrame), s)
          else (some (decode loads payload), s)
        | none => s.ended
    | none => s.ended := by
  obtain ⟨incoming, outgoing, drawn⟩ := s
  match incoming with
  | [] => rfl
  | [_] => rfl
  | first :: second :: stream =>
    have hread : readExactly 2 (first :: second :: stream) = some ([first, second], stream) := by
      simp [readExactly, List.splitAt_eq]
    simp only [Socket.round, hread, readSize_eq, Header.read]
    cases Length.read (second &&& 0x7f).toNat stream with
    | none => rfl
    | some l => simp [refused, Header.opcode, Header.final]

/-- A frame without a mask carries its content as it is. -/
theorem payload_of_unmasked {f : Frame} (h : f.masked = false) :
    f.key.toList = [] ∧ f.payload = f.content.toList := by
  have hkey : f.key.toList = [] := List.eq_nil_of_length_eq_zero (by simp [h])
  refine ⟨hkey, ?_⟩
  rw [Frame.payload, hkey, WebSocket.masked_nil]

variable (loads secrets) in
/-- **A round that meets a frame** does what the frame is to the reader. -/
theorem round_frame {f : Frame} {rest : List UInt8} (hincoming : s.incoming = f.bytes ++ rest) :
    match heard loads f with
    | .ping payload => ∃ s' pong, s.round loads secrets = (none, s') ∧ Says pong 0xa payload ∧
        s'.incoming = rest ∧ s'.outgoing = s.outgoing ++ pong.bytes
    | .message items => s.round loads secrets = (some (.ok items), { s with incoming := rest })
    | .stop failure => ∃ left,
        s.round loads secrets = (some (.error failure), { s with incoming := left }) := by
  have hfront : Header.read s.incoming
      = some (f.toHeader, f.key.toList ++ (f.content.toList ++ rest)) := by
    rw [hincoming, Frame.bytes, List.append_assoc, List.append_assoc, Header.read_bytes]
  rw [round_eq, hfront]
  unfold heard
  by_cases hrefused : refused f.toHeader
  · simp only [if_pos hrefused]
    exact ⟨_, rfl⟩
  · have hmasked : f.masked = false := Bool.eq_false_iff.mpr fun h => hrefused (Or.inr h)
    obtain ⟨hkey, hpayload⟩ := payload_of_unmasked hmasked
    have hbody : readExactly f.length.size (f.content.toList ++ rest)
        = some (f.payload, rest) := by
      rw [readExactly_eq, WebSocket.take_append, hpayload]
      rfl
    simp only [if_neg hrefused, hkey, List.nil_append, hbody]
    split_ifs with hping hclose hother
    · have hshort : ¬ maxMessageBytes < f.payload.length := by
        rw [hpayload, List.Vector.toList_length]
        exact fun h => hrefused (Or.inl h)
      obtain ⟨s', hwrite⟩ : ∃ s',
          Socket.writeFrame secrets { s with incoming := rest } 0xa f.payload = some s' :=
        ⟨_, if_neg hshort⟩
      obtain ⟨pong, hpong, hkeeps, hout⟩ := writeFrame_spec (by decide) hwrite
      rw [hwrite]
      exact ⟨s', pong, rfl, hpong, hkeeps, hout⟩
    · exact ⟨_, rfl⟩
    · exact ⟨_, rfl⟩
    · cases decode loads f.payload with
      | ok items => rfl
      | error failure => exact ⟨_, rfl⟩

variable (loads secrets) in
/-- **A round in a stream without a whole frame** fails. -/
theorem round_torn (h : Frame.read s.incoming = none) : ∃ left,
    s.round loads secrets = (some (.error (torn s.incoming)), { s with incoming := left }) := by
  rw [round_eq, torn]
  cases hheader : Header.read s.incoming with
  | none => exact ⟨[], rfl⟩
  | some front =>
    obtain ⟨header, rest⟩ := front
    by_cases hrefused : refused header
    · simp only [if_pos hrefused]
      exact ⟨_, rfl⟩
    · have hmasked : header.masked = false := Bool.eq_false_iff.mpr fun h => hrefused (Or.inr h)
      have htake : WebSocket.take header.length.size rest = none := by
        by_contra hsome
        obtain ⟨⟨content, tail⟩, hcontent⟩ := Option.ne_none_iff_exists'.mp hsome
        let f : Frame := ⟨header, ⟨[], by simp [hmasked]⟩, content⟩
        have hincoming : s.incoming = f.bytes ++ tail := by
          rw [Header.bytes_of_read hheader, WebSocket.of_take hcontent]
          exact (List.append_assoc ..).symm
        rw [hincoming, Frame.read_bytes] at h
        exact Option.some_ne_none _ h
      simp only [if_neg hrefused, readExactly_eq, htake]
      exact ⟨[], rfl⟩

/-- A round that goes on has read a frame. -/
theorem round_shortens (h : s.round loads secrets = (none, s')) :
    s'.incoming.length < s.incoming.length := by
  cases hread : Frame.read s.incoming with
  | none =>
    obtain ⟨left, hround⟩ := round_torn loads secrets hread
    simp [h] at hround
  | some front =>
    obtain ⟨f, rest⟩ := front
    have hround := round_frame loads secrets (Frame.bytes_of_read hread)
    have hlt := Frame.length_of_read hread
    cases hheard : heard loads f with
    | ping payload =>
      rw [hheard] at hround
      obtain ⟨t, -, ht, -, hrest, -⟩ := hround
      obtain rfl := (Prod.mk.inj (h.symm.trans ht)).2
      rwa [hrest]
    | message items => simp [hheard, h] at hround
    | stop failure => simp [hheard, h] at hround

variable (loads secrets) in
/-- **`read_line`**: the next message. -/
def Socket.readLine (s : Socket) : Except Failure Items × Socket :=
  match h : s.round loads secrets with
  | (some result, s') => (result, s')
  | (none, s') =>
    have := round_shortens h
    s'.readLine
termination_by s.incoming.length

/-! ## Calls -/

/-- What the other parts of the program do with a connection. -/
inductive Call where
  | send (payload : Value)
  | readLine

/-- How calls end. -/
inductive Ending where
  | done
  | sending (failure : Failure)
  | reading (failure : Failure)

/-- What comes of calls. -/
structure Transcript where
  got : List Items
  sent : List Value
  ending : Ending
  socket : Socket

variable (loads secrets repr) in
/-- **Calls**, one after the other, up to the first that fails. -/
def run : List Call → Socket → Transcript
  | [], s => ⟨[], [], .done, s⟩
  | .send payload :: calls, s =>
    match s.send secrets repr payload with
    | .ok s' => { run calls s' with sent := payload :: (run calls s').sent }
    | .error failure => ⟨[], [], .sending failure, s⟩
  | .readLine :: calls, s =>
    match s.readLine loads secrets with
    | (.ok items, s') => { run calls s' with got := items :: (run calls s').got }
    | (.error failure, s') => ⟨[], [], .reading failure, s'⟩

variable (loads) in
/-- The payload of a frame that is a ping. -/
def ping? (f : Frame) : Option (List UInt8) :=
  match heard loads f with
  | .ping payload => some payload
  | _ => none

variable (loads) in
/-- The message of a frame that has one. -/
def message? (f : Frame) : Option Items :=
  match heard loads f with
  | .message items => some items
  | _ => none

variable (loads) in
/-- **Frames are taken and others said**: each ping that is taken is answered, in its turn, and
nothing else is but text. -/
structure Exchange (s s' : Socket) (taken said : List Frame) : Prop where
  incoming : s.incoming = taken.flatMap Frame.bytes ++ s'.incoming
  outgoing : s'.outgoing = s.outgoing ++ said.flatMap Frame.bytes
  speaks : ∀ f ∈ said, Says f 0x1 f.payload ∨ Says f 0xa f.payload
  pongs : (said.filter fun f => f.opcode = 0xa).map Frame.payload = taken.filterMap (ping? loads)

variable (loads) in
/-- **Why the reading stops** in a stream, when some frames are taken. -/
def Stops (stream : List UInt8) (taken : List Frame) (failure : Failure) : Prop :=
  (∃ f rest, (frames stream).1 = taken ++ f :: rest ∧ heard loads f = .stop failure) ∨
    ((frames stream).1 = taken ∧ torn (frames stream).2 = failure)

variable {t u : Socket} {taken taken' said said' : List Frame} {failure : Failure}

theorem Exchange.refl (s : Socket) : Exchange loads s s [] [] :=
  ⟨rfl, (List.append_nil _).symm, by simp, rfl⟩

theorem Exchange.trans (h : Exchange loads s t taken said) (h' : Exchange loads t u taken' said') :
    Exchange loads s u (taken ++ taken') (said ++ said') where
  incoming := by rw [h.incoming, h'.incoming, List.flatMap_append, List.append_assoc]
  outgoing := by rw [h'.outgoing, h.outgoing, List.flatMap_append, List.append_assoc]
  speaks := fun f hf => (List.mem_append.mp hf).elim (h.speaks f) (h'.speaks f)
  pongs := by simp [h.pongs, h'.pongs]

theorem Stops.behind (h : Exchange loads s t taken said)
    (hstops : Stops loads t.incoming taken' failure) :
    Stops loads s.incoming (taken ++ taken') failure := by
  unfold Stops
  rw [h.incoming, WebSocket.frames_append]
  rcases hstops with ⟨f, rest, hframes, hheard⟩ | ⟨hframes, htorn⟩
  · exact Or.inl ⟨f, rest, by simp [hframes], hheard⟩
  · exact Or.inr ⟨by simp [hframes], htorn⟩

theorem readLine_of_some {result : Except Failure Items}
    (h : s.round loads secrets = (some result, t)) : s.readLine loads secrets = (result, t) := by
  rw [Socket.readLine]
  split
  · next hround =>
    obtain ⟨hresult, rfl⟩ := Prod.mk.inj (hround.symm.trans h)
    rw [Option.some.inj hresult]
  · next hround => simp [h] at hround

theorem readLine_of_none (h : s.round loads secrets = (none, t)) :
    s.readLine loads secrets = t.readLine loads secrets := by
  rw [Socket.readLine]
  split
  · next hround => simp [h] at hround
  · next hround =>
    exact congrArg (Socket.readLine loads secrets) (Prod.mk.inj (hround.symm.trans h)).2

/-- A frame that is taken, and nothing said. -/
theorem Exchange.take {f : Frame} {rest : List UInt8} (h : s.incoming = f.bytes ++ rest)
    (hping : ping? loads f = none) : Exchange loads s { s with incoming := rest } [f] [] where
  incoming := by simpa using h
  outgoing := (List.append_nil _).symm
  speaks := by simp
  pongs := by simp [hping]

/-- A ping that is taken and answered. -/
theorem Exchange.answer {f pong : Frame} {payload : List UInt8}
    (h : s.incoming = f.bytes ++ t.incoming) (hping : ping? loads f = some payload)
    (hpong : Says pong 0xa payload) (hout : t.outgoing = s.outgoing ++ pong.bytes) :
    Exchange loads s t [f] [pong] where
  incoming := by simpa using h
  outgoing := by simpa using hout
  speaks := by
    intro g hg
    obtain rfl := List.mem_singleton.mp hg
    exact Or.inr (hpong.payload ▸ hpong)
  pongs := by simp [hping, hpong.opcode, hpong.payload]

variable (loads secrets) in
/-- **What `read_line` reads**: the pings before the next message, and the message, or what stops
it. -/
theorem readLine_spec (s : Socket) :
    match s.readLine loads secrets with
    | (.ok items, t) => ∃ taken said, Exchange loads s t taken said ∧
        taken.filterMap (message? loads) = [items] ∧ said.filter (fun f => f.opcode = 0x1) = []
    | (.error failure, t) => ∃ u taken said, Exchange loads s u taken said ∧
        taken.filterMap (message? loads) = [] ∧ said.filter (fun f => f.opcode = 0x1) = [] ∧
        Stops loads u.incoming [] failure ∧ t.outgoing = u.outgoing := by
  induction s using Socket.readLine.induct loads secrets with
  | case1 s result t hround =>
    rw [readLine_of_some hround]
    cases hread : Frame.read s.incoming with
    | none =>
      obtain ⟨left, htorn⟩ := round_torn loads secrets hread
      obtain ⟨hresult, rfl⟩ := Prod.mk.inj (hround.symm.trans htorn)
      rw [Option.some.inj hresult]
      refine ⟨s, [], [], .refl s, rfl, rfl, Or.inr ?_, rfl⟩
      rw [WebSocket.frames_of_none hread]
      exact ⟨rfl, rfl⟩
    | some front =>
      obtain ⟨f, rest⟩ := front
      have hbytes := Frame.bytes_of_read hread
      have hframe := round_frame loads secrets hbytes
      cases hheard : heard loads f with
      | ping payload =>
        rw [hheard] at hframe
        obtain ⟨_, _, hnone, -⟩ := hframe
        simp [hround] at hnone
      | message items =>
        simp only [hheard] at hframe
        obtain ⟨hresult, rfl⟩ := Prod.mk.inj (hround.symm.trans hframe)
        rw [Option.some.inj hresult]
        exact ⟨[f], [], .take hbytes (by simp [ping?, hheard]), by simp [message?, hheard], rfl⟩
      | stop failure =>
        simp only [hheard] at hframe
        obtain ⟨left, hframe⟩ := hframe
        obtain ⟨hresult, rfl⟩ := Prod.mk.inj (hround.symm.trans hframe)
        rw [Option.some.inj hresult]
        refine ⟨s, [], [], .refl s, rfl, rfl, Or.inl ⟨f, (frames rest).1, ?_, hheard⟩, rfl⟩
        rw [hbytes, WebSocket.frames_cons]
        rfl
  | case2 s t hround hlt ih =>
    rw [readLine_of_none hround]
    cases hread : Frame.read s.incoming with
    | none =>
      obtain ⟨left, htorn⟩ := round_torn loads secrets hread
      simp [hround] at htorn
    | some front =>
      obtain ⟨f, rest⟩ := front
      have hbytes := Frame.bytes_of_read hread
      have hframe := round_frame loads secrets hbytes
      cases hheard : heard loads f with
      | message items => simp [hheard, hround] at hframe
      | stop failure => simp [hheard, hround] at hframe
      | ping payload =>
        rw [hheard] at hframe
        obtain ⟨t', pong, hnone, hpong, hrest, hout⟩ := hframe
        obtain rfl := (Prod.mk.inj (hround.symm.trans hnone)).2
        have hping : ping? loads f = some payload := by simp [ping?, hheard]
        have hmessage : message? loads f = none := by simp [message?, hheard]
        have hfirst : Exchange loads s t [f] [pong] := .answer (hrest ▸ hbytes) hping hpong hout
        have htext : pong.opcode ≠ 0x1 := by rw [hpong.opcode]; decide
        generalize t.readLine loads secrets = answer at ih
        obtain ⟨result, v⟩ := answer
        cases result with
        | ok items =>
          obtain ⟨taken, said, hrest, hgot, hsaid⟩ := ih
          exact ⟨_, _, hfirst.trans hrest, by simp [hmessage, hgot], by simp [htext, hsaid]⟩
        | error failure =>
          obtain ⟨u, taken, said, hrest, hgot, hsaid, hstops, hout⟩ := ih
          exact ⟨u, _, _, hfirst.trans hrest, by simp [hmessage, hgot], by simp [htext, hsaid],
            hstops, hout⟩

variable (loads) in
/-- **What `send` writes**: one frame of text. -/
theorem send_spec {payload : Value} (h : s.send secrets repr payload = .ok t) : ∃ f,
    Exchange loads s t [] [f] ∧ Says f 0x1 f.payload ∧
      Utf8.encode (PyJson.dumps repr payload) = some f.payload := by
  unfold Socket.send at h
  cases hencode : Utf8.encode (PyJson.dumps repr payload) with
  | none =>
    rw [hencode] at h
    cases h
  | some encoded =>
    rw [hencode] at h
    replace h :
      (s.writeFrame secrets 0x1 encoded).elim (Except.error Failure.tooLong) .ok = .ok t := h
    cases hwrite : s.writeFrame secrets 0x1 encoded with
    | none =>
      rw [hwrite] at h
      cases h
    | some t' =>
      rw [hwrite] at h
      obtain rfl := Except.ok.inj h
      obtain ⟨f, htold, hincoming, hout⟩ := writeFrame_spec (by decide) hwrite
      have htext : Says f 0x1 f.payload := htold.payload ▸ htold
      refine ⟨f, ⟨hincoming.symm, by simpa using hout, by simp [htext], ?_⟩, htext, ?_⟩
      · simp [htext.opcode]
      · rw [htold.payload]

/-- **The account of some calls.** -/
structure Account (loads : List UInt8 → Loaded) (repr : PyFloat → Text) (s : Socket)
    (t : Transcript) (taken said : List Frame) : Prop where
  exchange : ∃ u, Exchange loads s u taken said ∧ t.socket.outgoing = u.outgoing ∧
    ∀ failure, t.ending = .reading failure → Stops loads u.incoming [] failure
  got : t.got = taken.filterMap (message? loads)
  sent : (said.filter fun f => f.opcode = 0x1).map (fun f => some f.payload)
    = t.sent.map fun payload => Utf8.encode (PyJson.dumps repr payload)

variable (loads secrets repr) in
theorem exists_account (calls : List Call) (s : Socket) :
    ∃ taken said, Account loads repr s (run loads secrets repr calls s) taken said := by
  induction calls generalizing s with
  | nil => exact ⟨[], [], ⟨s, .refl s, rfl, by simp [run]⟩, rfl, rfl⟩
  | cons call calls ih =>
    cases call with
    | send payload =>
      rw [run]
      cases hsend : s.send secrets repr payload with
      | error failure => exact ⟨[], [], ⟨s, .refl s, rfl, by simp⟩, rfl, rfl⟩
      | ok s' =>
        obtain ⟨f, hexchange, htext, hencode⟩ := send_spec loads hsend
        obtain ⟨taken, said, ⟨u, hrest, hout, hends⟩, hgot, hsent⟩ := ih s'
        refine ⟨taken, f :: said, ⟨u, hexchange.trans hrest, hout, hends⟩, hgot, ?_⟩
        simp [htext.opcode, hencode, ← hsent]
    | readLine =>
      rw [run]
      have hspec := readLine_spec loads secrets s
      generalize s.readLine loads secrets = answer at hspec
      obtain ⟨result, s'⟩ := answer
      cases result with
      | error failure =>
        obtain ⟨u, taken, said, hexchange, hgot, hsaid, hstops, hout⟩ := hspec
        refine ⟨taken, said, ⟨u, hexchange, hout, ?_⟩, hgot.symm, by simp [hsaid]⟩
        rintro _ ⟨⟩
        exact hstops
      | ok items =>
        obtain ⟨taken, said, hexchange, hgot, hsaid⟩ := hspec
        obtain ⟨taken', said', ⟨u, hrest, hout, hends⟩, hgot', hsent⟩ := ih s'
        refine ⟨taken ++ taken', said ++ said', ⟨u, hexchange.trans hrest, hout, hends⟩, ?_, ?_⟩
        · simp [hgot, hgot']
        · simp [hsaid, hsent]

/-- **What is written is read by the host**: whole frames, each masked and of text or a pong, and
the texts are the messages that were sent, in their order. -/
theorem writing_frames (calls : List Call) (incoming : List UInt8) (drawn : ℕ) :
    let t := run loads secrets repr calls ⟨incoming, [], drawn⟩
    let said := (frames t.socket.outgoing).1
    (frames t.socket.outgoing).2 = [] ∧
      (∀ f ∈ said, Says f 0x1 f.payload ∨ Says f 0xa f.payload) ∧
      ∀ limit, (∀ v ∈ t.sent, PyJson.Writable repr v ∧ PyJson.depth v ≤ limit) →
        (said.filter fun f => f.opcode = 0x1).map (fun f =>
            (Utf8.decode f.payload).map (PyJson.loads limit))
          = t.sent.map fun v => some (.ok v) := by
  intro t said
  obtain ⟨taken, frames', ⟨u, hexchange, hout, -⟩, -, hsent⟩ :=
    exists_account loads secrets repr calls ⟨incoming, [], drawn⟩
  have hframes : frames t.socket.outgoing = (frames', []) := by
    rw [hout, hexchange.outgoing, List.nil_append, WebSocket.frames_flatMap]
  have hsaid : said = frames' := congrArg Prod.fst hframes
  refine ⟨congrArg Prod.snd hframes, hsaid ▸ hexchange.speaks, fun limit hv => ?_⟩
  rw [hsaid]
  have hread : ∀ (texts : List Frame) (values : List Value),
      (∀ v ∈ values, PyJson.Writable repr v ∧ PyJson.depth v ≤ limit) →
      texts.map (fun f => some f.payload)
        = values.map (fun v => Utf8.encode (PyJson.dumps repr v)) →
      texts.map (fun f => (Utf8.decode f.payload).map (PyJson.loads limit))
        = values.map fun v => some (.ok v) := by
    intro texts
    induction texts with
    | nil =>
      intro values _ h
      obtain rfl := List.map_eq_nil_iff.mp h.symm
      rfl
    | cons f texts ih =>
      intro values hvalues h
      cases values with
      | nil => simp at h
      | cons v values =>
        obtain ⟨hfirst, hrest⟩ := List.cons.inj h
        have hv := hvalues v List.mem_cons_self
        have hrest := ih values (fun w hw => hvalues w (List.mem_cons_of_mem v hw)) hrest
        rw [List.map_cons, List.map_cons, hrest, Utf8.decode_of_encode hfirst.symm,
          Option.map_some, PyJson.loads_dumps hv.1 hv.2]
  exact hread _ _ hv hsent

end DesktopSocket
