import TuxStack.Lib.FrameReader
import TuxStack.Vfs.Path

/-!
# Frames on the socket

A frame is a `u32` in big-endian order and that many bytes of CBOR
(`crates/tuxstack-protocol/src/lib.rs`). There are four decoders: `decode_frame` takes
one frame as a slice, `read_frame` reads from a synchronous source, and client and
daemon each have a `read_envelope`. The CBOR library is a parameter, `Cbor`; nothing
here looks into the body of an envelope.

`frames_read_back` says that all four agree with the encoder: what has been written is
read back however it arrives, a stream that is cut off gives the envelopes that have
arrived in full and then an error, and `decode_frame` takes exactly one frame. An
envelope of another version of the protocol is written but not read.
-/

namespace TuxStack.Ipc

open Vfs Frames

/-! ## Encoding -/

def protocolVersion : Nat := 1

def frameHeaderSize : Nat := 4

def maxFrameSize : Nat := 32 * 1024 * 1024

def u32Max : Nat := 2 ^ 32 - 1

inductive FrameError where
  | zeroLength
  | oversized (length maximum : Nat)
  | truncatedHeader (actual : Nat)
  | truncatedBody (expected actual : Nat)
  | unknownProtocol (actual expected : Nat)
  | trailingBytes (count : Nat)
  | encode (message : String)
  | decode (message : String)
deriving DecidableEq, Repr

def validateFrameLength (length maximum : Nat) : Except FrameError Unit :=
  if length = 0 then .error .zeroLength
  else if min maximum maxFrameSize < length then
    .error (.oversized length (min maximum maxFrameSize))
  else .ok ()

/-- `u32::to_be_bytes`. -/
def toBeBytes (n : Nat) : Bytes :=
  [(n / 2 ^ 24).toUInt8, (n / 2 ^ 16).toUInt8, (n / 2 ^ 8).toUInt8, n.toUInt8]

/-- `u32::from_be_bytes`. -/
def fromBeBytes (bytes : Bytes) : Nat :=
  bytes.foldl (fun n byte => n * 2 ^ 8 + byte.toNat) 0

/-- `encode_frame_with_limit`; `encode` is the CBOR serializer. -/
def encodeFrameWithLimit {ε : Type} (encode : ε → Except String Bytes)
    (envelope : ε) (maximum : Nat) : Except FrameError Bytes :=
  match encode envelope with
  | .error message => .error (.encode message)
  | .ok payload =>
    if u32Max < payload.length then .error (.oversized u32Max (min maximum maxFrameSize))
    else
      match validateFrameLength payload.length maximum with
      | .error e => .error e
      | .ok () => .ok (toBeBytes payload.length ++ payload)

/-! ## Decoding -/

structure WireEnvelope (β : Type) where
  protocolVersion : Nat
  requestId : Nat
  body : β
deriving DecidableEq, Repr

/-- The CBOR library. `decode` also gives the number of bytes it has consumed. -/
structure Cbor (β : Type) where
  encode : WireEnvelope β → Except String Bytes
  decode : Bytes → Except String (WireEnvelope β × Nat)

/-- Every encoded envelope is decoded back to itself, to its last byte. -/
def Cbor.RoundTrip {β : Type} (cbor : Cbor β) : Prop :=
  ∀ e payload, cbor.encode e = .ok payload → cbor.decode payload = .ok (e, payload.length)

variable {β : Type} (cbor : Cbor β)

def decodePayload (payload : Bytes) (declaredLength : Nat) :
    Except FrameError (WireEnvelope β) :=
  match validateFrameLength declaredLength maxFrameSize with
  | .error e => .error e
  | .ok () =>
    if payload.length ≠ declaredLength then
      .error (.truncatedBody declaredLength payload.length)
    else
      match cbor.decode payload with
      | .error message => .error (.decode message)
      | .ok (envelope, consumed) =>
        if consumed ≠ payload.length then .error (.trailingBytes (payload.length - consumed))
        else if envelope.protocolVersion ≠ protocolVersion then
          .error (.unknownProtocol envelope.protocolVersion protocolVersion)
        else .ok envelope

def decodeFrameWithLimit (frame : Bytes) (maximum : Nat) :
    Except FrameError (WireEnvelope β) :=
  if frame.length < frameHeaderSize then .error (.truncatedHeader frame.length)
  else
    let length := fromBeBytes (frame.take frameHeaderSize)
    match validateFrameLength length (min maximum maxFrameSize) with
    | .error e => .error e
    | .ok () =>
      let expected := frameHeaderSize + length
      if frame.length < expected then
        .error (.truncatedBody length (frame.length - frameHeaderSize))
      else if frame.length > expected then .error (.trailingBytes (frame.length - expected))
      else decodePayload cbor (frame.drop frameHeaderSize) length

def decodeFrame (frame : Bytes) : Except FrameError (WireEnvelope β) :=
  decodeFrameWithLimit cbor frame maxFrameSize

/-! ## Reading -/

/-- `ClientError`, `IpcError` and `ReadFrameError`, as far as reading goes. -/
inductive ReadError where
  | frame (error : FrameError)
  | io (message : String)
deriving DecidableEq, Repr

/-- What the readers make of a header. -/
def readLength (maximum : Nat) (header : Bytes) : Except ReadError Nat :=
  match validateFrameLength (fromBeBytes header) maximum with
  | .error e => .error (.frame e)
  | .ok () => .ok (fromBeBytes header)

/-- What the readers make of a payload. -/
def readPayload (payload : Bytes) (length : Nat) : Except ReadError (WireEnvelope β) :=
  match decodePayload cbor payload length with
  | .error e => .error (.frame e)
  | .ok envelope => .ok envelope

/-- `read_envelope` of the client, with `read_exact_async`: an interrupted read is
repeated, and the end of the stream is an error of the frame. -/
def clientReader (maximum : Nat) : Reader UInt8 (WireEnvelope β) ReadError where
  headerSize := frameHeaderSize
  length := readLength maximum
  decode := readPayload cbor
  headerEof actual := .frame (.truncatedHeader actual)
  bodyEof expected actual := .frame (.truncatedBody expected actual)
  retries := true
  interrupted := .io "interrupted"
  failed := .io

/-- `read_envelope` of the daemon: `read_exact` passes every I/O error on, and the end
of the stream is one of them. -/
def daemonReader (maximum : Nat) : Reader UInt8 (WireEnvelope β) ReadError where
  headerSize := frameHeaderSize
  length := readLength maximum
  decode := readPayload cbor
  headerEof _ := .io "early eof"
  bodyEof _ _ := .io "early eof"
  retries := false
  interrupted := .io "interrupted"
  failed := .io

/-- `read_frame`, with `read_exact_counted`. -/
def frameReader : Reader UInt8 (WireEnvelope β) ReadError := clientReader cbor maxFrameSize

/-! ## Lengths -/

theorem validateFrameLength_ok {length maximum : Nat} :
    validateFrameLength length maximum = .ok () ↔
      0 < length ∧ length ≤ min maximum maxFrameSize := by
  unfold validateFrameLength
  split
  · exact ⟨fun h => (by cases h), fun h => absurd h.1 (by omega)⟩
  · split
    · exact ⟨fun h => (by cases h), fun h => absurd h.2 (by omega)⟩
    · exact ⟨fun _ => ⟨by omega, by omega⟩, fun _ => rfl⟩

theorem fromBeBytes_toBeBytes {n : Nat} (h : n ≤ u32Max) : fromBeBytes (toBeBytes n) = n := by
  have hbound : n ≤ 4294967295 := h
  have hbytes : fromBeBytes (toBeBytes n) =
      (((0 * 256 + n / 16777216 % 256) * 256 + n / 65536 % 256) * 256 + n / 256 % 256) * 256 +
        n % 256 := by
    simp [fromBeBytes, toBeBytes]
  omega

theorem toUInt8_eq {n : Nat} {byte : UInt8} (h : n % 256 = byte.toNat) : n.toUInt8 = byte := by
  apply UInt8.toNat_inj.mp
  rw [← h]
  exact UInt8.toNat_ofNat'

theorem toBeBytes_fromBeBytes {header : Bytes} (h : header.length = frameHeaderSize) :
    toBeBytes (fromBeBytes header) = header := by
  match header, h with
  | [a, b, c, d], _ =>
    have ha := a.toNat_lt
    have hb := b.toNat_lt
    have hc := c.toNat_lt
    have hd := d.toNat_lt
    have hnumber : fromBeBytes [a, b, c, d] =
        (((0 * 256 + a.toNat) * 256 + b.toNat) * 256 + c.toNat) * 256 + d.toNat := rfl
    unfold toBeBytes
    rw [hnumber, toUInt8_eq (show _ = a.toNat by omega), toUInt8_eq (show _ = b.toNat by omega),
      toUInt8_eq (show _ = c.toNat by omega), toUInt8_eq (show _ = d.toNat by omega)]

theorem maxFrameSize_le_u32Max : maxFrameSize ≤ u32Max := by decide

/-! ## Encoder and decoders -/

variable {cbor}

theorem encodeFrame_ok {encode : WireEnvelope β → Except String Bytes} {e : WireEnvelope β}
    {maximum : Nat} {frame : Bytes} (h : encodeFrameWithLimit encode e maximum = .ok frame) :
    ∃ payload, encode e = .ok payload ∧ frame = toBeBytes payload.length ++ payload ∧
      0 < payload.length ∧ payload.length ≤ min maximum maxFrameSize := by
  unfold encodeFrameWithLimit at h
  cases hencode : encode e with
  | error message =>
    rw [hencode] at h
    cases h
  | ok payload =>
    simp only [hencode] at h
    split at h
    · cases h
    · split at h
      · cases h
      · rename_i hvalid
        cases h
        exact ⟨payload, rfl, rfl, validateFrameLength_ok.mp hvalid⟩

theorem decodePayload_ok {payload : Bytes} {length : Nat} {e : WireEnvelope β} :
    decodePayload cbor payload length = .ok e ↔
      0 < length ∧ length ≤ maxFrameSize ∧ payload.length = length ∧
        cbor.decode payload = .ok (e, length) ∧ e.protocolVersion = protocolVersion := by
  have hvalid := @validateFrameLength_ok length maxFrameSize
  rw [Nat.min_self] at hvalid
  unfold decodePayload
  constructor
  · intro h
    split at h
    · cases h
    · rename_i hlength
      obtain ⟨hpos, hmax⟩ := hvalid.mp hlength
      split at h
      · cases h
      · rename_i hlen
        have hlen : payload.length = length := by omega
        split at h
        · cases h
        · rename_i envelope consumed hdecode
          split at h
          · cases h
          · rename_i hconsumed
            split at h
            · cases h
            · rename_i hversion
              cases h
              refine ⟨hpos, hmax, hlen, ?_, by omega⟩
              rw [hdecode, ← hlen]
              congr 2
              omega
  · rintro ⟨hpos, hmax, hlen, hdecode, hversion⟩
    rw [hvalid.mpr ⟨hpos, hmax⟩]
    simp only [hlen, hdecode, hversion, ne_eq, not_true_eq_false, if_false]

/-- **`decode_frame` takes exactly one frame**: a header with the length of the payload,
and a payload that the library decodes to its last byte. -/
theorem decodeFrame_ok {bytes : Bytes} {maximum : Nat} {e : WireEnvelope β} :
    decodeFrameWithLimit cbor bytes maximum = .ok e ↔
      ∃ payload, bytes = toBeBytes payload.length ++ payload ∧ 0 < payload.length ∧
        payload.length ≤ min maximum maxFrameSize ∧
        cbor.decode payload = .ok (e, payload.length) ∧ e.protocolVersion = protocolVersion := by
  have hvalid := fun length => @validateFrameLength_ok length (min maximum maxFrameSize)
  unfold decodeFrameWithLimit
  constructor
  · intro h
    split at h
    · cases h
    · rename_i hheader
      have htake : (bytes.take frameHeaderSize).length = frameHeaderSize := by
        rw [List.length_take]
        omega
      dsimp only at h
      split at h
      · cases h
      · rename_i hlength
        obtain ⟨-, hmax⟩ := (hvalid _).mp hlength
        split at h
        · cases h
        · split at h
          · cases h
          · obtain ⟨hpos, -, hlen, hdecode, hversion⟩ := decodePayload_ok.mp h
            refine ⟨bytes.drop frameHeaderSize, ?_, by omega, by omega, ?_, hversion⟩
            · rw [hlen, toBeBytes_fromBeBytes htake, List.take_append_drop]
            · rw [hlen]
              exact hdecode
  · rintro ⟨payload, rfl, hpos, hmax, hdecode, hversion⟩
    have hu32 : payload.length ≤ u32Max := by
      have hle := maxFrameSize_le_u32Max
      omega
    have htake : (toBeBytes payload.length ++ payload).take frameHeaderSize =
        toBeBytes payload.length := rfl
    have hdrop : (toBeBytes payload.length ++ payload).drop frameHeaderSize = payload := rfl
    have hlen : (toBeBytes payload.length ++ payload).length =
        frameHeaderSize + payload.length := by
      rw [List.length_append]
      rfl
    rw [hlen, if_neg (by omega), htake, hdrop, fromBeBytes_toBeBytes hu32]
    dsimp only
    rw [(hvalid payload.length).mpr ⟨hpos, by omega⟩]
    dsimp only
    rw [if_neg (by omega), if_neg (by omega)]
    exact decodePayload_ok.mpr ⟨hpos, by omega, rfl, hdecode, hversion⟩

/-! ## Writing and reading -/

theorem readLength_toBeBytes {n maximum : Nat} (hpos : 0 < n)
    (hmax : n ≤ min maximum maxFrameSize) :
    readLength maximum (toBeBytes n) = .ok n := by
  have hle := maxFrameSize_le_u32Max
  unfold readLength
  rw [fromBeBytes_toBeBytes (by omega), validateFrameLength_ok.mpr ⟨hpos, hmax⟩]

theorem readPayload_ok {payload : Bytes} {e : WireEnvelope β} (hpos : 0 < payload.length)
    (hmax : payload.length ≤ maxFrameSize) (hdecode : cbor.decode payload = .ok (e, payload.length))
    (hversion : e.protocolVersion = protocolVersion) :
    readPayload cbor payload payload.length = .ok e := by
  unfold readPayload
  rw [decodePayload_ok.mpr ⟨hpos, hmax, rfl, hdecode, hversion⟩]

/-- A reader of the program: it checks headers against `limit` and decodes with `cbor`. -/
structure Reads (cbor : Cbor β) (limit : Nat) (r : Reader UInt8 (WireEnvelope β) ReadError) :
    Prop where
  headerSize : r.headerSize = frameHeaderSize
  length : r.length = readLength limit
  decode : r.decode = readPayload cbor

theorem isFrame_of_encode {e : WireEnvelope β}
    (h : ∀ payload, cbor.encode e = .ok payload → cbor.decode payload = .ok (e, payload.length))
    {r : Reader UInt8 (WireEnvelope β) ReadError} {limit maximum : Nat} (hr : Reads cbor limit r)
    (hlimit : min maximum maxFrameSize ≤ limit) {frame : Bytes}
    (hframe : encodeFrameWithLimit cbor.encode e maximum = .ok frame)
    (hversion : e.protocolVersion = protocolVersion) : r.IsFrame e frame := by
  obtain ⟨payload, hencode, rfl, hpos, hmax⟩ := encodeFrame_ok hframe
  refine ⟨toBeBytes payload.length, payload, rfl, hr.headerSize.symm, ?_, ?_⟩
  · rw [hr.length]
    exact readLength_toBeBytes hpos (by omega)
  · rw [hr.decode]
    exact readPayload_ok hpos (by omega) (h payload hencode) hversion

def Written (cbor : Cbor β) (maximum : Nat) (es : List (WireEnvelope β)) (frames : List Bytes) :
    Prop :=
  List.Forall₂ (fun e frame => encodeFrameWithLimit cbor.encode e maximum = .ok frame) es frames

theorem Written.versioned {maximum : Nat} {es : List (WireEnvelope β)} {frames : List Bytes}
    (h : Written cbor maximum es frames)
    (hversion : ∀ e ∈ es, e.protocolVersion = protocolVersion) :
    List.Forall₂ (fun e frame => e.protocolVersion = protocolVersion ∧
      encodeFrameWithLimit cbor.encode e maximum = .ok frame) es frames :=
  (List.forall₂_and_left ..).mpr ⟨hversion, h⟩

/-- What is promised of a reader for a list of envelopes and their frames: however the
frames arrive it reads the envelopes and then the end of the stream; and of a stream
that stops before the last frame is complete it reads the envelopes whose frames have
arrived, and then gets an error. -/
structure ReadsBack (r : Reader UInt8 (WireEnvelope β) ReadError) (es : List (WireEnvelope β))
    (frames : List Bytes) : Prop where
  all : ∀ arrivals, r.Quiet arrivals → Reader.items arrivals = frames.flatten →
    r.readAll arrivals = (es, some (r.headerEof 0))
  cut : ∀ arrivals, r.Quiet arrivals → Reader.items arrivals <+: frames.flatten →
    Reader.items arrivals ≠ frames.flatten →
      ∃ k e, k < es.length ∧ r.readAll arrivals = (es.take k, some e) ∧
        (frames.take k).flatten <+: Reader.items arrivals ∧
        (Reader.items arrivals).length < (frames.take (k + 1)).flatten.length

theorem readsBack_of_written (h : cbor.RoundTrip) {r : Reader UInt8 (WireEnvelope β) ReadError}
    {limit maximum : Nat} (hr : Reads cbor limit r) (hlimit : min maximum maxFrameSize ≤ limit)
    {es : List (WireEnvelope β)} {frames : List Bytes} (hframes : Written cbor maximum es frames)
    (hversion : ∀ e ∈ es, e.protocolVersion = protocolVersion) : ReadsBack r es frames := by
  have hheader : 0 < r.headerSize := by
    rw [hr.headerSize]
    decide
  have hall : List.Forall₂ r.IsFrame es frames :=
    (hframes.versioned hversion).imp fun e frame hframe =>
      isFrame_of_encode (h e) hr hlimit hframe.2 hframe.1
  exact ⟨fun _ hquiet hitems => Reader.readAll_frames hheader hall hquiet hitems,
    fun _ hquiet hpre hne => Reader.readAll_prefix hheader hall hquiet hpre hne⟩

/-- **Frames are read back.** For envelopes of the protocol's version that fit the limit,
client, daemon and `read_frame` read back what has been written, in every split into
reads, and nothing but the complete frames of a stream that is cut off. `decode_frame`
accepts each frame, and accepts nothing that is not a single frame. -/
theorem frames_read_back (h : cbor.RoundTrip) (maximum : Nat) :
    (∀ es frames, Written cbor maximum es frames →
      (∀ e ∈ es, e.protocolVersion = protocolVersion) →
      ReadsBack (clientReader cbor maximum) es frames ∧
        ReadsBack (daemonReader cbor maximum) es frames ∧ ReadsBack (frameReader cbor) es frames ∧
        List.Forall₂ (fun e frame => decodeFrameWithLimit cbor frame maximum = .ok e) es frames) ∧
    ∀ bytes e, decodeFrameWithLimit cbor bytes maximum = .ok e ↔
      ∃ payload, bytes = toBeBytes payload.length ++ payload ∧ 0 < payload.length ∧
        payload.length ≤ min maximum maxFrameSize ∧
        cbor.decode payload = .ok (e, payload.length) ∧ e.protocolVersion = protocolVersion := by
  refine ⟨?_, fun bytes e => decodeFrame_ok⟩
  intro es frames hframes hversion
  refine ⟨?_, ?_, ?_, ?_⟩
  · exact readsBack_of_written h ⟨rfl, rfl, rfl⟩ (Nat.min_le_left ..) hframes hversion
  · exact readsBack_of_written h ⟨rfl, rfl, rfl⟩ (Nat.min_le_left ..) hframes hversion
  · exact readsBack_of_written h ⟨rfl, rfl, rfl⟩ (Nat.min_le_right ..) hframes hversion
  · refine (hframes.versioned hversion).imp fun e frame hframe => ?_
    obtain ⟨payload, hencode, hbytes, hpos, hmax⟩ := encodeFrame_ok hframe.2
    exact decodeFrame_ok.mpr ⟨payload, hbytes, hpos, hmax, h e payload hencode, hframe.1⟩

/-! ## Another protocol version -/

/-- The CBOR of a `Ping` envelope with small numbers: a map from `protocol_version`,
`request_id` and `body`. -/
def pingCbor (version requestId : Nat) : Bytes :=
  [163, 112, 112, 114, 111, 116, 111, 99, 111, 108, 95, 118, 101, 114, 115, 105, 111, 110,
    version.toUInt8, 106, 114, 101, 113, 117, 101, 115, 116, 95, 105, 100, requestId.toUInt8,
    100, 98, 111, 100, 121, 100, 80, 105, 110, 103]

/-- The library on `Ping` envelopes whose numbers take one byte. -/
def pingOnly : Cbor Unit where
  encode e :=
    if e.protocolVersion < 24 ∧ e.requestId < 24 then .ok (pingCbor e.protocolVersion e.requestId)
    else .error "not a small ping"
  decode bytes :=
    let version := (bytes.getD 18 0).toNat
    let requestId := (bytes.getD 30 0).toNat
    if version < 24 ∧ requestId < 24 ∧ bytes.take 41 = pingCbor version requestId then
      .ok (⟨version, requestId, ()⟩, 41)
    else .error "not a small ping"

theorem pingOnly_roundTrip : pingOnly.RoundTrip := by
  rintro ⟨version, requestId, body⟩ payload h
  change (if version < 24 ∧ requestId < 24 then _ else _) = _ at h
  split at h
  · rename_i hsmall
    cases h
    have hversion : ((pingCbor version requestId).getD 18 0).toNat = version := by
      show version.toUInt8.toNat = version
      simp
      omega
    have hrequest : ((pingCbor version requestId).getD 30 0).toNat = requestId := by
      show requestId.toUInt8.toNat = requestId
      simp
      omega
    have hwhole : (pingCbor version requestId).take 41 = pingCbor version requestId := rfl
    simp only [pingOnly, hversion, hrequest, hwhole, hsmall, and_self, if_true]
    rfl
  · cases h

/-- Two pings of the current version, their frames in three pieces. -/
theorem two_pings_read_back :
    ∃ frame₁ frame₂ first more middle last,
      Written pingOnly 100 [⟨1, 7, ()⟩, ⟨1, 8, ()⟩] [frame₁, frame₂] ∧
      first :: more ++ middle :: last = frame₁ ++ frame₂ ∧
      (clientReader pingOnly 100).readAll [.data first more, .interrupted, .data middle last] =
        ([⟨1, 7, ()⟩, ⟨1, 8, ()⟩], some (.frame (.truncatedHeader 0))) := by
  have hwritten : Written pingOnly 100 [⟨1, 7, ()⟩, ⟨1, 8, ()⟩]
      [toBeBytes 41 ++ pingCbor 1 7, toBeBytes 41 ++ pingCbor 1 8] := .cons rfl (.cons rfl .nil)
  have hback := (frames_read_back pingOnly_roundTrip 100).1 _ _ hwritten (by simp [protocolVersion])
  have hread := hback.1.all
    [.data 0 [0], .interrupted, .data 0 ((41 :: pingCbor 1 7) ++ toBeBytes 41 ++ pingCbor 1 8)]
    (by
      intro a ha
      simp only [List.mem_cons, List.not_mem_nil, or_false] at ha
      rcases ha with rfl | rfl | rfl
      · exact Or.inl ⟨_, _, rfl⟩
      · exact Or.inr ⟨rfl, rfl⟩
      · exact Or.inl ⟨_, _, rfl⟩)
    rfl
  exact ⟨_, _, _, _, _, _, hwritten, rfl, hread⟩

/-- A ping of version 2 is written, and no reader gives it back. -/
theorem other_version_not_read_back :
    ∃ e frame first more, pingOnly.RoundTrip ∧ Written pingOnly maxFrameSize [e] [frame] ∧
      first :: more = frame ∧
      (clientReader pingOnly maxFrameSize).readAll [.data first more] =
        ([], some (.frame (.unknownProtocol 2 1))) ∧
      (daemonReader pingOnly maxFrameSize).readAll [.data first more] =
        ([], some (.frame (.unknownProtocol 2 1))) ∧
      decodeFrame pingOnly frame = .error (.unknownProtocol 2 1) := by
  refine ⟨⟨2, 7, ()⟩, toBeBytes 41 ++ pingCbor 2 7, 0, [0, 0, 41] ++ pingCbor 2 7,
    pingOnly_roundTrip, .cons rfl .nil, rfl, ?_, ?_, ?_⟩
  · decide +kernel
  · decide +kernel
  · decide +kernel

end TuxStack.Ipc
